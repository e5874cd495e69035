import SweetHome.EdgeFlags
import Mathlib.Algebra.Order.Group.Abs

/-!
# The weights of the edges

The first pass of CUT2 and of CUT3 compares the lumas of twelve texels around a pixel and packs a weight for each
of its four edges. A soft weight is a quotient whose divisor is clamped between the contrast of the edge plus
`epsilon` and one, so it is defined for the contrasts that leave room for `epsilon` below one.
-/

namespace SweetHome
namespace EdgeWeights
open Glsl EdgeFlags

/-! ### What both passes share -/

/-- What a pass reads at its coordinates `c01` to `c14`. -/
structure Neighborhood (α : Type) where
  c01 : α
  c02 : α
  c04 : α
  c05 : α
  c06 : α
  c07 : α
  c08 : α
  c09 : α
  c10 : α
  c11 : α
  c13 : α
  c14 : α

def Neighborhood.map {α β : Type} (f : α → β) (t : Neighborhood α) : Neighborhood β :=
  ⟨f t.c01, f t.c02, f t.c04, f t.c05, f t.c06, f t.c07, f t.c08, f t.c09, f t.c10, f t.c11, f t.c13, f t.c14⟩

def edgeMinValue : ℚ := 0.05

def softEdgesSharpeningAmount : ℚ := 0.75

def hardEdgesThreshold : ℚ := 0.2

def hardEdgesSearchMinContrast : ℚ := 0.5

def luma (v : Vec3 ℚ) : ℚ := v.dot ⟨0.299, 0.587, 0.114⟩

def maxOf (values : Vec4 ℚ) : ℚ := max (max values.x values.y) (max values.z values.w)

/-- `values.xyzx - values.ywwz` -/
def differences (values : Vec4 ℚ) : Vec4 ℚ :=
  ⟨values.x, values.y, values.z, values.x⟩ - ⟨values.y, values.w, values.w, values.z⟩

/-- The quad of CUT2 has the scores only. -/
structure Quad where
  scores : Vec4 ℚ
  maxEdgeContrast : ℚ

def quad (values : Vec4 ℚ) : Quad :=
  let edges := differences values
  { scores := ⟨|edges.x + edges.z|, |edges.w + edges.y|, max |edges.x - edges.y| |edges.w - edges.z|,
      max |edges.x + edges.w| |edges.y + edges.z|⟩
    maxEdgeContrast := maxOf (edges.map abs) }

/-- The array of `main`, by index. -/
structure Quads where
  q0 : Quad
  q1 : Quad
  q2 : Quad
  q3 : Quad
  q4 : Quad

def quads (l : Neighborhood ℚ) : Quads where
  q0 := quad ⟨l.c05, l.c06, l.c09, l.c10⟩
  q1 := quad ⟨l.c01, l.c02, l.c05, l.c06⟩
  q2 := quad ⟨l.c06, l.c07, l.c10, l.c11⟩
  q3 := quad ⟨l.c09, l.c10, l.c13, l.c14⟩
  q4 := quad ⟨l.c04, l.c05, l.c08, l.c09⟩

def computePattern (scores neighborsScores : Vec4 ℚ) : Int :=
  let maxOrthogonal := max scores.x scores.y
  let maxDiagonal := max scores.z scores.w
  let isDiagonal : Bool := maxDiagonal > maxOrthogonal
  let scores := scores + neighborsScores.map (0.25 * ·)
  let result : Int :=
    if !isDiagonal then
      if scores.x > scores.y + edgeMinValue then 1
      else if scores.y > scores.x + edgeMinValue then 2
      else 0
    else
      if scores.z > scores.w + edgeMinValue then 3
      else if scores.w > scores.z + edgeMinValue then 4
      else 0
  let maxScores : Vec2 ℚ :=
    if isDiagonal then ⟨maxOrthogonal, maxDiagonal⟩ else ⟨maxDiagonal, maxOrthogonal⟩
  if maxScores.y ≤ max ((1 + hardEdgesThreshold) * maxScores.x) edgeMinValue then -result else result

/-- `findPattern` of one quad. -/
def findPattern (quad : Quad) : Int := computePattern quad.scores ⟨0, 0, 0, 0⟩

/-- `findPattern` of the array. -/
def findPatternAmong (quads : Quads) : Int :=
  computePattern quads.q0.scores (quads.q1.scores + quads.q2.scores + quads.q3.scores + quads.q4.scores)

def softEdgeWeight (a b c d : ℚ) : Option ℚ := do
  let diff := |b - c|
  let divisor ← clamp? |a - c| (diff + epsilon) 1
  let added ← div? diff divisor
  let divisor ← clamp? |b - d| (diff + epsilon) 1
  let subtracted ← div? diff divisor
  clamp? (2 * (added - subtracted)) (-1) 1

def softEdges (l : Neighborhood ℚ) : Option (Vec4 ℚ) := do
  let x ← softEdgeWeight l.c04 l.c05 l.c06 l.c07
  let y ← softEdgeWeight l.c02 l.c06 l.c10 l.c14
  let z ← softEdgeWeight l.c08 l.c09 l.c10 l.c11
  let w ← softEdgeWeight l.c01 l.c05 l.c09 l.c13
  return ⟨x, y, z, w⟩

/-! ### `cut2UpscalePass0Fragment` -/

namespace Cut2

def hardEdgeWeight (cp np vertical positiveDiagonal negativeDiagonal : Int) : ℚ :=
  if (cp = vertical ∧ np = positiveDiagonal) ∨ (np = vertical ∧ cp = negativeDiagonal) then 0.5
  else if (cp = vertical ∧ np = negativeDiagonal) ∨ (np = vertical ∧ cp = positiveDiagonal) then -0.5
  else 0

def hardEdges (quads : Quads) : Vec4 ℚ :=
  let pattern := findPattern quads.q0
  ⟨hardEdgeWeight pattern (findPattern quads.q1) 1 4 3, hardEdgeWeight pattern (findPattern quads.q2) 2 3 4,
    hardEdgeWeight pattern (findPattern quads.q3) 1 3 4, hardEdgeWeight pattern (findPattern quads.q4) 2 4 3⟩

def pattern (quads : Quads) : Int :=
  let pattern := findPatternAmong quads
  if pattern > 0 then pattern else -pattern

/-- What `main` gives to `quickPackFloats2`. -/
def weights (l : Neighborhood ℚ) : Option (Vec4 ℚ) := do
  let edges := hardEdges (quads l)
  let soft ← softEdges l
  let softEdges := soft.map (softEdgesSharpeningAmount * ·)
  let edges ← (edges + softEdges).clamp? (min edges softEdges) (max edges softEdges)
  return centred (turned (pattern (quads l)) edges)

def main (t : Neighborhood (Vec3 ℚ)) : Option (Vec4 ℚ) := do
  let l := t.map luma
  let weights ← weights l
  return packedFlags (pattern (quads l) ≥ 3) (pattern (quads l) = 3) weights

end Cut2

/-! ### `cut3UpscalePass0Fragment` -/

namespace Cut3

def mainEdges (l : Neighborhood ℚ) : Vec4 ℚ := (differences ⟨l.c05, l.c06, l.c09, l.c10⟩).map abs

def neighborConnections (l : Neighborhood ℚ) : Vec4 Bool :=
  let quads := quads l
  let contrast := quads.q0.maxEdgeContrast
  let neighborContrasts : Vec4 ℚ := max ⟨contrast, contrast, contrast, contrast⟩
    ⟨quads.q1.maxEdgeContrast, quads.q2.maxEdgeContrast, quads.q3.maxEdgeContrast, quads.q4.maxEdgeContrast⟩
  (mainEdges l).zipWith (fun edge contrast => decide (edge ≥ hardEdgesSearchMinContrast * contrast))
    neighborContrasts

def neighborPatterns (l : Neighborhood ℚ) : Vec4 Int :=
  let quads := quads l
  let patterns : Vec4 Int :=
    ⟨findPattern quads.q1, findPattern quads.q2, findPattern quads.q3, findPattern quads.q4⟩
  patterns.zipWith (fun pattern connected => if connected then pattern else 0) (neighborConnections l)

def reject (l : Neighborhood ℚ) : Bool :=
  let pattern := findPatternAmong (quads l)
  let patterns := neighborPatterns l
  let vertical := patterns.x == 1 || patterns.z == 1
  let horizontal := patterns.y == 2 || patterns.w == 2
  let corner := vertical && horizontal
  let opposite := (patterns.map (· == if pattern = 3 then 4 else 3)).any
  let isTriangle : Bool := pattern ≥ 3
  (isTriangle && (opposite || corner)) || !(neighborConnections l).any

def pattern (l : Neighborhood ℚ) : Int :=
  let pattern := findPatternAmong (quads l)
  if pattern > 0 ∧ reject l = true then -pattern else pattern

def weights (l : Neighborhood ℚ) : Option (Vec4 ℚ) := do
  let softEdges ← softEdges l
  return centred softEdges

def main (t : Neighborhood (Vec3 ℚ)) : Option (Vec4 ℚ) := do
  let l := t.map luma
  let weights ← weights l
  return ⟨(pattern l + 4 : Int) / 8, quickPackFloats2 weights.xy, quickPackFloats2 weights.zw, 0⟩

end Cut3

/-! ### Where the weights are defined -/

/-- The edges of the pixel leave room for `epsilon` below one. -/
def Moderate (l : Neighborhood ℚ) : Prop := (Cut3.mainEdges l).All fun contrast => contrast + epsilon ≤ 1

/-- Every clamp and every quotient of a pass is defined, and its weights are in the range of their digits, which
do not carry. -/
structure WellDefined (result weights : Option (Vec4 ℚ)) : Prop where
  defined : result ≠ none
  range : ∀ w, weights = some w → w.All fun e => 0 ≤ e ∧ e ≤ 1
  digits : ∀ w, weights = some w → w.All fun e => 0 ≤ digit e ∧ digit e ≤ 12
  carryless : ∀ w, weights = some w → ∀ pair ∈ [w.xy, w.zw],
    quickUnpackFloats2 (quickPackFloats2 pair) = pair.map fun e => (digit e : ℚ) / 12

variable {a b c d : ℚ} {l : Neighborhood ℚ}

theorem softEdgeWeight_of_le (h : |b - c| + epsilon ≤ 1) :
    ∃ v, softEdgeWeight a b c d = some v ∧ -1 ≤ v ∧ v ≤ 1 := by
  -- the divisor is at least `epsilon`, whatever the luma it is clamped from
  have hpos : ∀ x : ℚ, clamp x (|b - c| + epsilon) 1 ≠ 0 := by
    intro x
    have hle : |b - c| + epsilon ≤ clamp x (|b - c| + epsilon) 1 := le_clamp h
    have hnonneg := abs_nonneg (b - c)
    have hepsilon : (0 : ℚ) < epsilon := by norm_num [epsilon]
    linarith
  refine ⟨clamp (2 * (|b - c| / clamp |a - c| (|b - c| + epsilon) 1 - |b - c| / clamp |b - d| (|b - c| + epsilon) 1))
    (-1) 1, ?_, le_clamp (by norm_num), clamp_le⟩
  simp only [softEdgeWeight, clamp?_of_le h, Option.bind_eq_bind, Option.bind_some, div?_of_ne (hpos _)]
  exact clamp?_of_le (by norm_num)

theorem softEdgeWeight_of_lt (h : 1 < |b - c| + epsilon) : softEdgeWeight a b c d = none := by
  simp only [softEdgeWeight, clamp?_of_lt h, Option.bind_eq_bind, Option.bind_none]

theorem softEdges_of_moderate (h : Moderate l) :
    ∃ s, softEdges l = some s ∧ s.All fun e => -1 ≤ e ∧ e ≤ 1 := by
  obtain ⟨hx, hy, hz, hw⟩ := h
  obtain ⟨x, hx, hx'⟩ := softEdgeWeight_of_le (a := l.c04) (d := l.c07) hx
  obtain ⟨y, hy, hy'⟩ := softEdgeWeight_of_le (a := l.c02) (d := l.c14) hy
  obtain ⟨z, hz, hz'⟩ := softEdgeWeight_of_le (a := l.c08) (d := l.c11) hz
  obtain ⟨w, hw, hw'⟩ := softEdgeWeight_of_le (a := l.c01) (d := l.c13) hw
  refine ⟨⟨x, y, z, w⟩, ?_, hx', hy', hz', hw'⟩
  simp only [softEdges, hx, hy, hz, hw]
  rfl

theorem moderate_of_softEdges (h : softEdges l ≠ none) : Moderate l := by
  obtain ⟨s, hs⟩ := Option.ne_none_iff_exists'.1 h
  simp only [softEdges, Option.bind_eq_bind, Option.bind_eq_some_iff] at hs
  obtain ⟨x, hx, y, hy, z, hz, w, hw, -⟩ := hs
  have hle : ∀ {a b c d v : ℚ}, softEdgeWeight a b c d = some v → |b - c| + epsilon ≤ 1 := by
    intro a b c d v hv
    by_contra hlt
    rw [softEdgeWeight_of_lt (not_le.1 hlt)] at hv
    cases hv
  exact ⟨hle hx, hle hy, hle hz, hle hw⟩

/-! ### The range of the weights -/

theorem centred_mem {v : Vec4 ℚ} (h : v.All fun e => -1 ≤ e ∧ e ≤ 1) : (centred v).All fun e => 0 ≤ e ∧ e ≤ 1 := by
  refine h.map ?_
  rintro e ⟨hlower, hupper⟩
  constructor <;> linarith

theorem turned_mem {pattern : Int} {v : Vec4 ℚ} (h : v.All fun e => -1 ≤ e ∧ e ≤ 1) :
    (turned pattern v).All fun e => -1 ≤ e ∧ e ≤ 1 := by
  obtain ⟨hx, hy, hz, hw⟩ := h
  have hneg : ∀ e : ℚ, -1 ≤ e ∧ e ≤ 1 → -1 ≤ -e ∧ -e ≤ 1 := by
    rintro e ⟨hlower, hupper⟩
    constructor <;> linarith
  unfold turned
  split
  · exact ⟨hneg _ hx, hw, hneg _ hz, hy⟩
  · exact ⟨hx, hy, hz, hw⟩

theorem WellDefined.of_range {result weights : Option (Vec4 ℚ)} (hresult : result ≠ none)
    (hrange : ∀ w, weights = some w → w.All fun e => 0 ≤ e ∧ e ≤ 1) : WellDefined result weights := by
  have hdigits : ∀ w, weights = some w → w.All fun e => 0 ≤ digit e ∧ digit e ≤ 12 := by
    intro w hw
    obtain ⟨hx, hy, hz, hw⟩ := hrange w hw
    exact ⟨digit_bounds hx, digit_bounds hy, digit_bounds hz, digit_bounds hw⟩
  refine ⟨hresult, hrange, hdigits, ?_⟩
  intro w hw pair hpair
  obtain ⟨-, hy, -, hw⟩ := hdigits w hw
  simp only [List.mem_cons, List.not_mem_nil, or_false] at hpair
  rcases hpair with rfl | rfl
  · exact unpack_pack hy
  · exact unpack_pack hw

theorem Cut2.hardEdgeWeight_mem (cp np vertical positiveDiagonal negativeDiagonal : Int) :
    -1 ≤ hardEdgeWeight cp np vertical positiveDiagonal negativeDiagonal ∧
      hardEdgeWeight cp np vertical positiveDiagonal negativeDiagonal ≤ 1 := by
  unfold hardEdgeWeight
  split_ifs <;> norm_num

theorem Cut2.weights_of_moderate (h : Moderate l) :
    ∃ w, weights l = some w ∧ w.All fun e => 0 ≤ e ∧ e ≤ 1 := by
  obtain ⟨s, hs, hmem⟩ := softEdges_of_moderate h
  have hhard : (hardEdges (quads l)).All fun e => -1 ≤ e ∧ e ≤ 1 :=
    ⟨hardEdgeWeight_mem _ _ _ _ _, hardEdgeWeight_mem _ _ _ _ _, hardEdgeWeight_mem _ _ _ _ _,
      hardEdgeWeight_mem _ _ _ _ _⟩
  have hsoft : (s.map (softEdgesSharpeningAmount * ·)).All fun e => -1 ≤ e ∧ e ≤ 1 := by
    refine hmem.map ?_
    rintro e ⟨hlower, hupper⟩
    constructor <;> norm_num [softEdgesSharpeningAmount] <;> linarith
  obtain ⟨edges, hedges, hedges'⟩ := Vec4.clamp?_min_max hhard hsoft
    (hardEdges (quads l) + s.map (softEdgesSharpeningAmount * ·))
  refine ⟨centred (turned (pattern (quads l)) edges), ?_, centred_mem (turned_mem hedges')⟩
  simp only [weights, hs, Option.bind_eq_bind, Option.bind_some, hedges]
  rfl

theorem Cut3.weights_of_moderate (h : Moderate l) :
    ∃ w, weights l = some w ∧ w.All fun e => 0 ≤ e ∧ e ≤ 1 := by
  obtain ⟨s, hs, hmem⟩ := softEdges_of_moderate h
  refine ⟨centred s, ?_, centred_mem hmem⟩
  simp only [weights, hs]
  rfl

/-- What both passes have in common: they are undefined with the soft weights, and defined with weights in range
where the edges are moderate. -/
theorem wellDefined_iff_of {result weights : Option (Vec4 ℚ)} (hnone : softEdges l = none → result = none)
    (hsome : ∀ w, weights = some w → result ≠ none)
    (h : Moderate l → ∃ w, weights = some w ∧ w.All fun e => 0 ≤ e ∧ e ≤ 1) :
    WellDefined result weights ↔ Moderate l := by
  constructor
  · rintro ⟨hdefined, -, -, -⟩
    exact moderate_of_softEdges fun hsoft => hdefined (hnone hsoft)
  · intro hmoderate
    obtain ⟨w, hw, hmem⟩ := h hmoderate
    refine .of_range (hsome w hw) ?_
    rintro v hv
    rw [hw] at hv
    cases hv
    exact hmem

/-- Both passes are well defined exactly where no edge of the pixel has a contrast above `1 - epsilon`. -/
theorem wellDefined_iff (t : Neighborhood (Vec3 ℚ)) :
    (WellDefined (Cut2.main t) (Cut2.weights (t.map luma)) ↔ Moderate (t.map luma)) ∧
      (WellDefined (Cut3.main t) (Cut3.weights (t.map luma)) ↔ Moderate (t.map luma)) := by
  constructor
  · refine wellDefined_iff_of (fun hnone => ?_) (fun w hw => ?_) Cut2.weights_of_moderate
    · simp only [Cut2.main, Cut2.weights, hnone, Option.bind_eq_bind, Option.bind_none]
    · simp only [Cut2.main, hw, Option.bind_eq_bind, Option.bind_some]
      exact Option.some_ne_none _
  · refine wellDefined_iff_of (fun hnone => ?_) (fun w hw => ?_) Cut3.weights_of_moderate
    · simp only [Cut3.main, Cut3.weights, hnone, Option.bind_eq_bind, Option.bind_none]
    · simp only [Cut3.main, hw, Option.bind_eq_bind, Option.bind_some]
      exact Option.some_ne_none _

/-- A black column of texels beside a white one. -/
def blackBesideWhite : Neighborhood (Vec3 ℚ) :=
  let black : Vec3 ℚ := ⟨0, 0, 0⟩
  let white : Vec3 ℚ := ⟨1, 1, 1⟩
  { c01 := black, c02 := white, c04 := black, c05 := black, c06 := white, c07 := white
    c08 := black, c09 := black, c10 := white, c11 := white, c13 := black, c14 := white }

theorem not_wellDefined_blackBesideWhite :
    ¬ WellDefined (Cut2.main blackBesideWhite) (Cut2.weights (blackBesideWhite.map luma)) ∧
      ¬ WellDefined (Cut3.main blackBesideWhite) (Cut3.weights (blackBesideWhite.map luma)) := by
  constructor
  · intro h
    exact h.defined (by decide +kernel)
  · intro h
    exact h.defined (by decide +kernel)

end EdgeWeights
end SweetHome
