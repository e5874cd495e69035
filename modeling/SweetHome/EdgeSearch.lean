import SweetHome.EdgeFlags
import Mathlib.Logic.Function.Basic

/-!
# The search along the edges

The second pass of CUT3 walks along the edges that the first has found and weighs them by how far they go. The
weights come out of a local array that the branches fill in part: all of it for a diagonal, half of it for a straight
edge, nothing for any other pattern, but all four elements are blended in each case.
-/

namespace SweetHome
namespace EdgeSearch
open Glsl EdgeFlags

/-- The defines that the pass reads. -/
structure Params where
  hardEdgesSearchMaxDistance : ℕ := 4
  softEdgesSharpening : Bool := true
  softEdgesSharpeningAmount : ℚ := 0.75
  maxDistance_pos : 0 < hardEdgesSearchMaxDistance

namespace Params
variable (p : Params)

def step : ℚ := 0.5 / p.hardEdgesSearchMaxDistance

def hstep : ℚ := p.step * 0.5

def maxDoubleDistance : ℚ := p.hardEdgesSearchMaxDistance * p.step

def maxDistance : ℚ := p.step * (p.hardEdgesSearchMaxDistance / 2 : ℕ) + p.hstep

end Params

abbrev Sampler := Vec2 ℚ → Vec4 ℚ

def fetchPattern (value : ℚ) : Int := toInt (value * 8 + 0.5) - 4

/-- The loop of `walk` from its index `i`, with `remaining` rounds to go. -/
def walkFrom (p : Params) (previousPass : Sampler) (baseCoords direction results : Vec2 ℚ) (continuePattern : Int) :
    ℕ → ℕ → Vec2 ℚ → Vec2 ℚ
  | 0, _, result => result
  | remaining + 1, i, result =>
    let coords : Vec2 ℚ := ⟨baseCoords.x + direction.x * i, baseCoords.y + direction.y * i⟩
    let currentPattern := fetchPattern (previousPass coords).x
    let y := if currentPattern = 3 then results.x else if currentPattern = 4 then results.y else result.y
    let x :=
      if currentPattern = 3 ∨ currentPattern = 4 then result.x + p.hstep
      else if currentPattern = continuePattern then result.x + p.step
      else result.x
    if currentPattern ≠ continuePattern then ⟨x, y⟩
    else walkFrom p previousPass baseCoords direction results continuePattern remaining (i + 1) ⟨x, y⟩

def walk (p : Params) (previousPass : Sampler) (baseCoords direction results : Vec2 ℚ) (continuePattern : Int) :
    Vec2 ℚ :=
  walkFrom p previousPass baseCoords direction results continuePattern p.hardEdgesSearchMaxDistance 1 ⟨0, 0⟩

/-- The ratio is only read where the distance that it is divided by is above `epsilon`. -/
def blendWeights (p : Params) (d1 d2 : Vec2 ℚ) : ℚ :=
  let totalDistance := d1.x + d2.x
  let d1Ratio := d1.x / totalDistance
  if totalDistance ≤ epsilon then 0
  else if totalDistance ≤ p.maxDoubleDistance then
    if d1.x < d2.x then mix d1.y 0 (2 * d1Ratio) else mix 0 d2.y ((d1Ratio - 0.5) * 2)
  else if d1.x ≤ p.maxDistance then mix d1.y 0 (d1.x / p.maxDistance)
  else if d2.x ≤ p.maxDistance then mix d2.y 0 (d2.x / p.maxDistance)
  else 0

/-- What `walk` finds in the four directions. -/
structure Results where
  n : Vec2 ℚ := ⟨0, 0⟩
  s : Vec2 ℚ := ⟨0, 0⟩
  w : Vec2 ℚ := ⟨0, 0⟩
  e : Vec2 ℚ := ⟨0, 0⟩

def search (p : Params) (previousPass : Sampler) (passCoords dc : Vec2 ℚ) (pattern : Int) : Results :=
  let vertical : Bool := pattern = 1 ∨ pattern = 3 ∨ pattern = 4
  let horizontal : Bool := pattern = 2 ∨ pattern = 3 ∨ pattern = 4
  { n := if vertical then walk p previousPass passCoords ⟨0, -dc.y⟩ ⟨-1, 1⟩ 1 else ⟨0, 0⟩
    s := if vertical then walk p previousPass passCoords ⟨0, dc.y⟩ ⟨1, -1⟩ 1 else ⟨0, 0⟩
    w := if horizontal then walk p previousPass passCoords ⟨-dc.x, 0⟩ ⟨-1, 1⟩ 2 else ⟨0, 0⟩
    e := if horizontal then walk p previousPass passCoords ⟨dc.x, 0⟩ ⟨1, -1⟩ 2 else ⟨0, 0⟩ }

/-- `vec4(d1, d2)` -/
def joined (d1 d2 : Vec2 ℚ) : Vec4 ℚ := ⟨d1.x, d1.y, d2.x, d2.y⟩

/-- The array after the assignments of `main`, from the contents it is declared with. -/
def edgesWeights (p : Params) (pattern : Int) (result : Results) (initial : ℕ → Vec4 ℚ) : ℕ → Vec4 ℚ :=
  let further (d : Vec2 ℚ) : Vec2 ℚ := ⟨d.x + p.step, d.y⟩
  if pattern = 1 then
    Function.update (Function.update initial 0 (joined result.n (further result.s)))
      2 (joined (further result.n) result.s)
  else if pattern = 2 then
    Function.update (Function.update initial 3 (joined result.w (further result.e)))
      1 (joined (further result.w) result.e)
  else if pattern = 3 then
    Function.update (Function.update (Function.update (Function.update initial 0 (joined result.n ⟨p.hstep, 1⟩))
      2 (joined ⟨p.hstep, -1⟩ result.s)) 3 (joined result.w ⟨p.hstep, 1⟩)) 1 (joined ⟨p.hstep, -1⟩ result.e)
  else if pattern = 4 then
    Function.update (Function.update (Function.update (Function.update initial 0 (joined result.n ⟨p.hstep, -1⟩))
      2 (joined ⟨p.hstep, 1⟩ result.s)) 3 (joined result.w ⟨p.hstep, -1⟩)) 1 (joined ⟨p.hstep, 1⟩ result.e)
  else initial

def edges (p : Params) (edgesWeights : ℕ → Vec4 ℚ) : Vec4 ℚ :=
  let blended (i : ℕ) := blendWeights p (edgesWeights i).xy (edgesWeights i).zw
  ⟨blended 0, blended 1, blended 2, blended 3⟩

/-- One component of the clamp between the smaller and the larger of both edges. -/
def sharpened (p : Params) (edge softEdge : ℚ) : ℚ :=
  if p.softEdgesSharpening then clamp (edge + softEdge) (min edge softEdge) (max edge softEdge) else edge

def softEdges (p : Params) (previousPassPixel : Vec3 ℚ) : Vec4 ℚ :=
  (unpackedWeights previousPassPixel).map fun e => 2 * p.softEdgesSharpeningAmount * (e - 0.5)

def originalPattern (pattern : Int) : Int := if pattern ≥ 0 then pattern else -pattern

/-- The end of `main`, from the blended edges on. -/
def fragColor (p : Params) (previousPassPixel : Vec3 ℚ) (edges : Vec4 ℚ) : Vec4 ℚ :=
  let originalPattern := originalPattern (fetchPattern previousPassPixel.x)
  let edges := edges.zipWith (sharpened p) (softEdges p previousPassPixel)
  packedFlags (originalPattern ≥ 3) (originalPattern = 3) (centred (turned originalPattern edges))

def main (p : Params) (previousPass : Sampler) (passCoords dc : Vec2 ℚ) (initial : ℕ → Vec4 ℚ) : Vec4 ℚ :=
  let previousPassPixel := (previousPass passCoords).xyz
  let pattern := fetchPattern previousPassPixel.x
  let result := search p previousPass passCoords dc pattern
  fragColor p previousPassPixel (edges p (edgesWeights p pattern result initial))

/-! ### Where the array is read as declared -/

/-- The colour is the same for all contents that the array is declared with. -/
def Determined (p : Params) (previousPass : Sampler) (passCoords dc : Vec2 ℚ) : Prop :=
  ∀ initial initial' : ℕ → Vec4 ℚ,
    main p previousPass passCoords dc initial = main p previousPass passCoords dc initial'

variable (p : Params)

theorem fetchPattern_diagonal_iff (value : ℚ) :
    fetchPattern value = 3 ∨ fetchPattern value = 4 ↔ 13 / 16 ≤ value ∧ value < 17 / 16 := by
  have hlower := le_toInt_iff (x := value * 8 + 0.5) (n := 7) (by norm_num)
  have hupper := le_toInt_iff (x := value * 8 + 0.5) (n := 9) (by norm_num)
  push_cast at hlower hupper
  have hseven : 7 ≤ toInt (value * 8 + 0.5) ↔ 13 / 16 ≤ value := by
    rw [hlower]
    constructor <;> intro h <;> norm_num at h ⊢ <;> linarith
  have hnine : 9 ≤ toInt (value * 8 + 0.5) ↔ 17 / 16 ≤ value := by
    rw [hupper]
    constructor <;> intro h <;> norm_num at h ⊢ <;> linarith
  rw [← hseven, ← not_le, ← hnine]
  unfold fetchPattern
  omega

theorem edgesWeights_diagonal {pattern : Int} (h : pattern = 3 ∨ pattern = 4) (result : Results)
    (initial initial' : ℕ → Vec4 ℚ) :
    edges p (edgesWeights p pattern result initial) = edges p (edgesWeights p pattern result initial') := by
  rcases h with rfl | rfl <;> simp [edges, edgesWeights, Function.update]

theorem edges_vertical (result : Results) (initial : ℕ → Vec4 ℚ) (v : Vec4 ℚ) :
    edges p (edgesWeights p 1 result (Function.update initial 1 v)) =
      { edges p (edgesWeights p 1 result initial) with y := blendWeights p v.xy v.zw } := by
  simp [edges, edgesWeights, Function.update]

/-- The element at 0 is only assigned for a vertical edge and for a diagonal. -/
theorem edges_other {pattern : Int} (hvertical : pattern ≠ 1) (hdiagonal : ¬ (pattern = 3 ∨ pattern = 4))
    (result : Results) (initial : ℕ → Vec4 ℚ) (v : Vec4 ℚ) :
    edges p (edgesWeights p pattern result (Function.update initial 0 v)) =
      { edges p (edgesWeights p pattern result initial) with x := blendWeights p v.xy v.zw } := by
  obtain ⟨hthree, hfour⟩ := not_or.1 hdiagonal
  by_cases hhorizontal : pattern = 2
  · subst hhorizontal
    simp [edges, edgesWeights, Function.update]
  · simp [edges, edgesWeights, hvertical, hhorizontal, hthree, hfour]

/-- Contents that are blended to `m`. -/
def near (m : ℚ) : Vec4 ℚ := ⟨0, m, 1, 0⟩

theorem blendWeights_near (m : ℚ) : blendWeights p (near m).xy (near m).zw = m := by
  have hpos : (0 : ℚ) < p.hardEdgesSearchMaxDistance := by exact_mod_cast p.maxDistance_pos
  have hstep : 0 < p.step := div_pos (by norm_num) hpos
  have hdouble : p.maxDoubleDistance = 0.5 := by
    unfold Params.maxDoubleDistance Params.step
    rw [mul_div_cancel₀ _ hpos.ne']
  have hdistance : 0 ≤ p.maxDistance := by
    unfold Params.maxDistance Params.hstep
    positivity
  have hfar : ¬ ((0 : ℚ) + 1 ≤ epsilon) := by norm_num [epsilon]
  have hfar' : ¬ ((0 : ℚ) + 1 ≤ p.maxDoubleDistance) := by rw [hdouble]; norm_num
  change blendWeights p ⟨0, m⟩ ⟨1, 0⟩ = m
  simp only [blendWeights]
  rw [if_neg hfar, if_neg hfar', if_pos hdistance, zero_div, mix]
  ring

/-! ### Weights that reach the colour -/

theorem one_le_sharpened {m s : ℚ} (hm : 1 + |s| ≤ m) : 1 ≤ sharpened p m s := by
  have habs := neg_abs_le s
  have hnonneg := abs_nonneg s
  unfold sharpened
  split
  · exact le_min (le_max_of_le_left (by linarith)) (le_max_of_le_left (by linarith))
  · linarith

theorem sharpened_le_neg_one {m s : ℚ} (hm : 1 + |s| ≤ m) : sharpened p (-m) s ≤ -1 := by
  have habs := le_abs_self s
  have hnonneg := abs_nonneg s
  unfold sharpened
  split
  · exact min_le_of_left_le (max_le (by linarith) (min_le_of_left_le (by linarith)))
  · linarith

theorem digit_of_one_le {e : ℚ} (he : 1 ≤ e) : 12 ≤ digit (e * 0.5 + 0.5) :=
  Int.le_floor.2 (by norm_num; linarith)

theorem digit_of_le_neg_one {e : ℚ} (he : e ≤ -1) : digit (e * 0.5 + 0.5) ≤ 0 :=
  Int.lt_add_one_iff.1 (Int.floor_lt.2 (by norm_num; linarith))

theorem digits_of_quickPackFloats2 {pair pair' : Vec2 ℚ} (h : quickPackFloats2 pair = quickPackFloats2 pair') :
    16 * digit pair.x + digit pair.y = 16 * digit pair'.x + digit pair'.y := by
  rw [quickPackFloats2_eq, quickPackFloats2_eq, div_left_inj' (by norm_num)] at h
  exact_mod_cast h

variable (pixel : Vec3 ℚ) (e : Vec4 ℚ)

theorem fragColor_y : (fragColor p pixel e).y =
    quickPackFloats2 (centred (turned (originalPattern (fetchPattern pixel.x))
      (e.zipWith (sharpened p) (softEdges p pixel)))).xy := rfl

/-- The first edge reaches the colour; where the edges are turned, it does so with the other sign. -/
theorem fragColor_ne_of_x {m : ℚ} (hm : 1 + |(softEdges p pixel).x| ≤ m) :
    fragColor p pixel { e with x := m } ≠ fragColor p pixel { e with x := -m } := by
  intro heq
  have hupper := one_le_sharpened p hm
  have hlower := sharpened_le_neg_one p hm
  have hpacked := congrArg Vec4.y heq
  rw [fragColor_y, fragColor_y] at hpacked
  have hdigits := digits_of_quickPackFloats2 hpacked
  by_cases hturned : originalPattern (fetchPattern pixel.x) = 3
  · have hfew := digit_of_le_neg_one (neg_le_neg hupper)
    have hmany := digit_of_one_le (le_neg_of_le_neg hlower)
    simp only [turned, if_pos hturned, centred, Vec4.zipWith, Vec4.map, Vec4.xy] at hdigits
    omega
  · have hmany := digit_of_one_le hupper
    have hfew := digit_of_le_neg_one hlower
    simp only [turned, if_neg hturned, centred, Vec4.zipWith, Vec4.map, Vec4.xy] at hdigits
    omega

/-- The second edge reaches it where the edges are not turned. -/
theorem fragColor_ne_of_y (hturned : originalPattern (fetchPattern pixel.x) ≠ 3) {m : ℚ}
    (hm : 1 + |(softEdges p pixel).y| ≤ m) :
    fragColor p pixel { e with y := m } ≠ fragColor p pixel { e with y := -m } := by
  intro heq
  have hmany := digit_of_one_le (one_le_sharpened p hm)
  have hfew := digit_of_le_neg_one (sharpened_le_neg_one p hm)
  have hpacked := congrArg Vec4.y heq
  rw [fragColor_y, fragColor_y] at hpacked
  have hdigits := digits_of_quickPackFloats2 hpacked
  simp only [turned, if_neg hturned, centred, Vec4.zipWith, Vec4.map, Vec4.xy] at hdigits
  omega

/-- The colour of a pixel is determined exactly if its texel decodes to a diagonal. -/
theorem determined_iff (previousPass : Sampler) (passCoords dc : Vec2 ℚ) :
    Determined p previousPass passCoords dc ↔
      13 / 16 ≤ (previousPass passCoords).x ∧ (previousPass passCoords).x < 17 / 16 := by
  rw [← fetchPattern_diagonal_iff]
  constructor
  · intro hdetermined
    by_contra hdiagonal
    set pixel := (previousPass passCoords).xyz with hpixel
    let declared (i : ℕ) (m : ℚ) : ℕ → Vec4 ℚ := Function.update (fun _ => near 0) i (near m)
    by_cases hvertical : fetchPattern pixel.x = 1
    · let m := 1 + |(softEdges p pixel).y|
      have hsame := hdetermined (declared 1 m) (declared 1 (-m))
      simp only [main, ← hpixel, hvertical, declared, edges_vertical, blendWeights_near] at hsame
      refine fragColor_ne_of_y p pixel _ ?_ le_rfl hsame
      rw [hvertical]
      decide
    · let m := 1 + |(softEdges p pixel).x|
      have hsame := hdetermined (declared 0 m) (declared 0 (-m))
      simp only [main, ← hpixel, declared, edges_other p hvertical hdiagonal, blendWeights_near] at hsame
      exact fragColor_ne_of_x p pixel _ le_rfl hsame
  · intro hdiagonal initial initial'
    exact congrArg (fragColor p _) (edgesWeights_diagonal p hdiagonal _ initial initial')

def cut3UpscaleParams : Params where
  maxDistance_pos := by decide

/-- What the first pass leaves of a flat area: no pattern, and soft weights of a half. -/
def flat : Sampler := fun _ => ⟨128 / 255, 102 / 255, 102 / 255, 0⟩

/-- No element of the array is assigned there. -/
theorem not_determined_flat : ¬ Determined cut3UpscaleParams flat ⟨1 / 2, 1 / 2⟩ ⟨1 / 256, 1 / 224⟩ := by
  intro hdetermined
  have hsame := hdetermined (fun _ => near 1) fun _ => near (-1)
  revert hsame
  decide +kernel

end EdgeSearch
end SweetHome
