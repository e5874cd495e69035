import SweetHome.EdgeFlags
import Mathlib.Algebra.Order.Group.Abs
import Mathlib.Tactic.FieldSimp

/-!
# The blend of the upscaling pass

The last pass of CUT2 and of CUT3 blends four texels, twice along the one axis and once along the other, or within
one of the two triangles that a diagonal cuts the pixel into. Whatever is defined is a convex combination, since the
last thing that is done to a weight is to clamp it; four quotients on the way there may have no value.
-/

namespace SweetHome
namespace UpscaleBlend
open Glsl EdgeFlags

structure Pixels where
  p0 : Vec3 ℚ
  p1 : Vec3 ℚ
  p2 : Vec3 ℚ
  p3 : Vec3 ℚ

def Pixels.All (P : Vec3 ℚ → Prop) (pixels : Pixels) : Prop :=
  P pixels.p0 ∧ P pixels.p1 ∧ P pixels.p2 ∧ P pixels.p3

structure Pattern where
  pixels : Pixels
  weights : Vec3 ℚ
  midPoints : Vec3 ℚ
  baseSharpness : Vec3 ℚ

def blendMinContrastEdge : ℚ := 0

def blendMaxContrastEdge : ℚ := 0.5

def blendMinSharpness : ℚ := 0

def blendMaxSharpness : ℚ := 0.75

/-- `v.g` -/
def luma (v : Vec3 ℚ) : ℚ := v.y

def sharpness (l1 l2 : ℚ) : Option ℚ := do
  let blendDiffInv ← div? 1 (blendMaxContrastEdge - blendMinContrastEdge)
  let lumaDiff := |l1 - l2|
  let contrast := clamp ((lumaDiff - blendMinContrastEdge) * blendDiffInv) 0 1
  return mix (blendMinSharpness * 0.5) (blendMaxSharpness * 0.5) contrast

def adjustMidpoint (x midPoint : ℚ) : Option ℚ := do
  let first ← div? x midPoint
  let second ← div? (x - midPoint) (1 - midPoint)
  return 0.5 * (clamp first 0 1 + clamp second 0 1)

/-- `blend` of both passes, with what is done to the sharpness before it is used. -/
def blend (limit : ℚ → ℚ) (a b : Vec3 ℚ) (t midPoint baseSharpness : ℚ) : Option (Vec3 ℚ) := do
  let sharpness ← sharpness (luma a) (luma b)
  let sharpness := limit (baseSharpness * sharpness)
  let nt ← adjustMidpoint t midPoint
  let nt ← div? (nt - sharpness) (1 - 2 * sharpness)
  return a.mix b (clamp nt 0 1)

/-- `pattern` within the triangle at the origin, or within the square. -/
def patternAtOrigin (pixels : Pixels) (edgeWeights : Vec4 ℚ) (triangle : Bool) (pxCoords : Vec2 ℚ) :
    Option Pattern :=
  if triangle then do
    let coordsSum := pxCoords.x + pxCoords.y
    let midPoint ← div? (edgeWeights.x * edgeWeights.w * coordsSum)
      (edgeWeights.w * pxCoords.x + edgeWeights.x * pxCoords.y)
    let midPoint' := 0.5 + 0.5 * clamp (-edgeWeights.x + edgeWeights.y - edgeWeights.z + edgeWeights.w) (-1) 1
    let y ← div? pxCoords.y coordsSum
    return {
      pixels := ⟨pixels.p0, pixels.p1, pixels.p0, pixels.p2⟩
      weights := ⟨coordsSum, coordsSum, y⟩
      midPoints := ⟨midPoint, midPoint, midPoint'⟩
      baseSharpness := ⟨1, 1, 0⟩ }
  else
    let midPoint := mix edgeWeights.x edgeWeights.z pxCoords.y
    let midPoint' := mix edgeWeights.w edgeWeights.y pxCoords.x
    some {
      pixels := pixels
      weights := ⟨pxCoords.x, pxCoords.x, pxCoords.y⟩
      midPoints := ⟨midPoint, midPoint, midPoint'⟩
      baseSharpness := ⟨1, 1, 1⟩ }

def pattern (pixels : Pixels) (edgeWeights : Vec4 ℚ) (triangle : Bool) (pxCoords : Vec2 ℚ) : Option Pattern :=
  let firstTriangle : Bool := triangle && pxCoords.x + pxCoords.y ≤ 1
  let secondTriangle : Bool := triangle && !firstTriangle
  if secondTriangle then
    patternAtOrigin ⟨pixels.p3, pixels.p1, pixels.p2, pixels.p0⟩
      ⟨1 - edgeWeights.y, 1 - edgeWeights.x, 1 - edgeWeights.w, 1 - edgeWeights.z⟩ triangle
      ⟨1 - pxCoords.y, 1 - pxCoords.x⟩
  else patternAtOrigin pixels edgeWeights triangle pxCoords

def blendPattern (limit : ℚ → ℚ) (pattern : Pattern) : Option (Vec3 ℚ) := do
  let first ← blend limit pattern.pixels.p0 pattern.pixels.p1 pattern.weights.x pattern.midPoints.x
    pattern.baseSharpness.x
  let second ← blend limit pattern.pixels.p2 pattern.pixels.p3 pattern.weights.y pattern.midPoints.y
    pattern.baseSharpness.y
  blend limit first second pattern.weights.z pattern.midPoints.z pattern.baseSharpness.z

def position (flip : Bool) (screenCoords : Vec2 ℚ) : Vec2 ℚ :=
  let pxCoords := screenCoords.map Int.fract
  if flip then ⟨1 - pxCoords.x, pxCoords.y⟩ else pxCoords

def Pixels.flipped (flip : Bool) (pixels : Pixels) : Pixels :=
  if flip then ⟨pixels.p1, pixels.p0, pixels.p3, pixels.p2⟩ else pixels

/-- `main` of both passes after the flags are parsed: the texels are those at `c05`, `c06`, `c09` and `c10`. -/
def upscale (limit : ℚ → ℚ) (texels : Pixels) (flags : Flags) (screenCoords : Vec2 ℚ) : Option (Vec3 ℚ) := do
  let pattern ← pattern (texels.flipped flags.flip) flags.edgeWeight flags.triangle
    (position flags.flip screenCoords)
  blendPattern limit pattern

/-- `cut2UpscalePass1Fragment` from its flags to its colour. -/
def cut2 (texels : Pixels) (flags : Flags) (screenCoords : Vec2 ℚ) : Option (Vec3 ℚ) :=
  upscale id texels flags screenCoords

/-- What the vertex shader of the last pass clamps. -/
structure CutMaxSharpness where
  value : ℚ
  nonneg : 0 ≤ value
  le_one : value ≤ 1

/-- `cut3UpscalePass2Fragment` from its flags to its colour. -/
def cut3 (cutMaxSharpness : CutMaxSharpness) (texels : Pixels) (flags : Flags) (screenCoords : Vec2 ℚ) :
    Option (Vec3 ℚ) :=
  upscale (fun sharpness => clamp sharpness 0 (0.5 * cutMaxSharpness.value)) texels flags screenCoords

/-- `vec4(final.rgb, 1.0)` -/
def fragColor (final : Vec3 ℚ) : Vec4 ℚ := ⟨final.x, final.y, final.z, 1⟩

def cut2Main (texels : Pixels) (flagsPixel : Vec3 ℚ) (screenCoords : Vec2 ℚ) : Option (Vec4 ℚ) :=
  (cut2 texels (parseFlags flagsPixel) screenCoords).map fragColor

def cut3Main (cutMaxSharpness : CutMaxSharpness) (texels : Pixels) (flagsPixel : Vec3 ℚ)
    (screenCoords : Vec2 ℚ) : Option (Vec4 ℚ) :=
  (cut3 cutMaxSharpness texels (parseFlags flagsPixel) screenCoords).map fragColor

/-! ### What is to hold -/

def Combines (texels : Pixels) (c : Vec3 ℚ) : Prop :=
  ∃ w : Vec4 ℚ, w.Convex ∧ c = w.combine3 texels.p0 texels.p1 texels.p2 texels.p3

/-- The colour is defined, and it combines the texels, so each of its components is between theirs. -/
structure TrueBlend (texels : Pixels) (color : Option (Vec3 ℚ)) : Prop where
  defined : color ≠ none
  convex : ∀ c, color = some c → Combines texels c
  between : ∀ c, color = some c → ∀ component ∈ [Vec3.x, Vec3.y, Vec3.z],
    min (min (component texels.p0) (component texels.p1)) (min (component texels.p2) (component texels.p3)) ≤
        component c ∧
      component c ≤
        max (max (component texels.p0) (component texels.p1)) (max (component texels.p2) (component texels.p3))

/-- How far the weights of a diagonal lean to one side. -/
def lean (e : Vec4 ℚ) : ℚ := -e.x + e.y - e.z + e.w

/-- A triangle is not cut at its own corner, nor by edges that lean all the way. -/
def Clear (flags : Flags) (screenCoords : Vec2 ℚ) : Prop :=
  flags.triangle = true →
    (flags.flip = true ∨ Int.fract screenCoords.x ≠ 0 ∨ Int.fract screenCoords.y ≠ 0) ∧ |lean flags.edgeWeight| < 1

/-! ### One blend -/

theorem sharpness_mem (l1 l2 : ℚ) : ∃ s, sharpness l1 l2 = some s ∧ 0 ≤ s ∧ s ≤ 3 / 8 := by
  have hne : blendMaxContrastEdge - blendMinContrastEdge ≠ 0 := by
    norm_num [blendMaxContrastEdge, blendMinContrastEdge]
  simp only [sharpness, div?_of_ne hne, Option.bind_eq_bind, Option.bind_some, Option.pure_def]
  refine ⟨_, rfl, ?_⟩
  exact mix_mem (by norm_num [blendMinSharpness]) (by norm_num [blendMaxSharpness]) (le_clamp zero_le_one) clamp_le

theorem adjustMidpoint_of_mem (x : ℚ) {midPoint : ℚ} (h : 0 < midPoint) (h' : midPoint < 1) :
    ∃ nt, adjustMidpoint x midPoint = some nt := by
  simp only [adjustMidpoint, div?_of_ne h.ne', div?_of_ne (sub_pos.2 h').ne', Option.bind_eq_bind, Option.bind_some]
  exact ⟨_, rfl⟩

theorem adjustMidpoint_of_end (x : ℚ) {midPoint : ℚ} (h : midPoint = 0 ∨ midPoint = 1) :
    adjustMidpoint x midPoint = none := by
  rcases h with rfl | rfl
  · simp only [adjustMidpoint, div?_zero, Option.bind_eq_bind, Option.bind_none]
  · simp only [adjustMidpoint, div?_of_ne one_ne_zero, sub_self, div?_zero, Option.bind_eq_bind, Option.bind_some,
      Option.bind_none]

section
variable {limit : ℚ → ℚ} (hlimit : ∀ s, 0 ≤ s → 0 ≤ limit s ∧ limit s ≤ s)
include hlimit

theorem blend_of_mem (a b : Vec3 ℚ) (t : ℚ) {midPoint base : ℚ} (h : 0 < midPoint ∧ midPoint < 1)
    (hbase : 0 ≤ base ∧ base ≤ 1) :
    ∃ nt, 0 ≤ nt ∧ nt ≤ 1 ∧ blend limit a b t midPoint base = some (a.mix b nt) := by
  obtain ⟨s, hs, hnonneg, hle⟩ := sharpness_mem (luma a) (luma b)
  obtain ⟨nt, hnt⟩ := adjustMidpoint_of_mem t h.1 h.2
  have hlimited := hlimit (base * s) (mul_nonneg hbase.1 hnonneg)
  have hscaled : base * s ≤ 1 * s := mul_le_mul_of_nonneg_right hbase.2 hnonneg
  -- the sharpness stays below a half
  have hne : 1 - 2 * limit (base * s) ≠ 0 := by linarith
  simp only [blend, hs, hnt, div?_of_ne hne, Option.bind_eq_bind, Option.bind_some]
  exact ⟨_, le_clamp zero_le_one, clamp_le, rfl⟩

omit hlimit in
theorem blend_of_end (a b : Vec3 ℚ) (t : ℚ) {midPoint : ℚ} (base : ℚ) (h : midPoint = 0 ∨ midPoint = 1) :
    blend limit a b t midPoint base = none := by
  obtain ⟨s, hs, -⟩ := sharpness_mem (luma a) (luma b)
  simp only [blend, hs, adjustMidpoint_of_end t h, Option.bind_eq_bind, Option.bind_some, Option.bind_none]

end

/-! ### The pattern of a pixel -/

/-- A pattern of pixels with the property `P`, whose first two blends are defined. -/
structure Pattern.Ready (P : Vec3 ℚ → Prop) (pattern : Pattern) : Prop where
  pixels : pattern.pixels.All P
  midPoint : 0 < pattern.midPoints.x ∧ pattern.midPoints.x < 1
  midPoint' : 0 < pattern.midPoints.y ∧ pattern.midPoints.y < 1
  base : (0 ≤ pattern.baseSharpness.x ∧ pattern.baseSharpness.x ≤ 1) ∧
    (0 ≤ pattern.baseSharpness.y ∧ pattern.baseSharpness.y ≤ 1) ∧
    0 ≤ pattern.baseSharpness.z ∧ pattern.baseSharpness.z ≤ 1

variable {P : Vec3 ℚ → Prop} {pixels : Pixels} {e : Vec4 ℚ} {q : Vec2 ℚ}

theorem pattern_square (hpixels : pixels.All P)
    (he : e.All fun w => epsilon ≤ w ∧ w ≤ 1 - epsilon) (hx : 0 ≤ q.x ∧ q.x ≤ 1) (hy : 0 ≤ q.y ∧ q.y ≤ 1) :
    ∃ result, pattern pixels e false q = some result ∧ result.Ready P ∧
      0 < result.midPoints.z ∧ result.midPoints.z < 1 := by
  have hepsilon : (0 : ℚ) < epsilon := by norm_num [epsilon]
  obtain ⟨hex, hey, hez, hew⟩ := he
  have hbase : (0 : ℚ) ≤ 1 ∧ (1 : ℚ) ≤ 1 := ⟨zero_le_one, le_rfl⟩
  have hinside : ∀ {a : ℚ}, epsilon ≤ a ∧ a ≤ 1 - epsilon → 0 < a ∧ a < 1 := fun ha =>
    ⟨hepsilon.trans_le ha.1, ha.2.trans_lt (by linarith)⟩
  have hmid := hinside (mix_mem hex hez hy.1 hy.2)
  exact ⟨_, rfl, ⟨hpixels, hmid, hmid, hbase, hbase, hbase⟩, hinside (mix_mem hew hey hx.1 hx.2)⟩

theorem weighted_pos {a b x y : ℚ} (ha : 0 < a) (hb : 0 < b) (hx : 0 ≤ x) (hy : 0 ≤ y) (hpos : 0 < x + y) :
    0 < a * x + b * y := by
  rcases hx.eq_or_lt with rfl | hx
  · rw [zero_add] at hpos
    rw [mul_zero, zero_add]
    exact mul_pos hb hpos
  · exact add_pos_of_pos_of_nonneg (mul_pos ha hx) (mul_nonneg hb.le hy)

/-- The first midpoint of a triangle is a weighted harmonic mean of two weights. -/
theorem harmonic_mem {u v x y : ℚ} (hu : 0 < u ∧ u < 1) (hv : 0 < v ∧ v < 1) (hx : 0 ≤ x) (hy : 0 ≤ y)
    (hpos : 0 < x + y) :
    0 < v * x + u * y ∧ 0 < u * v * (x + y) / (v * x + u * y) ∧ u * v * (x + y) / (v * x + u * y) < 1 := by
  have hdivisor := weighted_pos hv.1 hu.1 hx hy hpos
  refine ⟨hdivisor, div_pos (mul_pos (mul_pos hu.1 hv.1) hpos) hdivisor, (div_lt_one hdivisor).2 ?_⟩
  have hrest := weighted_pos (mul_pos (sub_pos.2 hu.2) hv.1) (mul_pos (sub_pos.2 hv.2) hu.1) hx hy hpos
  calc u * v * (x + y) < u * v * (x + y) + ((1 - u) * v * x + (1 - v) * u * y) := lt_add_of_pos_right _ hrest
    _ = v * x + u * y := by ring

theorem patternAtOrigin_triangle (hpixels : pixels.All P)
    (he : e.All fun w => epsilon ≤ w ∧ w ≤ 1 - epsilon) (hx : 0 ≤ q.x) (hy : 0 ≤ q.y) (hpos : 0 < q.x + q.y) :
    ∃ result, patternAtOrigin pixels e true q = some result ∧ result.Ready P ∧
      result.midPoints.z = 0.5 + 0.5 * clamp (lean e) (-1) 1 := by
  have hepsilon : (0 : ℚ) < epsilon := by norm_num [epsilon]
  obtain ⟨hex, -, -, hew⟩ := he
  obtain ⟨hne, hmid, hmid'⟩ := harmonic_mem (u := e.x) (v := e.w) ⟨by linarith, by linarith⟩
    ⟨by linarith, by linarith⟩ hx hy hpos
  simp only [patternAtOrigin, if_true, div?_of_ne hne.ne', div?_of_ne hpos.ne', Option.bind_eq_bind,
    Option.bind_some]
  have hbase : (0 : ℚ) ≤ 1 ∧ (1 : ℚ) ≤ 1 := ⟨zero_le_one, le_rfl⟩
  exact ⟨_, rfl, ⟨⟨hpixels.1, hpixels.2.1, hpixels.1, hpixels.2.2.1⟩, ⟨hmid, hmid'⟩, ⟨hmid, hmid'⟩, hbase, hbase,
    le_rfl, zero_le_one⟩, rfl⟩

theorem pattern_first (h : q.x + q.y ≤ 1) : pattern pixels e true q = patternAtOrigin pixels e true q := by
  simp only [pattern, h, decide_true, Bool.and_self, Bool.not_true, Bool.and_false, Bool.false_eq_true, if_false]

theorem pattern_second (h : ¬ q.x + q.y ≤ 1) : pattern pixels e true q =
    patternAtOrigin ⟨pixels.p3, pixels.p1, pixels.p2, pixels.p0⟩ ⟨1 - e.y, 1 - e.x, 1 - e.w, 1 - e.z⟩ true
      ⟨1 - q.y, 1 - q.x⟩ := by
  simp only [pattern, h, decide_false, Bool.and_false, Bool.not_false, Bool.and_self, if_true]

/-- The second triangle is the first one seen from the opposite corner, and leans as far. -/
theorem pattern_triangle (pixels : Pixels) (hpixels : pixels.All P)
    (he : e.All fun w => epsilon ≤ w ∧ w ≤ 1 - epsilon) (hx : 0 ≤ q.x ∧ q.x ≤ 1) (hy : 0 ≤ q.y ∧ q.y < 1)
    (hpos : 0 < q.x + q.y) :
    ∃ result, pattern pixels e true q = some result ∧ result.Ready P ∧
      result.midPoints.z = 0.5 + 0.5 * clamp (lean e) (-1) 1 := by
  by_cases hfirst : q.x + q.y ≤ 1
  · rw [pattern_first hfirst]
    exact patternAtOrigin_triangle hpixels he hx.1 hy.1 hpos
  · have hturned : (⟨1 - e.y, 1 - e.x, 1 - e.w, 1 - e.z⟩ : Vec4 ℚ).All fun w => epsilon ≤ w ∧ w ≤ 1 - epsilon := by
      obtain ⟨hex, hey, hez, hew⟩ := he
      refine ⟨⟨?_, ?_⟩, ⟨?_, ?_⟩, ⟨?_, ?_⟩, ⟨?_, ?_⟩⟩ <;> dsimp only <;> linarith
    have hlean : lean ⟨1 - e.y, 1 - e.x, 1 - e.w, 1 - e.z⟩ = lean e := by
      simp only [lean]
      ring
    rw [pattern_second hfirst, ← hlean]
    exact patternAtOrigin_triangle ⟨hpixels.2.2.2, hpixels.2.1, hpixels.2.2.1, hpixels.1⟩ hturned
      (by dsimp only; linarith) (by dsimp only; linarith) (by dsimp only; linarith)

theorem pattern_corner (h : q.x = 0) (h' : q.y = 0) : pattern pixels e true q = none := by
  rw [pattern_first (by linarith)]
  simp only [patternAtOrigin, if_true, h, h', mul_zero, add_zero, div?_zero, Option.bind_eq_bind, Option.bind_none]

/-! ### The colour -/

variable {limit : ℚ → ℚ}

/-- What is closed under mixing is reached by the third blend if its midpoint lies inside. -/
theorem blendPattern_of_mem (hlimit : ∀ s, 0 ≤ s → 0 ≤ limit s ∧ limit s ≤ s)
    (hmix : ∀ a b : Vec3 ℚ, ∀ t : ℚ, P a → P b → 0 ≤ t → t ≤ 1 → P (a.mix b t)) {result : Pattern}
    (hready : result.Ready P) (hz : 0 < result.midPoints.z ∧ result.midPoints.z < 1) :
    ∃ c, blendPattern limit result = some c ∧ P c := by
  obtain ⟨⟨h0, h1, h2, h3⟩, hmid, hmidy, hbasex, hbasey, hbasez⟩ := hready
  obtain ⟨s, hs, hs', hfirst⟩ := blend_of_mem hlimit result.pixels.p0 result.pixels.p1 result.weights.x hmid hbasex
  obtain ⟨t, ht, ht', hsecond⟩ := blend_of_mem hlimit result.pixels.p2 result.pixels.p3 result.weights.y hmidy hbasey
  obtain ⟨u, hu, hu', hthird⟩ := blend_of_mem hlimit (result.pixels.p0.mix result.pixels.p1 s)
    (result.pixels.p2.mix result.pixels.p3 t) result.weights.z hz hbasez
  refine ⟨_, ?_, hmix _ _ _ (hmix _ _ _ h0 h1 hs hs') (hmix _ _ _ h2 h3 ht ht') hu hu'⟩
  simp only [blendPattern, hfirst, hsecond, Option.bind_eq_bind, Option.bind_some]
  exact hthird

theorem blendPattern_of_end {result : Pattern} (hz : result.midPoints.z = 0 ∨ result.midPoints.z = 1) :
    blendPattern limit result = none := by
  simp only [blendPattern, blend_of_end _ _ _ _ hz, Option.bind_eq_bind, Option.bind_fun_none]

theorem midPoint_mem {d : ℚ} (h : |d| < 1) :
    0 < 0.5 + 0.5 * clamp d (-1) 1 ∧ 0.5 + 0.5 * clamp d (-1) 1 < 1 := by
  obtain ⟨hlower, hupper⟩ := abs_lt.1 h
  rw [clamp_of_mem hlower.le hupper.le]
  constructor <;> norm_num <;> linarith

theorem midPoint_end {d : ℚ} (h : ¬ |d| < 1) :
    0.5 + 0.5 * clamp d (-1) 1 = 0 ∨ 0.5 + 0.5 * clamp d (-1) 1 = 1 := by
  rcases le_abs.1 (not_lt.1 h) with hd | hd
  · right
    rw [clamp, max_eq_left (by linarith), min_eq_right hd]
    norm_num
  · left
    rw [clamp, max_eq_right (by linarith), min_eq_left (by norm_num)]
    norm_num

variable (flip : Bool) (screenCoords : Vec2 ℚ)

theorem position_mem : (0 ≤ (position flip screenCoords).x ∧ (position flip screenCoords).x ≤ 1) ∧
    0 ≤ (position flip screenCoords).y ∧ (position flip screenCoords).y < 1 := by
  have hx := Int.fract_nonneg screenCoords.x
  have hx' := Int.fract_lt_one screenCoords.x
  have hy := Int.fract_nonneg screenCoords.y
  have hy' := Int.fract_lt_one screenCoords.y
  cases flip
  · exact ⟨⟨hx, hx'.le⟩, hy, hy'⟩
  · exact ⟨⟨sub_nonneg.2 hx'.le, sub_le_self 1 hx⟩, hy, hy'⟩

theorem position_pos_iff : 0 < (position flip screenCoords).x + (position flip screenCoords).y ↔
    flip = true ∨ Int.fract screenCoords.x ≠ 0 ∨ Int.fract screenCoords.y ≠ 0 := by
  have hx := Int.fract_nonneg screenCoords.x
  have hx' := Int.fract_lt_one screenCoords.x
  have hy := Int.fract_nonneg screenCoords.y
  cases flip
  · change 0 < Int.fract screenCoords.x + Int.fract screenCoords.y ↔ _
    constructor
    · intro hpos
      by_contra hcorner
      simp only [Bool.false_eq_true, ne_eq, false_or, not_or, not_not] at hcorner
      rw [hcorner.1, hcorner.2, add_zero] at hpos
      exact lt_irrefl 0 hpos
    · rintro (hflip | hne | hne)
      · cases hflip
      · exact add_pos_of_pos_of_nonneg (hx.lt_of_ne hne.symm) hy
      · exact add_pos_of_nonneg_of_pos hx (hy.lt_of_ne hne.symm)
  · change 0 < 1 - Int.fract screenCoords.x + Int.fract screenCoords.y ↔ _
    exact iff_of_true (by linarith) (.inl rfl)

variable {flip screenCoords} {texels : Pixels} {flags : Flags}

theorem Pixels.All.flipped (h : texels.All P) (flip : Bool) : (texels.flipped flip).All P := by
  obtain ⟨h0, h1, h2, h3⟩ := h
  cases flip
  · exact ⟨h0, h1, h2, h3⟩
  · exact ⟨h1, h0, h3, h2⟩

/-- Where the flags are clear, there is a colour with whatever is closed under mixing. -/
theorem upscale_of_clear (hlimit : ∀ s, 0 ≤ s → 0 ≤ limit s ∧ limit s ≤ s)
    (hmix : ∀ a b : Vec3 ℚ, ∀ t : ℚ, P a → P b → 0 ≤ t → t ≤ 1 → P (a.mix b t))
    (htexels : texels.All P) (h : Clear flags screenCoords) :
    ∃ c, upscale limit texels flags screenCoords = some c ∧ P c := by
  obtain ⟨hx, hy⟩ := position_mem flags.flip screenCoords
  have hpixels := htexels.flipped flags.flip
  obtain ⟨result, hresult, hready, hz⟩ : ∃ result,
      pattern (texels.flipped flags.flip) flags.edgeWeight flags.triangle (position flags.flip screenCoords) =
        some result ∧ result.Ready P ∧ 0 < result.midPoints.z ∧ result.midPoints.z < 1 := by
    cases htriangle : flags.triangle with
    | false => exact pattern_square hpixels flags.bounds hx ⟨hy.1, hy.2.le⟩
    | true =>
      obtain ⟨hcorner, hlean⟩ := h htriangle
      obtain ⟨result, hresult, hready, hz⟩ := pattern_triangle _ hpixels flags.bounds hx hy
        ((position_pos_iff _ _).2 hcorner)
      exact ⟨result, hresult, hready, hz ▸ midPoint_mem hlean⟩
  obtain ⟨c, hc, hP⟩ := blendPattern_of_mem hlimit hmix hready hz
  refine ⟨c, ?_, hP⟩
  simp only [upscale, hresult, Option.bind_eq_bind, Option.bind_some]
  exact hc

theorem upscale_of_not_clear (h : ¬ Clear flags screenCoords) : upscale limit texels flags screenCoords = none := by
  obtain ⟨hx, hy⟩ := position_mem flags.flip screenCoords
  obtain ⟨htriangle, hnot⟩ := Classical.not_imp.1 h
  by_cases hcorner : 0 < (position flags.flip screenCoords).x + (position flags.flip screenCoords).y
  · have hlean : ¬ |lean flags.edgeWeight| < 1 := fun hlean => hnot ⟨(position_pos_iff _ _).1 hcorner, hlean⟩
    obtain ⟨result, hresult, -, hz⟩ := pattern_triangle (P := fun _ => True) (texels.flipped flags.flip)
      ⟨trivial, trivial, trivial, trivial⟩ flags.bounds hx hy hcorner
    simp only [upscale, htriangle, hresult, Option.bind_eq_bind, Option.bind_some]
    exact blendPattern_of_end (hz ▸ midPoint_end hlean)
  · have hzero : (position flags.flip screenCoords).x = 0 ∧ (position flags.flip screenCoords).y = 0 := by
      constructor <;> linarith [hx.1, hy.1]
    simp only [upscale, htriangle, pattern_corner hzero.1 hzero.2, Option.bind_eq_bind, Option.bind_none]

/-! ### Convex combinations of the texels -/

theorem combines_texels : texels.All (Combines texels) := by
  refine ⟨⟨⟨1, 0, 0, 0⟩, ⟨?_, by norm_num⟩, ?_⟩, ⟨⟨0, 1, 0, 0⟩, ⟨?_, by norm_num⟩, ?_⟩,
    ⟨⟨0, 0, 1, 0⟩, ⟨?_, by norm_num⟩, ?_⟩, ⟨⟨0, 0, 0, 1⟩, ⟨?_, by norm_num⟩, ?_⟩⟩
  all_goals simp [Vec4.All, Vec4.combine3, Vec4.combine]

theorem combines_mix (a b : Vec3 ℚ) (t : ℚ) (ha : Combines texels a) (hb : Combines texels b) (ht : 0 ≤ t)
    (ht' : t ≤ 1) : Combines texels (a.mix b t) := by
  obtain ⟨v, hv, rfl⟩ := ha
  obtain ⟨w, hw, rfl⟩ := hb
  exact ⟨v.mix w t, hv.mix hw ht ht', (combine3_mix v w _ _ _ _).symm⟩

theorem Combines.between {c : Vec3 ℚ} (h : Combines texels c) : ∀ component ∈ [Vec3.x, Vec3.y, Vec3.z],
    min (min (component texels.p0) (component texels.p1)) (min (component texels.p2) (component texels.p3)) ≤
        component c ∧
      component c ≤
        max (max (component texels.p0) (component texels.p1)) (max (component texels.p2) (component texels.p3)) := by
  obtain ⟨w, hw, rfl⟩ := h
  have hmem : ∀ p q r s : ℚ, min (min p q) (min r s) ≤ w.combine p q r s ∧
      w.combine p q r s ≤ max (max p q) (max r s) := fun p q r s =>
    hw.combine_mem (by simp) (by simp) (by simp) (by simp)
  intro component hcomponent
  simp only [List.mem_cons, List.not_mem_nil, or_false] at hcomponent
  rcases hcomponent with rfl | rfl | rfl <;> exact hmem _ _ _ _

theorem trueBlend_upscale_iff (hlimit : ∀ s, 0 ≤ s → 0 ≤ limit s ∧ limit s ≤ s) :
    TrueBlend texels (upscale limit texels flags screenCoords) ↔ Clear flags screenCoords := by
  constructor
  · intro hblend
    by_contra hclear
    exact hblend.defined (upscale_of_not_clear hclear)
  · intro hclear
    obtain ⟨c, hc, hcombines⟩ := upscale_of_clear hlimit combines_mix combines_texels hclear
    have heq : ∀ d, upscale limit texels flags screenCoords = some d → d = c := fun d hd =>
      Option.some.inj (hd.symm.trans hc)
    refine ⟨hc ▸ Option.some_ne_none c, ?_, ?_⟩
    · intro d hd
      exact heq d hd ▸ hcombines
    · intro d hd
      exact heq d hd ▸ hcombines.between

theorem upscale_ne_none_iff (hlimit : ∀ s, 0 ≤ s → 0 ≤ limit s ∧ limit s ≤ s) :
    upscale limit texels flags screenCoords ≠ none ↔ Clear flags screenCoords :=
  ⟨fun hdefined => by_contra fun hclear => hdefined (upscale_of_not_clear hclear),
    fun hclear => ((trueBlend_upscale_iff hlimit).2 hclear).defined⟩

theorem id_limits (s : ℚ) (hs : 0 ≤ s) : 0 ≤ id s ∧ id s ≤ s := ⟨hs, le_rfl⟩

theorem cutMaxSharpness_limits (cutMaxSharpness : CutMaxSharpness) (s : ℚ) (hs : 0 ≤ s) :
    0 ≤ clamp s 0 (0.5 * cutMaxSharpness.value) ∧ clamp s 0 (0.5 * cutMaxSharpness.value) ≤ s := by
  have hupper : 0 ≤ 0.5 * cutMaxSharpness.value := mul_nonneg (by norm_num) cutMaxSharpness.nonneg
  refine ⟨le_clamp hupper, ?_⟩
  rw [clamp, max_eq_left hs]
  exact min_le_left _ _

/-- A pixel has a colour exactly if the flags that are parsed from its texel are clear. -/
theorem main_ne_none_iff (cutMaxSharpness : CutMaxSharpness) (texels : Pixels) (flagsPixel : Vec3 ℚ)
    (screenCoords : Vec2 ℚ) :
    (cut2Main texels flagsPixel screenCoords ≠ none ↔ Clear (parseFlags flagsPixel) screenCoords) ∧
      (cut3Main cutMaxSharpness texels flagsPixel screenCoords ≠ none ↔
        Clear (parseFlags flagsPixel) screenCoords) := by
  simp only [cut2Main, cut3Main, cut2, cut3, ne_eq, Option.map_eq_none_iff]
  exact ⟨upscale_ne_none_iff id_limits, upscale_ne_none_iff (cutMaxSharpness_limits cutMaxSharpness)⟩

/-- Both passes blend truly exactly where a triangle is not cut at its corner, nor by edges that lean all the way;
and only there, with flags from a texel, the pixel has a colour. -/
theorem trueBlend_iff (cutMaxSharpness : CutMaxSharpness) (texels : Pixels) (flags : Flags)
    (screenCoords : Vec2 ℚ) :
    (TrueBlend texels (cut2 texels flags screenCoords) ↔ Clear flags screenCoords) ∧
      (TrueBlend texels (cut3 cutMaxSharpness texels flags screenCoords) ↔ Clear flags screenCoords) ∧
      ∀ flagsPixel, parseFlags flagsPixel = flags →
        (cut2Main texels flagsPixel screenCoords ≠ none ↔ Clear flags screenCoords) ∧
          (cut3Main cutMaxSharpness texels flagsPixel screenCoords ≠ none ↔ Clear flags screenCoords) := by
  refine ⟨trueBlend_upscale_iff id_limits, trueBlend_upscale_iff (cutMaxSharpness_limits cutMaxSharpness), ?_⟩
  rintro flagsPixel rfl
  exact main_ne_none_iff cutMaxSharpness texels flagsPixel screenCoords

/-- The first and the third edge at their one end, the other two at the opposite one. -/
def leaning : Flags where
  flip := false
  triangle := true
  edgeWeight := ⟨0.98, 0.02, 0.98, 0.02⟩
  bounds := by norm_num [Vec4.All, epsilon]

def grey : Pixels := ⟨⟨0, 0, 0⟩, ⟨1 / 3, 1 / 3, 1 / 3⟩, ⟨2 / 3, 2 / 3, 2 / 3⟩, ⟨1, 1, 1⟩⟩

/-- The second midpoint is zero, and the third blend divides by it. -/
theorem not_trueBlend_leaning : ¬ TrueBlend grey (cut2 grey leaning ⟨5 / 2, 1 / 4⟩) ∧
    ¬ TrueBlend grey (cut3 ⟨1 / 2, by norm_num, by norm_num⟩ grey leaning ⟨5 / 2, 1 / 4⟩) := by
  constructor
  · intro h
    exact h.defined (by decide +kernel)
  · intro h
    exact h.defined (by decide +kernel)

end UpscaleBlend
end SweetHome
