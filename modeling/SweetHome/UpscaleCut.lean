import SweetHome.UpscaleBlend

/-!
# The upscaler in one pass

`cutUpscaleFragment` blends the four texels around a position along both axes, or, where two of them that face each
other are alike and the other two are not, within the triangles that the diagonal between the alike ones cuts the
pixel into. A colour is a convex combination of the texels, and of those of its own triangle alone; at the centre of a
texel it is the texel's, but for what the denominators leave of the next one (`main_blends`). The parameters are those
of `ShaderConfig.CUT`, which become macros of the shader.
-/

namespace SweetHome
namespace UpscaleCut
open Glsl EdgeFlags UpscaleBlend

/-- `ShaderConfig.CUT` -/
structure Params where
  useDynamicBlend : Bool := true
  blendMinContrastEdge : ℚ := 0
  blendMaxContrastEdge : ℚ := 1
  blendMinSharpness : ℚ := 0
  blendMaxSharpness : ℚ := 1
  staticSharpness : ℚ := 0.5
  edgeUseFastLuma : Bool := true
  edgeMinValue : ℚ := 0.05
  edgeMinContrast : ℚ := 2

structure Pattern where
  pixels : Pixels
  triangle : Bool
  coords : Vec2 ℚ

/-- `EPSILON` keeps edges that coincide from a division by zero. -/
def linearStep (edge0 edge1 t : ℚ) : Option ℚ := do
  let step ← div? (t - edge0) (edge1 - edge0 + epsilon)
  return clamp step 0 1

def sharpSmooth (t sharpness : ℚ) : Option ℚ := linearStep sharpness (1 - sharpness) t

def triangle (pxCoords : Vec2 ℚ) : Option (Vec3 ℚ) := do
  let x := pxCoords.y - pxCoords.x
  let y := 1 - x
  let z ← div? (pxCoords.y - x) (y + epsilon)
  return ⟨x, y, z⟩

def quad (pxCoords : Vec2 ℚ) : Vec3 ℚ := ⟨pxCoords.x, pxCoords.x, pxCoords.y⟩

def pattern0 (pixels : Pixels) (pxCoords : Vec2 ℚ) : Pattern := ⟨pixels, false, pxCoords⟩

def pattern1 (pixels : Pixels) (pxCoords : Vec2 ℚ) : Pattern :=
  if pxCoords.y > pxCoords.x then ⟨⟨pixels.p0, pixels.p2, pixels.p2, pixels.p3⟩, true, ⟨pxCoords.x, pxCoords.y⟩⟩
  else ⟨⟨pixels.p0, pixels.p1, pixels.p1, pixels.p3⟩, true, ⟨pxCoords.y, pxCoords.x⟩⟩

def Pattern.weights (pattern : Pattern) : Option (Vec3 ℚ) :=
  if pattern.triangle then UpscaleCut.triangle pattern.coords else some (quad pattern.coords)

namespace Params
variable (p : Params)

def luma (v : Vec3 ℚ) : ℚ := if p.edgeUseFastLuma then v.y else v.dot ⟨0.299, 0.587, 0.114⟩

def sharpness (l1 l2 : ℚ) : Option ℚ :=
  if p.useDynamicBlend then do
    let lumaDiff := |l1 - l2|
    let contrast ← linearStep p.blendMinContrastEdge p.blendMaxContrastEdge lumaDiff
    return mix (p.blendMinSharpness * 0.5) (p.blendMaxSharpness * 0.5) contrast
  else some (p.staticSharpness * 0.5)

def hasDiagonal (a b c d : ℚ) : Bool := max (|a - d| * p.edgeMinContrast) p.edgeMinValue < |b - c|

def blend (a b : Vec3 ℚ) (t : ℚ) : Option (Vec3 ℚ) := do
  let sharpness ← p.sharpness (p.luma a) (p.luma b)
  return a.mix b (← sharpSmooth t sharpness)

/-- The luma of the texels at `c06` and `c09` differs, that of those at `c05` and `c10` does not. -/
def diagonal0510 (texels : Pixels) : Bool :=
  p.hasDiagonal (p.luma texels.p0) (p.luma texels.p1) (p.luma texels.p2) (p.luma texels.p3)

def diagonal0609 (texels : Pixels) : Bool :=
  p.hasDiagonal (p.luma texels.p1) (p.luma texels.p0) (p.luma texels.p3) (p.luma texels.p2)

def pattern (texels : Pixels) (screenCoords : Vec2 ℚ) : Pattern :=
  let pixels := texels.flipped (p.diagonal0609 texels)
  let pxCoords := position (p.diagonal0609 texels) screenCoords
  if p.diagonal0510 texels || p.diagonal0609 texels then pattern1 pixels pxCoords else pattern0 pixels pxCoords

def blendPattern (pattern : Pattern) : Option (Vec3 ℚ) := do
  let weights ← pattern.weights
  let first ← p.blend pattern.pixels.p0 pattern.pixels.p1 weights.x
  let second ← p.blend pattern.pixels.p2 pattern.pixels.p3 weights.y
  p.blend first second weights.z

/-- The texels are those at `c05`, `c06`, `c09` and `c10`. -/
def main (texels : Pixels) (screenCoords : Vec2 ℚ) : Option (Vec4 ℚ) :=
  (p.blendPattern (p.pattern texels screenCoords)).map fragColor

/-! ### What is to hold -/

/-- For the values in use: the divisor of the contrast is not zero, and a sharpness leaves the blend a positive divisor,
so that it rises from one texel to the other. -/
structure Rising : Prop where
  contrast : p.useDynamicBlend = true → p.blendMaxContrastEdge - p.blendMinContrastEdge + epsilon ≠ 0
  minSharpness : p.useDynamicBlend = true → p.blendMinSharpness < 1 + epsilon
  maxSharpness : p.useDynamicBlend = true → p.blendMaxSharpness < 1 + epsilon
  staticSharpness : p.useDynamicBlend = false → p.staticSharpness < 1 + epsilon

/-- A texel that is beyond the diagonal has no part. -/
structure OneSide (texels : Pixels) (screenCoords : Vec2 ℚ) (w : Vec4 ℚ) : Prop where
  above : p.diagonal0510 texels = true → p.diagonal0609 texels = false →
    Int.fract screenCoords.x < Int.fract screenCoords.y → w.y = 0
  below : p.diagonal0510 texels = true → p.diagonal0609 texels = false →
    Int.fract screenCoords.y ≤ Int.fract screenCoords.x → w.z = 0
  above' : p.diagonal0609 texels = true → 1 < Int.fract screenCoords.x + Int.fract screenCoords.y → w.x = 0
  below' : p.diagonal0609 texels = true → Int.fract screenCoords.x + Int.fract screenCoords.y ≤ 1 → w.w = 0

/-- For the values in use. -/
structure NonnegSharpness : Prop where
  minSharpness : p.useDynamicBlend = true → 0 ≤ p.blendMinSharpness
  maxSharpness : p.useDynamicBlend = true → 0 ≤ p.blendMaxSharpness
  staticSharpness : p.useDynamicBlend = false → 0 ≤ p.staticSharpness

/-- A colour of the texels on the side of the position. -/
def Blends (texels : Pixels) (screenCoords : Vec2 ℚ) (c : Vec3 ℚ) : Prop :=
  ∃ w : Vec4 ℚ, w.Convex ∧ p.OneSide texels screenCoords w ∧
    c = w.combine3 texels.p0 texels.p1 texels.p2 texels.p3

end Params

/-! ### One blend -/

theorem epsilon_pos : 0 < epsilon := by norm_num [epsilon]

theorem linearStep_mem {edge0 edge1 : ℚ} (h : edge1 - edge0 + epsilon ≠ 0) (t : ℚ) :
    ∃ r, linearStep edge0 edge1 t = some r ∧ 0 ≤ r ∧ r ≤ 1 := by
  simp only [linearStep, div?_of_ne h, Option.bind_eq_bind, Option.bind_some]
  exact ⟨_, rfl, le_clamp zero_le_one, clamp_le⟩

namespace Params
variable {p : Params} {texels : Pixels} {screenCoords : Vec2 ℚ}

theorem Rising.sharpness_lt (h : p.Rising) (l1 l2 : ℚ) :
    ∃ s, p.sharpness l1 l2 = some s ∧ s < (1 + epsilon) / 2 := by
  cases hdynamic : p.useDynamicBlend with
  | true =>
    obtain ⟨contrast, hcontrast, hnonneg, hle⟩ := linearStep_mem (h.contrast hdynamic) |l1 - l2|
    have hmin : p.blendMinSharpness * 0.5 < (1 + epsilon) / 2 := by linarith [h.minSharpness hdynamic]
    have hmax : p.blendMaxSharpness * 0.5 < (1 + epsilon) / 2 := by linarith [h.maxSharpness hdynamic]
    have hmix := (mix_mem ⟨min_le_left (p.blendMinSharpness * 0.5) (p.blendMaxSharpness * 0.5), le_max_left _ _⟩
      ⟨min_le_right _ _, le_max_right _ _⟩ hnonneg hle).2
    refine ⟨mix (p.blendMinSharpness * 0.5) (p.blendMaxSharpness * 0.5) contrast, ?_, hmix.trans_lt (max_lt hmin hmax)⟩
    simp only [sharpness, hdynamic, if_true, hcontrast, Option.bind_eq_bind, Option.bind_some, Option.pure_def]
  | false =>
    refine ⟨p.staticSharpness * 0.5, ?_, by linarith [h.staticSharpness hdynamic]⟩
    simp only [sharpness, hdynamic, Bool.false_eq_true, if_false]

theorem Rising.blend_mem (h : p.Rising) (a b : Vec3 ℚ) (t : ℚ) :
    ∃ r, 0 ≤ r ∧ r ≤ 1 ∧ p.blend a b t = some (a.mix b r) := by
  obtain ⟨s, hs, hlt⟩ := h.sharpness_lt (p.luma a) (p.luma b)
  obtain ⟨r, hr, hnonneg, hle⟩ := linearStep_mem (by linarith : 1 - s - s + epsilon ≠ 0) t
  refine ⟨r, hnonneg, hle, ?_⟩
  simp only [blend, hs, sharpSmooth, hr, Option.bind_eq_bind, Option.bind_some, Option.pure_def]

/-- What is closed under mixing is reached from the pixels of a pattern. -/
theorem Rising.blendPattern_of_all (h : p.Rising) {P : Vec3 ℚ → Prop}
    (hmix : ∀ a b : Vec3 ℚ, ∀ t : ℚ, P a → P b → 0 ≤ t → t ≤ 1 → P (a.mix b t)) {pattern : Pattern}
    (hpixels : pattern.pixels.All P) (hcoords : pattern.triangle = true → pattern.coords.y - pattern.coords.x ≤ 1) :
    ∃ c, p.blendPattern pattern = some c ∧ P c := by
  obtain ⟨h0, h1, h2, h3⟩ := hpixels
  obtain ⟨weights, hweights⟩ : ∃ weights, pattern.weights = some weights := by
    rw [Pattern.weights]
    split
    · rename_i htriangle
      have hne : 1 - (pattern.coords.y - pattern.coords.x) + epsilon ≠ 0 := by
        linarith [hcoords htriangle, epsilon_pos]
      simp only [triangle, div?_of_ne hne, Option.bind_eq_bind, Option.bind_some]
      exact ⟨_, rfl⟩
    · exact ⟨_, rfl⟩
  obtain ⟨r, hr, hr', hfirst⟩ := h.blend_mem pattern.pixels.p0 pattern.pixels.p1 weights.x
  obtain ⟨t, ht, ht', hsecond⟩ := h.blend_mem pattern.pixels.p2 pattern.pixels.p3 weights.y
  obtain ⟨u, hu, hu', hthird⟩ := h.blend_mem (pattern.pixels.p0.mix pattern.pixels.p1 r)
    (pattern.pixels.p2.mix pattern.pixels.p3 t) weights.z
  refine ⟨_, ?_, hmix _ _ _ (hmix _ _ _ h0 h1 hr hr') (hmix _ _ _ h2 h3 ht ht') hu hu'⟩
  simp only [blendPattern, hweights, hfirst, hsecond, Option.bind_eq_bind, Option.bind_some]
  exact hthird

/-! ### The sides of a diagonal -/

theorem OneSide.mix {v w : Vec4 ℚ} (hv : p.OneSide texels screenCoords v) (hw : p.OneSide texels screenCoords w)
    (a : ℚ) : p.OneSide texels screenCoords (v.mix w a) := by
  have hzero : ∀ x y : ℚ, x = 0 → y = 0 → Glsl.mix x y a = 0 := by
    rintro x y rfl rfl
    rw [Glsl.mix]
    ring
  constructor
  · intro hdiagonal hother hlt
    exact hzero _ _ (hv.above hdiagonal hother hlt) (hw.above hdiagonal hother hlt)
  · intro hdiagonal hother hle
    exact hzero _ _ (hv.below hdiagonal hother hle) (hw.below hdiagonal hother hle)
  · intro hdiagonal hlt
    exact hzero _ _ (hv.above' hdiagonal hlt) (hw.above' hdiagonal hlt)
  · intro hdiagonal hle
    exact hzero _ _ (hv.below' hdiagonal hle) (hw.below' hdiagonal hle)

theorem blends_mix (a b : Vec3 ℚ) (t : ℚ) (ha : p.Blends texels screenCoords a) (hb : p.Blends texels screenCoords b)
    (ht : 0 ≤ t) (ht' : t ≤ 1) : p.Blends texels screenCoords (a.mix b t) := by
  obtain ⟨v, hv, hside, rfl⟩ := ha
  obtain ⟨w, hw, hside', rfl⟩ := hb
  exact ⟨v.mix w t, hv.mix hw ht ht', hside.mix hside' t, (combine3_mix v w _ _ _ _).symm⟩

/-- The texels of each component of the weights. -/
theorem blends_texel (texels : Pixels) (screenCoords : Vec2 ℚ) :
    (p.OneSide texels screenCoords ⟨1, 0, 0, 0⟩ → p.Blends texels screenCoords texels.p0) ∧
    (p.OneSide texels screenCoords ⟨0, 1, 0, 0⟩ → p.Blends texels screenCoords texels.p1) ∧
    (p.OneSide texels screenCoords ⟨0, 0, 1, 0⟩ → p.Blends texels screenCoords texels.p2) ∧
    (p.OneSide texels screenCoords ⟨0, 0, 0, 1⟩ → p.Blends texels screenCoords texels.p3) := by
  refine ⟨fun h => ⟨_, ⟨?_, ?_⟩, h, ?_⟩, fun h => ⟨_, ⟨?_, ?_⟩, h, ?_⟩, fun h => ⟨_, ⟨?_, ?_⟩, h, ?_⟩,
    fun h => ⟨_, ⟨?_, ?_⟩, h, ?_⟩⟩
  all_goals simp [Vec4.All, Vec4.combine3, Vec4.combine]

theorem oneSide_flipped {w : Vec4 ℚ} (hflip : p.diagonal0609 texels = true)
    (hx : 1 < Int.fract screenCoords.x + Int.fract screenCoords.y → w.x = 0)
    (hw : Int.fract screenCoords.x + Int.fract screenCoords.y ≤ 1 → w.w = 0) : p.OneSide texels screenCoords w where
  above _ hother := absurd (hflip.symm.trans hother) (by decide)
  below _ hother := absurd (hflip.symm.trans hother) (by decide)
  above' _ := hx
  below' _ := hw

theorem oneSide_straight {w : Vec4 ℚ} (hflip : p.diagonal0609 texels = false)
    (hy : p.diagonal0510 texels = true → Int.fract screenCoords.x < Int.fract screenCoords.y → w.y = 0)
    (hz : p.diagonal0510 texels = true → Int.fract screenCoords.y ≤ Int.fract screenCoords.x → w.z = 0) :
    p.OneSide texels screenCoords w where
  above hdiagonal _ := hy hdiagonal
  below hdiagonal _ := hz hdiagonal
  above' hother := absurd (hflip.symm.trans hother) (by decide)
  below' hother := absurd (hflip.symm.trans hother) (by decide)

/-- A triangle has three texels, and the other one is beyond the diagonal. -/
theorem pattern1_all {P : Vec3 ℚ → Prop} {pixels : Pixels} {z : Vec2 ℚ} (hx : 0 ≤ z.x ∧ z.x ≤ 1)
    (hy : 0 ≤ z.y ∧ z.y ≤ 1) (habove : z.x < z.y → P pixels.p0 ∧ P pixels.p2 ∧ P pixels.p3)
    (hbelow : z.y ≤ z.x → P pixels.p0 ∧ P pixels.p1 ∧ P pixels.p3) :
    (pattern1 pixels z).pixels.All P ∧ (pattern1 pixels z).coords.y - (pattern1 pixels z).coords.x ≤ 1 := by
  unfold pattern1
  split
  · rename_i hside
    obtain ⟨h0, h2, h3⟩ := habove hside
    refine ⟨⟨h0, h2, h2, h3⟩, ?_⟩
    show z.y - z.x ≤ 1
    linarith [hx.1, hy.2]
  · rename_i hside
    obtain ⟨h0, h1, h3⟩ := hbelow (not_lt.1 hside)
    refine ⟨⟨h0, h1, h1, h3⟩, ?_⟩
    show z.x - z.y ≤ 1
    linarith [hx.2, hy.1]

theorem pattern_blends (texels : Pixels) (screenCoords : Vec2 ℚ) :
    (p.pattern texels screenCoords).pixels.All (p.Blends texels screenCoords) ∧
      ((p.pattern texels screenCoords).triangle = true →
        (p.pattern texels screenCoords).coords.y - (p.pattern texels screenCoords).coords.x ≤ 1) := by
  obtain ⟨h0, h1, h2, h3⟩ := blends_texel (p := p) texels screenCoords
  have hx : 0 ≤ Int.fract screenCoords.x ∧ Int.fract screenCoords.x ≤ 1 :=
    ⟨Int.fract_nonneg _, (Int.fract_lt_one _).le⟩
  have hy : 0 ≤ Int.fract screenCoords.y ∧ Int.fract screenCoords.y ≤ 1 :=
    ⟨Int.fract_nonneg _, (Int.fract_lt_one _).le⟩
  cases hflip : p.diagonal0609 texels with
  | true =>
    have hpattern : p.pattern texels screenCoords = pattern1 ⟨texels.p1, texels.p0, texels.p3, texels.p2⟩
        ⟨1 - Int.fract screenCoords.x, Int.fract screenCoords.y⟩ := by
      simp only [pattern, hflip, Bool.or_true, if_true, Pixels.flipped, position, Vec2.map]
    have hflipped : (0 : ℚ) ≤ 1 - Int.fract screenCoords.x ∧ 1 - Int.fract screenCoords.x ≤ 1 :=
      ⟨sub_nonneg.2 hx.2, sub_le_self _ hx.1⟩
    rw [hpattern]
    refine (pattern1_all hflipped hy (fun hside => ?_) fun hside => ?_).imp_right fun hcoords _ => hcoords
    · have hside : 1 - Int.fract screenCoords.x < Int.fract screenCoords.y := hside
      have hone : ∀ w : Vec4 ℚ, w.x = 0 → p.OneSide texels screenCoords w := fun w hw =>
        oneSide_flipped hflip (fun _ => hw) fun hle => absurd hle (by linarith)
      exact ⟨h1 (hone _ rfl), h3 (hone _ rfl), h2 (hone _ rfl)⟩
    · have hside : Int.fract screenCoords.y ≤ 1 - Int.fract screenCoords.x := hside
      have hone : ∀ w : Vec4 ℚ, w.w = 0 → p.OneSide texels screenCoords w := fun w hw =>
        oneSide_flipped hflip (fun hlt => absurd hlt (by linarith)) fun _ => hw
      exact ⟨h1 (hone _ rfl), h0 (hone _ rfl), h2 (hone _ rfl)⟩
  | false =>
    cases hdiagonal : p.diagonal0510 texels with
    | true =>
      have hpattern : p.pattern texels screenCoords = pattern1 texels
          ⟨Int.fract screenCoords.x, Int.fract screenCoords.y⟩ := by
        simp only [pattern, hflip, hdiagonal, Bool.or_false, Bool.false_eq_true, if_true, if_false, Pixels.flipped,
          position, Vec2.map]
      rw [hpattern]
      refine (pattern1_all hx hy (fun hside => ?_) fun hside => ?_).imp_right fun hcoords _ => hcoords
      · have hone : ∀ w : Vec4 ℚ, w.y = 0 → p.OneSide texels screenCoords w := fun w hw =>
          oneSide_straight hflip (fun _ _ => hw) fun _ hle => absurd hle (not_le.2 hside)
        exact ⟨h0 (hone _ rfl), h2 (hone _ rfl), h3 (hone _ rfl)⟩
      · have hone : ∀ w : Vec4 ℚ, w.z = 0 → p.OneSide texels screenCoords w := fun w hw =>
          oneSide_straight hflip (fun _ hlt => absurd hlt (not_lt.2 hside)) fun _ _ => hw
        exact ⟨h0 (hone _ rfl), h1 (hone _ rfl), h3 (hone _ rfl)⟩
    | false =>
      have hpattern : p.pattern texels screenCoords = pattern0 texels
          ⟨Int.fract screenCoords.x, Int.fract screenCoords.y⟩ := by
        simp only [pattern, hflip, hdiagonal, Bool.or_false, Bool.false_eq_true, if_false, Pixels.flipped,
          position, Vec2.map]
      have hone : ∀ w : Vec4 ℚ, p.OneSide texels screenCoords w := fun w =>
        oneSide_straight hflip (fun h => absurd (hdiagonal.symm.trans h) (by decide))
          fun h => absurd (hdiagonal.symm.trans h) (by decide)
      rw [hpattern, pattern0]
      exact ⟨⟨h0 (hone _), h1 (hone _), h2 (hone _), h3 (hone _)⟩, fun h => absurd h Bool.false_ne_true⟩

/-! ### The centre of a texel -/

theorem sharpness_nonneg (hp : p.NonnegSharpness) {l1 l2 s : ℚ} (hs : p.sharpness l1 l2 = some s) : 0 ≤ s := by
  cases hdynamic : p.useDynamicBlend with
  | true =>
    simp only [sharpness, hdynamic, if_true, Option.bind_eq_bind, Option.pure_def] at hs
    obtain ⟨contrast, hcontrast, hmix⟩ := Option.bind_eq_some_iff.1 hs
    obtain ⟨step, -, hstep⟩ := Option.bind_eq_some_iff.1 hcontrast
    obtain rfl := Option.some.inj hstep
    obtain rfl := Option.some.inj hmix
    have hmin : 0 ≤ p.blendMinSharpness * 0.5 := mul_nonneg (hp.minSharpness hdynamic) (by norm_num)
    have hmax : 0 ≤ p.blendMaxSharpness * 0.5 := mul_nonneg (hp.maxSharpness hdynamic) (by norm_num)
    exact (mix_mem ⟨hmin, le_max_left _ _⟩ ⟨hmax, le_max_right _ _⟩ (le_clamp zero_le_one) clamp_le).1
  | false =>
    simp only [sharpness, hdynamic, Bool.false_eq_true, if_false, Option.some.injEq] at hs
    exact hs ▸ mul_nonneg (hp.staticSharpness hdynamic) (by norm_num)

variable (h : p.Rising) (hp : p.NonnegSharpness)
include h hp

theorem blend_zero (a b : Vec3 ℚ) : p.blend a b 0 = some a := by
  obtain ⟨s, hs, hlt⟩ := h.sharpness_lt (p.luma a) (p.luma b)
  have hnonneg := sharpness_nonneg hp hs
  have hpos : 0 < 1 - s - s + epsilon := by linarith
  have hstep : clamp ((0 - s) / (1 - s - s + epsilon)) 0 1 = 0 := by
    rw [clamp, max_eq_right (div_nonpos_of_nonpos_of_nonneg (by linarith) hpos.le), min_eq_left zero_le_one]
  simp only [blend, hs, sharpSmooth, linearStep, div?_of_ne hpos.ne', hstep, Option.bind_eq_bind, Option.bind_some,
    Option.pure_def]
  simp [Vec3.mix, Vec3.zipWith, mix]

/-- The denominator leaves a little of the other colour. -/
theorem blend_one (a b : Vec3 ℚ) : ∃ r, 0 ≤ r ∧ r ≤ 1 / 51 ∧ p.blend a b 1 = some (b.mix a r) := by
  obtain ⟨s, hs, hlt⟩ := h.sharpness_lt (p.luma a) (p.luma b)
  have hnonneg := sharpness_nonneg hp hs
  have hpos : 0 < 1 - s - s + epsilon := by linarith
  have hquotient : 50 / 51 ≤ (1 - s) / (1 - s - s + epsilon) := by
    rw [le_div_iff₀ hpos]
    norm_num [epsilon]
    linarith
  have hstep : 50 / 51 ≤ clamp ((1 - s) / (1 - s - s + epsilon)) 0 1 :=
    le_min (hquotient.trans (le_max_left _ _)) (by norm_num)
  have hstep' : clamp ((1 - s) / (1 - s - s + epsilon)) 0 1 ≤ 1 := clamp_le
  refine ⟨1 - clamp ((1 - s) / (1 - s - s + epsilon)) 0 1, by linarith, by linarith, ?_⟩
  simp only [blend, hs, sharpSmooth, linearStep, div?_of_ne hpos.ne', Option.bind_eq_bind, Option.bind_some,
    Option.pure_def, Vec3.mix, Vec3.zipWith, mix, Option.some.injEq, Vec3.mk.injEq]
  refine ⟨?_, ?_, ?_⟩ <;> ring

omit h hp in
theorem weights_centre (pixels : Pixels) {c : ℚ} (hc : c ≤ 1) :
    (⟨pixels, true, ⟨0, c⟩⟩ : Pattern).weights = some ⟨c, 1 - c, 0⟩ := by
  have hne : 1 - c + epsilon ≠ 0 := by linarith [epsilon_pos]
  simp only [Pattern.weights, if_true, UpscaleCut.triangle, sub_zero, sub_self, div?_of_ne hne, zero_div,
    Option.bind_eq_bind, Option.bind_some, Option.pure_def]

/-- With no weight on the second blend the first one is the colour. -/
theorem blendPattern_first {pattern : Pattern} {x y : ℚ} {c : Vec3 ℚ} (hweights : pattern.weights = some ⟨x, y, 0⟩)
    (hfirst : p.blend pattern.pixels.p0 pattern.pixels.p1 x = some c) : p.blendPattern pattern = some c := by
  obtain ⟨r, -, -, hsecond⟩ := h.blend_mem pattern.pixels.p2 pattern.pixels.p3 y
  simp only [blendPattern, hweights, hfirst, hsecond, Option.bind_eq_bind, Option.bind_some]
  exact blend_zero h hp _ _

theorem blendPattern_centre (texels : Pixels) (hx : Int.fract screenCoords.x = 0) (hy : Int.fract screenCoords.y = 0) :
    ∃ r, 0 ≤ r ∧ r ≤ 1 / 51 ∧ (p.diagonal0609 texels = false → r = 0) ∧
      p.blendPattern (p.pattern texels screenCoords) = some (texels.p0.mix texels.p1 r) := by
  cases hflip : p.diagonal0609 texels with
  | true =>
    have hpattern : p.pattern texels screenCoords = ⟨⟨texels.p1, texels.p0, texels.p0, texels.p2⟩, true, ⟨0, 1⟩⟩ := by
      simp only [pattern, hflip, Bool.or_true, if_true, Pixels.flipped, position, Vec2.map, hx, hy, pattern1, sub_zero]
      rfl
    obtain ⟨r, hr, hr', hfirst⟩ := blend_one h hp texels.p1 texels.p0
    refine ⟨r, hr, hr', fun hother => absurd hother (by decide), ?_⟩
    rw [hpattern]
    exact blendPattern_first h hp (weights_centre _ le_rfl) hfirst
  | false =>
    have hself : texels.p0.mix texels.p1 0 = texels.p0 := by simp [Vec3.mix, Vec3.zipWith, mix]
    refine ⟨0, le_rfl, by norm_num, fun _ => rfl, ?_⟩
    rw [hself]
    cases hdiagonal : p.diagonal0510 texels with
    | true =>
      have hpattern : p.pattern texels screenCoords =
          ⟨⟨texels.p0, texels.p1, texels.p1, texels.p3⟩, true, ⟨0, 0⟩⟩ := by
        simp only [pattern, hflip, hdiagonal, Bool.or_false, Bool.false_eq_true, if_true, if_false, Pixels.flipped,
          position, Vec2.map, hx, hy, pattern1]
        rfl
      rw [hpattern]
      exact blendPattern_first h hp (weights_centre _ zero_le_one) (blend_zero h hp texels.p0 texels.p1)
    | false =>
      have hpattern : p.pattern texels screenCoords = ⟨texels, false, ⟨0, 0⟩⟩ := by
        simp only [pattern, hflip, hdiagonal, Bool.or_false, Bool.false_eq_true, if_false, Pixels.flipped,
          position, Vec2.map, hx, hy, pattern0]
      rw [hpattern]
      exact blendPattern_first h hp rfl (blend_zero h hp texels.p0 texels.p1)

end Params
end UpscaleCut
end SweetHome
