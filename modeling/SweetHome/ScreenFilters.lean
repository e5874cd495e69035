import SweetHome.Lib.Interpolation
import Mathlib.Data.Rat.Floor

/-!
# The filters of the picture

The shaders that draw a picture in one pass, in exact arithmetic. `defaultSharpFragment` moves the place where it
samples the texture towards the centre of the texel: but for the width of a screen pixel at the borders a texel is
shown as it is, there only those across the border are mixed in, and from one screen pixel to the next the picture
changes by three quarters of the contrast between texels at most (`shown_sharp`). The LCD and the CRT filter shade what
the sharp and the default one show (`pictures`). The shaders treat the channels alike; this is
one of them.
-/

namespace SweetHome.ScreenFilters
open Glsl Averages Interpolation

/-- A texture with its filter and wrap mode, in texture coordinates. -/
abbrev Sampler (K : Type) := K → K → K

/-! ### The shaders -/

section
variable {K : Type} [Field K] [LinearOrder K]

/-- Each is linear in the position, so that a fragment finds them as a vertex does. -/
structure Varyings (K : Type) where
  coords : Vec2 K
  screenCoords : Vec2 K
  screenMaskStrength : K
deriving Repr

def defaultShaderVertex (textureSize : Vec2 K) (screenDensity : K) (vCoordinate : Vec2 K) : Option (Varyings K) := do
  let screenMaskStrength ← smoothstep? ((2 : Nat) : K) ((6 : Nat) : K) screenDensity
  some {
    coords := vCoordinate
    screenCoords := ⟨vCoordinate.x * textureSize.x, vCoordinate.y * textureSize.y⟩
    screenMaskStrength }

def defaultShaderFragment (texture : Sampler K) (v : Varyings K) : K := texture v.coords.x v.coords.y

/-- What the CRT and the LCD filter make of a texel. -/
def shade (intensity brightboost texel mask screenMaskStrength : K) : K :=
  let pixelHigh := ((1 + brightboost) - 1 / (5 : Nat) * texel) * texel
  let pixelLow := ((1 - intensity) + 1 / (10 : Nat) * texel) * texel
  mix texel (mix pixelLow pixelHigh mask) screenMaskStrength

variable [FloorRing K]

/-- One component of `floor(screenCoords) + x`. -/
def sharpCoord (screenDensity screenCoord : K) : Option K := do
  let threshold ← div? 1 screenDensity
  let x := Int.fract screenCoord
  let low ← smoothstep? 0 threshold x
  let high ← smoothstep? (1 - threshold) 1 x
  some (⌊screenCoord⌋ + 1 / (2 : Nat) * (low + high))

def sharpTexel (texture : Sampler K) (textureSize : Vec2 K) (screenDensity : K) (v : Varyings K) : Option K := do
  let x ← sharpCoord screenDensity v.screenCoords.x
  let y ← sharpCoord screenDensity v.screenCoords.y
  some (texture (← div? x textureSize.x) (← div? y textureSize.y))

def defaultSharpFragment (texture : Sampler K) (textureSize : Vec2 K) (screenDensity : K) (v : Varyings K) : Option K :=
  sharpTexel texture textureSize screenDensity v

def crtShaderFragment (texture : Sampler K) (v : Varyings K) : K :=
  let texel := texture v.coords.x v.coords.y
  let coord := Int.fract v.screenCoords.y * (2 : Nat) - 1
  let mask := 1 - |coord|
  shade (((3 : Nat) : K) / (10 : Nat)) (((3 : Nat) : K) / (10 : Nat)) texel mask v.screenMaskStrength

def lcdShaderFragment (texture : Sampler K) (textureSize : Vec2 K) (screenDensity : K) (v : Varyings K) :
    Option K := do
  let texel ← sharpTexel texture textureSize screenDensity v
  let x := Int.fract v.screenCoords.x * (2 : Nat) - 1
  let y := Int.fract v.screenCoords.y * (2 : Nat) - 1
  let mask := 1 - x * x - y * y
  some (shade (1 / (4 : Nat)) (1 / (4 : Nat)) texel mask v.screenMaskStrength)

/-! ### The pictures, in texture coordinates -/

section
variable (width height : Nat) (texels : Nat → Nat → K) (screenDensity u v : K)

def varyings : Option (Varyings K) := defaultShaderVertex ⟨width, height⟩ screenDensity ⟨u, v⟩

def defaultPicture : Option K := do
  some (defaultShaderFragment (texture2D width height texels) (← varyings width height screenDensity u v))

def sharpPicture : Option K := do
  defaultSharpFragment (texture2D width height texels) ⟨width, height⟩ screenDensity
    (← varyings width height screenDensity u v)

def crtPicture : Option K := do
  some (crtShaderFragment (texture2D width height texels) (← varyings width height screenDensity u v))

def lcdPicture : Option K := do
  lcdShaderFragment (texture2D width height texels) ⟨width, height⟩ screenDensity
    (← varyings width height screenDensity u v)

end

end

/-! ### Where the sharp filter samples -/

variable {K : Type} [Field K] [LinearOrder K] [IsStrictOrderedRing K] {screenDensity : K}

/-- The place in a texel, twice: flat in the middle, and steep for a screen pixel at either border. -/
def ramp (screenDensity s : K) : K := smoothstep 0 (1 / screenDensity) s + smoothstep (1 - 1 / screenDensity) 1 s

section
variable {s t : K}

theorem border_le_half (hd : 2 ≤ screenDensity) : 0 < 1 / screenDensity ∧ 1 / screenDensity ≤ 1 / 2 :=
  ⟨by positivity, one_div_le_one_div_of_le two_pos hd⟩

theorem ramp_mem (hd : 2 ≤ screenDensity) (s : K) : 0 ≤ ramp screenDensity s ∧ ramp screenDensity s ≤ 2 := by
  obtain ⟨hborder, hhalf⟩ := border_le_half hd
  have hlow := smoothstep_mem hborder s
  have hhigh := smoothstep_mem (by linarith : 1 - 1 / screenDensity < 1) s
  rw [ramp]
  constructor <;> linarith

theorem ramp_zero (hd : 2 ≤ screenDensity) : ramp screenDensity 0 = 0 := by
  obtain ⟨hborder, hhalf⟩ := border_le_half hd
  rw [ramp, smoothstep_of_le hborder le_rfl, smoothstep_of_le (by linarith) (by linarith), add_zero]

theorem ramp_one (hd : 2 ≤ screenDensity) : ramp screenDensity 1 = 2 := by
  obtain ⟨hborder, hhalf⟩ := border_le_half hd
  rw [ramp, smoothstep_of_ge hborder (by linarith), smoothstep_of_ge (by linarith) le_rfl, one_add_one_eq_two]

theorem ramp_flat (hd : 2 ≤ screenDensity) (hs : 1 / screenDensity ≤ s) (hs' : s ≤ 1 - 1 / screenDensity) :
    ramp screenDensity s = 1 := by
  obtain ⟨hborder, hhalf⟩ := border_le_half hd
  rw [ramp, smoothstep_of_ge hborder hs, smoothstep_of_le (by linarith) hs', add_zero]

theorem ramp_sub_mem (hd : 2 ≤ screenDensity) (hst : s ≤ t) :
    0 ≤ ramp screenDensity t - ramp screenDensity s ∧
      ramp screenDensity t - ramp screenDensity s ≤ 3 / 2 * screenDensity * (t - s) := by
  obtain ⟨hborder, hhalf⟩ := border_le_half hd
  -- In either half of the texel one of the two steps does not change.
  have hleft : ∀ {s t : K}, s ≤ t → t ≤ 1 / 2 → 0 ≤ ramp screenDensity t - ramp screenDensity s ∧
      ramp screenDensity t - ramp screenDensity s ≤ 3 / 2 * screenDensity * (t - s) := by
    intro s t hst ht
    have hstep := smoothstep_sub_mem hborder hst
    rw [ramp, ramp, smoothstep_of_le (x := s) (by linarith) (by linarith : s ≤ 1 - 1 / screenDensity),
      smoothstep_of_le (x := t) (by linarith) (by linarith : t ≤ 1 - 1 / screenDensity), add_zero, add_zero]
    rwa [sub_zero, div_div_eq_mul_div, div_one] at hstep
  have hright : ∀ {s t : K}, s ≤ t → 1 / 2 ≤ s → 0 ≤ ramp screenDensity t - ramp screenDensity s ∧
      ramp screenDensity t - ramp screenDensity s ≤ 3 / 2 * screenDensity * (t - s) := by
    intro s t hst hs
    have hstep := smoothstep_sub_mem (by linarith : 1 - 1 / screenDensity < 1) hst
    rw [ramp, ramp, smoothstep_of_ge (x := s) hborder (by linarith),
      smoothstep_of_ge (x := t) hborder (by linarith), add_sub_add_left_eq_sub]
    rwa [sub_sub_cancel, div_div_eq_mul_div, div_one] at hstep
  rcases le_total t (1 / 2) with ht | ht
  · exact hleft hst ht
  rcases le_total (1 / 2) s with hs | hs
  · exact hright hst hs
  · have hfirst := hleft hs le_rfl
    have hlast := hright ht le_rfl
    constructor
    · linarith [hfirst.1, hlast.1]
    · linarith [hfirst.2, hlast.2]

end

variable [FloorRing K]

def sharp (screenDensity c : K) : K := ⌊c⌋ + 1 / (2 : Nat) * ramp screenDensity (Int.fract c)

theorem sharpCoord_eq (hd : 2 ≤ screenDensity) (c : K) : sharpCoord screenDensity c = some (sharp screenDensity c) := by
  obtain ⟨hborder, hhalf⟩ := border_le_half hd
  rw [sharpCoord, div?_of_ne (by positivity), Option.bind_eq_bind, Option.bind_some]
  simp only [smoothstep?_of_lt hborder, smoothstep?_of_lt (by linarith : 1 - 1 / screenDensity < 1),
    Option.bind_some]
  rfl

variable {c : K}

theorem sharp_of_mem (hd : 2 ≤ screenDensity) {i : Int} (hi : i ≤ c) (hc : c ≤ i + 1) :
    sharp screenDensity c = i + 1 / 2 * ramp screenDensity (c - i) := by
  rcases hc.eq_or_lt with rfl | hlt
  · rw [sharp, Int.fract, Int.floor_add_one, Int.floor_intCast, add_sub_cancel_left, ramp_one hd]
    push_cast
    rw [sub_self, ramp_zero hd]
    ring
  · rw [sharp, Int.fract, (Int.floor_eq_iff.2 ⟨hi, hlt⟩ : ⌊c⌋ = i), Nat.cast_ofNat]

theorem abs_sharp_sub_le (hd : 2 ≤ screenDensity) (x y : K) :
    |sharp screenDensity x - sharp screenDensity y| ≤ 3 / 4 * screenDensity * |x - y| := by
  refine abs_sub_le_of_cells (fun i x y hx hxy hy => ?_) x y
  rw [sharp_of_mem hd hx (hxy.trans hy), sharp_of_mem hd (hx.trans hxy) hy, abs_sub_comm]
  have hramp := ramp_sub_mem hd (sub_le_sub_right hxy (i : K))
  rw [abs_of_nonneg (by linarith [hramp.1])]
  linarith [hramp.2]

/-- The part a texel has in what is shown at its place `c`: at least a half, and all of it away from the borders. -/
structure OwnPart (screenDensity c a : K) : Prop where
  half_le : 1 / 2 ≤ a
  le_one : a ≤ 1
  inner : 1 / screenDensity ≤ Int.fract c → Int.fract c ≤ 1 - 1 / screenDensity → a = 1

theorem sharp_near (hd : 2 ≤ screenDensity) (c : K) :
    ∃ i a, |i - ⌊c⌋| ≤ 1 ∧ OwnPart screenDensity c a ∧ ∀ value : Int → K,
      interpolate value (sharp screenDensity c - 1 / (2 : Nat)) = mix (value i) (value ⌊c⌋) a := by
  have hramp := ramp_mem hd (Int.fract c)
  have hplace : sharp screenDensity c - 1 / (2 : Nat) - ⌊c⌋ = (ramp screenDensity (Int.fract c) - 1) / 2 := by
    rw [sharp, Nat.cast_ofNat]
    ring
  have hnear : |sharp screenDensity c - 1 / (2 : Nat) - ⌊c⌋| ≤ 1 / 2 := by
    rw [hplace, abs_le]
    constructor <;> linarith [hramp.1, hramp.2]
  obtain ⟨i, hi, hvalue⟩ := interpolate_near (hnear.trans (by norm_num))
  refine ⟨i, _, hi, ⟨?_, ?_, fun hfract hfract' => ?_⟩, hvalue⟩
  · linarith
  · linarith [abs_nonneg (sharp screenDensity c - 1 / (2 : Nat) - ⌊c⌋)]
  · rw [hplace, ramp_flat hd hfract hfract']
    norm_num

/-! ### The picture -/

variable {width height : Nat} {texels : Nat → Nat → K}

/-- The sample that the filter takes. -/
def shown (width height : Nat) (texels : Nat → Nat → K) (screenDensity u v : K) : K :=
  texture2D width height texels (sharp screenDensity (u * width) / width) (sharp screenDensity (v * height) / height)

theorem sharpTexel_eq (hd : 2 ≤ screenDensity) (hwidth : 0 < width) (hheight : 0 < height) (u v strength : K) :
    sharpTexel (texture2D width height texels) ⟨width, height⟩ screenDensity
      ⟨⟨u, v⟩, ⟨u * width, v * height⟩, strength⟩ = some (shown width height texels screenDensity u v) := by
  have hne : (width : K) ≠ 0 := by exact_mod_cast hwidth.ne'
  have hne' : (height : K) ≠ 0 := by exact_mod_cast hheight.ne'
  simp only [sharpTexel, sharpCoord_eq hd, div?_of_ne hne, div?_of_ne hne', Option.bind_eq_bind, Option.bind_some]
  rfl

omit [FloorRing K] in
theorem varyings_eq (width height : Nat) (screenDensity u v : K) : varyings width height screenDensity u v =
    some ⟨⟨u, v⟩, ⟨u * width, v * height⟩, smoothstep (2 : Nat) (6 : Nat) screenDensity⟩ := by
  have hstep : ((2 : Nat) : K) < (6 : Nat) := by norm_num
  rw [varyings, defaultShaderVertex, smoothstep?_of_lt hstep]
  rfl

theorem sharpPicture_eq (hd : 2 ≤ screenDensity) (hwidth : 0 < width) (hheight : 0 < height) (u v : K) :
    sharpPicture width height texels screenDensity u v = some (shown width height texels screenDensity u v) := by
  rw [sharpPicture, varyings_eq]
  exact sharpTexel_eq hd hwidth hheight u v _

/-- A picture in which a texel is shown as it is away from its borders; has, nearer to one, at least half of what is
shown, in either direction; and which changes from one screen pixel to the next by three quarters of the contrast
between texels at most. -/
structure Sharp (width height : Nat) (texels : Nat → Nat → K) (screenDensity contrast : K) (picture : K → K → K) :
    Prop where
  texel : ∀ u v : K, ∃ (i j : Int) (a b : K), |i - ⌊u * width⌋| ≤ 1 ∧ |j - ⌊v * height⌋| ≤ 1 ∧
    OwnPart screenDensity (u * width) a ∧ OwnPart screenDensity (v * height) b ∧
    let texel (x y : Int) := texels (clampToEdge width x) (clampToEdge height y)
    picture u v = mix (mix (texel i j) (texel ⌊u * width⌋ j) a)
      (mix (texel i ⌊v * height⌋) (texel ⌊u * width⌋ ⌊v * height⌋) a) b
  step : ∀ u v u' v' : K, |picture u v - picture u' v'| ≤
    3 / 4 * screenDensity * contrast * (|u * width - u' * width| + |v * height - v' * height|)

theorem shown_sharp {contrast : K} (hd : 2 ≤ screenDensity) (hwidth : 0 < width) (hheight : 0 < height)
    (hcontrast : Contrast width height texels contrast) :
    Sharp width height texels screenDensity contrast (shown width height texels screenDensity) := by
  have hne : (width : K) ≠ 0 := by exact_mod_cast hwidth.ne'
  have hne' : (height : K) ≠ 0 := by exact_mod_cast hheight.ne'
  constructor
  · intro u v
    obtain ⟨i, a, hi, ha, hrow⟩ := sharp_near hd (u * width)
    obtain ⟨j, b, hj, hb, hcolumn⟩ := sharp_near hd (v * height)
    refine ⟨i, j, a, b, hi, hj, ha, hb, ?_⟩
    rw [shown, texture2D_eq, div_mul_cancel₀ _ hne, div_mul_cancel₀ _ hne', hcolumn]
    simp only [hrow]
  · intro u v u' v'
    have hsample := hcontrast.abs_texture2D_sub_le hwidth hheight (sharp screenDensity (u * width) / width)
      (sharp screenDensity (v * height) / height) (sharp screenDensity (u' * width) / width)
      (sharp screenDensity (v' * height) / height)
    simp only [div_mul_cancel₀ _ hne, div_mul_cancel₀ _ hne'] at hsample
    have hx := abs_sharp_sub_le hd (u * width) (u' * width)
    have hy := abs_sharp_sub_le hd (v * height) (v' * height)
    calc |shown width height texels screenDensity u v - shown width height texels screenDensity u' v'|
        ≤ contrast * (|sharp screenDensity (u * width) - sharp screenDensity (u' * width)| +
            |sharp screenDensity (v * height) - sharp screenDensity (v' * height)|) := hsample
      _ ≤ contrast * (3 / 4 * screenDensity * |u * width - u' * width| +
            3 / 4 * screenDensity * |v * height - v' * height|) :=
          mul_le_mul_of_nonneg_left (add_le_add hx hy) hcontrast.nonneg
      _ = 3 / 4 * screenDensity * contrast * (|u * width - u' * width| + |v * height - v' * height|) := by ring

/-! ### Shades -/

/-- Black stays black, and what is brighter stays brighter. White is brightened by a tenth at most and nothing by more
than `9/80`, which is what the CRT filter adds to a channel of `3/4` in the middle of a line. -/
structure Shading (f : K → K) : Prop where
  black : f 0 = 0
  strictMonoOn : StrictMonoOn f (Set.Icc 0 1)
  brighter : ∀ x ∈ Set.Icc (0 : K) 1, f x ≤ x + 9 / 80
  white : f 1 ≤ 11 / 10

omit [FloorRing K] in
theorem shade_sub (intensity texel mask strength : K) : shade intensity intensity texel mask strength =
    texel + strength * (texel * ((1 - mask) * (texel / 10 - intensity) + mask * (intensity - texel / 5))) := by
  simp only [shade, mix, Nat.cast_ofNat]
  ring

omit [FloorRing K] in
/-- The mask brightens most where it is `1`. -/
theorem mask_le {intensity texel mask : K} (hintensity : 3 / 20 ≤ intensity) (htexel : texel ≤ 1) (hmask : mask ≤ 1) :
    (1 - mask) * (texel / 10 - intensity) + mask * (intensity - texel / 5) ≤ intensity - texel / 5 := by
  have hrest : 0 ≤ (1 - mask) * (2 * intensity - 3 / 10 * texel) :=
    mul_nonneg (by linarith) (by linarith)
  linarith

omit [FloorRing K] in
theorem shading_shade {intensity mask strength : K} (hintensity : 3 / 20 ≤ intensity) (hintensity' : intensity ≤ 3 / 10)
    (hmask : -1 ≤ mask) (hmask' : mask ≤ 1) (hstrength : 0 ≤ strength) (hstrength' : strength ≤ 1) :
    Shading fun texel => shade intensity intensity texel mask strength where
  black := by simp [shade, mix]
  strictMonoOn := by
    intro x hx y hy hxy
    -- The shades are affine in the mask, and both ends of it rise.
    have hrise : 0 < (1 + mask) / 2 * (1 + intensity - 1 / 5 * (x + y)) +
        (1 - mask) / 2 * (1 - 3 * intensity + 2 / 5 * (x + y)) := by
      rcases le_total mask 0 with hzero | hzero
      · refine add_pos_of_nonneg_of_pos (mul_nonneg ?_ ?_) (mul_pos ?_ ?_) <;> linarith [hx.1, hx.2, hy.1, hy.2]
      · refine add_pos_of_pos_of_nonneg (mul_pos ?_ ?_) (mul_nonneg ?_ ?_) <;> linarith [hx.1, hx.2, hy.1, hy.2]
    have hsplit : shade intensity intensity y mask strength - shade intensity intensity x mask strength =
        (y - x) * (1 - strength + strength * ((1 + mask) / 2 * (1 + intensity - 1 / 5 * (x + y)) +
          (1 - mask) / 2 * (1 - 3 * intensity + 2 / 5 * (x + y)))) := by
      simp only [shade, mix, Nat.cast_ofNat]
      ring
    refine sub_pos.1 (hsplit ▸ mul_pos (sub_pos.2 hxy) ?_)
    rcases hstrength.eq_or_lt with rfl | hpos
    · norm_num
    · exact add_pos_of_nonneg_of_pos (sub_nonneg.2 hstrength') (mul_pos hpos hrise)
  brighter := by
    intro x hx
    have hmost : x * ((1 - mask) * (x / 10 - intensity) + mask * (intensity - x / 5)) ≤ 9 / 80 :=
      calc x * ((1 - mask) * (x / 10 - intensity) + mask * (intensity - x / 5))
          ≤ x * (3 / 10 - x / 5) :=
            mul_le_mul_of_nonneg_left ((mask_le hintensity hx.2 hmask').trans (by linarith)) hx.1
        _ ≤ 9 / 80 := by linarith [sq_nonneg (x - 3 / 4)]
    rw [shade_sub]
    have hstrengthened := mul_le_mul_of_nonneg_left hmost hstrength
    linarith
  white := by
    have hmost := mul_le_mul_of_nonneg_left ((mask_le hintensity le_rfl hmask').trans
      (by linarith : intensity - 1 / 5 ≤ 1 / 10)) hstrength
    rw [shade_sub, one_mul]
    linarith

/-- The place in a texel, from `-1` to `1`. -/
theorem fract_mul_two_sub_one_mem (c : K) : |Int.fract c * (2 : Nat) - 1| ≤ 1 := by
  rw [Nat.cast_ofNat, abs_le]
  constructor <;> linarith [Int.fract_nonneg c, Int.fract_lt_one c]

omit [FloorRing K] in
theorem strength_mem (screenDensity : K) :
    0 ≤ smoothstep ((2 : Nat) : K) (6 : Nat) screenDensity ∧ smoothstep ((2 : Nat) : K) (6 : Nat) screenDensity ≤ 1 :=
  smoothstep_mem (by norm_num) screenDensity

theorem crtPicture_eq (width height : Nat) (screenDensity u v : K) :
    ∃ f, Shading f ∧ ∀ texels, crtPicture width height texels screenDensity u v =
      (defaultPicture width height texels screenDensity u v).map f := by
  obtain ⟨hstrength, hstrength'⟩ := strength_mem screenDensity
  have hcoord := fract_mul_two_sub_one_mem (v * height)
  have hcoord' := abs_nonneg (Int.fract (v * height) * ((2 : Nat) : K) - 1)
  have hshading : Shading fun texel => shade (((3 : Nat) : K) / (10 : Nat)) (((3 : Nat) : K) / (10 : Nat)) texel
      (1 - |Int.fract (v * height) * (2 : Nat) - 1|) (smoothstep (2 : Nat) (6 : Nat) screenDensity) :=
    shading_shade (by norm_num) (by norm_num) (by linarith) (by linarith) hstrength hstrength'
  refine ⟨_, hshading, fun texels => ?_⟩
  rw [crtPicture, defaultPicture, varyings_eq]
  rfl

theorem lcdPicture_eq (hd : 2 ≤ screenDensity) (hwidth : 0 < width) (hheight : 0 < height) (u v : K) :
    ∃ f, Shading f ∧ ∀ texels, lcdPicture width height texels screenDensity u v =
      (sharpPicture width height texels screenDensity u v).map f := by
  obtain ⟨hstrength, hstrength'⟩ := strength_mem screenDensity
  generalize hx : Int.fract (u * width) * ((2 : Nat) : K) - 1 = x
  generalize hy : Int.fract (v * height) * ((2 : Nat) : K) - 1 = y
  have hx' : |x| ≤ 1 := hx ▸ fract_mul_two_sub_one_mem (u * width)
  have hy' : |y| ≤ 1 := hy ▸ fract_mul_two_sub_one_mem (v * height)
  have hsquares := add_le_add ((sq_le_one_iff_abs_le_one x).2 hx') ((sq_le_one_iff_abs_le_one y).2 hy')
  have hshading : Shading fun texel => shade (1 / (4 : Nat) : K) (1 / (4 : Nat)) texel (1 - x * x - y * y)
      (smoothstep (2 : Nat) (6 : Nat) screenDensity) :=
    shading_shade (by norm_num) (by norm_num) (by linarith) (by linarith [mul_self_nonneg x, mul_self_nonneg y])
      hstrength hstrength'
  refine ⟨_, hshading, fun texels => ?_⟩
  rw [lcdPicture, sharpPicture_eq hd hwidth hheight, varyings_eq, Option.bind_eq_bind, Option.bind_some,
    lcdShaderFragment, sharpTexel_eq hd hwidth hheight, Option.bind_eq_bind, Option.bind_some, hx, hy]
  rfl

/-- The sharp filter shows each texel sharp, and the LCD filter shades that, the CRT filter what the default one shows,
with shades of the place alone. -/
theorem pictures {contrast : K} (hd : 2 ≤ screenDensity) (hwidth : 0 < width) (hheight : 0 < height)
    (hcontrast : Contrast width height texels contrast) :
    (∃ picture : K → K → K, (∀ u v, sharpPicture width height texels screenDensity u v = some (picture u v)) ∧
      Sharp width height texels screenDensity contrast picture) ∧
    ∀ u v : K,
      (∃ f, Shading f ∧ ∀ texels, lcdPicture width height texels screenDensity u v =
        (sharpPicture width height texels screenDensity u v).map f) ∧
      ∃ f, Shading f ∧ ∀ texels, crtPicture width height texels screenDensity u v =
        (defaultPicture width height texels screenDensity u v).map f :=
  ⟨⟨shown width height texels screenDensity, sharpPicture_eq hd hwidth hheight,
      shown_sharp hd hwidth hheight hcontrast⟩,
    fun u v => ⟨lcdPicture_eq hd hwidth hheight u v, crtPicture_eq width height screenDensity u v⟩⟩

/-- Black beside white, four times as large. -/
theorem pictures_edge :
    (∃ picture : ℚ → ℚ → ℚ, (∀ u v, sharpPicture 2 1 (fun x _ => (x : ℚ)) 4 u v = some (picture u v)) ∧
      Sharp 2 1 (fun x _ => (x : ℚ)) 4 1 picture) ∧
    ∀ u v : ℚ,
      (∃ f, Shading f ∧ ∀ texels, lcdPicture 2 1 texels 4 u v = (sharpPicture 2 1 texels 4 u v).map f) ∧
      ∃ f, Shading f ∧ ∀ texels, crtPicture 2 1 texels 4 u v = (defaultPicture 2 1 texels 4 u v).map f :=
  pictures (by norm_num) two_pos one_pos ⟨fun x y _ _ => by simp, fun x y _ hy => absurd hy (by omega), zero_le_one⟩

end SweetHome.ScreenFilters
