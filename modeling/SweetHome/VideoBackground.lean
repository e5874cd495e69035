import SweetHome.Lib.Averages
import SweetHome.Lib.Round
import Mathlib.Algebra.BigOperators.Field
import Mathlib.Analysis.Complex.Exponential
import Mathlib.Analysis.Real.Sqrt
import Mathlib.Tactic.LinearCombination

/-!
# The picture behind the screen

`VideoBackground` mixes every other frame into a small picture, alternating between two framebuffers, and blurs it
into a third and a fourth. In exact arithmetic, but for what a texel rounds: no pass samples the texture it draws
to, and what is shown follows the frames at half of their brightness (`shown_follows`). `exp` and `sqrt` are
parameters. The shaders treat the channels alike; this is one of them.
-/

namespace SweetHome.VideoBackground
open Glsl Averages

abbrev Image (K : Type) := Nat → Nat → K

/-- A texture with its filter and wrap mode, in texture coordinates. -/
abbrev Sampler (K : Type) := K → K → K

variable {K : Type} [Field K]

/-! ### The shaders -/

variable (exp sqrt : K → K)

def downscaledWidth : Nat := 8

def downscaledHeight : Nat := 8

def blurMaskSize : Nat := 5

def blurBrightness : K := 1 / (2 : Nat)

def blurSkipUpdate : Nat := 2

def generateSmoothingWeights (size : Nat) (brightness : K) (i : Nat) : K :=
  let sigma : K := size / (3 : Nat)
  let halfSize : Int := (size / 2 : Nat)
  let kernel (i : Nat) : K :=
    let x : Int := i - halfSize
    exp (-((x * x : Int) : K) / ((2 : Nat) * sigma * sigma))
  let sum := ∑ i ∈ Finset.range size, kernel i
  kernel i / sum * brightness

/-- The kernel that `generateBlurShader` writes into the shader. -/
def kernel (i : Nat) : K := generateSmoothingWeights exp blurMaskSize (sqrt blurBrightness) i

/-- The loop's `i` starts at `-halfMask`. -/
def blurFragment (texture : Sampler K) (direction : Vec2 K) (vTexCoord : Vec2 K) : K :=
  let halfMask := blurMaskSize / 2
  ∑ turn ∈ Finset.range (2 * halfMask + 1),
    let i : Int := turn - halfMask
    texture (vTexCoord.x + i * direction.x) (vTexCoord.y + i * direction.y) * kernel exp sqrt (i + halfMask).toNat

/-- What of the current frame is mixed in. -/
def blendWeight : K := 1 / (10 : Nat)

theorem blendWeight_eq : (blendWeight : K) = 1 / 10 := by rw [blendWeight, Nat.cast_ofNat]

/-- One component of the shader's `adjustedCoord`. -/
def adjustedCoord (c : K) : K :=
  let margin : K := -(1 / (8 : Nat))
  c * (1 - (2 : Nat) * margin) + margin

def blendingFragment (currentFrame previousFrame : Sampler K) (vTexCoord : Vec2 K) : K :=
  let currentColor := currentFrame (adjustedCoord vTexCoord.x) (adjustedCoord vTexCoord.y)
  let prevColor := previousFrame vTexCoord.x vTexCoord.y
  mix prevColor currentColor blendWeight

section
variable [LinearOrder K] [IsStrictOrderedRing K]

/-- The loop of the shader goes over the whole kernel. -/
theorem sum_kernel (hexp : ∀ x, 0 < exp x) :
    ∑ turn ∈ Finset.range (2 * (blurMaskSize / 2) + 1),
      kernel exp sqrt ((turn : Int) - (blurMaskSize / 2 : Nat) + (blurMaskSize / 2 : Nat)).toNat =
        sqrt blurBrightness := by
  simp only [Int.sub_add_cancel, Int.toNat_natCast, kernel, generateSmoothingWeights]
  rw [show 2 * (blurMaskSize / 2) + 1 = blurMaskSize from rfl, ← Finset.sum_mul, ← Finset.sum_div, div_self, one_mul]
  exact (Finset.sum_pos (fun i _ => hexp _) ⟨0, by decide⟩).ne'

theorem kernel_nonneg (hexp : ∀ x, 0 < exp x) (hsqrt : 0 ≤ sqrt blurBrightness) (i : Nat) :
    0 ≤ kernel exp sqrt i :=
  mul_nonneg (div_nonneg (hexp _).le (Finset.sum_nonneg fun _ _ => (hexp _).le)) hsqrt

variable {exp sqrt} {texture : Sampler K} {direction v : Vec2 K}

theorem abs_blurFragment_sub_le {c d : K} (hexp : ∀ x, 0 < exp x) (hsqrt : 0 ≤ sqrt blurBrightness)
    (h : ∀ i : Int, |texture (v.x + i * direction.x) (v.y + i * direction.y) - c| ≤ d) :
    |blurFragment exp sqrt texture direction v - sqrt blurBrightness * c| ≤ sqrt blurBrightness * d := by
  rw [← sum_kernel exp sqrt hexp]
  exact abs_sum_sub_le (fun i _ => kernel_nonneg exp sqrt hexp hsqrt _) fun turn _ => h _

theorem blurFragment_mem (hexp : ∀ x, 0 < exp x) (hsqrt : 0 ≤ sqrt blurBrightness)
    (h : ∀ i : Int, texture (v.x + i * direction.x) (v.y + i * direction.y) ∈ Set.Icc 0 1) :
    blurFragment exp sqrt texture direction v ∈ Set.Icc 0 (sqrt blurBrightness) := by
  rw [← sum_kernel exp sqrt hexp]
  exact sum_mul_mem (fun i _ => kernel_nonneg exp sqrt hexp hsqrt _) fun turn _ => h _

end

/-! ### Texels -/

section
variable [LinearOrder K] [IsStrictOrderedRing K] {store : K → K} {r c d : K}

/-- What a texel keeps of a colour, to within `r`. -/
structure Stores (store : K → K) (r : K) : Prop where
  mem : ∀ v ∈ Set.Icc 0 1, store v ∈ Set.Icc 0 1
  near : ∀ v ∈ Set.Icc 0 1, |store v - v| ≤ r

theorem Stores.near_add {v : K} (h : Stores store r) (hv : v ∈ Set.Icc 0 1) (hd : |v - c| ≤ d) :
    store v ∈ Set.Icc 0 1 ∧ |store v - c| ≤ d + r := by
  refine ⟨h.mem v hv, ?_⟩
  have hround := h.near v hv
  calc |store v - c| ≤ |store v - v| + |v - c| := abs_sub_le _ _ _
    _ ≤ d + r := by linarith

/-- The channels of `GL_RGBA8`. -/
theorem stores_byte [FloorRing K] : Stores (fun v : K => (lround (255 * v) : K) / 255) (1 / 510) where
  mem v hv := by
    obtain ⟨hnonneg, hle⟩ := hv
    have hbyte : 0 ≤ lround (255 * v) ∧ lround (255 * v) ≤ 255 := by
      have hclose := abs_le.1 (abs_sub_lround (255 * v))
      constructor
      · have hlower : ((-1 : Int) : K) < lround (255 * v) := by push_cast; linarith
        have hlower := Int.cast_lt.1 hlower
        omega
      · have hupper : (lround (255 * v) : K) < (256 : Int) := by push_cast; linarith
        have hupper := Int.cast_lt.1 hupper
        omega
    have hlower : (0 : K) ≤ lround (255 * v) := by exact_mod_cast hbyte.1
    have hupper : (lround (255 * v) : K) ≤ 255 := by exact_mod_cast hbyte.2
    exact ⟨div_nonneg hlower (by norm_num), (div_le_one (by norm_num)).2 hupper⟩
  near v _ := by
    have hclose := abs_le.1 (abs_sub_lround (255 * v))
    rw [abs_le]
    constructor
    · rw [le_sub_iff_add_le, le_div_iff₀ (by norm_num)]
      linarith
    · rw [sub_le_iff_le_add, div_le_iff₀ (by norm_num)]
      linarith

end

/-! ### The framebuffers -/

structure State (K : Type) where
  /-- By the index of the framebuffer. -/
  blurFramebuffers : Nat → Image K
  blendFramebufferWriteIndex : Nat
  blendFramebufferCurrent : Nat

variable [LinearOrder K] [FloorRing K] (store : K → K)

/-- What a shader draws for every texel of a framebuffer, from the texture of another. -/
def rendered (shader : Sampler K → Vec2 K → K) (image : Image K) : Image K := fun x y =>
  store (shader (texture2D downscaledWidth downscaledHeight image)
    ⟨centre downscaledWidth x, centre downscaledHeight y⟩)

/-- `glDrawArrays` over the whole framebuffer `target` with the texture of `source` bound. To sample the texture that
is drawn to has no defined result. -/
def draw (framebuffers : Nat → Image K) (target source : Nat) (shader : Sampler K → Vec2 K → K) :
    Option (Nat → Image K) :=
  if target = source then none
  else some (Function.update framebuffers target (rendered store shader (framebuffers source)))

def State.renderToFramebuffer (s : State K) (frame : Sampler K) : Option (State K) := do
  let blendFramebufferReadIndex := (s.blendFramebufferWriteIndex + 1) % 2
  let framebuffers ← draw store s.blurFramebuffers s.blendFramebufferWriteIndex blendFramebufferReadIndex
    (blendingFragment frame)
  let framebuffers ← draw store framebuffers 2 s.blendFramebufferWriteIndex fun texture =>
    blurFragment exp sqrt texture ⟨1 / downscaledWidth, 0⟩
  let framebuffers ← draw store framebuffers 3 2 fun texture =>
    blurFragment exp sqrt texture ⟨0, 1 / downscaledHeight⟩
  some { s with blurFramebuffers := framebuffers, blendFramebufferWriteIndex := blendFramebufferReadIndex }

def State.renderBackground (s : State K) (frame : Sampler K) : Option (State K) := do
  let s ← if s.blendFramebufferCurrent = 0 then s.renderToFramebuffer exp sqrt store frame else some s
  some { s with blendFramebufferCurrent := (s.blendFramebufferCurrent + 1) % blurSkipUpdate }

/-- The texture that `renderToFinalOutput` shows. -/
def State.shown (s : State K) : Image K := s.blurFramebuffers 3

/-! ### What one pass draws -/

def Image.All (P : K → Prop) (image : Image K) : Prop :=
  ∀ x < downscaledWidth, ∀ y < downscaledHeight, P (image x y)

theorem draw_eq {framebuffers : Nat → Image K} {target source : Nat} (hne : target ≠ source)
    (shader : Sampler K → Vec2 K → K) :
    draw store framebuffers target source shader =
      some (Function.update framebuffers target (rendered store shader (framebuffers source))) :=
  if_neg hne

/-- The update mixes the picture it read with the frame, and shows it blurred both ways. -/
theorem renderToFramebuffer_spec {s : State K} (hwrite : s.blendFramebufferWriteIndex < 2) (frame : Sampler K) :
    ∃ s', s.renderToFramebuffer exp sqrt store frame = some s' ∧
      s'.blendFramebufferWriteIndex = (s.blendFramebufferWriteIndex + 1) % 2 ∧
      s'.blendFramebufferCurrent = s.blendFramebufferCurrent ∧
      s'.blurFramebuffers s.blendFramebufferWriteIndex = rendered store (blendingFragment frame)
        (s.blurFramebuffers ((s.blendFramebufferWriteIndex + 1) % 2)) ∧
      s'.shown = rendered store (fun texture => blurFragment exp sqrt texture ⟨0, 1 / downscaledHeight⟩)
        (rendered store (fun texture => blurFragment exp sqrt texture ⟨1 / downscaledWidth, 0⟩)
          (s'.blurFramebuffers s.blendFramebufferWriteIndex)) := by
  have hread : s.blendFramebufferWriteIndex ≠ (s.blendFramebufferWriteIndex + 1) % 2 := by omega
  have htwo : 2 ≠ s.blendFramebufferWriteIndex := by omega
  have hthree : s.blendFramebufferWriteIndex ≠ 3 := by omega
  simp only [State.renderToFramebuffer, draw_eq store hread, draw_eq store htwo, draw_eq store (show 3 ≠ 2 by decide),
    Option.bind_eq_bind, Option.bind_some]
  refine ⟨_, rfl, rfl, rfl, ?_, ?_⟩ <;> simp [State.shown, hthree, htwo.symm]

variable [IsStrictOrderedRing K] {exp sqrt store} {P : K → Prop} {image : Image K}

theorem Image.All.sample (h : image.All P) (i j : Int) :
    P (texture2D downscaledWidth downscaledHeight image (centre downscaledWidth i) (centre downscaledHeight j)) := by
  rw [texture2D_centre (by decide) (by decide)]
  exact h _ (clampToEdge_lt (by decide) i) _ (clampToEdge_lt (by decide) j)

/-- A row of samples around the centre of a texel. -/
theorem Image.All.sample_row (h : image.All P) (x y : Nat) (i : Int) :
    P (texture2D downscaledWidth downscaledHeight image (centre downscaledWidth x + i * (1 / downscaledWidth))
      (centre downscaledHeight y + i * 0)) := by
  have hx := centre_add (K := K) (n := downscaledWidth) x i
  rw [mul_zero, add_zero]
  exact hx ▸ h.sample (x + i) y

theorem Image.All.sample_column (h : image.All P) (x y : Nat) (i : Int) :
    P (texture2D downscaledWidth downscaledHeight image (centre downscaledWidth x + i * 0)
      (centre downscaledHeight y + i * (1 / downscaledHeight))) := by
  have hy := centre_add (K := K) (n := downscaledHeight) y i
  rw [mul_zero, add_zero]
  exact hy ▸ h.sample x (y + i)

/-! ### What is near to a colour -/

def Image.Near (c d : K) (image : Image K) : Prop := image.All fun v => v ∈ Set.Icc 0 1 ∧ |v - c| ≤ d

variable {r c d e : K} {n : Nat}

theorem near_blendingFragment (hstore : Stores store r) {frame : Sampler K}
    (hframe : ∀ u v, frame u v ∈ Set.Icc 0 1 ∧ |frame u v - c| ≤ e)
    (himage : image.Near c (drift blendWeight 1 (e + r / blendWeight) n)) :
    (rendered store (blendingFragment frame) image).Near c (drift blendWeight 1 (e + r / blendWeight) (n + 1)) := by
  intro x _ y _
  obtain ⟨hprev, hnear⟩ := himage.sample x y
  obtain ⟨hcurrent, hclose⟩ :=
    hframe (adjustedCoord (centre downscaledWidth x)) (adjustedCoord (centre downscaledHeight y))
  have hpos : 0 < (blendWeight : K) := by norm_num [blendWeight_eq]
  have hle : (blendWeight : K) ≤ 1 := by norm_num [blendWeight_eq]
  have hmem : blendingFragment frame (texture2D downscaledWidth downscaledHeight image)
      ⟨centre downscaledWidth x, centre downscaledHeight y⟩ ∈ Set.Icc 0 1 := mix_mem hprev hcurrent hpos.le hle
  exact ⟨hstore.mem _ hmem, abs_sub_le_drift_succ hpos hle hnear hclose (hstore.near _ hmem)⟩

/-- `sqrt` is a root of the brightness. -/
structure Root (sqrt : K → K) : Prop where
  nonneg : 0 ≤ sqrt blurBrightness
  mul_self : sqrt blurBrightness * sqrt blurBrightness = blurBrightness

theorem Root.le_one (h : Root sqrt) : sqrt blurBrightness ≤ 1 := by
  have hself := h.mul_self
  have hnonneg := h.nonneg
  rw [blurBrightness] at *
  nlinarith

theorem near_blurFragment {x y : Nat} {direction : Vec2 K} (hstore : Stores store r) (hexp : ∀ x, 0 < exp x)
    (hsqrt : Root sqrt)
    (h : ∀ i : Int, (fun v => v ∈ Set.Icc 0 1 ∧ |v - c| ≤ d)
      (texture2D downscaledWidth downscaledHeight image (centre downscaledWidth x + i * direction.x)
        (centre downscaledHeight y + i * direction.y))) :
    rendered store (fun texture => blurFragment exp sqrt texture direction) image x y ∈ Set.Icc 0 1 ∧
      |rendered store (fun texture => blurFragment exp sqrt texture direction) image x y - sqrt blurBrightness * c| ≤
        sqrt blurBrightness * d + r := by
  have hmem := blurFragment_mem hexp hsqrt.nonneg (v := ⟨centre downscaledWidth x, centre downscaledHeight y⟩)
    fun i => (h i).1
  exact hstore.near_add ⟨hmem.1, hmem.2.trans hsqrt.le_one⟩
    (abs_blurFragment_sub_le hexp hsqrt.nonneg fun i => (h i).2)

theorem near_row (hstore : Stores store r) (hexp : ∀ x, 0 < exp x) (hsqrt : Root sqrt) (himage : image.Near c d) :
    (rendered store (fun texture => blurFragment exp sqrt texture ⟨1 / downscaledWidth, 0⟩) image).Near
      (sqrt blurBrightness * c) (sqrt blurBrightness * d + r) := by
  intro x _ y _
  exact near_blurFragment hstore hexp hsqrt fun i => himage.sample_row x y i

theorem near_column (hstore : Stores store r) (hexp : ∀ x, 0 < exp x) (hsqrt : Root sqrt)
    (himage : image.Near c d) :
    (rendered store (fun texture => blurFragment exp sqrt texture ⟨0, 1 / downscaledHeight⟩) image).Near
      (sqrt blurBrightness * c) (sqrt blurBrightness * d + r) := by
  intro x _ y _
  exact near_blurFragment hstore hexp hsqrt fun i => himage.sample_column x y i

/-! ### Runs -/

/-- After `n` updates, with frames that are near to `c`. -/
structure Inv (sqrt : K → K) (c e r : K) (n : Nat) (s : State K) : Prop where
  writeIndex : s.blendFramebufferWriteIndex < 2
  previous : (s.blurFramebuffers ((s.blendFramebufferWriteIndex + 1) % 2)).Near c
    (drift blendWeight 1 (e + r / blendWeight) n)
  shown : 0 < n → s.shown.Near (blurBrightness * c)
    (blurBrightness * drift blendWeight 1 (e + r / blendWeight) n + (sqrt blurBrightness + 1) * r)

theorem inv_renderToFramebuffer {s : State K} (hstore : Stores store r) (hexp : ∀ x, 0 < exp x) (hsqrt : Root sqrt)
    {frame : Sampler K} (hframe : ∀ u v, frame u v ∈ Set.Icc 0 1 ∧ |frame u v - c| ≤ e) (h : Inv sqrt c e r n s) :
    ∃ s', s.renderToFramebuffer exp sqrt store frame = some s' ∧
      s'.blendFramebufferCurrent = s.blendFramebufferCurrent ∧ Inv sqrt c e r (n + 1) s' := by
  have hwrite := h.writeIndex
  obtain ⟨s', hrender, hindex, hcurrent, hblended, hshown⟩ :=
    renderToFramebuffer_spec exp sqrt store hwrite frame
  have hnear := hblended ▸ near_blendingFragment hstore hframe h.previous
  refine ⟨s', hrender, hcurrent, ?_, ?_, fun _ => ?_⟩
  · omega
  · have hback : (s'.blendFramebufferWriteIndex + 1) % 2 = s.blendFramebufferWriteIndex := by omega
    rwa [hback]
  · have hcolumn := near_column hstore hexp hsqrt (near_row hstore hexp hsqrt hnear)
    have hcolour : sqrt blurBrightness * (sqrt blurBrightness * c) = blurBrightness * c := by
      rw [← mul_assoc, hsqrt.mul_self]
    have hbound : ∀ d, sqrt blurBrightness * (sqrt blurBrightness * d + r) + r =
        blurBrightness * d + (sqrt blurBrightness + 1) * r := fun d => by
      linear_combination d * hsqrt.mul_self
    rwa [hcolour, hbound, ← hshown] at hcolumn

/-- One call: with every other one an update. -/
theorem inv_renderBackground {s : State K} (hstore : Stores store r) (hexp : ∀ x, 0 < exp x) (hsqrt : Root sqrt)
    {frame : Sampler K} (hframe : ∀ u v, frame u v ∈ Set.Icc 0 1 ∧ |frame u v - c| ≤ e)
    (hcurrent : s.blendFramebufferCurrent = n % 2) (h : Inv sqrt c e r ((n + 1) / 2) s) :
    ∃ s', s.renderBackground exp sqrt store frame = some s' ∧ s'.blendFramebufferCurrent = (n + 1) % 2 ∧
      Inv sqrt c e r ((n + 1 + 1) / 2) s' := by
  rw [State.renderBackground]
  rcases Nat.mod_two_eq_zero_or_one n with hn | hn
  · obtain ⟨s', hrender, hkept, hinv⟩ := inv_renderToFramebuffer hstore hexp hsqrt hframe h
    have hupdates : (n + 1) / 2 + 1 = (n + 1 + 1) / 2 := by omega
    rw [if_pos (hcurrent.trans hn), hrender]
    refine ⟨_, rfl, ?_, ?_⟩
    · show (s'.blendFramebufferCurrent + 1) % 2 = (n + 1) % 2
      omega
    · exact hupdates ▸ ⟨hinv.writeIndex, hinv.previous, hinv.shown⟩
  · have hupdates : (n + 1) / 2 = (n + 1 + 1) / 2 := by omega
    rw [if_neg (by omega)]
    refine ⟨_, rfl, ?_, ?_⟩
    · show (s.blendFramebufferCurrent + 1) % 2 = (n + 1) % 2
      omega
    · exact hupdates ▸ ⟨h.writeIndex, h.previous, h.shown⟩

theorem inv_run {s : State K} (hstore : Stores store r) (hexp : ∀ x, 0 < exp x) (hsqrt : Root sqrt)
    {frames : List (Sampler K)} (hframes : ∀ frame ∈ frames, ∀ u v, frame u v ∈ Set.Icc 0 1 ∧ |frame u v - c| ≤ e)
    (hcurrent : s.blendFramebufferCurrent = n % 2) (h : Inv sqrt c e r ((n + 1) / 2) s) :
    ∃ s', frames.foldlM (State.renderBackground exp sqrt store) s = some s' ∧
      Inv sqrt c e r ((n + frames.length + 1) / 2) s' := by
  induction frames generalizing s n with
  | nil => exact ⟨s, rfl, h⟩
  | cons frame frames ih =>
    obtain ⟨s', hrender, hcurrent', h'⟩ :=
      inv_renderBackground hstore hexp hsqrt (hframes frame List.mem_cons_self) hcurrent h
    obtain ⟨s'', hrun, h''⟩ := ih (fun f hf => hframes f (List.mem_cons_of_mem _ hf)) hcurrent' h'
    refine ⟨s'', ?_, ?_⟩
    · rw [List.foldlM_cons, hrender]
      exact hrun
    · rw [List.length_cons]
      convert h'' using 2
      omega

/-- `initializeFramebuffers`, where nothing says what the textures hold. -/
def State.initial (blurFramebuffers : Nat → Image K) : State K :=
  { blurFramebuffers, blendFramebufferWriteIndex := 0, blendFramebufferCurrent := 0 }

/-- Whatever the textures first held: while the frames are within `e` of a colour, the background comes to within
half of that and of what ten texels round, but for two roundings of the blur. -/
theorem shown_follows {blurFramebuffers : Nat → Image K} (hstore : Stores store r) (hexp : ∀ x, 0 < exp x)
    (hsqrt : Root sqrt) (hc : c ∈ Set.Icc 0 1) (hfirst : ∀ i, (blurFramebuffers i).All (· ∈ Set.Icc 0 1))
    {frames : List (Sampler K)} (hnil : frames ≠ [])
    (hframes : ∀ frame ∈ frames, ∀ u v, frame u v ∈ Set.Icc 0 1 ∧ |frame u v - c| ≤ e) :
    ∃ s, frames.foldlM (State.renderBackground exp sqrt store) (State.initial blurFramebuffers) = some s ∧
      ∀ x < downscaledWidth, ∀ y < downscaledHeight, |s.shown x y - blurBrightness * c| ≤
        blurBrightness * drift blendWeight 1 (e + r / blendWeight) ((frames.length + 1) / 2) +
          (sqrt blurBrightness + 1) * r := by
  have hstart : Inv sqrt c e r 0 (State.initial blurFramebuffers) := by
    refine ⟨Nat.zero_lt_two, fun x hx y hy => ?_, fun h => absurd h (lt_irrefl 0)⟩
    obtain ⟨hnonneg, hle⟩ := hfirst 1 x hx y hy
    obtain ⟨hcnonneg, hcle⟩ := hc
    have hnear : |blurFramebuffers 1 x y - c| ≤ 1 := abs_sub_le_iff.2 ⟨by linarith, by linarith⟩
    exact ⟨⟨hnonneg, hle⟩, (drift_zero blendWeight (1 : K) (e + r / blendWeight)).symm ▸ hnear⟩
  obtain ⟨s, hrun, hinv⟩ := inv_run (n := 0) hstore hexp hsqrt hframes rfl hstart
  have hpos : 0 < frames.length := List.length_pos_iff.2 hnil
  rw [Nat.zero_add] at hinv
  refine ⟨s, hrun, fun x hx y hy => ?_⟩
  exact (hinv.shown (by omega) x hx y hy).2

/-- A grey frame and then a white one, over textures that were black. A texel keeps a byte. -/
theorem shown_follows_grey :
    ∃ s, [fun _ _ => 1 / 2, fun _ _ => 1].foldlM
        (State.renderBackground Real.exp Real.sqrt fun v => (lround (255 * v) : ℝ) / 255)
        (State.initial fun _ _ _ => 0) = some s ∧
      ∀ x < downscaledWidth, ∀ y < downscaledHeight, |s.shown x y - blurBrightness * (1 / 2)| ≤
        blurBrightness * drift blendWeight 1 (1 / 2 + 1 / 510 / blendWeight) 1 +
          (Real.sqrt blurBrightness + 1) * (1 / 510) := by
  have hbrightness : (0 : ℝ) ≤ blurBrightness := by norm_num [blurBrightness]
  refine shown_follows stores_byte Real.exp_pos
    ⟨Real.sqrt_nonneg _, Real.mul_self_sqrt hbrightness⟩ ⟨by norm_num, by norm_num⟩
    (fun _ _ _ _ _ => ⟨le_rfl, zero_le_one⟩) (List.cons_ne_nil _ _) fun frame hframe u v => ?_
  rcases List.mem_pair.1 hframe with rfl | rfl <;> norm_num [abs_of_pos]

end SweetHome.VideoBackground
