import SweetHome.ImageRenderers

/-!
# The frame buffer of the core

The renderers convert a frame where it lies, in the buffer that the core handed over as const, in steps of
four or two bytes whatever the pitch. A core that submits the buffer again has it converted again: red and
blue are swapped back, and the fields of 0RGB1555 move up by one more bit. The buffer is left as it was, and
the texture the same however often it is submitted, exactly if the conversion finds nothing to change
(`readOnly_iff`).
-/

namespace SweetHome.ReadOnlyFrames
open ImageRenderers ES3Utils

/-- A buffer in memory, with as many pixels in a row as the frame is wide; the pitch may be any. -/
structure Frame (format : PixelFormat) extends Buffer format where
  le : format.bytesPerPixel * width ≤ pitch
  addressable : height * pitch < 2 ^ 63

/-- In bytes, with the padding. -/
def Frame.size {format : PixelFormat} (f : Frame format) : Nat := f.height * f.pitch

inductive Renderer where
  | es2 (r : ImageRendererES2)
  | es3 (r : ImageRendererES3) (gl : Gl)

namespace Renderer

def currentTexture : Renderer → Texture
  | .es2 r => r.currentTexture
  | .es3 r _ => r.currentTexture

section
variable (undefined : Nat → Nat → Rgb) {format : PixelFormat}

/-- The loops count with an `int`, and the bound `size - 4` of one of them wraps around below zero, so that
it runs out of the buffer. -/
def InRange (f : Frame format) : Renderer → Prop
  | .es2 _ =>
    (format = .xrgb8888 → 4 ≤ f.size ∧ f.size ≤ 2 ^ 31) ∧ (format = .zrgb1555 → f.size / 2 < 2 ^ 31) ∧
      (format.bytesPerPixel * f.width ≠ f.pitch → f.height < 2 ^ 31)
  | .es3 _ _ => format = .zrgb1555 → f.size / 2 < 2 ^ 31

instance (f : Frame format) (r : Renderer) : Decidable (r.InRange f) := by
  cases r <;> unfold InRange <;> infer_instance

def convert (f : Frame format) : Renderer → Memory
  | .es2 _ => ImageRendererES2.convert f.toBuffer
  | .es3 _ _ => ImageRendererES3.convert f.toBuffer

def onNewFrame (f : Frame format) : Renderer → Renderer
  | .es2 r => .es2 (r.onNewFrame undefined f.toBuffer)
  | .es3 r gl => .es3 (r.onNewFrame undefined f.toBuffer gl).1 (r.onNewFrame undefined f.toBuffer gl).2

/-- A call, and the frame that the core finds in its buffer afterwards. -/
def submit (s : Frame format × Renderer) : Option (Frame format × Renderer) :=
  if s.2.InRange s.1 then some ({ s.1 with data := s.2.convert s.1 }, s.2.onNewFrame undefined s.1) else none

def submits : Nat → Frame format × Renderer → Option (Frame format × Renderer)
  | 0, s => some s
  | n + 1, s => (submits n s).bind (submit undefined)

end
end Renderer

/-! ### The law and the condition -/

section
variable (undefined : Nat → Nat → Rgb) {format : PixelFormat}

/-- The bytes of the buffer stay, and so does the texture when it is submitted again and again. -/
def ReadOnly (f : Frame format) (r : Renderer) : Prop :=
  ∃ first, Renderer.submit undefined (f, r) = some first ∧ (∀ a < f.size, first.1.data a = f.data a) ∧
    ∀ n ≥ 1, ∃ s, Renderer.submits undefined n (f, r) = some s ∧ s.2.currentTexture = first.2.currentTexture

/-- What is swapped is as red as it is blue, and what is shifted is only blue. -/
def Unchanged (f : Frame format) (r : Renderer) : Prop :=
  match format, r with
  | .xrgb8888, .es2 _ => ∀ i, 4 * i + 4 < f.size → f.data (4 * i) = f.data (4 * i + 2)
  | .zrgb1555, _ => ∀ i, 2 * i + 1 < f.size → (halfword f.data (2 * i)).toNat < 32
  | _, _ => True

structure NothingToConvert (f : Frame format) (r : Renderer) : Prop where
  inRange : r.InRange f
  unchanged : Unchanged f r

end

/-! ### What the conversions fix -/

theorem swap_eq_iff (u : Fin 4 → BitVec 8) : ![u 2, u 1, u 0, u 3] = u ↔ u 2 = u 0 := by
  constructor
  · intro h
    exact congrFun h 0
  · intro h
    funext j
    fin_cases j <;> simp [h]

theorem getLsbD_to565 (p : BitVec 16) {i : Nat} (hi : i < 16) :
    (to565 p).getLsbD i = if i < 5 then p.getLsbD i else decide (5 < i) && p.getLsbD (i - 1) := by
  interval_cases i <;> simp [to565]

theorem to565_eq_iff (p : BitVec 16) : to565 p = p ↔ p.toNat < 32 := by
  constructor
  · intro h
    have hbit : ∀ k, 5 + k < 16 → p.getLsbD (5 + k) = false := by
      intro k
      induction k with
      | zero =>
        intro hk
        rw [← h, getLsbD_to565 p hk]
        simp
      | succ k ih =>
        intro hk
        rw [← h, getLsbD_to565 p hk, if_neg (by omega), Nat.add_succ_sub_one, ih (by omega),
          Bool.and_false]
    have hlt : p.toNat < 2 ^ 5 := by
      apply Nat.lt_pow_two_of_testBit
      intro i hi
      by_cases h16 : i < 16
      · obtain ⟨k, rfl⟩ := Nat.exists_eq_add_of_le hi
        exact hbit k h16
      · exact BitVec.getLsbD_of_ge p i (Nat.not_lt.1 h16)
    exact hlt
  · intro h
    have hbit : ∀ i ≥ 5, p.getLsbD i = false := fun i hi =>
      Nat.testBit_lt_two_pow (lt_of_lt_of_le h (Nat.pow_le_pow_right Nat.two_pos hi))
    apply BitVec.eq_of_getLsbD_eq
    intro i hi
    rw [getLsbD_to565 p hi]
    split
    · rfl
    · next hfive =>
      rw [hbit i (by omega)]
      by_cases h5 : 5 < i
      · rw [hbit (i - 1) (by omega), Bool.and_false]
      · rw [decide_eq_false h5, Bool.false_and]

theorem shift_eq_iff {u : Fin 2 → BitVec 8} {p : BitVec 16}
    (hp : p = (u 0).setWidth 16 ||| ((u 1).setWidth 16 <<< 8)) :
    ![(to565 p).extractLsb' 0 8, (to565 p).extractLsb' 8 8] = u ↔ p.toNat < 32 := by
  have hlow : p.extractLsb' 0 8 = u 0 := by
    rw [hp]
    apply BitVec.eq_of_getLsbD_eq
    intro i hi
    interval_cases i <;> simp
  have hhigh : p.extractLsb' 8 8 = u 1 := by
    rw [hp]
    apply BitVec.eq_of_getLsbD_eq
    intro i hi
    interval_cases i <;> simp
  rw [← to565_eq_iff]
  constructor
  · intro h
    have h0 : (to565 p).extractLsb' 0 8 = u 0 := congrFun h 0
    have h1 : (to565 p).extractLsb' 8 8 = u 1 := congrFun h 1
    rw [← bytes_halfword (to565 p), h0, h1]
    exact hp.symm
  · intro h
    rw [h]
    funext j
    fin_cases j
    · exact hlow
    · exact hhigh

/-! ### The buffer -/

section
variable {format : PixelFormat}

theorem swapped_eq_iff (f : Frame .xrgb8888) (hin : 4 ≤ f.size) {size : Nat} (h : f.size ≤ size) :
    (∀ a < size, convertDataFromRGB8888 f.data (f.pitch * f.height) a = f.data a) ↔
      ∀ i, 4 * i + 4 < f.size → f.data (4 * i) = f.data (4 * i + 2) := by
  have hsize : f.pitch * f.height = f.size := Nat.mul_comm f.pitch f.height
  have hloop := forLoop_eq_iff (by decide) rewritesCell_swapBytes
    (show 4 * ((f.size - 4 + 3) / 4) ≤ size by omega) f.data
  rw [convertDataFromRGB8888, hsize, hloop]
  refine forall_congr' fun i => ?_
  have hlt : i < (f.size - 4 + 3) / 4 ↔ 4 * i + 4 < f.size := by omega
  rw [hlt, swap_eq_iff]
  exact imp_congr_right fun _ => eq_comm

theorem shifted_eq_iff (f : Frame .zrgb1555) {size : Nat} (h : f.size ≤ size) :
    (∀ a < size, convertDataFrom0RGB1555 f.data f.height f.pitch 2 a = f.data a) ↔
      ∀ i, 2 * i + 1 < f.size → (halfword f.data (2 * i)).toNat < 32 := by
  have hloop := forLoop_eq_iff (by decide) rewritesCell_storeHalfword
    (show 2 * (f.size / 2) ≤ size by omega) f.data
  rw [convertDataFrom0RGB1555, ← Frame.size, hloop]
  refine forall_congr' fun i => ?_
  have hlt : i < f.size / 2 ↔ 2 * i + 1 < f.size := by omega
  rw [hlt, shift_eq_iff rfl]
  rfl

theorem convert_eq_iff {f : Frame format} {r : Renderer} (hin : r.InRange f) {size : Nat} (h : f.size ≤ size) :
    (∀ a < size, r.convert f a = f.data a) ↔ Unchanged f r := by
  cases format with
  | rgb565 => cases r <;> exact iff_of_true (fun _ _ => rfl) trivial
  | zrgb1555 => cases r <;> exact shifted_eq_iff f h
  | xrgb8888 =>
    cases r with
    | es2 r => exact swapped_eq_iff f (hin.1 rfl).1 h
    | es3 r gl => exact iff_of_true (fun _ _ => rfl) trivial

theorem convert_eq {f : Frame format} {r : Renderer} (h : NothingToConvert f r) :
    r.convert f = f.data := by
  funext a
  have hall := (convert_eq_iff h.inRange (Nat.le_max_left f.size (a + 1))).2 h.unchanged
  exact hall a (Nat.le_max_right f.size (a + 1))

/-! ### The texture -/

theorem es2_onNewFrame_twice (undefined : Nat → Nat → Rgb) (f : Buffer format) (r : ImageRendererES2) :
    (r.onNewFrame undefined f).onNewFrame undefined f = r.onNewFrame undefined f := by
  rw [ImageRendererES2.onNewFrame_eq undefined (r.onNewFrame undefined f),
    ImageRendererES2.onNewFrame_eq undefined r]
  simp only [ne_eq, not_true_eq_false, if_false, Texture.subImage_subImage]

theorem es3_onNewFrame_twice (undefined : Nat → Nat → Rgb) (f : Buffer format) (r : ImageRendererES3)
    (gl : Gl) :
    (r.onNewFrame undefined f gl).1.onNewFrame undefined f (r.onNewFrame undefined f gl).2 =
      r.onNewFrame undefined f gl := by
  have hdirty := r.isDirty_rebuilt undefined f gl
  have hkept : (r.onNewFrame undefined f gl).1.rebuilt undefined f (r.onNewFrame undefined f gl).2 =
      r.onNewFrame undefined f gl := by
    refine if_neg ?_
    rw [ImageRendererES3.onNewFrame_eq]
    simp [hdirty]
  rw [ImageRendererES3.onNewFrame_eq undefined (r.onNewFrame undefined f gl).1, hkept,
    ImageRendererES3.onNewFrame_eq]
  simp only [Texture.subImage_subImage]

theorem onNewFrame_twice (undefined : Nat → Nat → Rgb) (f : Frame format) (r : Renderer) :
    (r.onNewFrame undefined f).onNewFrame undefined f = r.onNewFrame undefined f := by
  cases r with
  | es2 r => exact congrArg Renderer.es2 (es2_onNewFrame_twice undefined f.toBuffer r)
  | es3 r gl =>
    have htwice := es3_onNewFrame_twice undefined f.toBuffer r gl
    simp only [Renderer.onNewFrame, htwice]

theorem nothingToConvert_onNewFrame {undefined : Nat → Nat → Rgb} {f : Frame format} {r : Renderer}
    (h : NothingToConvert f r) : NothingToConvert f (r.onNewFrame undefined f) := by
  obtain ⟨hin, hunchanged⟩ := h
  cases r <;> cases format <;> exact ⟨hin, hunchanged⟩

theorem submit_eq {undefined : Nat → Nat → Rgb} {f : Frame format} {r : Renderer}
    (h : NothingToConvert f r) :
    Renderer.submit undefined (f, r) = some (f, r.onNewFrame undefined f) := by
  rw [Renderer.submit, if_pos h.inRange, convert_eq h]

/-- Every further call finds the buffer and the texture as the first one has left them. -/
theorem submits_eq {undefined : Nat → Nat → Rgb} {f : Frame format} {r : Renderer}
    (h : NothingToConvert f r) (n : Nat) :
    Renderer.submits undefined (n + 1) (f, r) = some (f, r.onNewFrame undefined f) := by
  induction n with
  | zero => exact submit_eq h
  | succ n ih =>
    rw [Renderer.submits, ih, Option.bind_some, submit_eq (nothingToConvert_onNewFrame h), onNewFrame_twice]

/-- Exactly the frames with nothing to convert are left alone, and shown alike however often the core
submits them. -/
theorem readOnly_iff (undefined : Nat → Nat → Rgb) (f : Frame format) (r : Renderer) :
    ReadOnly undefined f r ↔ NothingToConvert f r := by
  constructor
  · rintro ⟨first, hfirst, hbytes, -⟩
    by_cases hin : r.InRange f
    · obtain rfl := Option.some.inj ((if_pos hin).symm.trans hfirst)
      exact ⟨hin, (convert_eq_iff hin le_rfl).1 hbytes⟩
    · cases (if_neg hin).symm.trans hfirst
  · intro h
    refine ⟨_, submit_eq h, fun _ _ => rfl, fun n hn => ?_⟩
    obtain ⟨n, rfl⟩ := Nat.exists_eq_add_of_le' hn
    exact ⟨_, submits_eq h n, rfl⟩

end

/-- The white pixel of a black and white frame of 0RGB1555 is no longer white in the second texture. -/
theorem shifted_again :
    ¬ ∀ (undefined : Nat → Nat → Rgb) (format : PixelFormat) (f : Frame format) (r : Renderer),
      ReadOnly undefined f r := by
  intro h
  let f : Frame .zrgb1555 :=
    { data := fun a => if a = 0 then 0xFF else if a = 1 then 0x7F else 0
      width := 2
      height := 1
      pitch := 4
      le := by decide
      addressable := by decide }
  let shown (n : Nat) : Option Rgb :=
    (Renderer.submits (fun _ _ => ⟨0, 0, 0⟩) n (f, .es2 { currentTexture := newTexture })).map
      fun s => s.2.currentTexture.sample 0 0
  obtain ⟨first, -, -, hagain⟩ := h (fun _ _ => ⟨0, 0, 0⟩) .zrgb1555 f (.es2 { currentTexture := newTexture })
  have hshown : ∀ n ≥ 1, shown n = some (first.2.currentTexture.sample 0 0) := by
    intro n hn
    obtain ⟨s, hs, htexture⟩ := hagain n hn
    simp only [shown, hs, Option.map_some, htexture]
  have htwice : shown 2 = shown 1 := (hshown 2 (by decide)).trans (hshown 1 (by decide)).symm
  exact absurd htwice (by decide)

end SweetHome.ReadOnlyFrames
