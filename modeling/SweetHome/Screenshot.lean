import SweetHome.Lib.Texture
import Mathlib.Tactic.Ring

/-!
# Screenshots

GL counts the rows of a framebuffer from the bottom. `flipVertical` swaps the rows of what has been read with their
opposites, so that the encoder is given the screen upright; a frame with a pixel that is not black is neither read
again nor replaced by the test image. Sizes are counted in an `int`, which is where it ends (`upright_iff`).
-/

namespace SweetHome.Screenshot

abbrev Memory := Nat → UInt8

/-- A value of an `int`; an overflow is undefined. -/
def int (n : Nat) : Option Nat := if n < 2 ^ 31 then some n else none

def memcpy (destination : Memory) (d : Nat) (source : Memory) (s size : Nat) : Memory :=
  fun a => if d ≤ a ∧ a < d + size then source (s + (a - d)) else destination a

/-- The body of the loop of `flipVertical`. -/
def swapRows (stride row1 row2 : Nat) (data : Memory) : Memory :=
  let tmp := memcpy (fun _ => 0) 0 data row1 stride
  let data := memcpy data row1 data row2 stride
  memcpy data row2 tmp 0 stride

def flipVertical (data : Memory) (width height : Nat) : Option Memory := do
  let stride ← int (width * 4)
  forLoop? (height / 2) (fun y data => do
    let row1 ← int (y * stride)
    let row2 ← int ((height - 1 - y) * stride)
    some (swapRows stride row1 row2 data)) data

/-- The bytes of the rows, from the bottom. -/
abbrev Framebuffer := Nat → Nat → UInt8

/-- `glReadPixels` of `GL_RGBA` and `GL_UNSIGNED_BYTE`. -/
def glReadPixels (framebuffer : Framebuffer) (x y width height : Nat) (pixels : Memory) : Memory :=
  fun a => if a < width * height * 4 then framebuffer (y + a / (width * 4)) (4 * x + a % (width * 4)) else pixels a

def nonZeroPixels (pixels : Memory) (totalPixels : Nat) : Nat :=
  forLoop totalPixels (fun i nonZeroPixels =>
    if pixels (4 * i) > 0 ∨ pixels (4 * i + 1) > 0 ∨ pixels (4 * i + 2) > 0 then nonZeroPixels + 1
    else nonZeroPixels) 0

/-- The gradient that is shown for a black screen. -/
def testImage (captureWidth captureHeight : Nat) (pixels : Memory) : Option Memory :=
  forLoop? (captureWidth * captureHeight) (fun i pixels => do
    let x := i % captureWidth
    let y := i / captureWidth
    let red ← int (x * 255)
    let green ← int (y * 255)
    let pixels := Function.update pixels (i * 4 + 0) (UInt8.ofNat (red / captureWidth))
    let pixels := Function.update pixels (i * 4 + 1) (UInt8.ofNat (green / captureHeight))
    let pixels := Function.update pixels (i * 4 + 2) 128
    some (Function.update pixels (i * 4 + 3) 255)) pixels

/-- What is handed to the encoder. -/
def captureScreenshot256x240 (framebuffer : Framebuffer) (surfaceWidth surfaceHeight : Nat) : Option Memory := do
  let captureWidth := surfaceWidth
  let captureHeight := surfaceHeight
  let totalPixels ← int (captureWidth * captureHeight)
  let _ ← int (totalPixels * 4)
  let pixels := glReadPixels framebuffer 0 0 captureWidth captureHeight fun _ => 0
  let (pixels, nonZero) :=
    if nonZeroPixels pixels totalPixels = 0 then
      let centerX := (surfaceWidth - captureWidth) / 2
      let centerY := (surfaceHeight - captureHeight) / 2
      let pixels := glReadPixels framebuffer centerX centerY captureWidth captureHeight pixels
      (pixels, nonZeroPixels pixels totalPixels)
    else (pixels, nonZeroPixels pixels totalPixels)
  let pixels ← if nonZero = 0 then testImage captureWidth captureHeight pixels else some pixels
  flipVertical pixels captureWidth captureHeight

/-! ### The law -/

/-- A pixel of the screen is not black. -/
def Lit (framebuffer : Framebuffer) (width height : Nat) : Prop :=
  ∃ x < width, ∃ y < height,
    framebuffer y (4 * x) > 0 ∨ framebuffer y (4 * x + 1) > 0 ∨ framebuffer y (4 * x + 2) > 0

/-- The rows of the screen, from the top. -/
def Shows (framebuffer : Framebuffer) (width height : Nat) (pixels : Memory) : Prop :=
  ∀ y < height, ∀ x < width * 4, pixels (width * 4 * y + x) = framebuffer (height - 1 - y) x

structure Upright (width height : Nat) : Prop where
  screen : ∀ framebuffer, Lit framebuffer width height →
    ∃ pixels, captureScreenshot256x240 framebuffer width height = some pixels ∧ Shows framebuffer width height pixels
  flips : ∀ data, ∃ flipped, flipVertical data width height = some flipped ∧
    flipVertical flipped width height = some data ∧ ∀ a, width * height * 4 ≤ a → flipped a = data a

/-! ### The flip -/

variable {framebuffer : Framebuffer} {width height stride : Nat}

theorem int_of_lt {n : Nat} (h : n < 2 ^ 31) : int n = some n := if_pos h

theorem int_eq_some {n m : Nat} (h : int n = some m) : n < 2 ^ 31 := by
  unfold int at h
  split at h
  · assumption
  · cases h

theorem memcpy_zero (destination source : Memory) (d s : Nat) : memcpy destination d source s 0 = destination := by
  funext a
  exact if_neg (by omega)

theorem memcpy_row (destination source : Memory) (d s : Nat) (k : Fin stride) :
    memcpy destination d source s stride (d + k) = source (s + k) := by
  have hk := k.isLt
  rw [memcpy, if_pos (by omega)]
  congr 1
  omega

theorem memcpy_row_of_ne (destination source : Memory) {i j : Nat} (s : Nat) (h : j ≠ i) (k : Fin stride) :
    memcpy destination (stride * i) source s stride (stride * j + k) = destination (stride * j + k) := by
  have hk := k.isLt
  refine if_neg fun hin => ?_
  rcases Nat.lt_or_gt_of_ne h with hlt | hgt
  · have := Nat.mul_le_mul_left stride (Nat.succ_le_of_lt hlt)
    rw [Nat.mul_succ] at this
    omega
  · have := Nat.mul_le_mul_left stride (Nat.succ_le_of_lt hgt)
    rw [Nat.mul_succ] at this
    omega

theorem swapsCells_swapRows (stride i j : Nat) (data : Memory) :
    SwapsCells stride i j data (swapRows stride (i * stride) (j * stride) data) := by
  have htmp (k : Fin stride) : memcpy (fun _ => 0) 0 data (i * stride) stride k = data (i * stride + k) := by
    simpa using memcpy_row (fun _ => 0) data 0 (i * stride) k
  refine ⟨?_, ?_, fun k hi hj => ?_⟩
  · funext k
    simp only [cell, swapRows, Nat.mul_comm i, Nat.mul_comm j]
    rcases eq_or_ne i j with rfl | hne
    · rw [memcpy_row, Nat.zero_add, Nat.mul_comm stride, htmp]
    · rw [memcpy_row_of_ne _ _ _ hne, memcpy_row]
  · funext k
    simp only [cell, swapRows, Nat.mul_comm j]
    rw [memcpy_row, Nat.zero_add, htmp, Nat.mul_comm]
  · funext x
    simp only [cell, swapRows, Nat.mul_comm i, Nat.mul_comm j]
    rw [memcpy_row_of_ne _ _ _ hj, memcpy_row_of_ne _ _ _ hi]

/-- The loop of `flipVertical` without the limits of an `int`. -/
def flip (data : Memory) (stride height : Nat) : Memory :=
  forLoop (height / 2) (fun y data => swapRows stride (y * stride) ((height - 1 - y) * stride) data) data

theorem cell_flip (data : Memory) (stride height i : Nat) :
    cell stride (flip data stride height) i = cell stride data (opposite height i) :=
  forLoop_reverse (fun i m _ => swapsCells_swapRows stride i (height - 1 - i) m) data i

theorem flip_row (data : Memory) (height i : Nat) {x : Nat} (hx : x < stride) :
    flip data stride height (stride * i + x) = data (stride * opposite height i + x) :=
  congrFun (cell_flip data stride height i) ⟨x, hx⟩

theorem flip_of_zero (data : Memory) (height : Nat) : flip data 0 height = data := by
  refine forLoop_inv (P := fun _ data' => data' = data) rfl fun i data' _ h => ?_
  rw [h]
  simp only [swapRows, memcpy_zero]

theorem flip_flip (data : Memory) (stride height : Nat) : flip (flip data stride height) stride height = data := by
  rcases Nat.eq_zero_or_pos stride with rfl | hpos
  · rw [flip_of_zero, flip_of_zero]
  · funext a
    have hx := Nat.mod_lt a hpos
    conv_lhs => rw [← Nat.div_add_mod a stride]
    rw [flip_row _ _ _ hx, flip_row _ _ _ hx, opposite_opposite, Nat.div_add_mod]

theorem flip_outside (data : Memory) {a : Nat} (h : stride * height ≤ a) : flip data stride height a = data a := by
  rcases Nat.eq_zero_or_pos stride with rfl | hpos
  · rw [flip_of_zero]
  · have hrow : height ≤ a / stride := (Nat.le_div_iff_mul_le hpos).2 (by rwa [Nat.mul_comm])
    have hx := Nat.mod_lt a hpos
    conv_lhs => rw [← Nat.div_add_mod a stride]
    rw [flip_row _ _ _ hx, opposite_of_le hrow, Nat.div_add_mod]

theorem flipVertical_eq (data : Memory) (hstride : width * 4 < 2 ^ 31) (hsize : width * height * 4 < 2 ^ 31) :
    flipVertical data width height = some (flip data (width * 4) height) := by
  rw [flipVertical, int_of_lt hstride]
  refine forLoop?_eq (fun y data hy => ?_) data
  have hrow {i : Nat} (hi : i < height) : i * (width * 4) < 2 ^ 31 := by
    have hle : i * (width * 4) ≤ height * (width * 4) := Nat.mul_le_mul_right _ hi.le
    have hcomm : height * (width * 4) = width * height * 4 := by ac_rfl
    omega
  rw [int_of_lt (hrow (by omega)), int_of_lt (hrow (by omega))]
  rfl

/-! ### The capture -/

theorem glReadPixels_row (framebuffer : Framebuffer) (pixels : Memory) {x y : Nat} (hy : y < height)
    (hx : x < width * 4) :
    glReadPixels framebuffer 0 0 width height pixels (width * 4 * y + x) = framebuffer y x := by
  have hlast : width * 4 * y + x < width * height * 4 := by
    have hle := Nat.mul_le_mul_left (width * 4) (Nat.succ_le_of_lt hy)
    have hcomm : width * 4 * height = width * height * 4 := by ac_rfl
    rw [Nat.mul_succ] at hle
    omega
  rw [glReadPixels, if_pos hlast, Nat.mul_add_div (by omega), Nat.div_eq_of_lt hx, Nat.mul_add_mod,
    Nat.mod_eq_of_lt hx]
  simp

theorem nonZeroPixels_pos {pixels : Memory} {totalPixels i : Nat} (hi : i < totalPixels)
    (h : pixels (4 * i) > 0 ∨ pixels (4 * i + 1) > 0 ∨ pixels (4 * i + 2) > 0) :
    0 < nonZeroPixels pixels totalPixels := by
  refine forLoop_inv (P := fun n count => i < n → 0 < count) nofun (fun k count _ hcount hlt => ?_) hi
  split
  · exact Nat.succ_pos _
  · rename_i hblack
    refine hcount ((Nat.lt_succ_iff.1 hlt).lt_of_ne ?_)
    rintro rfl
    exact hblack h

theorem nonZeroPixels_of_lit (h : Lit framebuffer width height) (pixels : Memory) :
    0 < nonZeroPixels (glReadPixels framebuffer 0 0 width height pixels) (width * height) := by
  obtain ⟨x, hx, y, hy, hpixel⟩ := h
  have hread {c : Nat} (hc : c < 4) :
      glReadPixels framebuffer 0 0 width height pixels (4 * (width * y + x) + c) = framebuffer y (4 * x + c) := by
    rw [← glReadPixels_row framebuffer pixels hy (by omega : 4 * x + c < width * 4)]
    congr 1
    ring
  refine nonZeroPixels_pos (i := width * y + x) ?_ ?_
  · calc width * y + x < width * (y + 1) := by rw [Nat.mul_succ]; omega
      _ ≤ width * height := Nat.mul_le_mul_left width hy
  · have hred := hread (c := 0) (by decide)
    rw [Nat.add_zero, Nat.add_zero] at hred
    rw [hred, hread (by decide), hread (by decide)]
    exact hpixel

theorem captureScreenshot256x240_eq (h : Lit framebuffer width height) (hsize : width * height * 4 < 2 ^ 31) :
    captureScreenshot256x240 framebuffer width height =
      flipVertical (glReadPixels framebuffer 0 0 width height fun _ => 0) width height := by
  have hcount := (nonZeroPixels_of_lit h fun _ => 0).ne'
  have htotal : width * height < 2 ^ 31 := by omega
  simp [captureScreenshot256x240, int_of_lt htotal, int_of_lt hsize, hcount]

theorem captureScreenshot256x240_of_le (h : 2 ^ 31 ≤ width * height * 4) :
    captureScreenshot256x240 framebuffer width height = none := by
  have hsize : int (width * height * 4) = none := if_neg (Nat.not_lt.2 h)
  unfold captureScreenshot256x240
  dsimp only
  rcases htotal : int (width * height) with _ | totalPixels
  · rfl
  · obtain rfl : width * height = totalPixels := by
      rw [int_of_lt (int_eq_some htotal)] at htotal
      exact Option.some.inj htotal
    simp [hsize]

/-- The screenshots of a size are upright exactly if an `int` holds its bytes. -/
theorem upright_iff (width height : Nat) :
    Upright width height ↔ width * 4 < 2 ^ 31 ∧ width * height * 4 < 2 ^ 31 := by
  constructor
  · intro h
    constructor
    · obtain ⟨flipped, hflipped, -⟩ := h.flips fun _ => 0
      rcases hstride : int (width * 4) with _ | stride
      · rw [flipVertical, hstride] at hflipped; cases hflipped
      · exact int_eq_some hstride
    · by_contra hlarge
      have hlarge := Nat.not_lt.1 hlarge
      -- a screen that is all white
      have hlit : Lit (fun _ _ => 255) width height := by
        have hpos : 0 < width * height := by omega
        exact ⟨0, Nat.pos_of_mul_pos_right hpos, 0, Nat.pos_of_mul_pos_left hpos, .inl (by decide)⟩
      obtain ⟨pixels, hpixels, -⟩ := h.screen _ hlit
      rw [captureScreenshot256x240_of_le hlarge] at hpixels
      cases hpixels
  · rintro ⟨hstride, hsize⟩
    refine ⟨fun framebuffer hlit => ?_, fun data => ?_⟩
    · refine ⟨_, (captureScreenshot256x240_eq hlit hsize).trans (flipVertical_eq _ hstride hsize), ?_⟩
      intro y hy x hx
      rw [flip_row _ _ _ hx, opposite_of_lt hy, glReadPixels_row _ _ (by omega) hx]
    · refine ⟨_, flipVertical_eq data hstride hsize, ?_, fun a ha => flip_outside data ?_⟩
      · rw [flipVertical_eq _ hstride hsize, flip_flip]
      · calc width * 4 * height = width * height * 4 := by ac_rfl
          _ ≤ a := ha

/-- A surface of 32768 by 16384 has 2^31 bytes. -/
theorem not_upright_large : ¬ Upright 32768 16384 := by
  intro h
  obtain ⟨pixels, hpixels, -⟩ := h.screen (fun _ _ => 255) ⟨0, by decide, 0, by decide, .inl (by decide)⟩
  rw [captureScreenshot256x240_of_le (by decide)] at hpixels
  cases hpixels

end SweetHome.Screenshot
