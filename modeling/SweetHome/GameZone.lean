import SweetHome.Lib.Texture
import Mathlib.Algebra.Order.Group.Int
import Mathlib.Order.MinMax

/-!
# The zone of the game in a screenshot

`detectGameZone` grows an empty rectangle at the origin by the pixels that are not transparent. So it never leaves the
origin, and it ends at the last column and the last row rather than behind them (`spans_detectGameZone`): what is
cropped by it loses both, and only a picture with nothing to see in it is framed as it should be (`cropped_iff`).
-/

namespace SweetHome.GameZone

/-- `android.graphics.Bitmap` -/
structure Bitmap where
  width : Nat
  height : Nat
  getPixel : Nat → Nat → UInt32

/-- `Color.TRANSPARENT` -/
def TRANSPARENT : UInt32 := 0

/-- `android.graphics.Rect` -/
structure Rect where
  left : Int := 0
  top : Int := 0
  right : Int := 0
  bottom : Int := 0
deriving DecidableEq, Repr

namespace Rect

def width (r : Rect) : Int := r.right - r.left

def height (r : Rect) : Int := r.bottom - r.top

def Contains (r : Rect) (x y : Int) : Prop := (r.left ≤ x ∧ x < r.right) ∧ r.top ≤ y ∧ y < r.bottom

end Rect

def detectGameZone (bitmap : Bitmap) : Rect :=
  forLoop bitmap.height (fun y => forLoop bitmap.width fun x gameZone =>
    if bitmap.getPixel x y ≠ TRANSPARENT then
      { left := min gameZone.left x
        top := min gameZone.top y
        right := max gameZone.right x
        bottom := max gameZone.bottom y }
    else gameZone) {}

/-- `Bitmap.createBitmap`, which throws for a rectangle that is empty or not inside the source. -/
def createBitmap (source : Bitmap) (x y width height : Int) : Option Bitmap :=
  if 0 ≤ x ∧ 0 ≤ y ∧ 0 < width ∧ 0 < height ∧ x + width ≤ source.width ∧ y + height ≤ source.height then
    some
      { width := width.toNat
        height := height.toNat
        getPixel := fun i j => source.getPixel (x.toNat + i) (y.toNat + j) }
  else none

/-- The crop of the handler of `btnScreenshot`. -/
def crop (fullBitmap : Bitmap) : Option Bitmap :=
  let gameZone := detectGameZone fullBitmap
  createBitmap fullBitmap gameZone.left gameZone.top gameZone.width gameZone.height

/-! ### What the crop is for -/

variable {b : Bitmap} {x y : Nat}

/-- There is something to see at a pixel. -/
def Visible (b : Bitmap) (x y : Nat) : Prop := x < b.width ∧ y < b.height ∧ b.getPixel x y ≠ TRANSPARENT

/-- The rectangle contains all that can be seen, and is inside every other that does. -/
def IsSmallest (b : Bitmap) (r : Rect) : Prop :=
  (∀ x y : Nat, Visible b x y → r.Contains x y) ∧
    ∀ r' : Rect, (∀ x y : Nat, Visible b x y → r'.Contains x y) → ∀ x y, r.Contains x y → r'.Contains x y

/-- Every visible pixel of a bitmap is in a part of it. -/
def Keeps (b : Bitmap) (r : Rect) (cropped : Bitmap) : Prop :=
  ∀ x y, Visible b x y → ∃ i < cropped.width, ∃ j < cropped.height,
    (x : Int) = r.left + i ∧ (y : Int) = r.top + j ∧ cropped.getPixel i j = b.getPixel x y

structure Cropped (b : Bitmap) : Prop where
  smallest : IsSmallest b (detectGameZone b)
  crop : (∃ x y, Visible b x y) → ∃ cropped, crop b = some cropped ∧ 0 < cropped.width ∧ 0 < cropped.height ∧
    Keeps b (detectGameZone b) cropped

/-! ### What the loops compute -/

/-- The rectangle from the origin to the last column and the last row that anything has been seen in. -/
structure Spans (b : Bitmap) (seen : Nat → Nat → Prop) (r : Rect) : Prop where
  origin : r.left = 0 ∧ r.top = 0
  nonneg : 0 ≤ r.right ∧ 0 ≤ r.bottom
  bounds : ∀ x y, seen x y → Visible b x y → (x : Int) ≤ r.right ∧ (y : Int) ≤ r.bottom
  right : r.right = 0 ∨ ∃ x y, Visible b x y ∧ (x : Int) = r.right
  bottom : r.bottom = 0 ∨ ∃ x y, Visible b x y ∧ (y : Int) = r.bottom

theorem spans_start : Spans b (fun _ _ => False) {} where
  origin := ⟨rfl, rfl⟩
  nonneg := ⟨le_rfl, le_rfl⟩
  bounds := nofun
  right := .inl rfl
  bottom := .inl rfl

theorem Spans.congr {seen seen' : Nat → Nat → Prop} {r : Rect} (h : Spans b seen r)
    (hseen : ∀ x y, seen' x y → Visible b x y → seen x y) : Spans b seen' r :=
  { h with bounds := fun x y hs hv => h.bounds x y (hseen x y hs hv) hv }

theorem Spans.pixel {seen : Nat → Nat → Prop} {r : Rect} (h : Spans b seen r) (hx : x < b.width)
    (hy : y < b.height) :
    Spans b (fun x' y' => seen x' y' ∨ x' = x ∧ y' = y)
      (if b.getPixel x y ≠ TRANSPARENT then
        { left := min r.left x, top := min r.top y, right := max r.right x, bottom := max r.bottom y }
      else r) := by
  obtain ⟨hleft, htop⟩ := h.origin
  split
  · rename_i hpixel
    have hvisible : Visible b x y := ⟨hx, hy, hpixel⟩
    refine ⟨⟨?_, ?_⟩, ⟨?_, ?_⟩, ?_, ?_, ?_⟩
    · simp [hleft]
    · simp [htop]
    · exact h.nonneg.1.trans (le_max_left _ _)
    · exact h.nonneg.2.trans (le_max_left _ _)
    · rintro x' y' (hseen | ⟨rfl, rfl⟩) hv
      · exact (h.bounds x' y' hseen hv).imp le_max_of_le_left le_max_of_le_left
      · exact ⟨le_max_right _ _, le_max_right _ _⟩
    · rcases max_choice r.right x with hmax | hmax
      · simp only [hmax]; exact h.right
      · exact .inr ⟨x, y, hvisible, hmax.symm⟩
    · rcases max_choice r.bottom y with hmax | hmax
      · simp only [hmax]; exact h.bottom
      · exact .inr ⟨x, y, hvisible, hmax.symm⟩
  · rename_i hpixel
    refine h.congr ?_
    rintro x' y' (hseen | ⟨rfl, rfl⟩) hv
    · exact hseen
    · exact absurd hv.2.2 hpixel

theorem spans_detectGameZone (b : Bitmap) : Spans b (fun _ _ => True) (detectGameZone b) := by
  have hrows : Spans b (fun _ y => y < b.height) (detectGameZone b) := by
    refine forLoop_inv (P := fun y => Spans b fun _ y' => y' < y) (spans_start.congr (by simp)) ?_
    intro y r hy hr
    -- the pixels of the rows before, and those before `x` in this one
    have hrow := forLoop_inv (n := b.width)
      (P := fun x => Spans b fun x' y' => y' < y ∨ y' = y ∧ x' < x) (hr.congr fun x' y' hseen _ => by omega)
      fun x r hx hr => (hr.pixel hx hy).congr fun x' y' hseen _ => by omega
    refine hrow.congr fun x' y' hseen hv => ?_
    have hx' := hv.1
    omega
  exact hrows.congr fun x y _ hv => hv.2.1

/-! ### Where the crop is right -/

theorem not_contains (h : Visible b x y) :
    ∃ x y : Nat, Visible b x y ∧ ¬ (detectGameZone b).Contains x y := by
  obtain ⟨x', y', hvisible, hright⟩ : ∃ x' y' : Nat, Visible b x' y' ∧ (detectGameZone b).right ≤ x' := by
    rcases (spans_detectGameZone b).right with hzero | ⟨x', y', hvisible, hright⟩
    · exact ⟨x, y, h, by omega⟩
    · exact ⟨x', y', hvisible, hright.ge⟩
  exact ⟨x', y', hvisible, fun hcontains => absurd hcontains.1.2 (not_lt.2 hright)⟩

theorem detectGameZone_of_transparent (h : ∀ x y, ¬ Visible b x y) : detectGameZone b = {} := by
  have hspans := spans_detectGameZone b
  have hright : (detectGameZone b).right = 0 :=
    hspans.right.resolve_right fun ⟨x, y, hvisible, _⟩ => h x y hvisible
  have hbottom : (detectGameZone b).bottom = 0 :=
    hspans.bottom.resolve_right fun ⟨x, y, hvisible, _⟩ => h x y hvisible
  obtain ⟨hleft, htop⟩ := hspans.origin
  rcases hzone : detectGameZone b with ⟨left, top, right, bottom⟩
  rw [hzone] at hleft htop hright hbottom
  simp only at hleft htop hright hbottom
  rw [hleft, htop, hright, hbottom]

/-- What has been seen last, in one direction: inside the picture, and at the origin exactly if everything is. -/
theorem last_spec {coordinate : Nat → Nat → Nat} {size : Nat} {last : Int}
    (hbounds : ∀ x y, Visible b x y → (coordinate x y : Int) ≤ last)
    (hlast : last = 0 ∨ ∃ x y, Visible b x y ∧ (coordinate x y : Int) = last)
    (hsize : ∀ x y, Visible b x y → coordinate x y < size) :
    last ≤ size ∧ (last = 0 ↔ ∀ x y, Visible b x y → coordinate x y = 0) := by
  refine ⟨?_, fun hzero x y hvisible => ?_, fun hfirst => ?_⟩
  · rcases hlast with hzero | ⟨x, y, hvisible, hseen⟩
    · omega
    · have := hsize x y hvisible
      omega
  · have := hbounds x y hvisible
    omega
  · rcases hlast with hzero | ⟨x, y, hvisible, hseen⟩
    · exact hzero
    · rw [← hseen, hfirst x y hvisible]
      rfl

/-- The crop throws exactly if all that can be seen is in the first column, or in the first row. -/
theorem crop_eq_none_iff (b : Bitmap) :
    crop b = none ↔ (∀ x y, Visible b x y → x = 0) ∨ ∀ x y, Visible b x y → y = 0 := by
  obtain ⟨⟨hleft, htop⟩, ⟨hright, hbottom⟩, hbounds, hlastColumn, hlastRow⟩ := spans_detectGameZone b
  obtain ⟨hwidth, hcolumns⟩ := last_spec (fun x y h => (hbounds x y trivial h).1) hlastColumn
    fun x y hvisible => hvisible.1
  obtain ⟨hheight, hrows⟩ := last_spec (fun x y h => (hbounds x y trivial h).2) hlastRow
    fun x y hvisible => hvisible.2.1
  rw [← hcolumns, ← hrows]
  simp only [crop, createBitmap, Rect.width, Rect.height, hleft, htop, ite_eq_right_iff, reduceCtorEq, imp_false]
  omega

/-- A screenshot is cropped to what can be seen in it exactly if that is nothing. -/
theorem cropped_iff (b : Bitmap) :
    Cropped b ↔ ∀ x < b.width, ∀ y < b.height, b.getPixel x y = TRANSPARENT := by
  constructor
  · intro h x hx y hy
    by_contra hpixel
    obtain ⟨x', y', hvisible, hnot⟩ := not_contains (b := b) ⟨hx, hy, hpixel⟩
    exact hnot (h.smallest.1 x' y' hvisible)
  · intro h
    have htransparent : ∀ x y, ¬ Visible b x y := fun x y hvisible =>
      hvisible.2.2 (h x hvisible.1 y hvisible.2.1)
    refine ⟨⟨fun x y hvisible => absurd hvisible (htransparent x y), ?_⟩,
      fun ⟨x, y, hvisible⟩ => absurd hvisible (htransparent x y)⟩
    intro r' _ x y hcontains
    rw [detectGameZone_of_transparent htransparent] at hcontains
    exact absurd (hcontains.1.1.trans_lt hcontains.1.2) (lt_irrefl _)

/-- A black picture of 256 by 240: its last column and its last row are not in the rectangle. -/
theorem not_cropped_black : ¬ Cropped ⟨256, 240, fun _ _ => 0xFF000000⟩ := by
  intro h
  obtain ⟨x, y, hvisible, hnot⟩ :=
    not_contains (b := ⟨256, 240, fun _ _ => 0xFF000000⟩) (x := 0) (y := 0) ⟨by decide, by decide, by decide⟩
  exact hnot (h.smallest.1 x y hvisible)

end SweetHome.GameZone
