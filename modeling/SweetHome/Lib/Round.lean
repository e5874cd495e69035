import Mathlib.Algebra.Order.Floor.Ring
import Mathlib.Algebra.Order.Field.Basic
import Mathlib.Tactic.Linarith

/-!
# Rounding to the nearest integer

Half away from zero, over an ordered field with floors.
-/

namespace SweetHome

/-- `std::lround`, and `std::round` before its result is converted. -/
def lround {K : Type} [Field K] [LinearOrder K] [FloorRing K] (x : K) : Int :=
  if 0 ≤ x then ⌊x + 1 / 2⌋ else ⌈x - 1 / 2⌉

/-- What `x` rounds to is within one of `y`, in terms of the integers around `y`. -/
def RoundsNear {K : Type} [Field K] [LinearOrder K] [FloorRing K] (x y : K) : Prop :=
  ⌈y⌉ - 3 / 2 ≤ x ∧ x < ⌊y⌋ + 3 / 2

section
variable {K : Type} [Field K] [LinearOrder K] [FloorRing K]

theorem lround_of_nonneg {x : K} (h : 0 ≤ x) : lround x = ⌊x + 1 / 2⌋ := if_pos h

theorem abs_sub_lround [IsStrictOrderedRing K] (x : K) : |x - lround x| ≤ 1 / 2 := by
  unfold lround
  split
  · have hle := Int.floor_le (x + 1 / 2)
    have hlt := Int.lt_floor_add_one (x + 1 / 2)
    rw [abs_le]
    constructor <;> linarith
  · have hle := Int.le_ceil (x - 1 / 2)
    have hlt := Int.ceil_lt_add_one (x - 1 / 2)
    rw [abs_le]
    constructor <;> linarith

/-- Just below zero it makes no difference which way a half is rounded. -/
theorem lround_of_neg_half_lt [IsStrictOrderedRing K] {x : K} (h : -(1 / 2) < x) :
    lround x = ⌊x + 1 / 2⌋ := by
  unfold lround
  split
  · rfl
  · rename_i hneg
    have hfloor : ⌊x + 1 / 2⌋ = 0 := Int.floor_eq_zero_iff.2 ⟨by linarith, by linarith⟩
    have hceil : ⌈x - 1 / 2⌉ = 0 := Int.ceil_eq_zero_iff.2 ⟨by linarith, by linarith⟩
    rw [hfloor, hceil]

theorem lround_neg_half [IsStrictOrderedRing K] : lround (-(1 / 2) : K) = -1 := by
  have hneg : ¬ (0 : K) ≤ -(1 / 2) := by norm_num
  rw [lround, if_neg hneg, show (-(1 / 2) - 1 / 2 : K) = (-1 : Int) by norm_num, Int.ceil_intCast]

theorem one_le_lround_iff [IsStrictOrderedRing K] (x : K) : 1 ≤ lround x ↔ 1 / 2 ≤ x := by
  unfold lround
  split
  · rw [Int.le_floor]
    push_cast
    constructor <;> intro h <;> linarith
  · rename_i hneg
    have hceil : ⌈x - 1 / 2⌉ ≤ 0 := Int.ceil_le.2 (by push_cast; linarith)
    constructor
    · intro h
      omega
    · intro h
      linarith

theorem abs_sub_le_one_iff [IsStrictOrderedRing K] (n : Int) (y : K) :
    |(n : K) - y| ≤ 1 ↔ ⌈y⌉ - 1 ≤ n ∧ n ≤ ⌊y⌋ + 1 := by
  have hceil : ⌈y⌉ - 1 ≤ n ↔ y ≤ n + 1 := by
    rw [sub_le_iff_le_add, Int.ceil_le]; push_cast; rfl
  have hfloor : n ≤ ⌊y⌋ + 1 ↔ (n : K) - 1 ≤ y := by
    rw [← sub_le_iff_le_add, Int.le_floor]; push_cast; rfl
  rw [hceil, hfloor, abs_le]
  constructor
  · rintro ⟨h₁, h₂⟩; constructor <;> linarith
  · rintro ⟨h₁, h₂⟩; constructor <;> linarith

theorem roundsNear_iff [IsStrictOrderedRing K] {x : K} (hx : 0 ≤ x) (y : K) :
    RoundsNear x y ↔ |(lround x : K) - y| ≤ 1 := by
  rw [abs_sub_le_one_iff, lround_of_nonneg hx, RoundsNear]
  have hlower : ⌈y⌉ - 1 ≤ ⌊x + 1 / 2⌋ ↔ (⌈y⌉ : K) - 3 / 2 ≤ x := by
    rw [Int.le_floor]
    push_cast
    constructor <;> intro h <;> linarith
  have hupper : ⌊x + 1 / 2⌋ ≤ ⌊y⌋ + 1 ↔ x < (⌊y⌋ : K) + 3 / 2 := by
    rw [← Int.lt_add_one_iff, Int.floor_lt]
    push_cast
    constructor <;> intro h <;> linarith
  rw [hlower, hupper]

end
end SweetHome
