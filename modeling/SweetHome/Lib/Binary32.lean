import Mathlib.Algebra.Order.Floor.Ring
import Mathlib.Data.Int.Log
import Mathlib.Data.Rat.Floor
import Mathlib.Tactic.Linarith
import Mathlib.Tactic.NormNum
import Mathlib.Tactic.Positivity

/-!
# Positive numbers of single precision

A positive rational is rounded to the nearest number with a significand of 24 bits, a tie to the even one.
Between `2 ^ (-126)` and `2 ^ 127` such a number is a normal one, and its bits are those of a positive `float`.
-/

namespace SweetHome
namespace Binary32

/-- The nearest integer, of two the even one. -/
def roundEven (x : ℚ) : Int :=
  if x - ⌊x⌋ < 1 / 2 then ⌊x⌋
  else if 1 / 2 < x - ⌊x⌋ then ⌊x⌋ + 1
  else if ⌊x⌋ % 2 = 0 then ⌊x⌋
  else ⌊x⌋ + 1

theorem floor_le_roundEven (x : ℚ) : ⌊x⌋ ≤ roundEven x := by
  unfold roundEven; split_ifs <;> omega

theorem roundEven_le (x : ℚ) : roundEven x ≤ ⌊x⌋ + 1 := by
  unfold roundEven; split_ifs <;> omega

def exponent (q : ℚ) : Int := Int.log 2 q

def significand (q : ℚ) : Int := roundEven (q * 2 ^ (23 - exponent q))

/-- The number of single precision that is nearest to `q`. -/
def rounded (q : ℚ) : ℚ := significand q * 2 ^ (exponent q - 23)

/-- The bits of that number; a significand that has been rounded up to the next power carries into the
exponent. -/
def bits (q : ℚ) : UInt32 :=
  UInt32.ofNat ((exponent q + 127) * 2 ^ 23 + (significand q - 2 ^ 23)).toNat

variable {q : ℚ}

theorem le_of_exponent (hq : 0 < q) : (2 : ℚ) ^ exponent q ≤ q := by
  exact_mod_cast Int.zpow_log_le_self (b := 2) (by norm_num) hq

theorem lt_of_exponent (q : ℚ) : q < (2 : ℚ) ^ (exponent q + 1) := by
  exact_mod_cast Int.lt_zpow_succ_log_self (b := 2) (by norm_num) q

theorem significand_bounds (hq : 0 < q) : 2 ^ 23 ≤ significand q ∧ significand q ≤ 2 ^ 24 := by
  have hpos : (0 : ℚ) < 2 ^ (23 - exponent q) := zpow_pos (by norm_num) _
  have hlower : (2 : ℚ) ^ 23 ≤ q * 2 ^ (23 - exponent q) := by
    have hle := mul_le_mul_of_nonneg_right (le_of_exponent hq) hpos.le
    rw [← zpow_add₀ (by norm_num), add_sub_cancel] at hle
    exact_mod_cast hle
  have hupper : q * 2 ^ (23 - exponent q) < 2 ^ 24 := by
    have hlt := mul_lt_mul_of_pos_right (lt_of_exponent q) hpos
    rw [← zpow_add₀ (by norm_num), show exponent q + 1 + (23 - exponent q) = 24 by ring] at hlt
    exact_mod_cast hlt
  constructor
  · exact (Int.le_floor.2 (by exact_mod_cast hlower)).trans (floor_le_roundEven _)
  · refine (roundEven_le _).trans (Int.add_one_le_iff.2 ?_)
    exact Int.floor_lt.2 (by exact_mod_cast hupper)

theorem rounded_bounds (hq : 0 < q) :
    (2 : ℚ) ^ exponent q ≤ rounded q ∧ rounded q ≤ (2 : ℚ) ^ (exponent q + 1) := by
  obtain ⟨hlower, hupper⟩ := significand_bounds hq
  have hpos : (0 : ℚ) ≤ 2 ^ (exponent q - 23) := (zpow_pos (by norm_num) _).le
  have hlower' : (2 : ℚ) ^ (23 : Int) ≤ significand q := by exact_mod_cast hlower
  have hupper' : (significand q : ℚ) ≤ 2 ^ (24 : Int) := by exact_mod_cast hupper
  constructor
  · have hle := mul_le_mul_of_nonneg_right hlower' hpos
    rwa [← zpow_add₀ (by norm_num), add_sub_cancel] at hle
  · have hle := mul_le_mul_of_nonneg_right hupper' hpos
    rwa [← zpow_add₀ (by norm_num), show 24 + (exponent q - 23) = exponent q + 1 by ring] at hle

theorem bits_bounds (hq : 0 < q) (hlower : -126 ≤ exponent q) (hupper : exponent q ≤ 126) :
    0 < (bits q).toNat ∧ (bits q).toNat ≤ 0x7F800000 := by
  obtain ⟨hsig, hsig'⟩ := significand_bounds hq
  have hnat : ((exponent q + 127) * 2 ^ 23 + (significand q - 2 ^ 23)).toNat < 2 ^ 32 := by omega
  rw [bits, UInt32.toNat_ofNat_of_lt' hnat]
  omega

/-- The quotient of two unsigned numbers, each of them rounded first. -/
def divide (m n : Nat) : UInt32 := bits (rounded m / rounded n)

theorem rounded_nat_bounds {n : Nat} (hpos : 0 < n) (hlt : n < 2 ^ 32) :
    1 ≤ rounded n ∧ rounded n ≤ 2 ^ (32 : Int) := by
  have hlog : exponent (n : ℚ) = Nat.log 2 n := Int.log_natCast 2 n
  have hupper : Nat.log 2 n < 32 := Nat.log_lt_of_lt_pow hpos.ne' hlt
  have hcast : (0 : ℚ) < n := by exact_mod_cast hpos
  obtain ⟨hle, hle'⟩ := rounded_bounds hcast
  constructor
  · exact (one_le_zpow₀ (by norm_num) (by omega)).trans hle
  · exact hle'.trans (zpow_le_zpow_right₀ (by norm_num) (by omega))

theorem divide_bounds {m n : Nat} (hm : 0 < m) (hm' : m < 2 ^ 32) (hn : 0 < n) (hn' : n < 2 ^ 32) :
    0 < (divide m n).toNat ∧ (divide m n).toNat ≤ 0x7F800000 := by
  obtain ⟨hlower, hupper⟩ := rounded_nat_bounds hm hm'
  obtain ⟨hlower', hupper'⟩ := rounded_nat_bounds hn hn'
  have hquotient : (2 : ℚ) ^ (-32 : Int) ≤ rounded m / rounded n := by
    rw [le_div_iff₀ (by linarith)]
    calc (2 : ℚ) ^ (-32 : Int) * rounded n ≤ 2 ^ (-32 : Int) * 2 ^ (32 : Int) := by gcongr
      _ = 1 := by norm_num
      _ ≤ rounded m := hlower
  have hquotient' : rounded m / rounded n < 2 ^ (33 : Int) := by
    rw [div_lt_iff₀ (by linarith)]
    calc rounded m ≤ 2 ^ (32 : Int) := hupper
      _ < 2 ^ (33 : Int) * 1 := by norm_num
      _ ≤ 2 ^ (33 : Int) * rounded n := by gcongr
  have hpos : 0 < rounded m / rounded n := (zpow_pos (by norm_num) _).trans_le hquotient
  have hexponent : -32 ≤ exponent (rounded m / rounded n) :=
    (Int.zpow_le_iff_le_log (b := 2) (by norm_num) hpos).1 (by exact_mod_cast hquotient)
  have hexponent' : exponent (rounded m / rounded n) < 33 :=
    (Int.lt_zpow_iff_log_lt (b := 2) (by norm_num) hpos).1 (by exact_mod_cast hquotient')
  exact bits_bounds hpos (by omega) (by omega)

end Binary32
end SweetHome
