import SweetHome.Lib.Glsl
import Mathlib.Algebra.Order.BigOperators.Group.Finset
import Mathlib.Algebra.BigOperators.Ring.Finset
import Mathlib.Algebra.Order.Field.Power
import Mathlib.Tactic.FieldSimp
import Mathlib.Tactic.Positivity

/-!
# Averages of values that are near to one

A value that is mixed again and again with values near to `c` comes near to `c` itself: `drift` is how far it can be
off after `n` times, each of which may also add an error. `abs_sum_sub_le` is the like for weighted sums. The last
section samples a texture between the centres of its texels.
-/

namespace SweetHome.Averages
open Glsl

/-! ### Moving averages -/

section
variable {K : Type} [Field K]

/-- How far a value can be off after `n` mixes by `a`, from `start`, with values that are off by `e`. -/
def drift (a start e : K) (n : Nat) : K := (1 - a) ^ n * start + (1 - (1 - a) ^ n) * e

theorem drift_zero (a start e : K) : drift a start e 0 = start := by
  rw [drift, pow_zero]
  ring

theorem drift_succ (a start e : K) (n : Nat) : drift a start e (n + 1) = (1 - a) * drift a start e n + a * e := by
  rw [drift, drift, pow_succ]
  ring

end

variable {K : Type} [Field K] [LinearOrder K] [IsStrictOrderedRing K]

theorem abs_mix_sub_le {x y a c d e : K} (ha : 0 ≤ a) (ha' : a ≤ 1) (hx : |x - c| ≤ d) (hy : |y - c| ≤ e) :
    |mix x y a - c| ≤ (1 - a) * d + a * e := by
  have hsplit : mix x y a - c = (1 - a) * (x - c) + a * (y - c) := by
    rw [mix]
    ring
  have hrest : 0 ≤ 1 - a := by linarith
  calc |mix x y a - c| ≤ |(1 - a) * (x - c)| + |a * (y - c)| := hsplit ▸ abs_add_le _ _
    _ = (1 - a) * |x - c| + a * |y - c| := by rw [abs_mul, abs_mul, abs_of_nonneg hrest, abs_of_nonneg ha]
    _ ≤ (1 - a) * d + a * e := by gcongr

/-- One more mix, and an error `r` in what is stored of it. -/
theorem abs_sub_le_drift_succ {x y z a c start e r : K} {n : Nat} (ha : 0 < a) (ha' : a ≤ 1)
    (hx : |x - c| ≤ drift a start (e + r / a) n) (hy : |y - c| ≤ e) (hz : |z - mix x y a| ≤ r) :
    |z - c| ≤ drift a start (e + r / a) (n + 1) := by
  have hmix := abs_mix_sub_le ha.le ha' hx hy
  calc |z - c| ≤ |z - mix x y a| + |mix x y a - c| := abs_sub_le _ _ _
    _ ≤ r + ((1 - a) * drift a start (e + r / a) n + a * e) := add_le_add hz hmix
    _ = drift a start (e + r / a) (n + 1) := by
      rw [drift_succ]
      field_simp
      ring

/-! ### Weighted sums -/

variable {ι : Type} {s : Finset ι} {w v : ι → K}

theorem abs_sum_sub_le {c d : K} (hw : ∀ i ∈ s, 0 ≤ w i) (hv : ∀ i ∈ s, |v i - c| ≤ d) :
    |∑ i ∈ s, v i * w i - (∑ i ∈ s, w i) * c| ≤ (∑ i ∈ s, w i) * d := by
  have hsplit : ∑ i ∈ s, v i * w i - (∑ i ∈ s, w i) * c = ∑ i ∈ s, w i * (v i - c) := by
    rw [Finset.sum_mul, ← Finset.sum_sub_distrib]
    exact Finset.sum_congr rfl fun i _ => by ring
  rw [hsplit, Finset.sum_mul]
  refine (Finset.abs_sum_le_sum_abs _ _).trans (Finset.sum_le_sum fun i hi => ?_)
  rw [abs_mul, abs_of_nonneg (hw i hi)]
  exact mul_le_mul_of_nonneg_left (hv i hi) (hw i hi)

theorem sum_mul_mem (hw : ∀ i ∈ s, 0 ≤ w i) (hv : ∀ i ∈ s, 0 ≤ v i ∧ v i ≤ 1) :
    0 ≤ ∑ i ∈ s, v i * w i ∧ ∑ i ∈ s, v i * w i ≤ ∑ i ∈ s, w i :=
  ⟨Finset.sum_nonneg fun i hi => mul_nonneg (hv i hi).1 (hw i hi),
    Finset.sum_le_sum fun i hi => mul_le_of_le_one_left (hw i hi) (hv i hi).2⟩

/-! ### Textures -/

section
variable {K : Type} [Field K]

/-- Where the centre of a texel is. -/
def centre (n : Nat) (i : Int) : K := (i + 1 / (2 : Nat)) / n

theorem centre_add {n : Nat} (i k : Int) : (centre n i : K) + k * (1 / n) = centre n (i + k) := by
  rw [centre, centre]
  push_cast
  ring

end

variable [FloorRing K]

/-- The index of `GL_CLAMP_TO_EDGE`. -/
def clampToEdge (n : Nat) (i : Int) : Nat := (max 0 (min i (n - 1))).toNat

/-- `GL_LINEAR` along one axis of `n` texels. -/
def linear (n : Nat) (texel : Nat → K) (u : K) : K :=
  let position := u * n - 1 / (2 : Nat)
  mix (texel (clampToEdge n ⌊position⌋)) (texel (clampToEdge n (⌊position⌋ + 1))) (position - ⌊position⌋)

def texture2D (width height : Nat) (texels : Nat → Nat → K) (u v : K) : K :=
  linear height (fun y => linear width (fun x => texels x y) u) v

theorem linear_centre {n : Nat} (hn : 0 < n) (texel : Nat → K) (i : Int) :
    linear n texel (centre n i) = texel (clampToEdge n i) := by
  have hposition : centre n i * n - 1 / (2 : Nat) = (i : K) := by
    have hne : (n : K) ≠ 0 := by exact_mod_cast hn.ne'
    rw [centre]
    field_simp
    ring
  rw [linear, hposition, Int.floor_intCast]
  simp [mix]

theorem texture2D_centre {width height : Nat} (hwidth : 0 < width) (hheight : 0 < height) (texels : Nat → Nat → K)
    (i j : Int) : texture2D width height texels (centre width i) (centre height j) =
      texels (clampToEdge width i) (clampToEdge height j) := by
  rw [texture2D, linear_centre hheight, linear_centre hwidth]

theorem clampToEdge_lt {n : Nat} (hn : 0 < n) (i : Int) : clampToEdge n i < n := by
  unfold clampToEdge
  omega

end SweetHome.Averages
