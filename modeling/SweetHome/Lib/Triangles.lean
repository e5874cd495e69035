import SweetHome.Lib.Box
import Mathlib.Algebra.Module.Prod
import Mathlib.Tactic.LinearCombination

/-!
# Textured triangles

Each three vertices of a list make a triangle, which shows a point of the texture where the same mixture of its
corners is that has the point for its texture coordinates. On the two triangles of a parallelogram with the corners
of the unit square for texture coordinates, that is the affine map of the square onto it (`shows_corners_iff`).
-/

namespace SweetHome
open Box

def triangles {α : Type} : List α → List (α × α × α)
  | a :: b :: c :: vertices => (a, b, c) :: triangles vertices
  | _ => []

section
variable {K : Type} [Field K] [LinearOrder K]

/-- Barycentric coordinates. -/
structure Weights (K : Type) [Field K] [LinearOrder K] where
  first : K
  second : K
  third : K
  first_nonneg : 0 ≤ first
  second_nonneg : 0 ≤ second
  third_nonneg : 0 ≤ third
  sum_eq_one : first + second + third = 1

/-- The mixture of three points. -/
def Weights.mix (w : Weights K) (a b c : K × K) : K × K := w.first • a + w.second • b + w.third • c

/-- A triangle of the vertices, positions with texture coordinates, shows the point `t` of the texture at `p`. -/
def Shows (vertices : List ((K × K) × (K × K))) (t p : K × K) : Prop :=
  ∃ T ∈ triangles vertices, ∃ w : Weights K, w.mix T.1.2 T.2.1.2 T.2.2.2 = t ∧ w.mix T.1.1 T.2.1.1 T.2.2.1 = p

/-- The corners of the unit square, in the order of its two triangles. -/
def square : List (K × K) := [(0, 0), (0, 1), (1, 0), (1, 0), (0, 1), (1, 1)]

/-- The unit square, mapped onto the parallelogram around `c`. -/
def onto (c a b t : K × K) : K × K := c + ((2 : Nat) * t.1 - 1) • a + ((2 : Nat) * t.2 - 1) • b

/-- The affine map from the texture coordinates of two such triangles to the positions of their vertices. -/
def quadMap (vertices : List (K × K)) (t : K × K) : K × K :=
  match vertices with
  | v₀ :: v₁ :: v₂ :: _ => v₀ + t.1 • (v₂ - v₀) + t.2 • (v₁ - v₀)
  | _ => 0

/-! ### The two triangles of a parallelogram -/

theorem Weights.mix_square_first (w : Weights K) : w.mix (0, 0) (0, 1) (1, 0) = (w.third, w.second) := by
  simp [mix]

theorem Weights.mix_square_second (w : Weights K) :
    w.mix (1, 0) (0, 1) (1, 1) = (1 - w.second, 1 - w.first) := by
  have hsum := w.sum_eq_one
  ext
  · simp [mix]
    linear_combination hsum
  · simp [mix]
    linear_combination hsum

theorem Weights.mix_corners_first (w : Weights K) (c a b : K × K) :
    w.mix (c - a - b) (c - a + b) (c + a - b) = onto c a b (w.third, w.second) := by
  have hsum := w.sum_eq_one
  ext
  · simp [mix, onto]
    linear_combination (c.1 - a.1 - b.1) * hsum
  · simp [mix, onto]
    linear_combination (c.2 - a.2 - b.2) * hsum

theorem Weights.mix_corners_second (w : Weights K) (c a b : K × K) :
    w.mix (c + a - b) (c - a + b) (c + a + b) = onto c a b (1 - w.second, 1 - w.first) := by
  have hsum := w.sum_eq_one
  ext
  · simp [mix, onto]
    linear_combination (c.1 + a.1 + b.1) * hsum
  · simp [mix, onto]
    linear_combination (c.2 + a.2 + b.2) * hsum

omit [LinearOrder K] in
theorem triangles_corners (c a b : K × K) :
    triangles ((corners c a b).zip square) =
      [((c - a - b, ((0, 0) : K × K)), (c - a + b, ((0, 1) : K × K)), (c + a - b, ((1, 0) : K × K))),
        ((c + a - b, ((1, 0) : K × K)), (c - a + b, ((0, 1) : K × K)), (c + a + b, ((1, 1) : K × K)))] := rfl

omit [LinearOrder K] in
theorem quadMap_corners (c a b t : K × K) : quadMap (corners c a b) t = onto c a b t := by
  ext
  · simp [quadMap, corners, onto]
    ring
  · simp [quadMap, corners, onto]
    ring

variable [IsStrictOrderedRing K] {c a b t p : K × K}

theorem shows_corners_iff :
    Shows ((corners c a b).zip square) t p ↔ (0 ≤ t ∧ t ≤ 1) ∧ p = onto c a b t := by
  simp only [Shows, triangles_corners, List.mem_cons, List.not_mem_nil, or_false]
  constructor
  · rintro ⟨T, hT, w, rfl, rfl⟩
    have h₁ := w.first_nonneg
    have h₂ := w.second_nonneg
    have h₃ := w.third_nonneg
    have hsum := w.sum_eq_one
    rcases hT with rfl | rfl
    · dsimp only
      rw [w.mix_square_first, w.mix_corners_first]
      exact ⟨⟨⟨h₃, h₂⟩, ⟨by dsimp; linarith, by dsimp; linarith⟩⟩, rfl⟩
    · dsimp only
      rw [w.mix_square_second, w.mix_corners_second]
      exact ⟨⟨⟨by dsimp; linarith, by dsimp; linarith⟩, ⟨by dsimp; linarith, by dsimp; linarith⟩⟩, rfl⟩
  · rintro ⟨⟨⟨h₁, h₂⟩, h₃, h₄⟩, rfl⟩
    change 0 ≤ t.1 at h₁
    change 0 ≤ t.2 at h₂
    change t.1 ≤ 1 at h₃
    change t.2 ≤ 1 at h₄
    rcases le_total (t.1 + t.2) 1 with hfirst | hsecond
    · obtain ⟨w, hw⟩ : ∃ w : Weights K, w = ⟨1 - t.1 - t.2, t.2, t.1, by linarith, h₂, h₁, by ring⟩ := ⟨_, rfl⟩
      refine ⟨_, .inl rfl, w, w.mix_square_first.trans ?_, (w.mix_corners_first c a b).trans ?_⟩ <;> rw [hw]
    · obtain ⟨w, hw⟩ : ∃ w : Weights K,
          w = ⟨1 - t.2, 1 - t.1, t.1 + t.2 - 1, by linarith, by linarith, by linarith, by ring⟩ := ⟨_, rfl⟩
      refine ⟨_, .inr rfl, w, w.mix_square_second.trans ?_, (w.mix_corners_second c a b).trans ?_⟩ <;> rw [hw] <;>
        simp

end
end SweetHome
