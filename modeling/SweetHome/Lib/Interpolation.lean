import SweetHome.Lib.Averages

/-!
# Interpolation between neighbours

Functions on the line that are given cell by cell, the cells being between one integer and the next. If a function
changes no faster than at a rate in each of its cells, it changes no faster anywhere (`abs_sub_le_of_cells`): this is
how fast the linear interpolation of a row of values changes, and with it a sample of a texture.
-/

namespace SweetHome.Interpolation
open Glsl Averages

variable {K : Type} [Field K] [LinearOrder K] [IsStrictOrderedRing K] [FloorRing K]

theorem abs_sub_le_of_cells {f : K → K} {c : K}
    (hcell : ∀ (i : Int) (x y : K), i ≤ x → x ≤ y → y ≤ i + 1 → |f x - f y| ≤ c * (y - x)) (x y : K) :
    |f x - f y| ≤ c * |x - y| := by
  -- From `x` on, one cell after the other.
  have hright : ∀ (n : Nat) (x y : K), x ≤ y → ⌊y⌋ ≤ ⌊x⌋ + n → |f x - f y| ≤ c * (y - x) := by
    intro n
    induction n with
    | zero =>
      intro x y hxy hfloor
      have hle : ((⌊y⌋ : Int) : K) ≤ ⌊x⌋ := by exact_mod_cast (by simpa using hfloor)
      exact hcell ⌊x⌋ x y (Int.floor_le x) hxy ((Int.lt_floor_add_one y).le.trans (by linarith))
    | succ n ih =>
      intro x y hxy hfloor
      rcases le_total y (⌊x⌋ + 1) with hy | hy
      · exact hcell ⌊x⌋ x y (Int.floor_le x) hxy hy
      · have hx := (Int.lt_floor_add_one x).le
        have hrest := ih (⌊x⌋ + 1) y hy (by
          rw [Int.floor_add_one, Int.floor_intCast]
          push_cast at hfloor
          omega)
        have hfirst := hcell ⌊x⌋ x (⌊x⌋ + 1) (Int.floor_le x) hx le_rfl
        calc |f x - f y| ≤ |f x - f (⌊x⌋ + 1)| + |f (⌊x⌋ + 1) - f y| := abs_sub_le _ _ _
          _ ≤ c * (⌊x⌋ + 1 - x) + c * (y - (⌊x⌋ + 1)) := add_le_add hfirst hrest
          _ = c * (y - x) := by ring
  rcases le_total x y with hxy | hyx
  · rw [abs_sub_comm x y, abs_of_nonneg (sub_nonneg.2 hxy)]
    exact hright (⌊y⌋ - ⌊x⌋).toNat x y hxy (by omega)
  · rw [abs_sub_comm (f x), abs_of_nonneg (sub_nonneg.2 hyx)]
    exact hright (⌊x⌋ - ⌊y⌋).toNat y x hyx (by omega)

/-! ### Rows -/

/-- The values of a row, with a straight line from each to the next. -/
def interpolate (value : Int → K) (p : K) : K := mix (value ⌊p⌋) (value (⌊p⌋ + 1)) (p - ⌊p⌋)

variable {value : Int → K} {p q c : K} {i : Int}

theorem interpolate_of_mem (hi : i ≤ p) (hp : p ≤ i + 1) :
    interpolate value p = mix (value i) (value (i + 1)) (p - i) := by
  rcases hp.eq_or_lt with rfl | hlt
  · rw [interpolate, Int.floor_add_one, Int.floor_intCast]
    simp [mix]
  · rw [interpolate, (Int.floor_eq_iff.2 ⟨hi, hlt⟩ : ⌊p⌋ = i)]

/-- Near to a place, its value and one next to it have a part. -/
theorem interpolate_near (h : |p - i| ≤ 1) :
    ∃ j, |j - i| ≤ 1 ∧ ∀ value : Int → K, interpolate value p = mix (value j) (value i) (1 - |p - i|) := by
  rcases le_total (i : K) p with hp | hp
  · rw [abs_of_nonneg (sub_nonneg.2 hp)] at h ⊢
    refine ⟨i + 1, by simp, fun value => ?_⟩
    rw [interpolate_of_mem hp (by linarith), mix, mix]
    ring
  · rw [abs_sub_comm, abs_of_nonneg (sub_nonneg.2 hp)] at h
    rw [abs_sub_comm, abs_of_nonneg (sub_nonneg.2 hp)]
    refine ⟨i - 1, by simp, fun value => ?_⟩
    rw [interpolate_of_mem (i := i - 1) (by push_cast; linarith) (by push_cast; linarith), mix, mix,
      Int.sub_add_cancel]
    push_cast
    ring

theorem abs_interpolate_sub_le (h : ∀ i, |value (i + 1) - value i| ≤ c) (p q : K) :
    |interpolate value p - interpolate value q| ≤ c * |p - q| := by
  refine abs_sub_le_of_cells (fun i x y hx hxy hy => ?_) p q
  rw [interpolate_of_mem hx (hxy.trans hy), interpolate_of_mem (hx.trans hxy) hy]
  have hdiff : mix (value i) (value (i + 1)) (x - i) - mix (value i) (value (i + 1)) (y - i) =
      (value (i + 1) - value i) * (x - y) := by
    rw [mix, mix]
    ring
  rw [hdiff, abs_mul, abs_sub_comm x y, abs_of_nonneg (sub_nonneg.2 hxy)]
  exact mul_le_mul_of_nonneg_right (h i) (sub_nonneg.2 hxy)

/-- Two rows that are near to each other at every value are so between the values as well. -/
theorem abs_interpolate_sub_le_of_near {other : Int → K} (h : ∀ i, |value i - other i| ≤ c) (p : K) :
    |interpolate value p - interpolate other p| ≤ c := by
  have hfract := Int.fract_nonneg p
  have hfract' := (Int.fract_lt_one p).le
  rw [Int.fract] at hfract hfract'
  have hdiff : interpolate value p - interpolate other p =
      mix (value ⌊p⌋ - other ⌊p⌋) (value (⌊p⌋ + 1) - other (⌊p⌋ + 1)) (p - ⌊p⌋) := by
    simp only [interpolate, mix]
    ring
  rw [hdiff, abs_le]
  exact mix_mem (abs_le.1 (h _)) (abs_le.1 (h _)) hfract hfract'

/-! ### Textures -/

variable {width height : Nat} {texels : Nat → Nat → K}

omit [IsStrictOrderedRing K] in
theorem texture2D_eq (width height : Nat) (texels : Nat → Nat → K) (u v : K) :
    texture2D width height texels u v = interpolate (fun j => interpolate
      (fun i => texels (clampToEdge width i) (clampToEdge height j)) (u * width - 1 / (2 : Nat)))
      (v * height - 1 / (2 : Nat)) := rfl

theorem clampToEdge_succ {n : Nat} (hn : 0 < n) (i : Int) :
    clampToEdge n (i + 1) = clampToEdge n i ∨
      clampToEdge n (i + 1) = clampToEdge n i + 1 ∧ clampToEdge n i + 1 < n := by
  unfold clampToEdge
  omega

omit [FloorRing K] in
/-- The texture repeats its texels on its edges. -/
theorem abs_clampToEdge_sub_le {n : Nat} (texel : Nat → K) (hn : 0 < n) (hc : 0 ≤ c)
    (h : ∀ x, x + 1 < n → |texel (x + 1) - texel x| ≤ c) (i : Int) :
    |texel (clampToEdge n (i + 1)) - texel (clampToEdge n i)| ≤ c := by
  rcases clampToEdge_succ hn i with hsame | ⟨hnext, hlt⟩
  · rw [hsame, sub_self, abs_zero]
    exact hc
  · rw [hnext]
    exact h _ hlt

/-- How far two texels next to each other are apart at most. -/
structure Contrast (width height : Nat) (texels : Nat → Nat → K) (c : K) : Prop where
  row : ∀ x y, x + 1 < width → y < height → |texels (x + 1) y - texels x y| ≤ c
  column : ∀ x y, x < width → y + 1 < height → |texels x (y + 1) - texels x y| ≤ c
  nonneg : 0 ≤ c

theorem Contrast.abs_texture2D_sub_le (h : Contrast width height texels c) (hwidth : 0 < width) (hheight : 0 < height)
    (u v u' v' : K) : |texture2D width height texels u v - texture2D width height texels u' v'| ≤
      c * (|u * width - u' * width| + |v * height - v' * height|) := by
  have hrow : |texture2D width height texels u v - texture2D width height texels u' v| ≤
      c * |u * width - u' * width| := by
    simp only [texture2D_eq]
    refine abs_interpolate_sub_le_of_near (fun j => ?_) (v * height - 1 / (2 : Nat))
    rw [← sub_sub_sub_cancel_right (u * width) (u' * width) (1 / (2 : Nat))]
    refine abs_interpolate_sub_le (fun i => ?_) _ _
    exact abs_clampToEdge_sub_le (fun x => texels x (clampToEdge height j)) hwidth h.nonneg
      (fun x hx => h.row x _ hx (clampToEdge_lt hheight j)) i
  have hcolumn : |texture2D width height texels u' v - texture2D width height texels u' v'| ≤
      c * |v * height - v' * height| := by
    simp only [texture2D_eq]
    rw [← sub_sub_sub_cancel_right (v * height) (v' * height) (1 / (2 : Nat))]
    refine abs_interpolate_sub_le (fun j => ?_) _ _
    refine abs_interpolate_sub_le_of_near (fun i => ?_) (u' * width - 1 / (2 : Nat))
    exact abs_clampToEdge_sub_le (texels (clampToEdge width i)) hheight h.nonneg
      (fun y hy => h.column _ y (clampToEdge_lt hwidth i) hy) j
  calc |texture2D width height texels u v - texture2D width height texels u' v'|
      ≤ |texture2D width height texels u v - texture2D width height texels u' v| +
          |texture2D width height texels u' v - texture2D width height texels u' v'| := abs_sub_le _ _ _
    _ ≤ c * |u * width - u' * width| + c * |v * height - v' * height| := add_le_add hrow hcolumn
    _ = c * (|u * width - u' * width| + |v * height - v' * height|) := by ring

end SweetHome.Interpolation
