import Mathlib.Algebra.Order.Floor.Ring
import Mathlib.Algebra.Order.Field.Basic
import Mathlib.Tactic.GCongr
import Mathlib.Tactic.Linarith
import Mathlib.Tactic.Ring

/-!
# Built-in functions of GLSL

Vectors and the functions that shaders apply to them, over an ordered field. Where GLSL leaves a result
undefined there is none: `clamp?` with a lower bound above the upper one, `div?` by zero. The last section reads
back two digits that were packed into one number.
-/

namespace SweetHome
namespace Glsl

@[ext] structure Vec2 (α : Type) where
  x : α
  y : α
deriving DecidableEq, Repr

@[ext] structure Vec3 (α : Type) where
  x : α
  y : α
  z : α
deriving DecidableEq, Repr

@[ext] structure Vec4 (α : Type) where
  x : α
  y : α
  z : α
  w : α
deriving DecidableEq, Repr

section
variable {α β γ : Type}

def Vec2.map (f : α → β) (v : Vec2 α) : Vec2 β := ⟨f v.x, f v.y⟩

def Vec2.All (P : α → Prop) (v : Vec2 α) : Prop := P v.x ∧ P v.y

def Vec3.zipWith (f : α → β → γ) (v : Vec3 α) (w : Vec3 β) : Vec3 γ := ⟨f v.x w.x, f v.y w.y, f v.z w.z⟩

def Vec4.xy (v : Vec4 α) : Vec2 α := ⟨v.x, v.y⟩

def Vec4.zw (v : Vec4 α) : Vec2 α := ⟨v.z, v.w⟩

def Vec4.xyz (v : Vec4 α) : Vec3 α := ⟨v.x, v.y, v.z⟩

def Vec4.map (f : α → β) (v : Vec4 α) : Vec4 β := ⟨f v.x, f v.y, f v.z, f v.w⟩

def Vec4.zipWith (f : α → β → γ) (v : Vec4 α) (w : Vec4 β) : Vec4 γ :=
  ⟨f v.x w.x, f v.y w.y, f v.z w.z, f v.w w.w⟩

def Vec4.any (v : Vec4 Bool) : Bool := v.x || v.y || v.z || v.w

def Vec4.All (P : α → Prop) (v : Vec4 α) : Prop := P v.x ∧ P v.y ∧ P v.z ∧ P v.w

instance [Add α] : Add (Vec4 α) := ⟨Vec4.zipWith (· + ·)⟩

instance [Sub α] : Sub (Vec4 α) := ⟨Vec4.zipWith (· - ·)⟩

instance [Max α] : Max (Vec4 α) := ⟨Vec4.zipWith max⟩

instance [Min α] : Min (Vec4 α) := ⟨Vec4.zipWith min⟩

theorem Vec4.All.map {P : α → Prop} {Q : β → Prop} {f : α → β} {v : Vec4 α} (hv : v.All P)
    (h : ∀ a, P a → Q (f a)) : (v.map f).All Q :=
  ⟨h _ hv.1, h _ hv.2.1, h _ hv.2.2.1, h _ hv.2.2.2⟩

theorem Vec4.All.xy {P : α → Prop} {v : Vec4 α} (hv : v.All P) : v.xy.All P := ⟨hv.1, hv.2.1⟩

theorem Vec4.All.zw {P : α → Prop} {v : Vec4 α} (hv : v.All P) : v.zw.All P := hv.2.2

end

section
variable {K : Type} [LinearOrder K]

def clamp (x lower upper : K) : K := min (max x lower) upper

def clamp? (x lower upper : K) : Option K := if lower ≤ upper then some (clamp x lower upper) else none

def Vec4.clamp? (v lower upper : Vec4 K) : Option (Vec4 K) := do
  let x ← Glsl.clamp? v.x lower.x upper.x
  let y ← Glsl.clamp? v.y lower.y upper.y
  let z ← Glsl.clamp? v.z lower.z upper.z
  let w ← Glsl.clamp? v.w lower.w upper.w
  return ⟨x, y, z, w⟩

variable {x lower upper : K}

theorem le_clamp (h : lower ≤ upper) : lower ≤ clamp x lower upper := le_min (le_max_right x lower) h

theorem clamp_le : clamp x lower upper ≤ upper := min_le_right _ _

theorem clamp_of_mem (hlower : lower ≤ x) (hupper : x ≤ upper) : clamp x lower upper = x := by
  rw [clamp, max_eq_left hlower, min_eq_left hupper]

theorem clamp?_of_le (h : lower ≤ upper) : clamp? x lower upper = some (clamp x lower upper) := if_pos h

theorem clamp?_of_lt (h : upper < lower) : clamp? x lower upper = none := if_neg (not_le.2 h)

theorem clamp_min_max_mem {l u e s : K} (he : l ≤ e ∧ e ≤ u) (hs : l ≤ s ∧ s ≤ u) (x : K) :
    l ≤ clamp x (min e s) (max e s) ∧ clamp x (min e s) (max e s) ≤ u :=
  ⟨(le_min he.1 hs.1).trans (le_clamp min_le_max), clamp_le.trans (max_le he.2 hs.2)⟩

/-- A vector is clamped between the smaller and the larger of two others, component by component. -/
theorem Vec4.clamp?_min_max {l u : K} {e s : Vec4 K} (he : e.All fun c => l ≤ c ∧ c ≤ u)
    (hs : s.All fun c => l ≤ c ∧ c ≤ u) (v : Vec4 K) :
    ∃ r, v.clamp? (min e s) (max e s) = some r ∧ r.All fun c => l ≤ c ∧ c ≤ u := by
  obtain ⟨hex, hey, hez, hew⟩ := he
  obtain ⟨hsx, hsy, hsz, hsw⟩ := hs
  refine ⟨⟨_, _, _, _⟩, ?_, clamp_min_max_mem hex hsx v.x, clamp_min_max_mem hey hsy v.y,
    clamp_min_max_mem hez hsz v.z, clamp_min_max_mem hew hsw v.w⟩
  have hcomponent : ∀ x e s : K, Glsl.clamp? x (min e s) (max e s) = some (Glsl.clamp x (min e s) (max e s)) :=
    fun x e s => clamp?_of_le min_le_max
  change Vec4.clamp? v ⟨_, _, _, _⟩ ⟨_, _, _, _⟩ = _
  simp only [Vec4.clamp?, hcomponent]
  rfl

end

section
variable {K : Type} [Field K] [LinearOrder K]

def Vec2.dot (v w : Vec2 K) : K := v.x * w.x + v.y * w.y

def Vec3.dot (v w : Vec3 K) : K := v.x * w.x + v.y * w.y + v.z * w.z

def div? (x y : K) : Option K := if y = 0 then none else some (x / y)

def mix (x y a : K) : K := x * (1 - a) + y * a

def Vec3.mix (v w : Vec3 K) (a : K) : Vec3 K := v.zipWith (fun x y => Glsl.mix x y a) w

def Vec4.mix (v w : Vec4 K) (a : K) : Vec4 K := v.zipWith (fun x y => Glsl.mix x y a) w

/-- The conversion to `int` drops the fraction. -/
def toInt [FloorRing K] (x : K) : Int := if 0 ≤ x then ⌊x⌋ else ⌈x⌉

variable {x y a : K}

theorem div?_of_ne (h : y ≠ 0) : div? x y = some (x / y) := if_neg h

theorem div?_zero : div? x 0 = none := if_pos rfl

variable [IsStrictOrderedRing K]

theorem le_toInt_iff [FloorRing K] {n : Int} (hn : 0 < n) : n ≤ toInt x ↔ (n : K) ≤ x := by
  have hpos : (0 : K) < n := by exact_mod_cast hn
  unfold toInt
  split
  · exact Int.le_floor
  · rename_i hneg
    have hceil : ⌈x⌉ ≤ 0 := Int.ceil_le.2 (by push_cast; exact (not_le.1 hneg).le)
    constructor
    · intro hle
      omega
    · intro hle
      linarith [not_le.1 hneg]

theorem mix_mem {l u : K} (hx : l ≤ x ∧ x ≤ u) (hy : l ≤ y ∧ y ≤ u) (ha : 0 ≤ a) (ha' : a ≤ 1) :
    l ≤ mix x y a ∧ mix x y a ≤ u := by
  have hweight : 0 ≤ 1 - a := by linarith
  constructor
  · calc l = l * (1 - a) + l * a := by ring
      _ ≤ mix x y a := add_le_add (mul_le_mul_of_nonneg_right hx.1 hweight) (mul_le_mul_of_nonneg_right hy.1 ha)
  · calc mix x y a ≤ u * (1 - a) + u * a :=
        add_le_add (mul_le_mul_of_nonneg_right hx.2 hweight) (mul_le_mul_of_nonneg_right hy.2 ha)
      _ = u := by ring

/-! ### Smooth steps -/

/-- The curve of `smoothstep` between its edges. -/
def smooth (t : K) : K := t * t * ((3 : Nat) - (2 : Nat) * t)

def smoothstep (edge0 edge1 x : K) : K := smooth (clamp ((x - edge0) / (edge1 - edge0)) 0 1)

def smoothstep? (edge0 edge1 x : K) : Option K := if edge0 < edge1 then some (smoothstep edge0 edge1 x) else none

variable {s t edge0 edge1 : K}

omit [IsStrictOrderedRing K] in
theorem smoothstep?_of_lt (h : edge0 < edge1) : smoothstep? edge0 edge1 x = some (smoothstep edge0 edge1 x) := if_pos h

/-- The curve rises, and is never steeper than in the middle. -/
theorem smooth_sub_mem (hs : 0 ≤ s) (hst : s ≤ t) (ht : t ≤ 1) :
    0 ≤ smooth t - smooth s ∧ smooth t - smooth s ≤ 3 / 2 * (t - s) := by
  have hsplit : smooth t - smooth s = (t - s) * (t * (3 - 2 * t - s) + s * (3 - 2 * s - t)) := by
    simp only [smooth, Nat.cast_ofNat]
    ring
  have hslope : 0 ≤ t * (3 - 2 * t - s) + s * (3 - 2 * s - t) :=
    add_nonneg (mul_nonneg (by linarith) (by linarith)) (mul_nonneg hs (by linarith))
  have hslope' : t * (3 - 2 * t - s) + s * (3 - 2 * s - t) ≤ 3 / 2 := by
    linarith [sq_nonneg (t + s - 1), sq_nonneg (t - s)]
  rw [hsplit, mul_comm (3 / 2) (t - s)]
  exact ⟨mul_nonneg (sub_nonneg.2 hst) hslope, mul_le_mul_of_nonneg_left hslope' (sub_nonneg.2 hst)⟩

omit [Field K] [IsStrictOrderedRing K] in
theorem clamp_le_clamp {y : K} (hxy : x ≤ y) (lower upper : K) : clamp x lower upper ≤ clamp y lower upper :=
  min_le_min_right upper (max_le_max_right lower hxy)

theorem clamp_sub_le {y lower upper : K} (hxy : x ≤ y) : clamp y lower upper - clamp x lower upper ≤ y - x := by
  rw [sub_le_iff_le_add, clamp, clamp]
  rcases le_total (max x lower) upper with h | h
  · rw [min_eq_left h]
    refine (min_le_left _ _).trans (max_le ?_ ?_)
    · linarith [le_max_left x lower]
    · linarith [le_max_right x lower]
  · rw [min_eq_right h]
    linarith [min_le_right (max y lower) upper]

theorem smoothstep_of_le (h : edge0 < edge1) (hx : x ≤ edge0) : smoothstep edge0 edge1 x = 0 := by
  have hle : (x - edge0) / (edge1 - edge0) ≤ 0 := div_nonpos_of_nonpos_of_nonneg (by linarith) (by linarith)
  rw [smoothstep, clamp, max_eq_right hle, min_eq_left zero_le_one, smooth]
  ring

theorem smoothstep_of_ge (h : edge0 < edge1) (hx : edge1 ≤ x) : smoothstep edge0 edge1 x = 1 := by
  have hle : 1 ≤ (x - edge0) / (edge1 - edge0) := (one_le_div (by linarith)).2 (by linarith)
  rw [smoothstep, clamp, max_eq_left (zero_le_one.trans hle), min_eq_right hle, smooth]
  norm_num

theorem smoothstep_sub_mem {y : K} (h : edge0 < edge1) (hxy : x ≤ y) :
    0 ≤ smoothstep edge0 edge1 y - smoothstep edge0 edge1 x ∧
      smoothstep edge0 edge1 y - smoothstep edge0 edge1 x ≤ 3 / 2 / (edge1 - edge0) * (y - x) := by
  have hwidth : 0 < edge1 - edge0 := sub_pos.2 h
  have hdiv : (x - edge0) / (edge1 - edge0) ≤ (y - edge0) / (edge1 - edge0) :=
    div_le_div_of_nonneg_right (by linarith) hwidth.le
  have hcurve := smooth_sub_mem (le_clamp zero_le_one) (clamp_le_clamp hdiv 0 1) clamp_le
  refine ⟨hcurve.1, hcurve.2.trans ?_⟩
  calc 3 / 2 * (clamp ((y - edge0) / (edge1 - edge0)) 0 1 - clamp ((x - edge0) / (edge1 - edge0)) 0 1)
      ≤ 3 / 2 * ((y - edge0) / (edge1 - edge0) - (x - edge0) / (edge1 - edge0)) :=
        mul_le_mul_of_nonneg_left (clamp_sub_le hdiv) (by norm_num)
    _ = 3 / 2 / (edge1 - edge0) * (y - x) := by
      field_simp
      ring

theorem smoothstep_mem (h : edge0 < edge1) (x : K) :
    0 ≤ smoothstep edge0 edge1 x ∧ smoothstep edge0 edge1 x ≤ 1 := by
  have hlow := (smoothstep_sub_mem h (min_le_right edge0 x)).1
  have hhigh := (smoothstep_sub_mem h (le_max_right edge1 x)).1
  rw [smoothstep_of_le h (min_le_left edge0 x), sub_zero] at hlow
  rw [smoothstep_of_ge h (le_max_left edge1 x), sub_nonneg] at hhigh
  exact ⟨hlow, hhigh⟩

/-! ### Convex combinations -/

/-- Weights of a convex combination. -/
structure Vec4.Convex (w : Vec4 K) : Prop where
  nonneg : w.All fun a => 0 ≤ a
  sum : w.x + w.y + w.z + w.w = 1

def Vec4.combine (w : Vec4 K) (p q r s : K) : K := w.x * p + w.y * q + w.z * r + w.w * s

/-- The four vectors combined with the weights `w`, which are the same for each component. -/
def Vec4.combine3 (w : Vec4 K) (p q r s : Vec3 K) : Vec3 K :=
  ⟨w.combine p.x q.x r.x s.x, w.combine p.y q.y r.y s.y, w.combine p.z q.z r.z s.z⟩

theorem Vec4.Convex.mix {v w : Vec4 K} (hv : v.Convex) (hw : w.Convex) (ha : 0 ≤ a) (ha' : a ≤ 1) :
    (v.mix w a).Convex := by
  have hweight : 0 ≤ 1 - a := by linarith
  have hmix : ∀ x y : K, 0 ≤ x → 0 ≤ y → 0 ≤ Glsl.mix x y a := fun x y hx hy =>
    add_nonneg (mul_nonneg hx hweight) (mul_nonneg hy ha)
  obtain ⟨⟨hvx, hvy, hvz, hvw⟩, hvsum⟩ := hv
  obtain ⟨⟨hwx, hwy, hwz, hww⟩, hwsum⟩ := hw
  refine ⟨⟨hmix _ _ hvx hwx, hmix _ _ hvy hwy, hmix _ _ hvz hwz, hmix _ _ hvw hww⟩, ?_⟩
  calc (v.mix w a).x + (v.mix w a).y + (v.mix w a).z + (v.mix w a).w
      = (v.x + v.y + v.z + v.w) * (1 - a) + (w.x + w.y + w.z + w.w) * a := by
        simp only [Vec4.mix, Vec4.zipWith, Glsl.mix]; ring
    _ = 1 := by rw [hvsum, hwsum]; ring

omit [LinearOrder K] [IsStrictOrderedRing K] in
theorem combine3_mix (v w : Vec4 K) (p q r s : Vec3 K) :
    (v.mix w a).combine3 p q r s = (v.combine3 p q r s).mix (w.combine3 p q r s) a := by
  simp only [Vec4.combine3, Vec4.combine, Vec4.mix, Vec4.zipWith, Vec3.mix, Vec3.zipWith, Glsl.mix]
  congr 1 <;> ring

theorem Vec4.Convex.combine_mem {w : Vec4 K} (hw : w.Convex) {l u p q r s : K} (hp : l ≤ p ∧ p ≤ u)
    (hq : l ≤ q ∧ q ≤ u) (hr : l ≤ r ∧ r ≤ u) (hs : l ≤ s ∧ s ≤ u) :
    l ≤ w.combine p q r s ∧ w.combine p q r s ≤ u := by
  obtain ⟨⟨hx, hy, hz, hw⟩, hsum⟩ := hw
  unfold Vec4.combine
  constructor
  · calc l = w.x * l + w.y * l + w.z * l + w.w * l := by rw [← add_mul, ← add_mul, ← add_mul, hsum, one_mul]
      _ ≤ _ := by gcongr; exacts [hp.1, hq.1, hr.1, hs.1]
  · calc _ ≤ w.x * u + w.y * u + w.z * u + w.w * u := by gcongr; exacts [hp.2, hq.2, hr.2, hs.2]
      _ = u := by rw [← add_mul, ← add_mul, ← add_mul, hsum, one_mul]

/-! ### Two digits of one number -/

variable [FloorRing K] {b : ℕ}

theorem floor_first_digit (hb : 0 < b) (v : K) : ⌊v * b⌋ = ⌊v * b * b⌋ / b := by
  have hne : (b : K) ≠ 0 := by exact_mod_cast hb.ne'
  rw [← Int.floor_div_natCast, mul_div_cancel_right₀ _ hne]

theorem floor_second_digit (hb : 0 < b) (v : K) : ⌊(v * b - ⌊v * b⌋) * b⌋ = ⌊v * b * b⌋ % b := by
  have hcast : (v * b - ⌊v * b⌋) * b = v * b * b - ((b * ⌊v * b⌋ : Int) : K) := by push_cast; ring
  rw [hcast, Int.floor_sub_intCast, Int.emod_def, ← floor_first_digit hb]

end
end Glsl
end SweetHome
