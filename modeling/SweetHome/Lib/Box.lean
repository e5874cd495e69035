import Mathlib.Algebra.Order.Field.Basic
import Mathlib.Algebra.Order.Monoid.Prod
import Mathlib.Order.Interval.Basic
import Mathlib.Tactic.FieldSimp
import Mathlib.Tactic.Linarith
import Mathlib.Tactic.Positivity
import Mathlib.Tactic.Ring

/-!
# Boxes

A box is a nonempty interval of the plane in the product order: a rectangle with sides along the axes. The hull of
some points is the least box that has them all (`isHull_hull`, and `isHull_corners` for a parallelogram), and the
letterbox of a ratio in a box is the largest of that ratio, in the centre (`IsLetterbox`); there is only one.
-/

namespace SweetHome

abbrev Box (K : Type) [LinearOrder K] := NonemptyInterval (K × K)

namespace Box

/-! ### Hulls -/

section
variable {K : Type} [LinearOrder K]

def IsHull (b : Box K) (ps : List (K × K)) : Prop := IsLeast {d : Box K | ∀ p ∈ ps, p ∈ d} b

theorem IsHull.unique {b d : Box K} {ps : List (K × K)} (hb : IsHull b ps) (hd : IsHull d ps) : b = d :=
  IsLeast.unique hb hd

/-- A point adds nothing if there are others in its column and in its row. -/
theorem IsHull.tail {b : Box K} {p : K × K} {ps : List (K × K)} (hb : IsHull b (p :: ps))
    (hcolumn : ∃ q ∈ ps, q.1 = p.1) (hrow : ∃ q ∈ ps, q.2 = p.2) : IsHull b ps := by
  refine ⟨fun q hq => hb.1 q (List.mem_cons_of_mem p hq), fun d hd => hb.2 ?_⟩
  obtain ⟨q, hq, hqx⟩ := hcolumn
  obtain ⟨r, hr, hry⟩ := hrow
  have hx := hd q hq
  have hy := hd r hr
  refine List.forall_mem_cons.2 ⟨⟨⟨?_, ?_⟩, ?_, ?_⟩, hd⟩
  · exact hqx ▸ hx.1.1
  · exact hry ▸ hy.1.2
  · exact hqx ▸ hx.2.1
  · exact hry ▸ hy.2.2

/-- The hull of a point and some more. -/
def hull (p : K × K) (ps : List (K × K)) : Box K := ps.foldl (fun b q => b ⊔ .pure q) (.pure p)

theorem pure_le_iff {p : K × K} {d : Box K} : .pure p ≤ d ↔ p ∈ d := by
  rw [NonemptyInterval.le_def, NonemptyInterval.mem_def]
  rfl

theorem foldl_sup_le_iff {b d : Box K} {ps : List (K × K)} :
    ps.foldl (fun b q => b ⊔ .pure q) b ≤ d ↔ b ≤ d ∧ ∀ p ∈ ps, p ∈ d := by
  induction ps generalizing b with
  | nil => simp
  | cons p ps ih => rw [List.foldl_cons, ih, sup_le_iff, pure_le_iff, List.forall_mem_cons, and_assoc]

theorem hull_le_iff {p : K × K} {ps : List (K × K)} {d : Box K} : hull p ps ≤ d ↔ ∀ q ∈ p :: ps, q ∈ d := by
  rw [hull, foldl_sup_le_iff, pure_le_iff, List.forall_mem_cons]

theorem isHull_hull (p : K × K) (ps : List (K × K)) : IsHull (hull p ps) (p :: ps) :=
  ⟨hull_le_iff.1 le_rfl, fun _ hd => hull_le_iff.2 hd⟩

end

/-! ### Boxes around a centre -/

section
variable {K : Type} [Field K] [LinearOrder K]

def width (b : Box K) : K := b.snd.1 - b.fst.1

def height (b : Box K) : K := b.snd.2 - b.fst.2

/-- The corners of a parallelogram, in the order of its two triangles. -/
def corners (c a b : K × K) : List (K × K) :=
  [c - a - b, c - a + b, c + a - b, c + a - b, c - a + b, c + a + b]

variable [IsStrictOrderedRing K]

/-- The box that extends by `e` to both sides of `c`. -/
def around (c e : K × K) (he : 0 ≤ e) : Box K where
  toProd := (c - e, c + e)
  fst_le_snd := (sub_le_self c he).trans (le_add_of_nonneg_right he)

variable {c e : K × K} {he : 0 ≤ e}

theorem mem_around {p : K × K} : p ∈ around c e he ↔ |p.1 - c.1| ≤ e.1 ∧ |p.2 - c.2| ≤ e.2 := by
  rw [around, NonemptyInterval.mem_mk, Prod.le_def, Prod.le_def, abs_le, abs_le]
  simp only [Prod.fst_sub, Prod.snd_sub, Prod.fst_add, Prod.snd_add]
  constructor
  · rintro ⟨⟨h₁, h₂⟩, h₃, h₄⟩
    exact ⟨⟨by linarith, by linarith⟩, by linarith, by linarith⟩
  · rintro ⟨⟨h₁, h₂⟩, h₃, h₄⟩
    exact ⟨⟨by linarith, by linarith⟩, by linarith, by linarith⟩

theorem width_around : (around c e he).width = 2 * e.1 := by
  simp only [width, around, Prod.fst_sub, Prod.fst_add]
  ring

theorem height_around : (around c e he).height = 2 * e.2 := by
  simp only [height, around, Prod.snd_sub, Prod.snd_add]
  ring

theorem around_inj {c' e' : K × K} {he' : 0 ≤ e'} : around c e he = around c' e' he' ↔ c = c' ∧ e = e' := by
  constructor
  · intro h
    have hfst : c - e = c' - e' := congrArg (fun b => b.fst) h
    have hsnd : c + e = c' + e' := congrArg (fun b => b.snd) h
    simp only [Prod.ext_iff, Prod.fst_sub, Prod.snd_sub, Prod.fst_add, Prod.snd_add] at hfst hsnd
    obtain ⟨hleft, htop⟩ := hfst
    obtain ⟨hright, hbottom⟩ := hsnd
    exact ⟨Prod.ext (by linarith) (by linarith), Prod.ext (by linarith) (by linarith)⟩
  · rintro ⟨rfl, rfl⟩
    rfl

theorem abs_add_abs_nonneg (a b : K × K) : (0 : K × K) ≤ (|a.1| + |b.1|, |a.2| + |b.2|) :=
  ⟨add_nonneg (abs_nonneg a.1) (abs_nonneg b.1), add_nonneg (abs_nonneg a.2) (abs_nonneg b.2)⟩

theorem abs_sums_le (c a b : K) :
    |c - a - b - c| ≤ |a| + |b| ∧ |c - a + b - c| ≤ |a| + |b| ∧ |c + a - b - c| ≤ |a| + |b| ∧
      |c + a + b - c| ≤ |a| + |b| := by
  have ha := le_abs_self a
  have hb := le_abs_self b
  have ha' := neg_abs_le a
  have hb' := neg_abs_le b
  refine ⟨?_, ?_, ?_, ?_⟩ <;> rw [abs_le] <;> constructor <;> linarith

theorem abs_add_abs_le {c a b x y : K} (h₁ : x ≤ c - a - b ∧ c - a - b ≤ y) (h₂ : x ≤ c - a + b ∧ c - a + b ≤ y)
    (h₃ : x ≤ c + a - b ∧ c + a - b ≤ y) (h₄ : x ≤ c + a + b ∧ c + a + b ≤ y) :
    x ≤ c - (|a| + |b|) ∧ c + (|a| + |b|) ≤ y := by
  rcases abs_cases a with ⟨ha, -⟩ | ⟨ha, -⟩ <;> rcases abs_cases b with ⟨hb, -⟩ | ⟨hb, -⟩ <;> rw [ha, hb] <;>
    constructor <;> linarith

theorem isHull_corners (c a b : K × K) :
    IsHull (around c (|a.1| + |b.1|, |a.2| + |b.2|) (abs_add_abs_nonneg a b)) (corners c a b) := by
  obtain ⟨hx₁, hx₂, hx₃, hx₄⟩ := abs_sums_le c.1 a.1 b.1
  obtain ⟨hy₁, hy₂, hy₃, hy₄⟩ := abs_sums_le c.2 a.2 b.2
  constructor
  · simp only [corners, Set.mem_ofPred_eq, List.forall_mem_cons, mem_around]
    exact ⟨⟨hx₁, hy₁⟩, ⟨hx₂, hy₂⟩, ⟨hx₃, hy₃⟩, ⟨hx₃, hy₃⟩, ⟨hx₂, hy₂⟩, ⟨hx₄, hy₄⟩, nofun⟩
  · intro d hd
    simp only [corners, Set.mem_ofPred_eq, List.forall_mem_cons, NonemptyInterval.mem_def, Prod.le_def] at hd
    obtain ⟨⟨h₁, k₁⟩, ⟨h₂, k₂⟩, ⟨h₃, k₃⟩, -, -, ⟨h₄, k₄⟩, -⟩ := hd
    obtain ⟨hleft, hright⟩ := abs_add_abs_le ⟨h₁.1, k₁.1⟩ ⟨h₂.1, k₂.1⟩ ⟨h₃.1, k₃.1⟩ ⟨h₄.1, k₄.1⟩
    obtain ⟨htop, hbottom⟩ := abs_add_abs_le ⟨h₁.2, k₁.2⟩ ⟨h₂.2, k₂.2⟩ ⟨h₃.2, k₃.2⟩ ⟨h₄.2, k₄.2⟩
    exact ⟨⟨hleft, htop⟩, hright, hbottom⟩

omit [IsStrictOrderedRing K] in
/-- A rectangle has the hull of its last three corners. -/
theorem IsHull.tail_corners {d : Box K} {c a b : K × K} (hd : IsHull d (corners c a b))
    (hrectangle : a.2 = 0 ∧ b.1 = 0 ∨ a.1 = 0 ∧ b.2 = 0) : IsHull d (corners c a b).tail := by
  refine IsHull.tail hd ?_ ?_
  · rcases hrectangle with ⟨-, hb⟩ | ⟨ha, -⟩
    · exact ⟨c - a + b, by simp [corners], by simp [hb]⟩
    · exact ⟨c + a - b, by simp [corners], by simp [ha]⟩
  · rcases hrectangle with ⟨ha, -⟩ | ⟨-, hb⟩
    · exact ⟨c + a - b, by simp [corners], by simp [ha]⟩
    · exact ⟨c - a + b, by simp [corners], by simp [hb]⟩

/-! ### Letterboxes -/

/-- The largest box in `outer` with the ratio `r` of width to height, in its centre. -/
structure IsLetterbox (r : K) (outer b : Box K) : Prop where
  inside : b ≤ outer
  ratio : b.width / b.height = r
  centred : b.fst + b.snd = outer.fst + outer.snd
  largest : ∀ d ≤ outer, d.width / d.height = r → d.width ≤ b.width ∧ d.height ≤ b.height

theorem width_mono {b d : Box K} (h : b ≤ d) : b.width ≤ d.width := sub_le_sub h.2.1 h.1.1

theorem height_mono {b d : Box K} (h : b ≤ d) : b.height ≤ d.height := sub_le_sub h.2.2 h.1.2

theorem height_nonneg (b : Box K) : 0 ≤ b.height := sub_nonneg.2 b.fst_le_snd.2

theorem height_pos_of_ratio {b : Box K} {r : K} (hr : 0 < r) (h : b.width / b.height = r) :
    0 < b.height := by
  refine lt_of_le_of_ne b.height_nonneg fun hzero => ?_
  rw [← hzero, div_zero] at h
  exact hr.ne h

/-- A box in the centre is a letterbox if it has the ratio, and touches two sides and not more. -/
theorem isLetterbox_of_centred {r : K} {c e e' : K × K} {he : 0 ≤ e} {he' : 0 ≤ e'} (hr : 0 < r)
    (hpos : 0 < e'.2) (hwidth : e'.1 = r * e'.2) (hle : e' ≤ e) (htouch : e'.1 = e.1 ∨ e'.2 = e.2) :
    IsLetterbox r (around c e he) (around c e' he') where
  inside := ⟨sub_le_sub_left hle c, add_le_add_right hle c⟩
  ratio := by
    rw [width_around, height_around, hwidth]
    field_simp
  centred := by
    ext <;> simp [around]
  largest := by
    intro d hd h
    have hheight := height_pos_of_ratio hr h
    rw [div_eq_iff hheight.ne'] at h
    have hwidth_le := width_mono hd
    have hheight_le := height_mono hd
    rw [width_around] at hwidth_le ⊢
    rw [height_around] at hheight_le ⊢
    rcases htouch with hside | hside
    · rw [hside]
      refine ⟨hwidth_le, le_of_mul_le_mul_left ?_ hr⟩
      linarith
    · rw [hside, hwidth]
      refine ⟨?_, hheight_le⟩
      rw [h, hside]
      nlinarith

theorem IsLetterbox.unique {r : K} {outer b d : Box K} (hb : IsLetterbox r outer b)
    (hd : IsLetterbox r outer d) : b = d := by
  obtain ⟨hwidth, hheight⟩ := hb.largest d hd.inside hd.ratio
  obtain ⟨hwidth', hheight'⟩ := hd.largest b hb.inside hb.ratio
  have hcentre := hb.centred.trans hd.centred.symm
  have hx : b.fst.1 + b.snd.1 = d.fst.1 + d.snd.1 := congrArg Prod.fst hcentre
  have hy : b.fst.2 + b.snd.2 = d.fst.2 + d.snd.2 := congrArg Prod.snd hcentre
  simp only [width, height] at hwidth hwidth' hheight hheight'
  refine NonemptyInterval.ext (Prod.ext (Prod.ext ?_ ?_) (Prod.ext ?_ ?_))
  all_goals linarith

end

end Box
end SweetHome
