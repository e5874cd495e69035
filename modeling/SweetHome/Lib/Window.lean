import Mathlib.Data.List.DropRight

/-!
# Sliding windows

A queue that appends at the end and drops its oldest item when it has grown over `n`. It holds the last
`n` items of everything that went through it (`push_rtake`), and a push that changes nothing found `n`
copies of what was pushed (`push_eq_self_iff`).
-/

namespace SweetHome.Window
variable {α : Type} {n : Nat} {l : List α} {x : α}

def push (n : Nat) (l : List α) (x : α) : List α :=
  if (l ++ [x]).length > n then (l ++ [x]).tail else l ++ [x]

/-! ### The last items of a list -/

theorem length_rtake (n : Nat) (l : List α) : (l.rtake n).length = min n l.length := by
  rw [List.rtake, List.length_drop]
  omega

theorem rtake_of_length_le (h : l.length ≤ n) : l.rtake n = l := by
  rw [List.rtake, Nat.sub_eq_zero_of_le h, List.drop_zero]

theorem rtake_append_of_le {xs ys : List α} (h : n ≤ ys.length) :
    (xs ++ ys).rtake n = ys.rtake n := by
  have hlength : (xs ++ ys).length - n = xs.length + (ys.length - n) := by
    rw [List.length_append]
    omega
  rw [List.rtake, hlength, List.drop_append, List.drop_eq_nil_of_le (Nat.le_add_right _ _),
    List.nil_append, Nat.add_sub_cancel_left, List.rtake]

theorem suffix_rtake_append {xs ys : List α} (h : ys.length ≤ n) : ys <:+ (xs ++ ys).rtake n := by
  rw [List.rtake, List.drop_append]
  have hzero : (xs ++ ys).length - n - xs.length = 0 := by
    rw [List.length_append]
    omega
  rw [hzero, List.drop_zero]
  exact List.suffix_append _ _

/-! ### Pushes -/

theorem push_rtake (hn : 0 < n) (l : List α) (x : α) : push n (l.rtake n) x = (l ++ [x]).rtake n := by
  obtain ⟨m, rfl⟩ := Nat.exists_eq_succ_of_ne_zero hn.ne'
  rw [List.rtake_concat_succ, push, List.length_append, length_rtake, List.length_singleton]
  split
  · -- the window was full: what is dropped is all that the smaller window does not hold
    have hfull : m < l.length := by omega
    have htail : (l.rtake (m + 1)).tail = l.rtake m := by
      rw [List.rtake, List.rtake, List.tail_drop]
      congr 1
      omega
    have hne : l.rtake (m + 1) ≠ [] := by
      rw [← List.length_pos_iff, length_rtake]
      omega
    rw [List.tail_append_of_ne_nil hne, htail]
  · have hle : l.length ≤ m := by omega
    rw [rtake_of_length_le hle, rtake_of_length_le (hle.trans (Nat.le_succ m))]

theorem append_singleton_eq_cons_iff {a : α} :
    l ++ [x] = a :: l ↔ a = x ∧ l = List.replicate l.length x := by
  induction l generalizing a with
  | nil => simp [eq_comm]
  | cons b l ih =>
    rw [List.cons_append, List.cons.injEq, ih, List.length_cons, List.replicate_succ, List.cons.injEq]
    constructor
    · rintro ⟨rfl, rfl, hl⟩
      exact ⟨rfl, rfl, hl⟩
    · rintro ⟨rfl, rfl, hl⟩
      exact ⟨rfl, rfl, hl⟩

theorem push_eq_self_iff (hn : 0 < n) (hl : l.length ≤ n) :
    push n l x = l ↔ l = List.replicate n x := by
  unfold push
  rw [List.length_append, List.length_singleton]
  split
  · have hlength : l.length = n := by omega
    cases l with
    | nil => simp at hlength; omega
    | cons a l =>
      rw [List.cons_append, List.tail_cons, append_singleton_eq_cons_iff, ← hlength, List.length_cons,
        List.replicate_succ, List.cons.injEq]
  · constructor
    · intro h
      have := congrArg List.length h
      simp at this
    · intro h
      have := congrArg List.length h
      simp at this
      omega

theorem length_push_le (hl : l.length ≤ n) : (push n l x).length ≤ n := by
  unfold push
  split
  · rw [List.length_tail, List.length_append, List.length_singleton]
    omega
  · omega

end SweetHome.Window
