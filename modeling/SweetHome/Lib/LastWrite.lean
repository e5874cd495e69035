import Mathlib.Data.List.Basic

/-!
# What a fold leaves in a field

A field that each step either writes or keeps holds, after the fold, what the last step that writes it has
written; a property that only some steps destroy, and none restores, holds if none of them was there.
-/

namespace SweetHome
variable {σ α β : Type}

/-- What the last of the actions that write has written. -/
def lastWrite (write : α → Option β) (as : List α) : Option β := (as.filterMap write).getLast?

theorem lastWrite_cons (write : α → Option β) (a : α) (as : List α) :
    lastWrite write (a :: as) = (lastWrite write as <|> write a) := by
  unfold lastWrite
  rcases hwrite : write a with _ | b
  · rw [List.filterMap_cons_none hwrite]
    cases (as.filterMap write).getLast? <;> rfl
  · rw [List.filterMap_cons_some hwrite, List.getLast?_cons]
    cases (as.filterMap write).getLast? <;> rfl

theorem lastWrite_append (write : α → Option β) (as bs : List α) :
    lastWrite write (as ++ bs) = (lastWrite write bs <|> lastWrite write as) := by
  induction as with
  | nil => rw [List.nil_append]; cases lastWrite write bs <;> rfl
  | cons a as ih =>
    rw [List.cons_append, lastWrite_cons, lastWrite_cons, ih]
    cases lastWrite write bs <;> rfl

theorem lastWrite_append_getD (write : α → Option β) (as bs : List α) (b : β) :
    (lastWrite write (as ++ bs)).getD b = (lastWrite write bs).getD ((lastWrite write as).getD b) := by
  rw [lastWrite_append]
  cases lastWrite write bs <;> rfl

theorem lastWrite_map {γ : Type} (write : α → Option β) (f : β → γ) (as : List α) :
    lastWrite (fun a => (write a).map f) as = (lastWrite write as).map f := by
  unfold lastWrite
  rw [← List.getLast?_map, List.map_filterMap]

section
variable {step : σ → α → σ}

theorem foldl_lastWrite {g : σ → β} {write : α → Option β}
    (hstep : ∀ s a, g (step s a) = (write a).getD (g s)) (s : σ) (as : List α) :
    g (as.foldl step s) = (lastWrite write as).getD (g s) := by
  induction as generalizing s with
  | nil => rfl
  | cons a as ih =>
    rw [List.foldl_cons, ih, hstep, lastWrite_cons]
    cases lastWrite write as <;> rfl

theorem foldl_untouched {P : σ → Prop} {touches : α → Prop}
    (hstep : ∀ s a, P (step s a) ↔ P s ∧ ¬ touches a) (s : σ) (as : List α) :
    P (as.foldl step s) ↔ P s ∧ ∀ a ∈ as, ¬ touches a := by
  induction as generalizing s with
  | nil => simp
  | cons a as ih =>
    rw [List.foldl_cons, ih, hstep, List.forall_mem_cons, and_assoc]

end

end SweetHome
