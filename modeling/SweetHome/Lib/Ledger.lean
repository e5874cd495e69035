import Mathlib.Data.Finset.Basic
import Mathlib.Data.List.Nodup

/-!
# Ledgers

A log of creations and deletions, the last call first, and what is left of it. `Holds log os` says that the log
leaves the objects of `os`, each once, and that nothing was deleted that was not there.
-/

namespace SweetHome.Ledger

inductive Call (α : Type) where
  | gen (o : α)
  | delete (o : α)
deriving DecidableEq

variable {α : Type} [DecidableEq α]

/-- What was created and not deleted since. -/
def live : List (Call α) → Finset α
  | [] => ∅
  | .gen o :: log => insert o (live log)
  | .delete o :: log => (live log).erase o

/-- Each deletion has found its object. -/
def Clean : List (Call α) → Prop
  | [] => True
  | .gen _ :: log => Clean log
  | .delete o :: log => o ∈ live log ∧ Clean log

structure Holds (log : List (Call α)) (os : List α) : Prop where
  live : ∀ o, o ∈ live log ↔ o ∈ os
  nodup : os.Nodup
  clean : Clean log

variable {log : List (Call α)} {os others : List α} {o : α}

theorem holds_nil : Holds ([] : List (Call α)) [] := ⟨by simp [Ledger.live], List.nodup_nil, trivial⟩

theorem Holds.perm (h : Holds log os) (hperm : os.Perm others) : Holds log others where
  live o := (h.live o).trans hperm.mem_iff
  nodup := hperm.nodup_iff.1 h.nodup
  clean := h.clean

theorem Holds.gen (h : Holds log os) (ho : o ∉ Ledger.live log) : Holds (.gen o :: log) (o :: os) where
  live o' := by simp [Ledger.live, h.live]
  nodup := List.nodup_cons.2 ⟨mt (h.live o).2 ho, h.nodup⟩
  clean := h.clean

theorem Holds.delete (h : Holds log (o :: os)) : Holds (.delete o :: log) os := by
  obtain ⟨hnew, hnodup⟩ := List.nodup_cons.1 h.nodup
  refine ⟨?_, hnodup, (h.live o).2 List.mem_cons_self, h.clean⟩
  intro o'
  rw [Ledger.live, Finset.mem_erase, h.live, List.mem_cons]
  constructor
  · rintro ⟨hne, ho'⟩
    exact ho'.resolve_left hne
  · intro ho'
    exact ⟨ne_of_mem_of_not_mem ho' hnew, .inr ho'⟩

/-- What is left besides has leaked. -/
theorem Holds.live_iff (h : Holds log (os ++ others)) : (∀ o, o ∈ Ledger.live log ↔ o ∈ os) ↔ others = [] := by
  constructor
  · intro hlive
    refine List.eq_nil_iff_forall_not_mem.2 ?_
    intro o ho
    have hos : o ∈ os := (hlive o).1 ((h.live o).2 (List.mem_append_right _ ho))
    exact (List.disjoint_of_nodup_append h.nodup) hos ho
  · rintro rfl
    rw [List.append_nil] at h
    exact h.live

end SweetHome.Ledger
