import SweetHome.Lib.Run
import Mathlib.Data.List.Nodup

/-!
# Calls onto the GL thread

`runOnGLThread` queues a closure that runs the block, stores its result and counts down a latch, and waits for
the latch. A block that throws leaves the closure before the latch, and its caller is stranded: each
caller gets what its own block has given exactly as long as no queued block throws
(`calls_return_iff`).
-/

namespace SweetHome.GLThread
open Step

variable {α ε : Type}

/-- How a block ends. -/
inductive Outcome (α ε : Type) where
  | result (a : α)
  | exception (e : ε)
deriving DecidableEq, Repr

/-- What a caller of `runOnGLThread` gets. -/
inductive Received (α ε : Type) where
  | returns (a : α)
  | throws (e : ε)
  /-- `result!!` of a result that was never set. -/
  | nullPointer
deriving DecidableEq, Repr

def Outcome.received : Outcome α ε → Received α ε
  | result a => .returns a
  | exception e => .throws e

/-- What a call shares with its closure, and how far it has come. -/
structure Call (α ε : Type) where
  result : Option α := none
  /-- The latch is counted down. -/
  released : Bool := false
  returned : Bool := false
  /-- How the block has ended. -/
  ended : Option (Outcome α ε) := none

structure State (α ε : Type) where
  calls : Nat → Call α ε := fun _ => {}
  /-- The number of calls made from other threads so far. -/
  made : Nat := 0
  queue : List Nat := []
  running : Option Nat := none

inductive Action (α ε : Type) where
  /-- Another thread calls `runOnGLThread`: its closure is queued, and it begins to wait. -/
  | call
  /-- The GL thread takes the next closure. -/
  | begin
  /-- The block of the running closure ends. -/
  | finish (outcome : Outcome α ε)
  /-- A waiting caller is interrupted. -/
  | interrupt (i : Nat)
  /-- A waiting caller finds its latch counted down. -/
  | wake (i : Nat)
  /-- A call on the GL thread itself. -/
  | inline (outcome : Outcome α ε)

inductive Event (α ε : Type) where
  | received (i : Nat) (received : Received α ε)
  | inline (outcome : Outcome α ε) (received : Received α ε)

/-- What the rest of the closure does after its block. -/
def Call.finish (c : Call α ε) (outcome : Outcome α ε) : Call α ε :=
  match outcome with
  | .result a => { c with result := some a, released := true, ended := some outcome }
  | .exception _ => { c with ended := some outcome }

def step : Step (State α ε) (Action α ε) (Event α ε)
  | s, .call => some ({ s with made := s.made + 1, queue := s.queue ++ [s.made] }, [])
  | s, .begin =>
    match s.running, s.queue with
    | none, i :: queue => some ({ s with running := some i, queue := queue }, [])
    | _, _ => none
  | s, .finish outcome =>
    match s.running with
    | some i =>
      some ({ s with
        calls := Function.update s.calls i ((s.calls i).finish outcome)
        running := none }, [])
    | none => none
  | s, .interrupt i =>
    -- `awaitUninterruptibly` awaits again
    if i < s.made ∧ (s.calls i).returned = false then some (s, []) else none
  | s, .wake i =>
    if i < s.made ∧ (s.calls i).released = true ∧ (s.calls i).returned = false then
      let received :=
        match (s.calls i).result with
        | some a => .returns a
        | none => .nullPointer
      some ({ s with calls := Function.update s.calls i { s.calls i with returned := true } },
        [.received i received])
    else none
  | s, .inline outcome => some (s, [.inline outcome outcome.received])

/-! ### The law, and when it holds -/

/-- A caller that is waiting finds its latch counted down, or a closure that would count it down. -/
def Releasable (s : State α ε) : Prop :=
  ∀ i, i < s.made → (s.calls i).returned = false →
    (s.calls i).released = true ∨ i ∈ s.queue ∨ s.running = some i

/-- A caller gets the result or the exception of its own block. -/
def Exact (s : State α ε) : Event α ε → Prop
  | .received i received => ∃ outcome, (s.calls i).ended = some outcome ∧ received = outcome.received
  | .inline outcome received => received = outcome.received

def Law (_ : State α ε) (_ : Action α ε) (t : State α ε) (es : List (Event α ε)) : Prop :=
  Releasable t ∧ ∀ e ∈ es, Exact t e

/-- No queued block ends in an exception. -/
def NoQueuedThrow (_ : State α ε) (a : Action α ε) (_ : State α ε) (_ : List (Event α ε)) : Prop :=
  ∀ e, a ≠ .finish (.exception e)

/-- The calls whose closure is still to come. -/
def State.pending (s : State α ε) : List Nat := s.running.toList ++ s.queue

structure Inv (s : State α ε) : Prop where
  nodup : s.pending.Nodup
  pending : ∀ i ∈ s.pending, i < s.made ∧ (s.calls i).released = false ∧ (s.calls i).returned = false
  released : ∀ i, (s.calls i).released = true →
    ∃ a, (s.calls i).result = some a ∧ (s.calls i).ended = some (.result a)
  fresh : ∀ i, s.made ≤ i → (s.calls i).released = false ∧ (s.calls i).returned = false
  releasable : Releasable s

theorem inv_start : Inv ({} : State α ε) where
  nodup := List.nodup_nil
  pending := nofun
  released := nofun
  fresh := fun _ _ => ⟨rfl, rfl⟩
  releasable := fun i hi => absurd hi (Nat.not_lt_zero i)

variable {s t : State α ε} {a : Action α ε} {es : List (Event α ε)}

theorem mem_pending {i : Nat} : i ∈ s.pending ↔ i ∈ s.queue ∨ s.running = some i := by
  simp [State.pending, or_comm]

theorem step_begin (h : step s .begin = some (t, es)) :
    ∃ i queue, s.running = none ∧ s.queue = i :: queue ∧ t = { s with running := some i, queue := queue } ∧
      es = [] := by
  simp only [step] at h
  split at h
  · rename_i i queue hidle hqueue
    obtain ⟨rfl, rfl⟩ := Prod.mk.inj (Option.some.inj h)
    exact ⟨i, queue, hidle, hqueue, rfl, rfl⟩
  · cases h

theorem step_finish {outcome : Outcome α ε} (h : step s (.finish outcome) = some (t, es)) :
    ∃ i, s.running = some i ∧ t = { s with
      calls := Function.update s.calls i ((s.calls i).finish outcome)
      running := none } ∧ es = [] := by
  simp only [step] at h
  split at h
  · rename_i i hi
    obtain ⟨rfl, rfl⟩ := Prod.mk.inj (Option.some.inj h)
    exact ⟨i, hi, rfl, rfl⟩
  · cases h

theorem step_interrupt {i : Nat} (h : step s (.interrupt i) = some (t, es)) : t = s ∧ es = [] := by
  simp only [step] at h
  split at h
  · obtain ⟨rfl, rfl⟩ := Prod.mk.inj (Option.some.inj h)
    exact ⟨rfl, rfl⟩
  · cases h

theorem step_wake {i : Nat} (h : step s (.wake i) = some (t, es)) :
    i < s.made ∧ (s.calls i).released = true ∧
      t = { s with calls := Function.update s.calls i { s.calls i with returned := true } } ∧
      ∀ a, (s.calls i).result = some a → es = [.received i (.returns a)] := by
  simp only [step] at h
  split at h
  · rename_i hready
    obtain ⟨rfl, rfl⟩ := Prod.mk.inj (Option.some.inj h)
    exact ⟨hready.1, hready.2.1, rfl, fun a ha => by rw [ha]⟩
  · cases h

theorem inv_call (hs : Inv s) : Inv { s with made := s.made + 1, queue := s.queue ++ [s.made] } := by
  have hnew : s.made ∉ s.pending := fun hmem => absurd (hs.pending _ hmem).1 (Nat.lt_irrefl _)
  have hpending : State.pending { s with made := s.made + 1, queue := s.queue ++ [s.made] } =
      s.pending ++ [s.made] := (List.append_assoc ..).symm
  have hclosed : (s.calls s.made).released = false ∧ (s.calls s.made).returned = false :=
    hs.fresh s.made (Nat.le_refl _)
  refine ⟨?_, ?_, hs.released, fun i hi => hs.fresh i (Nat.le_of_succ_le hi), ?_⟩
  · rw [hpending]
    exact hs.nodup.append (List.nodup_singleton _) (by simpa using hnew)
  · rw [hpending]
    intro i hi
    rcases List.mem_append.1 hi with hi | hi
    · exact ⟨Nat.lt_succ_of_lt (hs.pending i hi).1, (hs.pending i hi).2⟩
    · obtain rfl := List.mem_singleton.1 hi
      exact ⟨Nat.lt_succ_self _, hclosed⟩
  · intro i hi hwaits
    rcases Nat.lt_succ_iff_lt_or_eq.1 hi with hi | rfl
    · exact (hs.releasable i hi hwaits).imp_right fun h => h.imp_left (List.mem_append_left _)
    · exact .inr (.inl (List.mem_append_right _ List.mem_cons_self))

theorem inv_begin (hs : Inv s) (hidle : s.running = none) {i : Nat} {queue : List Nat}
    (hqueue : s.queue = i :: queue) : Inv { s with running := some i, queue := queue } := by
  have hpending : State.pending { s with running := some i, queue := queue } = s.pending := by
    simp [State.pending, hidle, hqueue]
  refine ⟨by rw [hpending]; exact hs.nodup, by rw [hpending]; exact hs.pending, hs.released, hs.fresh, ?_⟩
  intro j hj hwaits
  rw [← mem_pending, hpending, mem_pending]
  exact hs.releasable j hj hwaits

/-- The running closure ends with a result. -/
theorem inv_finish (hs : Inv s) {i : Nat} (hi : s.running = some i) (a : α) :
    Inv { s with
      calls := Function.update s.calls i ((s.calls i).finish (.result a))
      running := none } := by
  have hpending : s.pending = i :: s.queue := by simp [State.pending, hi]
  have hnodup := hs.nodup
  rw [hpending, List.nodup_cons] at hnodup
  have hmade := hs.pending i (by rw [hpending]; exact List.mem_cons_self)
  refine ⟨hnodup.2, ?_, ?_, ?_, ?_⟩
  · intro j hj
    have hji : j ≠ i := fun h => hnodup.1 (h ▸ hj)
    simpa only [Function.update_of_ne hji] using hs.pending j (by rw [hpending]; exact List.mem_cons_of_mem i hj)
  · intro j hreleased
    by_cases hji : j = i
    · subst hji
      exact ⟨a, by simp [Call.finish]⟩
    · simp only [Function.update_of_ne hji] at hreleased ⊢
      exact hs.released j hreleased
  · intro j hj
    have hji : j ≠ i := by rintro rfl; exact absurd hmade.1 (Nat.not_lt.2 hj)
    simpa only [Function.update_of_ne hji] using hs.fresh j hj
  · intro j hj hwaits
    by_cases hji : j = i
    · subst hji
      exact .inl (by simp [Call.finish])
    · simp only [Function.update_of_ne hji] at hwaits ⊢
      refine (hs.releasable j hj hwaits).imp_right fun h => .inl (h.resolve_right ?_)
      rw [hi]
      exact fun h => hji (Option.some.inj h).symm

theorem inv_wake (hs : Inv s) {i : Nat} (hi : i < s.made) (hreleased : (s.calls i).released = true) :
    Inv { s with calls := Function.update s.calls i { s.calls i with returned := true } } := by
  have hnot : i ∉ s.pending := by
    intro hmem
    rw [(hs.pending i hmem).2.1] at hreleased
    cases hreleased
  refine ⟨hs.nodup, ?_, ?_, ?_, ?_⟩
  · intro j hj
    have hji : j ≠ i := fun h => hnot (h ▸ hj)
    simpa only [Function.update_of_ne hji] using hs.pending j hj
  · intro j hreleased
    by_cases hji : j = i
    · subst hji
      simpa using hs.released j (by simpa using hreleased)
    · simp only [Function.update_of_ne hji] at hreleased ⊢
      exact hs.released j hreleased
  · intro j hj
    have hji : j ≠ i := by rintro rfl; exact absurd hi (Nat.not_lt.2 hj)
    simpa only [Function.update_of_ne hji] using hs.fresh j hj
  · intro j hj hwaits
    by_cases hji : j = i
    · subst hji
      simp at hwaits
    · simp only [Function.update_of_ne hji] at hwaits ⊢
      exact hs.releasable j hj hwaits

theorem inv_step (hs : Inv s) (h : step s a = some (t, es)) (ha : NoQueuedThrow s a t es) :
    Inv t ∧ ∀ e ∈ es, Exact t e := by
  cases a with
  | call =>
    obtain ⟨rfl, rfl⟩ := Prod.mk.inj (Option.some.inj h)
    exact ⟨inv_call hs, nofun⟩
  | begin =>
    obtain ⟨i, queue, hidle, hqueue, rfl, rfl⟩ := step_begin h
    exact ⟨inv_begin hs hidle hqueue, nofun⟩
  | finish outcome =>
    obtain ⟨i, hi, rfl, rfl⟩ := step_finish h
    cases outcome with
    | result a => exact ⟨inv_finish hs hi a, nofun⟩
    | exception e => exact absurd rfl (ha e)
  | interrupt i =>
    obtain ⟨rfl, rfl⟩ := step_interrupt h
    exact ⟨hs, nofun⟩
  | wake i =>
    obtain ⟨hi, hreleased, rfl, hes⟩ := step_wake h
    obtain ⟨a, hresult, hended⟩ := hs.released i hreleased
    refine ⟨inv_wake hs hi hreleased, ?_⟩
    intro e he
    rw [hes a hresult] at he
    obtain rfl := List.mem_singleton.1 he
    exact ⟨.result a, by simpa using hended, rfl⟩
  | inline outcome =>
    obtain ⟨rfl, rfl⟩ := Prod.mk.inj (Option.some.inj h)
    refine ⟨hs, fun e he => ?_⟩
    obtain rfl := List.mem_singleton.1 he
    rfl

/-! ### A block that throws -/

/-- A caller waits, and nothing that is queued or running would count its latch down. -/
structure Stranded (s : State α ε) (i : Nat) : Prop where
  made : i < s.made
  waits : (s.calls i).returned = false
  closed : (s.calls i).released = false
  queue : i ∉ s.queue
  running : s.running ≠ some i

theorem not_releasable_of_stranded {i : Nat} (h : Stranded s i) : ¬ Releasable s := by
  intro hreleasable
  rcases hreleasable i h.made h.waits with hreleased | hqueue | hrunning
  · rw [h.closed] at hreleased
    cases hreleased
  · exact h.queue hqueue
  · exact h.running hrunning

theorem stranded_of_throw (hs : Inv s) {i : Nat} (hi : s.running = some i) (e : ε) :
    Stranded { s with
      calls := Function.update s.calls i ((s.calls i).finish (.exception e))
      running := none } i := by
  have hnodup := hs.nodup
  obtain ⟨hmade, hclosed, hwaits⟩ := hs.pending i (mem_pending.2 (.inr hi))
  rw [State.pending, hi, Option.toList_some, List.singleton_append, List.nodup_cons] at hnodup
  exact ⟨hmade, by simpa [Call.finish] using hwaits, by simpa [Call.finish] using hclosed, hnodup.1, nofun⟩

theorem stranded_step {i : Nat} (hs : Stranded s i) (h : step s a = some (t, es)) : Stranded t i := by
  obtain ⟨hmade, hwaits, hclosed, hqueue, hrunning⟩ := hs
  cases a with
  | call =>
    obtain ⟨rfl, rfl⟩ := Prod.mk.inj (Option.some.inj h)
    refine ⟨Nat.lt_succ_of_lt hmade, hwaits, hclosed, ?_, hrunning⟩
    simp only [List.mem_append, List.mem_singleton, not_or]
    exact ⟨hqueue, Nat.ne_of_lt hmade⟩
  | begin =>
    obtain ⟨j, queue, hidle, hcons, rfl, -⟩ := step_begin h
    rw [hcons, List.mem_cons, not_or] at hqueue
    exact ⟨hmade, hwaits, hclosed, hqueue.2, fun hj => hqueue.1 (Option.some.inj hj).symm⟩
  | finish outcome =>
    obtain ⟨j, hj, rfl, -⟩ := step_finish h
    have hij : i ≠ j := by rintro rfl; exact hrunning hj
    exact ⟨hmade, by simpa only [Function.update_of_ne hij] using hwaits,
      by simpa only [Function.update_of_ne hij] using hclosed, hqueue, nofun⟩
  | interrupt j =>
    obtain ⟨rfl, -⟩ := step_interrupt h
    exact ⟨hmade, hwaits, hclosed, hqueue, hrunning⟩
  | wake j =>
    obtain ⟨-, hreleased, rfl, -⟩ := step_wake h
    have hij : i ≠ j := by
      rintro rfl
      rw [hclosed] at hreleased
      cases hreleased
    exact ⟨hmade, by simpa only [Function.update_of_ne hij] using hwaits,
      by simpa only [Function.update_of_ne hij] using hclosed, hqueue, hrunning⟩
  | inline outcome =>
    obtain ⟨rfl, rfl⟩ := Prod.mk.inj (Option.some.inj h)
    exact ⟨hmade, hwaits, hclosed, hqueue, hrunning⟩

/-- Nothing that happens afterwards releases a stranded caller. -/
theorem stranded_run {i : Nat} (hs : Stranded s i) (as : List (Action α ε)) : Stranded (run step s as).1 i :=
  run_inv (I := fun s => Stranded s i) stranded_step hs as

theorem law_iff (hs : Inv s) (h : step s a = some (t, es)) : Law s a t es ↔ NoQueuedThrow s a t es := by
  refine ⟨?_, fun ha => ⟨(inv_step hs h ha).1.releasable, (inv_step hs h ha).2⟩⟩
  rintro ⟨hreleasable, -⟩ e rfl
  obtain ⟨i, hi, rfl, -⟩ := step_finish h
  exact not_releasable_of_stranded (stranded_of_throw hs hi e) hreleasable

/-- Every call returns what its block has given, along a run, exactly if no queued block throws in it. The caller of
the first that does throw never returns. -/
theorem calls_return_iff (as : List (Action α ε)) :
    (Along step Law ({} : State α ε) as ↔ Along step NoQueuedThrow ({} : State α ε) as) ∧
      let s := (run step ({} : State α ε) as).1
      (Along step NoQueuedThrow ({} : State α ε) as → ∀ i e t es, s.running = some i →
        step s (.finish (.exception e)) = some (t, es) → ∀ bs, ((run step t bs).1.calls i).returned = false) := by
  have hkeeps {s t : State α ε} {a : Action α ε} {es : List (Event α ε)} (hs : Inv s)
      (h : step s a = some (t, es)) (ha : NoQueuedThrow s a t es) : Inv t := (inv_step hs h ha).1
  refine ⟨along_iff law_iff hkeeps inv_start as, ?_⟩
  intro s hquiet i e t es hi h bs
  have hs : Inv s := run_inv_of hkeeps inv_start as hquiet
  obtain ⟨j, hj, rfl, -⟩ := step_finish h
  obtain rfl : i = j := Option.some.inj (hi.symm.trans hj)
  exact (stranded_run (stranded_of_throw hs hi e) bs).waits

/-- `unserializeState` throws `ERROR_SERIALIZATION`, and its caller waits for ever. -/
theorem caller_stranded : ¬ Along step Law ({} : State Bool Nat) [.call, .begin, .finish (.exception 3)] := by
  intro h
  have hreleasable := (((along_cons_some rfl).1 ((along_cons_some rfl).1 ((along_cons_some rfl).1 h).2).2).1).1
  rcases hreleasable 0 Nat.one_pos rfl with hreleased | hqueue | hrunning
  · cases hreleased
  · cases hqueue
  · cases hrunning

end SweetHome.GLThread
