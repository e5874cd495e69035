import SweetHome.Lib.Run

/-!
# Bounded queues that drop what does not fit

A FIFO of fixed capacity with its read and write counters. A write stores the items that fit and drops
the rest; a read takes what is there and fills up with a default. Nothing is ever invented, reordered
or read twice: what a read takes and what is left are what was there (`taken_append_items`), and what
is there after a write is a sublist of what was there and what was offered (`write_items_sublist`), in
whatever order they come (`run_sublist`).
-/

namespace SweetHome

structure Fifo (α : Type) where
  capacity : Nat
  items : List α
  readCounter : Nat
  writeCounter : Nat
  length_le : items.length ≤ capacity
  counters : writeCounter = readCounter + items.length

namespace Fifo
variable {α : Type}

def empty (capacity : Nat) : Fifo α := ⟨capacity, [], 0, 0, Nat.zero_le _, rfl⟩

def stored (q : Fifo α) (xs : List α) : List α := xs.take (q.capacity - q.items.length)

def write (q : Fifo α) (xs : List α) : Fifo α where
  capacity := q.capacity
  items := q.items ++ q.stored xs
  readCounter := q.readCounter
  writeCounter := q.writeCounter + (q.stored xs).length
  length_le := by
    have := q.length_le
    simp only [stored, List.length_append, List.length_take]
    omega
  counters := by simp only [q.counters, List.length_append]; omega

def taken (q : Fifo α) (n : Nat) : List α := q.items.take n

def readNow (q : Fifo α) (n : Nat) : Fifo α where
  capacity := q.capacity
  items := q.items.drop n
  readCounter := q.readCounter + (q.taken n).length
  writeCounter := q.writeCounter
  length_le := by
    have := q.length_le
    simp only [List.length_drop]
    omega
  counters := by
    simp only [q.counters, taken, List.length_take, List.length_drop]
    omega

/-- What a read of `n` items leaves in the buffer of its caller. -/
def buffer (zero : α) (q : Fifo α) (n : Nat) : List α :=
  q.taken n ++ List.replicate (n - (q.taken n).length) zero

variable (q : Fifo α)

theorem taken_append_items (n : Nat) : q.taken n ++ (q.readNow n).items = q.items :=
  List.take_append_drop n q.items

theorem write_items_sublist (xs : List α) : (q.write xs).items.Sublist (q.items ++ xs) :=
  (List.Sublist.refl _).append (List.take_sublist _ _)

theorem take_buffer (zero : α) (n : Nat) :
    (q.buffer zero n).take (q.taken n).length = q.taken n := List.take_left

theorem length_buffer (zero : α) (n : Nat) : (q.buffer zero n).length = n := by
  have htaken : (q.taken n).length ≤ n := List.length_take_le ..
  rw [buffer, List.length_append, List.length_replicate]
  omega

/-! ### Writes and reads in any order -/

inductive Action (α : Type) where
  | write (xs : List α)
  | readNow (n : Nat)

/-- What a read hands over, and how many items it misses. -/
structure Taken (α : Type) where
  items : List α
  missing : Nat

def Action.written : Action α → List α
  | write xs => xs
  | readNow _ => []

def Taken.buffer (zero : α) (e : Taken α) : List α := e.items ++ List.replicate e.missing zero

def step : Step (Fifo α) (Action α) (Taken α)
  | q, .write xs => some (q.write xs, [])
  | q, .readNow n => some (q.readNow n, [⟨q.taken n, n - (q.taken n).length⟩])

variable {q} {t : Fifo α} {a : Action α} {es : List (Taken α)}

theorem step_sublist (h : step q a = some (t, es)) :
    (es.flatMap Taken.items ++ t.items).Sublist (q.items ++ a.written) := by
  cases a with
  | write xs =>
    cases h
    exact q.write_items_sublist xs
  | readNow n =>
    cases h
    rw [List.flatMap_singleton, q.taken_append_items, Action.written, List.append_nil]

/-- What is taken and what is left is in the order in which it was written. -/
theorem run_sublist (q : Fifo α) (as : List (Action α)) :
    ((Step.run step q as).2.flatMap Taken.items ++ (Step.run step q as).1.items).Sublist
      (q.items ++ as.flatMap Action.written) := by
  induction as generalizing q with
  | nil => simp
  | cons a as ih =>
    rcases hstep : step q a with _ | ⟨t, es⟩
    · cases a <;> cases hstep
    · rw [Step.run_cons_some hstep, List.flatMap_append, List.flatMap_cons, List.append_assoc,
        ← List.append_assoc q.items]
      refine ((List.Sublist.refl _).append (ih t)).trans ?_
      rw [← List.append_assoc]
      exact (step_sublist hstep).append (List.Sublist.refl _)

end Fifo
end SweetHome
