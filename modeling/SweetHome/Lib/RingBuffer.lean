import SweetHome.Lib.Run
import Mathlib.Logic.Function.Basic

/-!
# Ring buffers between two threads

A producer stores items in the free cells of a ring and publishes them by moving the write counter; a consumer loads
published items and releases their cells by moving the read counter. The counters only grow; the item at position
`n` is in the cell `n % size`. In any order of the steps of the two, what is released and what is left are what has
been published, in its order (`released_append_contents`), and no cell is stored to while it is loaded from
(`Inv.disjoint`).
-/

namespace SweetHome.Ring
variable {α : Type}

/-- The items at the positions from `r` to `w`. -/
def contents (size : Nat) (cells : Nat → α) (r w : Nat) : List α :=
  (List.range' r (w - r)).map fun n => cells (n % size)

inductive Producer (α : Type) where
  | idle
  /-- `done` of the items are in their cells. -/
  | storing (items : List α) (done : Nat)

inductive Consumer (α : Type) where
  | idle
  /-- Of `n` items these have been loaded. -/
  | loading (n : Nat) (items : List α)

structure State (α : Type) where
  cells : Nat → α
  read : Nat
  write : Nat
  producer : Producer α
  consumer : Consumer α

inductive Action (α : Type) where
  | reserve (items : List α)
  | store
  | publish
  | claim (n : Nat)
  | load
  | release

inductive Event (α : Type) where
  | published (items : List α)
  | released (items : List α)

def Producer.reserved : Producer α → Nat
  | idle => 0
  | storing items _ => items.length

variable (size : Nat)

def step : Step (State α) (Action α) (Event α)
  | s, .reserve items =>
    match s.producer with
    | .idle =>
      if s.write + items.length ≤ s.read + size then some ({ s with producer := .storing items 0 }, []) else none
    | .storing .. => none
  | s, .store =>
    match s.producer with
    | .idle => none
    | .storing items done => items[done]?.map fun x =>
      ({ s with
        cells := Function.update s.cells ((s.write + done) % size) x, producer := .storing items (done + 1) }, [])
  | s, .publish =>
    match s.producer with
    | .idle => none
    | .storing items done =>
      if done = items.length then
        some ({ s with write := s.write + items.length, producer := .idle }, [.published items])
      else none
  | s, .claim n =>
    match s.consumer with
    | .idle => if s.read + n ≤ s.write then some ({ s with consumer := .loading n [] }, []) else none
    | .loading .. => none
  | s, .load =>
    match s.consumer with
    | .idle => none
    | .loading n items =>
      if items.length < n then
        some ({ s with consumer := .loading n (items ++ [s.cells ((s.read + items.length) % size)]) }, [])
      else none
  | s, .release =>
    match s.consumer with
    | .idle => none
    | .loading n items =>
      if items.length = n then some ({ s with read := s.read + n, consumer := .idle }, [.released items]) else none

def Event.publishedItems : Event α → List α
  | published items => items
  | released _ => []

def Event.releasedItems : Event α → List α
  | published _ => []
  | released items => items

def State.contents (s : State α) : List α := Ring.contents size s.cells s.read s.write

/-! ### Positions -/

variable {size} {cells : Nat → α} {r m w n : Nat}

theorem mod_ne (h : r < n) (h' : n < r + size) : r % size ≠ n % size := by
  intro heq
  have hdvd : size ∣ n - r := Nat.dvd_of_mod_eq_zero (Nat.sub_mod_eq_zero_of_mod_eq heq.symm)
  exact absurd (Nat.le_of_dvd (by omega) hdvd) (by omega)

theorem contents_self : contents size cells r r = [] := by
  rw [contents, Nat.sub_self]
  rfl

theorem contents_append (h : r ≤ m) (h' : m ≤ w) :
    contents size cells r m ++ contents size cells m w = contents size cells r w := by
  have hlength : w - r = (m - r) + (w - m) := by omega
  have hstart : m = r + (m - r) := by omega
  rw [contents, contents, contents, ← List.map_append, hlength, ← List.range'_append_1, ← hstart]

theorem contents_succ (h : r ≤ w) :
    contents size cells r (w + 1) = contents size cells r w ++ [cells (w % size)] := by
  rw [← contents_append h (Nat.le_succ w)]
  congr 1
  rw [contents, Nat.succ_sub (Nat.le_refl w), Nat.sub_self]
  rfl

/-- A store outside of the positions from `r` to `w` leaves their items. -/
theorem contents_update (h : w ≤ n) (h' : n < r + size) (x : α) :
    contents size (Function.update cells (n % size) x) r w = contents size cells r w := by
  refine List.map_congr_left fun k hk => ?_
  have hk := List.mem_range'_1.1 hk
  exact Function.update_of_ne (mod_ne (by omega) (by omega)) _ _

@[simp] theorem length_contents : (contents size cells r w).length = w - r := by
  rw [contents, List.length_map, List.length_range']

/-! ### The invariant -/

variable {s t : State α} {a : Action α} {es : List (Event α)}

/-- The producer has reserved free cells, the consumer has claimed published items, and what has been copied is
what it should be. -/
structure Inv (size : Nat) (cells : Nat → α) (read write : Nat) (producer : Producer α) (consumer : Consumer α) :
    Prop where
  read_le : read ≤ write
  room : write + producer.reserved ≤ read + size
  stored : ∀ items done, producer = .storing items done →
    done ≤ items.length ∧ contents size cells write (write + done) = items.take done
  loaded : ∀ n items, consumer = .loading n items →
    items.length ≤ n ∧ read + n ≤ write ∧ items = contents size cells read (read + items.length)

def State.Inv (size : Nat) (s : State α) : Prop := Ring.Inv size s.cells s.read s.write s.producer s.consumer

/-- The cells of the next store and of the next load. -/
def State.storesAt (size : Nat) (s : State α) : Option Nat :=
  match s.producer with
  | .storing items done => if done < items.length then some ((s.write + done) % size) else none
  | .idle => none

def State.loadsFrom (size : Nat) (s : State α) : Option Nat :=
  match s.consumer with
  | .loading n items => if items.length < n then some ((s.read + items.length) % size) else none
  | .idle => none

theorem State.Inv.disjoint (h : s.Inv size) {c : Nat} (hstore : s.storesAt size = some c) :
    s.loadsFrom size ≠ some c := by
  obtain ⟨cells, read, write, producer, consumer⟩ := s
  intro hload
  cases producer with
  | idle => cases hstore
  | storing items done =>
    cases consumer with
    | idle => cases hload
    | loading n loaded =>
      obtain ⟨-, hclaimed, -⟩ := h.loaded n loaded rfl
      have hroom := h.room
      simp only [State.storesAt, State.loadsFrom, Option.ite_none_right_eq_some, Option.some.injEq] at hstore hload
      simp only [Producer.reserved] at hroom hclaimed
      obtain ⟨hdone, rfl⟩ := hstore
      obtain ⟨hlength, hcell⟩ := hload
      exact mod_ne (by omega) (by omega) hcell

variable {read write : Nat} {producer : Producer α} {consumer : Consumer α}

theorem Inv.reserve {items : List α} (h : Inv size cells read write .idle consumer)
    (hroom : write + items.length ≤ read + size) : Inv size cells read write (.storing items 0) consumer where
  read_le := h.read_le
  room := hroom
  stored := by
    rintro _ _ ⟨⟩
    exact ⟨Nat.zero_le _, contents_self⟩
  loaded := h.loaded

theorem Inv.store {items : List α} {done : Nat} (h : Inv size cells read write (.storing items done) consumer)
    {x : α} (hx : items[done]? = some x) :
    Inv size (Function.update cells ((write + done) % size) x) read write (.storing items (done + 1)) consumer ∧
      contents size (Function.update cells ((write + done) % size) x) read write = contents size cells read write := by
  obtain ⟨hdone, rfl⟩ := List.getElem?_eq_some_iff.1 hx
  obtain ⟨-, hstored⟩ := h.stored items done rfl
  have hroom : write + items.length ≤ read + size := h.room
  have hle : read ≤ write := h.read_le
  refine ⟨⟨hle, hroom, ?_, fun n loaded hload => ?_⟩, contents_update (by omega) (by omega) _⟩
  · rintro _ _ ⟨⟩
    refine ⟨hdone, ?_⟩
    rw [← Nat.add_assoc, contents_succ (Nat.le_add_right _ _), Function.update_self,
      contents_update (Nat.le_refl _) (by omega), hstored, List.take_append_getElem hdone]
  · obtain ⟨hlength, hclaimed, hloaded⟩ := h.loaded n loaded hload
    have hclaimed : read + n ≤ write := hclaimed
    refine ⟨hlength, hclaimed, hloaded.trans (contents_update ?_ ?_ _).symm⟩
    · exact Nat.le_trans (Nat.add_le_add_left hlength read) (Nat.le_trans hclaimed (Nat.le_add_right _ _))
    · omega

theorem Inv.publish {items : List α} (h : Inv size cells read write (.storing items items.length) consumer) :
    Inv size cells read (write + items.length) .idle consumer ∧
      contents size cells read (write + items.length) = contents size cells read write ++ items := by
  obtain ⟨-, hstored⟩ := h.stored items items.length rfl
  have hroom : write + items.length ≤ read + size := h.room
  have hle : read ≤ write := h.read_le
  refine ⟨⟨by omega, hroom, nofun, fun n loaded hload => ?_⟩, ?_⟩
  · obtain ⟨hlength, hclaimed, hloaded⟩ := h.loaded n loaded hload
    exact ⟨hlength, Nat.le_trans hclaimed (Nat.le_add_right _ _), hloaded⟩
  · have hstored : contents size cells write (write + items.length) = items := hstored.trans List.take_length
    rw [← contents_append hle (Nat.le_add_right _ _), hstored]

theorem Inv.claim {n : Nat} (h : Inv size cells read write producer .idle) (hn : read + n ≤ write) :
    Inv size cells read write producer (.loading n []) where
  read_le := h.read_le
  room := h.room
  stored := h.stored
  loaded := by
    rintro _ _ ⟨⟩
    exact ⟨Nat.zero_le _, hn, contents_self.symm⟩

theorem Inv.load {n : Nat} {items : List α} (h : Inv size cells read write producer (.loading n items))
    (hlength : items.length < n) :
    Inv size cells read write producer (.loading n (items ++ [cells ((read + items.length) % size)])) where
  read_le := h.read_le
  room := h.room
  stored := h.stored
  loaded := by
    obtain ⟨-, hclaimed, hloaded⟩ := h.loaded n items rfl
    rintro _ _ ⟨⟩
    refine ⟨?_, hclaimed, ?_⟩
    · rw [List.length_append, List.length_singleton]
      exact hlength
    · rw [List.length_append, List.length_singleton, ← Nat.add_assoc, contents_succ (Nat.le_add_right _ _)]
      exact congrArg (· ++ _) hloaded

theorem Inv.release {items : List α} (h : Inv size cells read write producer (.loading items.length items)) :
    Inv size cells (read + items.length) write producer .idle ∧
      items ++ contents size cells (read + items.length) write = contents size cells read write := by
  obtain ⟨-, hclaimed, hloaded⟩ := h.loaded items.length items rfl
  have hroom : write + producer.reserved ≤ read + size := h.room
  refine ⟨⟨hclaimed, ?_, h.stored, nofun⟩, ?_⟩
  · omega
  · have hcontents : contents size cells read (read + items.length) ++ contents size cells (read + items.length) write =
        contents size cells read write := contents_append (Nat.le_add_right read items.length) hclaimed
    have hloaded : items = contents size cells read (read + items.length) := hloaded
    rwa [← hloaded] at hcontents

/-! ### Steps -/

section
variable {items : List α} {k done : Nat}

theorem step_reserve (h : write + items.length ≤ read + size) :
    step size ⟨cells, read, write, .idle, consumer⟩ (.reserve items) =
      some (⟨cells, read, write, .storing items 0, consumer⟩, []) := if_pos h

theorem step_store {x : α} (h : items[done]? = some x) :
    step size ⟨cells, read, write, .storing items done, consumer⟩ .store =
      some (⟨Function.update cells ((write + done) % size) x, read, write, .storing items (done + 1), consumer⟩, []) :=
  Option.map_eq_some_iff.2 ⟨x, h, rfl⟩

theorem step_publish (h : done = items.length) :
    step size ⟨cells, read, write, .storing items done, consumer⟩ .publish =
      some (⟨cells, read, write + items.length, .idle, consumer⟩, [.published items]) := if_pos h

theorem step_claim (h : read + k ≤ write) : step size ⟨cells, read, write, producer, .idle⟩ (.claim k) =
    some (⟨cells, read, write, producer, .loading k []⟩, []) := if_pos h

theorem step_load (h : items.length < k) : step size ⟨cells, read, write, producer, .loading k items⟩ .load =
    some (⟨cells, read, write, producer, .loading k (items ++ [cells ((read + items.length) % size)])⟩, []) := if_pos h

theorem step_release (h : items.length = k) : step size ⟨cells, read, write, producer, .loading k items⟩ .release =
    some (⟨cells, read + k, write, producer, .idle⟩, [.released items]) := if_pos h

end

/-- A step keeps the invariant and the account: what it releases and what is left are what was there and what it
publishes. -/
theorem inv_step (h : s.Inv size) (hstep : step size s a = some (t, es)) :
    t.Inv size ∧ es.flatMap Event.releasedItems ++ t.contents size =
      s.contents size ++ es.flatMap Event.publishedItems := by
  obtain ⟨cells, read, write, producer, consumer⟩ := s
  have hsilent (cells' : Nat → α) (producer' : Producer α) (consumer' : Consumer α)
      (hcells : contents size cells' read write = contents size cells read write) :
      ([] : List (Event α)).flatMap Event.releasedItems ++
          State.contents size ⟨cells', read, write, producer', consumer'⟩ =
        State.contents size ⟨cells, read, write, producer, consumer⟩ ++
          ([] : List (Event α)).flatMap Event.publishedItems :=
    hcells.trans (List.append_nil _).symm
  cases a with
  | reserve items =>
    cases producer with
    | storing items done => cases hstep
    | idle =>
      obtain ⟨hroom, heq⟩ := Option.ite_none_right_eq_some.1 hstep
      cases heq
      exact ⟨h.reserve hroom, hsilent _ _ _ rfl⟩
  | store =>
    cases producer with
    | idle => cases hstep
    | storing items done =>
      obtain ⟨x, hx, heq⟩ := Option.map_eq_some_iff.1 hstep
      cases heq
      obtain ⟨hinv, hcontents⟩ := h.store hx
      exact ⟨hinv, hsilent _ _ _ hcontents⟩
  | publish =>
    cases producer with
    | idle => cases hstep
    | storing items done =>
      obtain ⟨rfl, heq⟩ := Option.ite_none_right_eq_some.1 hstep
      cases heq
      obtain ⟨hinv, hcontents⟩ := h.publish
      refine ⟨hinv, ?_⟩
      rw [List.flatMap_singleton, List.flatMap_singleton]
      exact hcontents
  | claim n =>
    cases consumer with
    | loading n items => cases hstep
    | idle =>
      obtain ⟨hn, heq⟩ := Option.ite_none_right_eq_some.1 hstep
      cases heq
      exact ⟨h.claim hn, hsilent _ _ _ rfl⟩
  | load =>
    cases consumer with
    | idle => cases hstep
    | loading n items =>
      obtain ⟨hlength, heq⟩ := Option.ite_none_right_eq_some.1 hstep
      cases heq
      exact ⟨h.load hlength, hsilent _ _ _ rfl⟩
  | release =>
    cases consumer with
    | idle => cases hstep
    | loading n items =>
      obtain ⟨rfl, heq⟩ := Option.ite_none_right_eq_some.1 hstep
      cases heq
      obtain ⟨hinv, hcontents⟩ := h.release
      refine ⟨hinv, ?_⟩
      rw [List.flatMap_singleton, List.flatMap_singleton]
      exact hcontents.trans (List.append_nil _).symm

/-- In any order of the steps of the two threads. -/
theorem released_append_contents (h : s.Inv size) (as : List (Action α)) :
    (Step.run (step size) s as).1.Inv size ∧
      (Step.run (step size) s as).2.flatMap Event.releasedItems ++ (Step.run (step size) s as).1.contents size =
        s.contents size ++ (Step.run (step size) s as).2.flatMap Event.publishedItems := by
  induction as generalizing s with
  | nil => exact ⟨h, (List.append_nil _).symm⟩
  | cons a as ih =>
    rcases hstep : step size s a with _ | ⟨t, es⟩
    · rw [Step.run_cons_none hstep]
      exact ⟨h, (List.append_nil _).symm⟩
    · obtain ⟨ht, hfirst⟩ := inv_step h hstep
      obtain ⟨hend, hrest⟩ := ih ht
      rw [Step.run_cons_some hstep]
      refine ⟨hend, ?_⟩
      rw [List.flatMap_append, List.flatMap_append, List.append_assoc, hrest, ← List.append_assoc, hfirst,
        List.append_assoc]

/-! ### Copies in one or two parts -/

/-- Positions that do not pass the end of the ring are in cells that follow each other. -/
theorem map_mod_range' {a k : Nat} (h : a % size + k ≤ size) :
    (List.range' a k).map (· % size) = List.range' (a % size) k := by
  have ha : a = a % size + size * (a / size) := (Nat.mod_add_div a size).symm
  conv_lhs => rw [ha, Nat.add_comm, ← List.map_add_range', List.map_map]
  refine (List.map_congr_left fun i hi => ?_).trans (List.map_id _)
  have hi := (List.mem_range'_1.1 hi).2
  rw [Function.comp_apply, Nat.mul_add_mod, Nat.mod_eq_of_lt (by omega), id]

/-- Positions that pass the end go on at the start. -/
theorem map_mod_range'_wrap {a k : Nat} (hsize : 0 < size) (h : size < a % size + k) (hk : k ≤ size) :
    (List.range' a k).map (· % size) =
      List.range' (a % size) (size - a % size) ++ List.range' 0 (k - (size - a % size)) := by
  have ha : a % size + size * (a / size) = a := Nat.mod_add_div a size
  have hlt : a % size < size := Nat.mod_lt a hsize
  have hsplit : k = (size - a % size) + (k - (size - a % size)) := by omega
  have hend : (a + (size - a % size)) % size = 0 := by
    have hmul : a + (size - a % size) = size * (a / size + 1) := by rw [Nat.mul_succ]; omega
    rw [hmul, Nat.mul_mod_right]
  conv_lhs => rw [hsplit, ← List.range'_append_1, List.map_append]
  rw [map_mod_range' (by omega), map_mod_range' (by rw [hend]; omega), hend]

end SweetHome.Ring
