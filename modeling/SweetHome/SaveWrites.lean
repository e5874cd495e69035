import SweetHome.Rewind
import SweetHome.SaveStates

/-!
# Saves and the death of the process

Every save is written in place: the file is truncated, the bytes are appended in as many pieces as the
system likes, and the file is closed. The process can die between any two of these steps. A file that no
save has been cut off on is the complete array of its last finished save (`complete_or_torn`); where a
save is cut off, what is left is the beginning of its array, and the state before it is gone.
-/

namespace SweetHome.SaveWrites
open Step SaveStates
open Rewind (Bytes)

/-- The handlers that save. -/
inductive Writer where
  | onPause
  | btnReturnToTitle
  | btnPowerOff
  | btnSave
  | saveToSlot (slot : Fin 6)
deriving DecidableEq, Repr

def Writer.file : Writer → SaveFile
  | onPause | btnReturnToTitle | btnPowerOff => .autoSave
  | btnSave => .slot quickSlot
  | saveToSlot slot => .slot slot

/-- An open `FileOutputStream`, with how many bytes of the array it has appended. -/
structure Output where
  file : SaveFile
  data : Bytes
  written : Nat
  written_le : written ≤ data.length

def Output.append (o : Output) (n : Nat) : Output where
  file := o.file
  data := o.data
  written := min (o.written + n) o.data.length
  written_le := Nat.min_le_right _ _

structure State where
  disk : SaveFile → Option Bytes
  output : Option Output := none
  /-- The arrays of the finished saves of a file, latest first. -/
  finished : SaveFile → List Bytes
  /-- The array of a save that has begun and not been finished. -/
  torn : SaveFile → Option Bytes := fun _ => none

/-- The files that the sessions before have left. -/
def start (disk : SaveFile → Option Bytes) : State where
  disk := disk
  finished := fun f => (disk f).toList

inductive Action where
  | save (w : Writer) (data : Bytes)
  | append (n : Nat)
  | close
  /-- The process dies, and the app is started again. -/
  | die
deriving DecidableEq, Repr

/-- A save is finished when all of its bytes are in the file. -/
def State.put (s : State) (o : Output) : State :=
  let disk := Function.update s.disk o.file (some (o.data.take o.written))
  if o.written = o.data.length then
    { disk := disk
      output := some o
      finished := Function.update s.finished o.file (o.data :: s.finished o.file)
      torn := Function.update s.torn o.file none }
  else
    { s with disk := disk, output := some o, torn := Function.update s.torn o.file (some o.data) }

def step : Step State Action Empty
  | s, .save w data =>
    match s.output with
    | none => some (s.put ⟨w.file, data, 0, Nat.zero_le _⟩, [])
    -- the handlers run one after the other on the main thread
    | some _ => none
  | s, .append n =>
    match s.output with
    | some o => if o.written < o.data.length then some (s.put (o.append n), []) else none
    | none => none
  | s, .close =>
    match s.output with
    | some o => if o.written = o.data.length then some ({ s with output := none }, []) else none
    | none => none
  | s, .die => some ({ s with output := none }, [])

/-- What should hold of a file wherever the process dies: it is absent if it was never saved, or else
all of some finished save. -/
def NeverLost (s : State) (f : SaveFile) : Prop :=
  match s.disk f with
  | none => s.finished f = []
  | some data => data ∈ s.finished f

/-- Absent if it was never saved, or all of its last finished save. -/
def Complete (s : State) (f : SaveFile) : Prop := s.disk f = (s.finished f).head?

/-- A save of the file was cut off: what is there is a part of its array that lacks the end. -/
def Torn (s : State) (f : SaveFile) : Prop :=
  ∃ data ∈ s.torn f, ∃ n < data.length, s.disk f = some (data.take n)

instance (s : State) (f : SaveFile) : Decidable (NeverLost s f) := by
  unfold NeverLost
  split <;> infer_instance

structure Inv (s : State) : Prop where
  complete : ∀ f, s.torn f = none → Complete s f
  torn : ∀ f, s.torn f ≠ none → Torn s f

section
variable {s t : State} {a : Action} {es : List Empty}

theorem Complete.neverLost {f : SaveFile} (h : Complete s f) : NeverLost s f := by
  unfold Complete at h
  unfold NeverLost
  split
  · rename_i hdisk
    rw [hdisk] at h
    exact List.head?_eq_none_iff.1 h.symm
  · rename_i data hdisk
    rw [hdisk] at h
    exact List.mem_of_head? h.symm

theorem inv_start (disk : SaveFile → Option Bytes) : Inv (start disk) := by
  refine ⟨?_, fun f h => absurd rfl h⟩
  intro f _
  rcases h : disk f with _ | data <;> simp [Complete, start, h]

theorem put_of_ne (s : State) (o : Output) {f : SaveFile} (h : f ≠ o.file) :
    (s.put o).disk f = s.disk f ∧ (s.put o).finished f = s.finished f ∧ (s.put o).torn f = s.torn f := by
  unfold State.put
  split <;> simp [h]

theorem inv_put (hi : Inv s) (o : Output) : Inv (s.put o) := by
  constructor
  case complete =>
    intro f htorn
    by_cases hf : f = o.file
    · subst hf
      unfold Complete
      unfold State.put at htorn ⊢
      split at htorn
      · rename_i hall
        simp [hall]
      · simp at htorn
    · obtain ⟨hdisk, hfinished, hsame⟩ := put_of_ne s o hf
      rw [Complete, hdisk, hfinished]
      exact hi.complete f (hsame ▸ htorn)
  case torn =>
    intro f htorn
    by_cases hf : f = o.file
    · subst hf
      unfold Torn
      unfold State.put at htorn ⊢
      split at htorn
      · simp at htorn
      · rename_i hpart
        simp only [hpart, if_false, Function.update_self, Option.mem_def, Option.some.injEq]
        exact ⟨o.data, rfl, o.written, lt_of_le_of_ne o.written_le hpart, rfl⟩
    · obtain ⟨hdisk, -, hsame⟩ := put_of_ne s o hf
      rw [Torn, hdisk, hsame]
      exact hi.torn f (hsame ▸ htorn)

theorem inv_step (hi : Inv s) (h : step s a = some (t, es)) : Inv t := by
  cases a with
  | save w data =>
    simp only [step] at h
    split at h
    · obtain ⟨rfl, -⟩ := Prod.mk.inj (Option.some.inj h)
      exact inv_put hi _
    · cases h
  | append n =>
    simp only [step] at h
    split at h
    · split at h
      · obtain ⟨rfl, -⟩ := Prod.mk.inj (Option.some.inj h)
        exact inv_put hi _
      · cases h
    · cases h
  | close =>
    simp only [step] at h
    split at h
    · split at h
      · obtain ⟨rfl, -⟩ := Prod.mk.inj (Option.some.inj h)
        exact ⟨hi.complete, hi.torn⟩
      · cases h
    · cases h
  | die =>
    obtain ⟨rfl, -⟩ := Prod.mk.inj (Option.some.inj h)
    exact ⟨hi.complete, hi.torn⟩

end

/-- Over every run of saves and at every point of death: a file is absent or all of its last finished
save, unless a later save of it was cut off between the truncation and the last of its bytes; then it
holds the beginning of that save's array. -/
theorem complete_or_torn (disk : SaveFile → Option Bytes) (as : List Action) (f : SaveFile) :
    ((run step (start disk) as).1.torn f = none ∧ Complete (run step (start disk) as).1 f ∧
        NeverLost (run step (start disk) as).1 f) ∨
      Torn (run step (start disk) as).1 f := by
  have hi : Inv (run step (start disk) as).1 := run_inv inv_step (inv_start disk) as
  by_cases htorn : (run step (start disk) as).1.torn f = none
  · exact .inl ⟨htorn, hi.complete f htorn, (hi.complete f htorn).neverLost⟩
  · exact .inr (hi.torn f htorn)

/-- The app goes to the background with a game on disk, and dies before the first byte is written. -/
theorem onPause_loses_autoSave :
    ¬ NeverLost (run step (start fun f => if f = .autoSave then some [1, 2] else none)
      [.save .onPause [1, 3], .die]).1 .autoSave := by
  decide

end SweetHome.SaveWrites
