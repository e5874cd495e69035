import SweetHome.Audio
import SweetHome.SaveWrites

/-!
# What is serialized

`serializeState` drops the result of `retro_serialize` and hands its whole buffer on, which each of the
handlers keeps: in the automatic save, a slot, the instance state or the rewind buffer. Only states that the
core has produced are kept exactly as long as it succeeds and fills the array (`kept_iff`).
-/

namespace SweetHome.Serialization
open Step SaveStates SaveWrites
open Rewind (Bytes)

/-- What the core does in one `serializeState`. -/
structure CoreCall where
  /-- `retro_serialize_size` -/
  size : Nat
  /-- There is memory for the buffer; otherwise `new` throws, and the core is not called. -/
  allocates : Bool
  /-- What the memory of the buffer holds before the core writes. -/
  memory : Nat → UInt8
  /-- The bytes that `retro_serialize` writes. -/
  written : Bytes
  written_le : written.length ≤ size
  /-- What `retro_serialize` returns. -/
  ok : Bool

/-- The buffer after the call of the core. -/
def CoreCall.buffer (c : CoreCall) : Bytes := c.written ++ ((List.range c.size).map c.memory).drop c.written.length

/-- What the native `serializeState` comes to. -/
inductive Result where
  | array (data : Bytes)
  /-- A `RetroException` with `ERROR_SERIALIZATION`. -/
  | error
  /-- A negative array length aborts the process. -/
  | aborts
deriving DecidableEq, Repr

/-- `LibretroDroid::serializeState`: the buffer and its size, unless `new` throws. -/
def serializeState (c : CoreCall) : Option (Bytes × Nat) := if c.allocates then some (c.buffer, c.size) else none

/-- `Java_..._serializeState`, which converts the size to a `jsize`. -/
def javaSerializeState (c : CoreCall) : Result :=
  match serializeState c with
  | none => .error
  | some (data, size) =>
    if Audio.toInt32 size < 0 then .aborts else .array (data.take (Audio.toInt32 size).toNat)

/-! ### What is kept -/

/-- The callers of `serializeState`. -/
inductive Caller where
  | writer (w : Writer)
  | onSaveInstanceState
  | rewindSampler
deriving DecidableEq, Repr

structure Kept where
  files : SaveFile → Option Bytes
  /-- `game_save_state` in the instance state. -/
  bundle : Option Bytes
  rewindBuffer : List Bytes

def Kept.keep (k : Kept) (caller : Caller) (data : Bytes) : Kept :=
  match caller with
  | .writer w => { k with files := Function.update k.files w.file (some data) }
  | .onSaveInstanceState => { k with bundle := some data }
  | .rewindSampler =>
    let buffer := k.rewindBuffer ++ [data]
    { k with rewindBuffer := if buffer.length > Rewind.rewindBufferMaxSize then buffer.tail else buffer }

structure State where
  kept : Kept
  aborted : Bool := false

inductive Action where
  | serialize (caller : Caller) (core : CoreCall)
  /-- Whatever else changes what is kept. -/
  | edit (kept : Kept)

def step : Step State Action Empty
  | s, .serialize caller core =>
    if s.aborted then none
    else
      match javaSerializeState core with
      | .array data => some ({ s with kept := s.kept.keep caller data }, [])
      -- the exception leaves the handler before it writes, or is ignored by it
      | .error => some (s, [])
      | .aborts => some ({ s with aborted := true }, [])
  | s, .edit kept => if s.aborted then none else some ({ s with kept := kept }, [])

/-! ### The law, and when it holds -/

/-- An array is what a successful call has written; a failed call is an error and leaves all as it was. -/
structure Honest (s : State) (core : CoreCall) (t : State) : Prop where
  array : ∀ data, javaSerializeState core = .array data → core.ok = true ∧ data = core.written
  failed : core.allocates = true → core.ok = false → javaSerializeState core = .error ∧ t.kept = s.kept

def Law (s : State) (a : Action) (t : State) (_ : List Empty) : Prop :=
  match a with
  | .serialize _ core => Honest s core t
  | .edit _ => True

/-- The core succeeds, and it fills the array that is made of its buffer. -/
def Fills (core : CoreCall) : Prop :=
  core.allocates = true →
    core.ok = true ∧ (Audio.toInt32 core.size < 0 ∨ core.written.length = (Audio.toInt32 core.size).toNat)

def Condition (_ : State) (a : Action) (_ : State) (_ : List Empty) : Prop :=
  match a with
  | .serialize _ core => Fills core
  | .edit _ => True

section
variable (core : CoreCall)

theorem length_buffer : core.buffer.length = core.size := by
  have hle := core.written_le
  simp [CoreCall.buffer]
  omega

theorem toInt32_le (size : Nat) (h : 0 ≤ Audio.toInt32 size) : (Audio.toInt32 size).toNat ≤ size := by
  unfold Audio.toInt32 at *
  have hmod := Nat.mod_le size (2 ^ 32)
  split at h <;> split <;> omega

theorem take_buffer {n : Nat} (hn : n ≤ core.size) :
    core.buffer.take n = core.written ↔ core.written.length = n := by
  constructor
  · intro htake
    rw [← htake, List.length_take, length_buffer, min_eq_left hn]
  · intro hlength
    rw [CoreCall.buffer, List.take_append_of_le_length (by omega), ← hlength, List.take_length]

theorem javaSerializeState_eq : javaSerializeState core =
    if core.allocates then
      if Audio.toInt32 core.size < 0 then .aborts
      else .array (core.buffer.take (Audio.toInt32 core.size).toNat)
    else .error := by
  unfold javaSerializeState serializeState
  cases core.allocates <;> rfl

end

theorem honest_iff (s t : State) (core : CoreCall) : Honest s core t ↔ Fills core := by
  have heq := javaSerializeState_eq core
  constructor
  · rintro ⟨harray, hfailed⟩ hallocates
    rw [hallocates, if_pos rfl] at heq
    by_cases hsize : Audio.toInt32 core.size < 0
    · rw [if_pos hsize] at heq
      refine ⟨?_, .inl hsize⟩
      rcases hok : core.ok with _ | _
      · rw [(hfailed hallocates hok).1] at heq
        cases heq
      · rfl
    · rw [if_neg hsize] at heq
      obtain ⟨hok, htake⟩ := harray _ heq
      exact ⟨hok, .inr ((take_buffer core (toInt32_le _ (not_lt.1 hsize))).1 htake)⟩
  · intro hfills
    refine ⟨fun data hdata => ?_, fun hallocates hok => ?_⟩
    · rcases hallocates : core.allocates with _ | _
      · rw [heq, hallocates] at hdata
        cases hdata
      · obtain ⟨hok, hsize⟩ := hfills hallocates
        rw [heq, hallocates, if_pos rfl] at hdata
        split at hdata
        · cases hdata
        · rename_i hnonneg
          obtain rfl := Result.array.inj hdata
          exact ⟨hok, (take_buffer core (toInt32_le _ (not_lt.1 hnonneg))).2 (hsize.resolve_left hnonneg)⟩
    · rw [(hfills hallocates).1] at hok
      cases hok

/-- Only states that the core has produced are kept in a run exactly if in each call the core succeeds and
fills the array. -/
theorem kept_iff (s : State) (as : List Action) : Along step Law s as ↔ Along step Condition s as := by
  refine along_iff (I := fun _ => True) (G := Law) (C := Condition) ?_ (fun _ _ _ => trivial) trivial as
  intro s a t es _ _
  cases a with
  | serialize caller core => exact honest_iff s t core
  | edit kept => exact Iff.rfl

/-- A core that refuses to serialize, with a buffer of two bytes. -/
def refusing : CoreCall where
  size := 2
  allocates := true
  memory := fun _ => 0xCD
  written := []
  written_le := by decide
  ok := false

/-- A good automatic save. -/
def autoSaved : State where
  kept := { files := fun f => if f = .autoSave then some [1, 2] else none, bundle := none, rewindBuffer := [] }

/-- The automatic save is overwritten with memory that nothing has written to. -/
example : (step autoSaved (.serialize (.writer .onPause) refusing)).map (fun r => r.1.kept.files .autoSave) =
    some (some [0xCD, 0xCD]) := by decide

/-- A core refuses to serialize in `onPause`, and the automatic save is lost. -/
theorem refused_onPause : ¬ Along step Law autoSaved [.serialize (.writer .onPause) refusing] := by
  rintro ⟨⟨harray, -⟩, -⟩
  exact absurd (harray [0xCD, 0xCD] (by decide)).1 (by decide)

end SweetHome.Serialization
