import SweetHome.Audio
import SweetHome.Lib.Fifo
import SweetHome.Lib.Run
import Mathlib.Logic.Function.Basic

/-!
# Microphones

`open_mic` looks neither at what its parameters are nor at what `Microphone::open` returns, which starts the stream
that it has opened; `set_mic_state` writes down what was asked for, whatever the stream has answered. So the handles are
usable and their state is true only where a stream opens but does not start, and does as it is told from then on
(`truthful_iff`).
-/

namespace SweetHome.MicrophoneInterface
open Step

/-! ### `Microphone` -/

/-- A stream of `oboe`. One that refuses a request stays as it is. -/
structure Stream where
  started : Bool := false
deriving DecidableEq, Repr

def Stream.requestStart (accepts : Bool) (stream : Stream) : Stream × Bool :=
  (if accepts then { started := true } else stream, accepts)

def Stream.requestStop (accepts : Bool) (stream : Stream) : Stream × Bool :=
  (if accepts then { started := false } else stream, accepts)

inductive Pointer where
  | params
  | microphone
  | inputStream
deriving DecidableEq, Repr

def deref {β : Type} (pointer : Pointer) : Option β → Except Pointer β
  | some value => .ok value
  | none => .error pointer

structure Microphone where
  mIsRunning : Bool := false
  mSampleRate : Int
  fifoBuffer : Fifo Int16
  inputStream : Option Stream := none

namespace Microphone

def make (sampleRate : Int) : Microphone where
  mSampleRate := sampleRate
  fifoBuffer := .empty (sampleRate.tdiv 2 % 2 ^ 32).toNat

/-- `opens` and `starts` are whether `openStream` and `requestStart` return `OK`. -/
def «open» (opens starts : Bool) (m : Microphone) : Microphone × Bool :=
  if opens then
    let (stream, result) := Stream.requestStart starts {}
    ({ m with inputStream := some stream }, result)
  else ({ m with inputStream := none }, false)

def close (closes : Bool) (m : Microphone) : Except Pointer Bool := do
  let _ ← deref .inputStream m.inputStream
  return closes

def setRunning (accepts shouldRun : Bool) (m : Microphone) : Except Pointer Microphone := do
  let stream ← deref .inputStream m.inputStream
  let (stream, _) := if shouldRun then stream.requestStart accepts else stream.requestStop accepts
  return { m with inputStream := some stream, mIsRunning := shouldRun }

def isRunning (m : Microphone) : Bool := m.mIsRunning

/-- With the samples that are read; what is left of the buffer of the core is silence. -/
def read (numSamples : Int) (m : Microphone) : Microphone × List Int16 :=
  ({ m with fifoBuffer := m.fifoBuffer.readNow numSamples.toNat }, m.fifoBuffer.taken numSamples.toNat)

def sampleRate (m : Microphone) : Int := m.mSampleRate

def onAudioReady (audioData : List Int16) (m : Microphone) : Microphone :=
  { m with fifoBuffer := m.fifoBuffer.write audioData }

/-- Samples are coming in. -/
def capturing (m : Microphone) : Bool := m.inputStream.any Stream.started

end Microphone

/-! ### `MicrophoneInterface` -/

/-- `params` are the rate. -/
def libretroOpenMicrophone (opens starts : Bool) (params : Option Nat) : Except Pointer Microphone := do
  let rate ← deref .params params
  let result := Microphone.make (Audio.toInt32 rate)
  -- what `open` returns is dropped
  let (result, _) := result.open opens starts
  return result

/-- With the microphone deleted. -/
def libretroCloseMicrophone (closes : Bool) (microphone : Option Microphone) : Except Pointer Unit := do
  let microphone ← deref .microphone microphone
  let _ ← microphone.close closes

def libretroSetMicrophoneState (accepts state : Bool) (microphone : Microphone) :
    Except Pointer (Microphone × Bool) := do
  let microphone ← microphone.setRunning accepts state
  return (microphone, true)

def libretroGetMicrophoneState (microphone : Microphone) : Bool := microphone.isRunning

/-- With the rate that it writes to the parameters. -/
def libretroGetMicrophoneParams (microphone : Microphone) : Nat × Bool :=
  ((microphone.sampleRate % 2 ^ 32).toNat, true)

def libretroReadMicrophone (numSamples : Nat) (microphone : Microphone) : Microphone × List Int16 :=
  microphone.read (Audio.toInt32 numSamples)

/-! ### Steps -/

/-- The microphones that are open, by their handles. -/
structure State where
  microphones : Nat → Option Microphone := fun _ => none
  crashed : Bool := false

inductive Action where
  /-- The new microphone gets an address that is free. -/
  | openMic (params : Option Nat) (handle : Nat) (opens starts : Bool)
  | closeMic (handle : Option Nat) (closes : Bool)
  | setMicState (handle : Nat) (state accepts : Bool)
  | getMicState (handle : Nat)
  | getParams (handle : Nat)
  | readMic (handle numSamples : Nat)
  /-- A stream that captures has samples. -/
  | onAudioReady (handle : Nat) (audioData : List Int16)
deriving DecidableEq, Repr

inductive Event where
  | missing (pointer : Pointer)
  | opened (handle : Nat)
  | stateSet (result : Bool)
  | state (result : Bool)
  | params (rate : Nat) (result : Bool)
  | samples (samples : List Int16)
deriving DecidableEq, Repr

def State.put (s : State) (handle : Nat) (microphone : Option Microphone) : State :=
  { s with microphones := Function.update s.microphones handle microphone }

def State.crash (s : State) (pointer : Pointer) : State × List Event := ({ s with crashed := true }, [.missing pointer])

/-- Steps of a core that respects the interface: it uses no handle that is not open, and closes null at most. -/
def step : Step State Action Event := fun s a =>
  if s.crashed then none
  else
    match a with
    | .openMic params handle opens starts =>
      match s.microphones handle with
      | some _ => none
      | none =>
        match libretroOpenMicrophone opens starts params with
        | .ok microphone => some (s.put handle (some microphone), [.opened handle])
        | .error pointer => some (s.crash pointer)
    | .closeMic none closes =>
      match libretroCloseMicrophone closes none with
      | .ok _ => some (s, [])
      | .error pointer => some (s.crash pointer)
    | .closeMic (some handle) closes =>
      (s.microphones handle).map fun microphone =>
        match libretroCloseMicrophone closes (some microphone) with
        | .ok _ => (s.put handle none, [])
        | .error pointer => s.crash pointer
    | .setMicState handle state accepts =>
      (s.microphones handle).map fun microphone =>
        match libretroSetMicrophoneState accepts state microphone with
        | .ok (microphone, result) => (s.put handle (some microphone), [.stateSet result])
        | .error pointer => s.crash pointer
    | .getMicState handle =>
      (s.microphones handle).map fun microphone => (s, [.state (libretroGetMicrophoneState microphone)])
    | .getParams handle =>
      (s.microphones handle).map fun microphone =>
        let (rate, result) := libretroGetMicrophoneParams microphone
        (s, [.params rate result])
    | .readMic handle numSamples =>
      (s.microphones handle).map fun microphone =>
        let (microphone, samples) := libretroReadMicrophone numSamples microphone
        (s.put handle (some microphone), [.samples samples])
    | .onAudioReady handle audioData =>
      (s.microphones handle).bind fun microphone =>
        if microphone.capturing then some (s.put handle (some (microphone.onAudioReady audioData)), []) else none

/-! ### The law, and when it holds -/

/-- The state that is reported of an open microphone. -/
def State.reported (s : State) (handle : Nat) : Option Bool :=
  (s.microphones handle).map libretroGetMicrophoneState

structure Truthful (s : State) (a : Action) (t : State) (es : List Event) : Prop where
  /-- Nothing that is missing is used. -/
  deref : ∀ pointer, .missing pointer ∉ es
  /-- A new microphone has an open stream and is inactive. -/
  new : ∀ handle, .opened handle ∈ es → ∃ microphone, t.microphones handle = some microphone ∧
    microphone.inputStream.isSome ∧ microphone.capturing = false ∧ t.reported handle = some false
  reported : ∀ handle microphone, t.microphones handle = some microphone →
    (libretroGetMicrophoneState microphone = true ↔ microphone.capturing = true)
  refused : ∀ handle state, a = .setMicState handle state false →
    .stateSet true ∉ es ∧ t.reported handle = s.reported handle

/-- Nothing is null, a stream that opens does not start, and later does as it is told. -/
def Obeyed (_ : State) (a : Action) (_ : State) (_ : List Event) : Prop :=
  match a with
  | .openMic params _ opens starts => params.isSome ∧ opens = true ∧ starts = false
  | .closeMic handle _ => handle.isSome
  | .setMicState _ _ accepts => accepts = true
  | .getMicState _ | .getParams _ | .readMic .. | .onAudioReady .. => True

/-- A microphone has its stream, and knows whether it captures. -/
structure Sound (m : Microphone) : Prop where
  inputStream : m.inputStream.isSome
  running : m.mIsRunning = m.capturing

def Inv (s : State) : Prop := ∀ handle microphone, s.microphones handle = some microphone → Sound microphone

theorem inv_start : Inv {} := nofun

variable {s t : State} {a : Action} {es : List Event} {m : Microphone}

@[simp] theorem put_self (s : State) (handle : Nat) (microphone : Option Microphone) :
    (s.put handle microphone).microphones handle = microphone := by
  simp [State.put]

@[simp] theorem put_of_ne (s : State) {handle other : Nat} (h : other ≠ handle) (microphone : Option Microphone) :
    (s.put handle microphone).microphones other = s.microphones other := by
  simp [State.put, h]

theorem Inv.put (hs : Inv s) (handle : Nat) {microphone : Option Microphone}
    (hm : ∀ m, microphone = some m → Sound m) : Inv (s.put handle microphone) := by
  intro h m hput
  by_cases hh : h = handle
  · subst hh
    rw [put_self] at hput
    exact hm m hput
  · rw [put_of_ne s hh] at hput
    exact hs h m hput

theorem Inv.reported (hs : Inv s) (handle : Nat) (microphone : Microphone)
    (h : s.microphones handle = some microphone) :
    libretroGetMicrophoneState microphone = true ↔ microphone.capturing = true := by
  rw [libretroGetMicrophoneState, Microphone.isRunning, (hs handle microphone h).running]

/-! ### Call by call -/

theorem libretroOpenMicrophone_some (opens starts : Bool) (rate : Nat) :
    libretroOpenMicrophone opens starts (some rate) = .ok
      { Microphone.make (Audio.toInt32 rate) with
        inputStream := if opens then some { started := starts } else none } := by
  cases opens <;> cases starts <;> rfl

theorem Sound.close (hm : Sound m) (closes : Bool) : libretroCloseMicrophone closes (some m) = .ok () := by
  obtain ⟨stream, hstream⟩ := Option.isSome_iff_exists.1 hm.inputStream
  simp [libretroCloseMicrophone, Microphone.close, deref, hstream, bind, Except.bind, pure, Except.pure]

/-- What is asked for is written down, and `true` returned. -/
theorem Sound.set (hm : Sound m) (accepts state : Bool) :
    libretroSetMicrophoneState accepts state m = .ok
      ({ m with
        mIsRunning := state
        inputStream := some { started := if accepts then state else m.capturing } }, true) := by
  obtain ⟨stream, hstream⟩ := Option.isSome_iff_exists.1 hm.inputStream
  have hcapturing : m.capturing = stream.started := by simp [Microphone.capturing, hstream]
  rw [hcapturing]
  cases accepts <;> cases state <;>
    simp [libretroSetMicrophoneState, Microphone.setRunning, deref, hstream, Stream.requestStart, Stream.requestStop,
      bind, Except.bind, pure, Except.pure]

theorem Sound.read (hm : Sound m) (numSamples : Nat) : Sound (libretroReadMicrophone numSamples m).1 :=
  ⟨hm.inputStream, hm.running⟩

theorem Sound.onAudioReady (hm : Sound m) (audioData : List Int16) : Sound (m.onAudioReady audioData) :=
  ⟨hm.inputStream, hm.running⟩

theorem not_truthful_of_missing {pointer : Pointer} (h : .missing pointer ∈ es) : ¬ Truthful s a t es :=
  fun ht => ht.deref pointer h

theorem truthful_of_inv (ht : Inv t) (hmissing : ∀ pointer, .missing pointer ∉ es)
    (hopened : ∀ handle, .opened handle ∉ es) (hset : ∀ handle state accepts, a ≠ .setMicState handle state accepts) :
    Truthful s a t es where
  deref := hmissing
  new := fun handle h => absurd h (hopened handle)
  reported := ht.reported
  refused := fun handle state h => absurd h (hset handle state false)

theorem sound_open {opens starts : Bool} {rate : Nat} (h : libretroOpenMicrophone opens starts (some rate) = .ok m) :
    (m.inputStream.isSome ↔ opens = true) ∧ m.mIsRunning = false ∧ m.capturing = (opens && starts) := by
  rw [libretroOpenMicrophone_some, Except.ok.injEq] at h
  subst h
  cases opens <;> cases starts <;> simp [Microphone.make, Microphone.capturing]

theorem openMic_iff {params : Option Nat} {handle : Nat} {opens starts : Bool} (hs : Inv s)
    (h : step s (.openMic params handle opens starts) = some (t, es)) :
    (Truthful s (.openMic params handle opens starts) t es ↔ params.isSome ∧ opens = true ∧ starts = false) ∧
      (params.isSome ∧ opens = true ∧ starts = false → Inv t) := by
  simp only [step] at h
  split at h
  · cases h
  · split at h
    · cases h
    · rcases params with _ | rate
      · obtain ⟨-, rfl⟩ := Prod.mk.inj (Option.some.inj h)
        exact ⟨iff_of_false (not_truthful_of_missing List.mem_cons_self) nofun, nofun⟩
      · obtain ⟨microphone, hopen⟩ : ∃ microphone, libretroOpenMicrophone opens starts (some rate) = .ok microphone :=
          ⟨_, libretroOpenMicrophone_some opens starts rate⟩
        rw [hopen] at h
        obtain ⟨rfl, rfl⟩ := Prod.mk.inj (Option.some.inj h)
        obtain ⟨hstream, hrunning, hcapturing⟩ := sound_open hopen
        have hinv : opens = true ∧ starts = false → Inv (s.put handle (some microphone)) := by
          rintro ⟨rfl, rfl⟩
          exact hs.put handle fun m hm => Option.some.inj hm ▸ ⟨hstream.2 rfl, hrunning.trans hcapturing.symm⟩
        refine ⟨⟨fun ht => ?_, fun hquiet => ?_⟩, fun hquiet => hinv hquiet.2⟩
        · obtain ⟨m, hm, hopened, hinactive, -⟩ := ht.new handle List.mem_cons_self
          rw [put_self] at hm
          obtain rfl := Option.some.inj hm
          have hopens := hstream.1 hopened
          rw [hcapturing, hopens, Bool.true_and] at hinactive
          exact ⟨rfl, hopens, hinactive⟩
        · refine ⟨by simp, fun other hother => ?_, (hinv hquiet.2).reported, nofun⟩
          obtain rfl := Event.opened.inj (List.mem_singleton.1 hother)
          obtain ⟨-, rfl, rfl⟩ := hquiet
          refine ⟨microphone, put_self .., hstream.2 rfl, hcapturing, ?_⟩
          rw [State.reported, put_self, Option.map_some, libretroGetMicrophoneState, Microphone.isRunning, hrunning]

theorem setMicState_iff {handle : Nat} {state accepts : Bool} (hs : Inv s)
    (h : step s (.setMicState handle state accepts) = some (t, es)) :
    (Truthful s (.setMicState handle state accepts) t es ↔ accepts = true) ∧ (accepts = true → Inv t) := by
  simp only [step] at h
  split at h
  · cases h
  · obtain ⟨microphone, hlive, hset⟩ := Option.map_eq_some_iff.1 h
    have hsound := hs handle microphone hlive
    rw [hsound.set] at hset
    obtain ⟨rfl, rfl⟩ := Prod.mk.inj hset
    have hinv : accepts = true → Inv (s.put handle (some
        { microphone with
          mIsRunning := state
          inputStream := some { started := if accepts then state else microphone.capturing } })) := by
      rintro rfl
      exact hs.put handle fun m hm => Option.some.inj hm ▸ ⟨rfl, rfl⟩
    refine ⟨⟨fun ht => ?_, fun haccepts => ?_⟩, hinv⟩
    · -- a stream that refuses is not told apart
      rcases accepts with _ | _
      · exact absurd List.mem_cons_self (ht.refused handle state rfl).1
      · rfl
    · refine ⟨by simp, by simp, (hinv haccepts).reported, ?_⟩
      rintro _ _ ⟨⟩
      cases haccepts

theorem closeMic_iff {handle : Option Nat} {closes : Bool} (hs : Inv s)
    (h : step s (.closeMic handle closes) = some (t, es)) :
    (Truthful s (.closeMic handle closes) t es ↔ handle.isSome) ∧ (handle.isSome → Inv t) := by
  simp only [step] at h
  split at h
  · cases h
  · rcases handle with _ | handle
    · obtain ⟨-, rfl⟩ := Prod.mk.inj (Option.some.inj h)
      exact ⟨iff_of_false (not_truthful_of_missing List.mem_cons_self) nofun, nofun⟩
    · obtain ⟨microphone, hlive, hclose⟩ := Option.map_eq_some_iff.1 h
      rw [(hs handle microphone hlive).close] at hclose
      obtain ⟨rfl, rfl⟩ := Prod.mk.inj hclose
      have hinv : Inv (s.put handle none) := hs.put handle nofun
      exact ⟨iff_of_true (truthful_of_inv hinv (by simp) (by simp) nofun) rfl, fun _ => hinv⟩

theorem step_iff (hs : Inv s) (h : step s a = some (t, es)) :
    (Truthful s a t es ↔ Obeyed s a t es) ∧ (Obeyed s a t es → Inv t) := by
  cases a with
  | openMic params handle opens starts => exact openMic_iff hs h
  | closeMic handle closes => exact closeMic_iff hs h
  | setMicState handle state accepts => exact setMicState_iff hs h
  | getMicState handle | getParams handle =>
    simp only [step] at h
    split at h
    · cases h
    · obtain ⟨microphone, -, hget⟩ := Option.map_eq_some_iff.1 h
      obtain ⟨rfl, rfl⟩ := Prod.mk.inj hget
      exact ⟨iff_of_true (truthful_of_inv hs (by simp) (by simp) nofun) trivial, fun _ => hs⟩
  | readMic handle numSamples =>
    simp only [step] at h
    split at h
    · cases h
    · obtain ⟨microphone, hlive, hread⟩ := Option.map_eq_some_iff.1 h
      obtain ⟨rfl, rfl⟩ := Prod.mk.inj hread
      have hinv : Inv (s.put handle (some (libretroReadMicrophone numSamples microphone).1)) :=
        hs.put handle fun m hm => Option.some.inj hm ▸ (hs handle microphone hlive).read numSamples
      exact ⟨iff_of_true (truthful_of_inv hinv (by simp) (by simp) nofun) trivial, fun _ => hinv⟩
  | onAudioReady handle audioData =>
    simp only [step] at h
    split at h
    · cases h
    · obtain ⟨microphone, hlive, hready⟩ := Option.bind_eq_some_iff.1 h
      split at hready
      · obtain ⟨rfl, rfl⟩ := Prod.mk.inj (Option.some.inj hready)
        have hinv : Inv (s.put handle (some (microphone.onAudioReady audioData))) :=
          hs.put handle fun m hm => Option.some.inj hm ▸ (hs handle microphone hlive).onAudioReady audioData
        exact ⟨iff_of_true (truthful_of_inv hinv (by simp) (by simp) nofun) trivial, fun _ => hinv⟩
      · cases hready

/-- In a run, the handles are usable and their state is true exactly if nothing is null, each stream opens, but does
not start, and later does as it is told. -/
theorem truthful_iff (as : List Action) : Along step Truthful {} as ↔ Along step Obeyed {} as :=
  along_iff (G := Truthful) (C := Obeyed) (fun hs h => (step_iff hs h).1) (fun hs h => (step_iff hs h).2) inv_start as

/-- Nothing goes wrong with the stream: the new microphone is listening, and says that it is not. -/
theorem not_truthful_open : ¬ Along step Truthful {} [.openMic (some 44100) 1 true true] := by
  intro h
  obtain ⟨h, -⟩ := (along_cons_some rfl).1 h
  obtain ⟨m, hm, -, hinactive, -⟩ := h.new 1 List.mem_cons_self
  obtain rfl := Option.some.inj hm
  cases hinactive

end SweetHome.MicrophoneInterface
