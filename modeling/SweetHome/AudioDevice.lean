import SweetHome.Audio

/-!
# A device that cannot be opened

`Audio` opens its stream when it is constructed and again when it is disconnected, and either can fail. What it
has then is not all missing: the stream and its tuner are, while the FIFO is the old one, or there never was one.
`start` and `stop` look for the stream, `write` for nothing. Samples that are written while no stream is open are
never heard, and a stream that is opened again plays exactly if it should, but a core that sends samples before
any stream has been opened has them written to a FIFO that does not exist (`survives_iff`).
-/

namespace SweetHome.AudioDevice
open Step

/-! ### `Audio` -/

/-- A stream of `oboe`. One that is closed refuses what is requested of it. -/
structure Stream where
  closed : Bool := false
  started : Bool := false
deriving DecidableEq, Repr

def Stream.requestStart (stream : Stream) : Stream := if stream.closed then stream else { stream with started := true }

def Stream.requestStop (stream : Stream) : Stream := if stream.closed then stream else { stream with started := false }

/-- `oboe` stops and closes a stream before it calls `onErrorAfterClose`. -/
def Stream.close (stream : Stream) : Stream := { stream.requestStop with closed := true }

inductive Result where
  | errorDisconnected
  | otherError
deriving DecidableEq, Repr

/-- What can be missing. -/
inductive Pointer where
  | fifoBuffer
  | temporaryAudioBuffer
  | stream
  | latencyTuner
deriving DecidableEq, Repr

def deref {β : Type} (pointer : Pointer) : Option β → Except Pointer β
  | some value => .ok value
  | none => .error pointer

/-- The temporary buffer is as long as its number says. -/
structure Audio (α : Type) where
  fifoBuffer : Option (Fifo α) := none
  temporaryAudioBuffer : Option Nat := none
  stream : Option Stream := none
  latencyTuner : Option Unit := none
  startRequested : Bool := false

namespace Audio
variable {α : Type} (audioBufferSize : Nat)

/-- `opens` is whether `openManagedStream` returns a stream. -/
def initializeStream (opens : Bool) (a : Audio α) : Audio α :=
  if opens then
    { a with
      stream := some {}
      fifoBuffer := some (.empty audioBufferSize)
      temporaryAudioBuffer := some audioBufferSize
      latencyTuner := some () }
  else
    { a with
      stream := none
      latencyTuner := none }

def make (opens : Bool) : Audio α := initializeStream audioBufferSize opens {}

def start (a : Audio α) : Except Pointer (Audio α) :=
  let a := { a with startRequested := true }
  if a.stream.isSome then
    (deref .stream a.stream).map fun stream => { a with stream := some stream.requestStart }
  else .ok a

def stop (a : Audio α) : Except Pointer (Audio α) :=
  let a := { a with startRequested := false }
  if a.stream.isSome then
    (deref .stream a.stream).map fun stream => { a with stream := some stream.requestStop }
  else .ok a

/-- `data` are the samples of all frames. -/
def write (data : List α) (a : Audio α) : Except Pointer (Audio α) :=
  (deref .fifoBuffer a.fifoBuffer).map fun fifoBuffer =>
    { a with fifoBuffer := some (fifoBuffer.write (data.take (Audio.toInt32 data.length).toNat)) }

/-- With the samples that are read from the FIFO, for any number of frames that the rates ask for. -/
def onAudioReady (currentFramesToSubmit : Nat) (a : Audio α) : Except Pointer (Audio α × List α) := do
  let fifoBuffer ← deref .fifoBuffer a.fifoBuffer
  let _ ← deref .temporaryAudioBuffer a.temporaryAudioBuffer
  let _ ← deref .latencyTuner a.latencyTuner
  return ({ a with fifoBuffer := some (fifoBuffer.readNow (currentFramesToSubmit * 2)) },
    fifoBuffer.taken (currentFramesToSubmit * 2))

def onErrorAfterClose (result : Result) (opens : Bool) (a : Audio α) : Except Pointer (Audio α) :=
  if result ≠ .errorDisconnected then .ok a
  else
    let a := a.initializeStream audioBufferSize opens
    if a.startRequested then a.start else .ok a

def isOpen (a : Audio α) : Bool := a.stream.any fun stream => !stream.closed

def playing (a : Audio α) : Bool := a.stream.any fun stream => !stream.closed && stream.started

end Audio

/-! ### Steps -/

inductive Request where
  | start
  | stop
deriving DecidableEq, Repr

section
variable (α : Type)

inductive Action where
  | request (r : Request)
  | setAudioEnabled (enabled : Bool)
  | handleAudioCallback (data : List α)
  /-- The stream that plays asks for samples. -/
  | onAudioReady (currentFramesToSubmit : Nat)
  /-- The device goes away. -/
  | disconnect
  | onErrorAfterClose (result : Result) (opens : Bool)

/-- A sample is marked with whether a stream was open when the core sent it. -/
inductive Event where
  | missing (pointer : Pointer)
  | played (samples : List (α × Bool))

structure State where
  audio : Audio (α × Bool)
  audioEnabled : Bool := true
  crashed : Bool := false
  lastRequest : Option Request := none
  /-- Some `openManagedStream` has returned a stream. -/
  opened : Bool

end

section
variable {α : Type} (audioBufferSize : Nat)

def State.settle (s : State α) : Except Pointer (Audio (α × Bool)) → State α × List (Event α)
  | .ok audio => ({ s with audio := audio }, [])
  | .error pointer => ({ s with crashed := true }, [.missing pointer])

def handleAudioCallback (data : List α) (s : State α) : Except Pointer (Audio (α × Bool)) :=
  if s.audioEnabled then s.audio.write (data.map fun sample => (sample, s.audio.isOpen)) else .ok s.audio

def step : Step (State α) (Action α) (Event α) := fun s a =>
  if s.crashed then none
  else
    match a with
    | .request .start => some (State.settle { s with lastRequest := some .start } s.audio.start)
    | .request .stop => some (State.settle { s with lastRequest := some .stop } s.audio.stop)
    | .setAudioEnabled enabled => some ({ s with audioEnabled := enabled }, [])
    | .handleAudioCallback data => some (s.settle (handleAudioCallback data s))
    | .onAudioReady currentFramesToSubmit =>
      if s.audio.playing then
        match s.audio.onAudioReady currentFramesToSubmit with
        | .ok (audio, samples) => some ({ s with audio := audio }, [.played samples])
        | .error pointer => some ({ s with crashed := true }, [.missing pointer])
      else none
    | .disconnect => some ({ s with audio := { s.audio with stream := s.audio.stream.map Stream.close } }, [])
    | .onErrorAfterClose result opens =>
      some (State.settle { s with opened := s.opened || (result == .errorDisconnected && opens) }
        (s.audio.onErrorAfterClose audioBufferSize result opens))

def init (opens : Bool) : State α where
  audio := .make audioBufferSize opens
  opened := opens

/-! ### The law and the condition -/

/-- Nothing that is missing is used, nothing is heard that was sent while no stream was open, and a stream that
is open plays exactly if the last request was to start. -/
def Survives (_ : State α) (_ : Action α) (t : State α) (es : List (Event α)) : Prop :=
  (∀ pointer, Event.missing pointer ∉ es) ∧
  (∀ samples, Event.played samples ∈ es → ∀ sample ∈ samples, sample.2 = true) ∧
  (t.audio.isOpen → (t.audio.playing = true ↔ t.lastRequest = some .start))

/-- Samples that are let through are sent after a stream has been opened once. -/
def SentOnceOpened (s : State α) (a : Action α) (_ : State α) (_ : List (Event α)) : Prop :=
  match a with
  | .handleAudioCallback _ => s.audioEnabled = true → s.opened = true
  | _ => True

/-- What is there: all that an open stream needs, and a FIFO once one has been opened. -/
structure Ready (opened : Bool) (lastRequest : Option Request) (a : Audio (α × Bool)) : Prop where
  fifoBuffer : a.fifoBuffer.isSome = opened
  startRequested : a.startRequested = true ↔ lastRequest = some .start
  stream : a.stream.isSome → opened = true ∧ a.temporaryAudioBuffer.isSome ∧ a.latencyTuner.isSome
  started : ∀ stream ∈ a.stream, stream.closed = false → stream.started = a.startRequested
  heard : a.isOpen = true → ∀ fifoBuffer ∈ a.fifoBuffer, ∀ sample ∈ fifoBuffer.items, sample.2 = true

structure Inv (s : State α) : Prop where
  running : s.crashed = false
  ready : Ready s.opened s.lastRequest s.audio

/-! ### `Audio`, call by call -/

section
variable {opened : Bool} {lastRequest : Option Request} {a b : Audio (α × Bool)}

theorem isOpen_iff {β : Type} {a : Audio β} : a.isOpen = true ↔ ∃ stream ∈ a.stream, stream.closed = false := by
  simp [Audio.isOpen, Option.any_eq_true]

theorem playing_iff {β : Type} {a : Audio β} :
    a.playing = true ↔ ∃ stream ∈ a.stream, stream.closed = false ∧ stream.started = true := by
  simp [Audio.playing, Option.any_eq_true]

@[simp] theorem closed_requestStart (stream : Stream) : stream.requestStart.closed = stream.closed := by
  unfold Stream.requestStart
  split <;> rfl

@[simp] theorem closed_requestStop (stream : Stream) : stream.requestStop.closed = stream.closed := by
  unfold Stream.requestStop
  split <;> rfl

theorem start_eq {β : Type} (a : Audio β) :
    a.start = .ok { a with startRequested := true, stream := a.stream.map Stream.requestStart } := by
  rcases hstream : a.stream with _ | stream <;> simp [Audio.start, deref, Except.map, hstream]

theorem stop_eq {β : Type} (a : Audio β) :
    a.stop = .ok { a with startRequested := false, stream := a.stream.map Stream.requestStop } := by
  rcases hstream : a.stream with _ | stream <;> simp [Audio.stop, deref, Except.map, hstream]

theorem Ready.plays_iff (h : Ready opened lastRequest a) (hopen : a.isOpen = true) :
    a.playing = true ↔ lastRequest = some .start := by
  obtain ⟨stream, hstream, hclosed⟩ := isOpen_iff.1 hopen
  rw [← h.startRequested, ← h.started stream hstream hclosed]
  simp [Audio.playing, Option.mem_def.1 hstream, hclosed]

theorem Ready.request (h : Ready opened lastRequest a) (r : Request) {f : Stream → Stream}
    (hclosed : ∀ stream, (f stream).closed = stream.closed)
    (hstarted : ∀ stream : Stream, stream.closed = false → (f stream).started = (r == .start)) :
    Ready opened (some r) { a with startRequested := r == .start, stream := a.stream.map f } where
  fifoBuffer := h.fifoBuffer
  startRequested := by simp
  stream := by simpa using h.stream
  started := by
    intro stream hstream hopen
    obtain ⟨old, -, rfl⟩ := Option.map_eq_some_iff.1 hstream
    exact hstarted old (hclosed old ▸ hopen)
  heard := by
    intro hopen
    obtain ⟨stream, hstream, hstill⟩ := isOpen_iff.1 hopen
    obtain ⟨old, hold, rfl⟩ := Option.map_eq_some_iff.1 hstream
    exact h.heard (isOpen_iff.2 ⟨old, hold, hclosed old ▸ hstill⟩)

theorem Ready.start (h : Ready opened lastRequest a) (hb : a.start = .ok b) : Ready opened (some .start) b := by
  rw [start_eq, Except.ok.injEq] at hb
  subst hb
  exact h.request .start closed_requestStart fun stream hopen => by simp [Stream.requestStart, hopen]

theorem Ready.stop (h : Ready opened lastRequest a) (hb : a.stop = .ok b) : Ready opened (some .stop) b := by
  rw [stop_eq, Except.ok.injEq] at hb
  subst hb
  exact h.request .stop closed_requestStop fun stream hopen => by simp [Stream.requestStop, hopen]

theorem Ready.disconnect (h : Ready opened lastRequest a) :
    Ready opened lastRequest { a with stream := a.stream.map Stream.close } where
  fifoBuffer := h.fifoBuffer
  startRequested := h.startRequested
  stream := by simpa using h.stream
  started := by
    intro stream hstream hopen
    obtain ⟨old, -, rfl⟩ := Option.map_eq_some_iff.1 hstream
    cases hopen
  heard := by
    intro hopen
    obtain ⟨stream, hstream, hstill⟩ := isOpen_iff.1 hopen
    obtain ⟨old, -, rfl⟩ := Option.map_eq_some_iff.1 hstream
    cases hstill

/-- A FIFO is all that a write needs, and what it adds is marked with whether a stream is open. -/
theorem Ready.write (h : Ready true lastRequest a) (data : List α) :
    ∃ b, a.write (data.map fun sample => (sample, a.isOpen)) = .ok b ∧ Ready true lastRequest b := by
  obtain ⟨fifoBuffer, hfifo⟩ := Option.isSome_iff_exists.1 h.fifoBuffer
  have hwrite : ∀ xs, a.write xs =
      .ok { a with fifoBuffer := some (fifoBuffer.write (xs.take (Audio.toInt32 xs.length).toNat)) } := by
    intro xs
    rw [Audio.write, hfifo]
    rfl
  refine ⟨_, hwrite _, rfl, h.startRequested, h.stream, h.started, ?_⟩
  rintro hopen _ ⟨⟩ sample hsample
  rcases List.mem_append.1 hsample with hold | hnew
  · exact h.heard hopen fifoBuffer hfifo sample hold
  · have hdata := List.mem_of_mem_take (List.mem_of_mem_take hnew)
    obtain ⟨value, -, rfl⟩ := List.mem_map.1 hdata
    exact hopen

theorem write_missing (h : Ready false lastRequest a) (data : List (α × Bool)) :
    a.write data = .error .fifoBuffer := by
  rw [Audio.write, Option.isSome_eq_false_iff.1 h.fifoBuffer |> Option.isNone_iff_eq_none.1]
  rfl

/-- A stream that plays has all that it needs, and what it takes was sent while it was open. -/
theorem Ready.onAudioReady (h : Ready opened lastRequest a) (hplaying : a.playing = true)
    (currentFramesToSubmit : Nat) :
    ∃ b samples, a.onAudioReady currentFramesToSubmit = .ok (b, samples) ∧ Ready opened lastRequest b ∧
      ∀ sample ∈ samples, sample.2 = true := by
  obtain ⟨stream, hstream, hclosed, -⟩ := playing_iff.1 hplaying
  have hopen : a.isOpen = true := isOpen_iff.2 ⟨stream, hstream, hclosed⟩
  obtain ⟨hopened, htemporary, htuner⟩ := h.stream (Option.isSome_of_mem hstream)
  obtain ⟨fifoBuffer, hfifo⟩ := Option.isSome_iff_exists.1 (h.fifoBuffer.trans hopened)
  obtain ⟨temporaryAudioBuffer, htemporary⟩ := Option.isSome_iff_exists.1 htemporary
  obtain ⟨latencyTuner, htuner⟩ := Option.isSome_iff_exists.1 htuner
  have hheard := h.heard hopen fifoBuffer hfifo
  refine ⟨_, _, by rw [Audio.onAudioReady, hfifo, htemporary, htuner]; rfl, ?_,
    fun sample hsample => hheard sample (List.mem_of_mem_take hsample)⟩
  refine ⟨hopened.symm, h.startRequested, fun _ => ⟨hopened, rfl, rfl⟩, h.started, ?_⟩
  rintro - _ ⟨⟩ sample hsample
  exact hheard sample (List.mem_of_mem_drop hsample)

theorem onErrorAfterClose_eq {β : Type} (audioBufferSize : Nat) (opens : Bool) (a : Audio β) :
    a.onErrorAfterClose audioBufferSize .errorDisconnected opens =
      .ok { a.initializeStream audioBufferSize opens with
        stream := (a.initializeStream audioBufferSize opens).stream.map fun stream =>
          { stream with started := a.startRequested } } := by
  rcases hrequested : a.startRequested with _ | _ <;> cases opens <;>
    simp [Audio.onErrorAfterClose, Audio.initializeStream, start_eq, hrequested, Stream.requestStart]

/-- A stream that is opened again is started if that was the last request; what was in the FIFO is gone. -/
theorem Ready.onErrorAfterClose (h : Ready opened lastRequest a) (audioBufferSize : Nat) (result : Result)
    (opens : Bool) :
    ∃ b, a.onErrorAfterClose audioBufferSize result opens = .ok b ∧
      Ready (opened || (result == .errorDisconnected && opens)) lastRequest b := by
  cases result with
  | otherError =>
    have hopened : (opened || (Result.otherError == .errorDisconnected && opens)) = opened := Bool.or_false opened
    rw [hopened]
    exact ⟨a, rfl, h⟩
  | errorDisconnected =>
    refine ⟨_, onErrorAfterClose_eq audioBufferSize opens a, ?_⟩
    cases opens with
    | false =>
      exact {
        fifoBuffer := h.fifoBuffer.trans (Bool.or_false opened).symm
        startRequested := h.startRequested
        stream := nofun
        started := nofun
        heard := nofun }
    | true =>
      exact {
        fifoBuffer := (Bool.or_true opened).symm
        startRequested := h.startRequested
        stream := fun _ => ⟨Bool.or_true opened, rfl, rfl⟩
        started := by
          rintro _ ⟨⟩ -
          rfl
        heard := by
          rintro - _ ⟨⟩ sample hsample
          cases hsample }

end

/-! ### Runs -/

section
variable {audioBufferSize} {s t : State α} {a : Action α} {es : List (Event α)}

theorem settled {r : Except Pointer (Audio (α × Bool))} {b : Audio (α × Bool)}
    (h : some (s.settle r) = some (t, es)) (hrunning : s.crashed = false) (hr : r = .ok b)
    (hb : Ready s.opened s.lastRequest b) : Inv t ∧ es = [] := by
  subst hr
  simp only [State.settle, Option.some.injEq, Prod.mk.injEq] at h
  obtain ⟨rfl, rfl⟩ := h
  exact ⟨⟨hrunning, hb⟩, rfl⟩

theorem step_sent (hs : Inv s) (h : step audioBufferSize s a = some (t, es)) (ha : SentOnceOpened s a t es) :
    Inv t ∧ (es = [] ∨ ∃ samples, es = [.played samples] ∧ ∀ sample ∈ samples, sample.2 = true) := by
  obtain ⟨hrunning, hready⟩ := hs
  unfold step at h
  rw [if_neg (by simp [hrunning])] at h
  cases a with
  | request r =>
    cases r with
    | start =>
      obtain ⟨ht, hes⟩ := settled h hrunning (start_eq _) (hready.start (start_eq _))
      exact ⟨ht, .inl hes⟩
    | stop =>
      obtain ⟨ht, hes⟩ := settled h hrunning (stop_eq _) (hready.stop (stop_eq _))
      exact ⟨ht, .inl hes⟩
  | setAudioEnabled enabled =>
    simp only [Option.some.injEq, Prod.mk.injEq] at h
    obtain ⟨rfl, rfl⟩ := h
    exact ⟨⟨hrunning, hready⟩, .inl rfl⟩
  | handleAudioCallback data =>
    rcases henabled : s.audioEnabled with _ | _
    · have hok : handleAudioCallback data s = .ok s.audio := by simp [handleAudioCallback, henabled]
      obtain ⟨ht, hes⟩ := settled h hrunning hok hready
      exact ⟨ht, .inl hes⟩
    · have hopened : s.opened = true := ha henabled
      rw [hopened] at hready
      obtain ⟨b, hwrite, hb⟩ := hready.write data
      have hok : handleAudioCallback data s = .ok b := by simp [handleAudioCallback, henabled, hwrite]
      rw [← hopened] at hb
      obtain ⟨ht, hes⟩ := settled h hrunning hok hb
      exact ⟨ht, .inl hes⟩
  | onAudioReady currentFramesToSubmit =>
    by_cases hplaying : s.audio.playing = true
    · obtain ⟨b, samples, hok, hb, hheard⟩ := hready.onAudioReady hplaying currentFramesToSubmit
      simp only [hplaying, if_true, hok, Option.some.injEq, Prod.mk.injEq] at h
      obtain ⟨rfl, rfl⟩ := h
      exact ⟨⟨hrunning, hb⟩, .inr ⟨samples, rfl, hheard⟩⟩
    · cases (if_neg hplaying).symm.trans h
  | disconnect =>
    simp only [Option.some.injEq, Prod.mk.injEq] at h
    obtain ⟨rfl, rfl⟩ := h
    exact ⟨⟨hrunning, hready.disconnect⟩, .inl rfl⟩
  | onErrorAfterClose result opens =>
    obtain ⟨b, hok, hb⟩ := hready.onErrorAfterClose audioBufferSize result opens
    obtain ⟨ht, hes⟩ := settled h hrunning hok hb
    exact ⟨ht, .inl hes⟩

theorem step_unsent (hs : Inv s) (h : step audioBufferSize s a = some (t, es)) (ha : ¬ SentOnceOpened s a t es) :
    es = [.missing .fifoBuffer] := by
  obtain ⟨hrunning, hready⟩ := hs
  cases a with
  | handleAudioCallback data =>
    simp only [SentOnceOpened, Classical.not_imp, Bool.not_eq_true] at ha
    obtain ⟨henabled, hopened⟩ := ha
    rw [hopened] at hready
    simp only [step, hrunning, Bool.false_eq_true, if_false, handleAudioCallback, henabled, if_true,
      write_missing hready, State.settle, Option.some.injEq, Prod.mk.injEq] at h
    exact h.2.symm
  | request | setAudioEnabled | onAudioReady | disconnect | onErrorAfterClose => exact absurd trivial ha

theorem survives_iff_sent (hs : Inv s) (h : step audioBufferSize s a = some (t, es)) :
    Survives s a t es ↔ SentOnceOpened s a t es := by
  constructor
  · intro hlaw
    by_contra ha
    rw [step_unsent hs h ha] at hlaw
    exact hlaw.1 .fifoBuffer (List.mem_singleton_self _)
  · intro ha
    obtain ⟨ht, hes⟩ := step_sent hs h ha
    refine ⟨?_, ?_, fun hopen => ht.ready.plays_iff hopen⟩
    · rcases hes with rfl | ⟨samples, rfl, -⟩ <;> simp
    · rcases hes with rfl | ⟨samples, rfl, hheard⟩
      · nofun
      · intro played hplayed
        cases List.mem_singleton.1 hplayed
        exact hheard

theorem inv_init (opens : Bool) : Inv (init audioBufferSize opens : State α) where
  running := rfl
  ready := by
    cases opens with
    | false => exact ⟨rfl, by simp [init, Audio.make, Audio.initializeStream], nofun, nofun, nofun⟩
    | true =>
      refine ⟨rfl, by simp [init, Audio.make, Audio.initializeStream], fun _ => ⟨rfl, rfl, rfl⟩, ?_, ?_⟩
      · rintro _ ⟨⟩ -
        rfl
      · rintro - _ ⟨⟩ sample hsample
        cases hsample

/-- Over all outcomes and orders: nothing goes wrong exactly if no samples are let through before a stream has
been opened once. -/
theorem survives_iff (audioBufferSize : Nat) (opens : Bool) (as : List (Action α)) :
    Along (step audioBufferSize) Survives (init audioBufferSize opens) as ↔
      Along (step audioBufferSize) SentOnceOpened (init audioBufferSize opens) as :=
  along_iff survives_iff_sent (fun hs h ha => (step_sent hs h ha).1) (inv_init opens) as

end

/-- The device is busy when the game is loaded, and its first sound is written nowhere. -/
theorem crash_without_device :
    ¬ ∀ (audioBufferSize : Nat) (opens : Bool) (as : List (Action Int)),
      Along (step audioBufferSize) Survives (init audioBufferSize opens) as := by
  intro h
  obtain ⟨⟨hmissing, -⟩, -⟩ := h 4 false [.request .start, .handleAudioCallback [0, 0]] |>.2
  exact hmissing .fifoBuffer (List.mem_singleton_self _)

end
end SweetHome.AudioDevice
