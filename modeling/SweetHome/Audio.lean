import SweetHome.Lib.Fifo
import SweetHome.Lib.Run
import Mathlib.Algebra.Order.Floor.Defs
import Mathlib.Algebra.Order.Field.Basic
import Mathlib.Data.Int.ModEq

/-!
# The sample FIFO of `Audio`

`Audio` keeps its input in a FIFO of single 16 bit samples. Its capacity is rounded to an even number
and every write and read asks for twice a number of frames, so the FIFO of samples is, step for step,
a FIFO of stereo frames written out sample by sample (`Stereo`). What is handed to the resampler is
then what that FIFO of frames hands out.
-/

namespace SweetHome.Audio
open Step

/-! ### The capacity -/

structure AudioLatencySettings where
  bufferSizeInVideoFrames : Nat
  useLowLatencyStream : Bool
deriving DecidableEq, Repr

def DEFAULT_LATENCY_SETTINGS : AudioLatencySettings := ⟨8, false⟩

/-- `(x / 2) * 2` in C, where the division truncates. -/
def roundToEven (x : Int) : Int := x.tdiv 2 * 2

section
variable {K : Type} [Field K] [LinearOrder K] [FloorRing K]

/-- The conversion of a `double` to an integer type that holds it. -/
def truncate (x : K) : Int := if 0 ≤ x then ⌊x⌋ else ⌈x⌉

def computeMaximumLatency (settings : AudioLatencySettings) (contentRefreshRate : K) : K :=
  max (settings.bufferSizeInVideoFrames / contentRefreshRate * 1000) 32

def computeAudioBufferSize (settings : AudioLatencySettings) (inputSampleRate : Int)
    (contentRefreshRate : K) : Int :=
  let sampleRateDivisor := 500 / computeMaximumLatency settings contentRefreshRate
  roundToEven (truncate (inputSampleRate / sampleRateDivisor))

end

/-- The `uint32_t` capacity parameter of the `FifoBuffer`. -/
def toUInt32 (x : Int) : Nat := (x % 2 ^ 32).toNat

/-- The `int32_t` size parameter of `FifoBuffer::write`, from a `size_t`. -/
def toInt32 (x : Nat) : Int :=
  if x % 2 ^ 32 < 2 ^ 31 then (x % 2 ^ 32 : Nat) else (x % 2 ^ 32 : Nat) - 2 ^ 32

theorem even_toUInt32_roundToEven (x : Int) : Even (toUInt32 (roundToEven x)) := by
  have hnonneg : 0 ≤ roundToEven x % 2 ^ 32 := Int.emod_nonneg _ (by norm_num)
  have heven : (roundToEven x % 2 ^ 32) % 2 = 0 := by
    rw [Int.emod_emod_of_dvd _ (by norm_num), roundToEven]
    simp
  exact Nat.even_iff.2 (by unfold toUInt32; omega)

/-! ### Frames and samples -/

/-- Samples are integers here: nothing depends on their range. -/
abbrev Frame := Int × Int

def interleave (frames : List Frame) : List Int := frames.flatMap fun f => [f.1, f.2]

def sourceFrames : List Int → List Frame
  | l :: r :: samples => (l, r) :: sourceFrames samples
  | _ => []

structure State where
  fifoBuffer : Fifo Int

inductive Action where
  | write (frames : List Frame)
  /-- `onAudioReady`, for any number of frames that its rates and its controller ask for. -/
  | onAudioReady (currentFramesToSubmit : Nat)
  /-- `onErrorAfterClose` of a disconnected stream builds the FIFO again. -/
  | initializeStream
deriving DecidableEq, Repr

/-- The call of the resampler: the temporary buffer, and how many of its samples the FIFO had. -/
structure Resample where
  source : List Int
  framesRead : Nat
deriving DecidableEq, Repr

variable (audioBufferSize : Int)

def initializeStream : State := ⟨.empty (toUInt32 audioBufferSize)⟩

/-- `FifoBuffer::write` of samples: a size that is not positive writes nothing. -/
def State.writeFifo (s : State) (data : List Int) (numFrames : Int) : State :=
  ⟨s.fifoBuffer.write (data.take numFrames.toNat)⟩

def step : Step State Action Resample
  | s, .write frames => some (s.writeFifo (interleave frames) (toInt32 (frames.length * 2)), [])
  | s, .onAudioReady m =>
    let source := s.fifoBuffer.buffer 0 (m * 2)
    some (⟨s.fifoBuffer.readNow (m * 2)⟩, [⟨source, (s.fifoBuffer.taken (m * 2)).length⟩])
  | _, .initializeStream => some (initializeStream audioBufferSize, [])

def written : Action → List Frame
  | .write frames => frames
  | _ => []

/-- The frames that the resampler is handed, the zero frames of an underrun left out. -/
def Resample.frames (e : Resample) : List Frame := (sourceFrames e.source).take (e.framesRead / 2)

/-! ### The FIFO of samples is a FIFO of frames -/

@[simp] theorem interleave_nil : interleave [] = [] := rfl

@[simp] theorem interleave_cons (f : Frame) (fs : List Frame) :
    interleave (f :: fs) = f.1 :: f.2 :: interleave fs := rfl

@[simp] theorem interleave_append (fs gs : List Frame) :
    interleave (fs ++ gs) = interleave fs ++ interleave gs := List.flatMap_append

@[simp] theorem length_interleave (fs : List Frame) : (interleave fs).length = 2 * fs.length := by
  induction fs with
  | nil => rfl
  | cons f fs ih => simp only [interleave_cons, List.length_cons, ih]; omega

theorem take_interleave (fs : List Frame) (n : Nat) :
    (interleave fs).take (2 * n) = interleave (fs.take n) := by
  induction n generalizing fs with
  | zero => simp
  | succ n ih =>
    match fs with
    | [] => simp
    | f :: fs =>
      rw [show 2 * (n + 1) = 2 * n + 1 + 1 by omega]
      simp [ih]

theorem drop_interleave (fs : List Frame) (n : Nat) :
    (interleave fs).drop (2 * n) = interleave (fs.drop n) := by
  induction n generalizing fs with
  | zero => simp
  | succ n ih =>
    match fs with
    | [] => simp
    | f :: fs =>
      rw [show 2 * (n + 1) = 2 * n + 1 + 1 by omega]
      simp [ih]

theorem replicate_interleave (n : Nat) :
    interleave (List.replicate n (0, 0)) = List.replicate (2 * n) 0 := by
  induction n with
  | zero => rfl
  | succ n ih =>
    rw [show 2 * (n + 1) = 2 * n + 1 + 1 by omega, List.replicate_succ, List.replicate_succ,
      List.replicate_succ, interleave_cons, ih]

@[simp] theorem sourceFrames_interleave (fs : List Frame) : sourceFrames (interleave fs) = fs := by
  induction fs with
  | nil => rfl
  | cons f fs ih => rw [interleave_cons, sourceFrames, ih]

/-- The FIFO of samples `q` holds the frames of `p`, sample by sample. -/
structure Stereo (q : Fifo Int) (p : Fifo Frame) : Prop where
  capacity : q.capacity = 2 * p.capacity
  items : q.items = interleave p.items
  readCounter : q.readCounter = 2 * p.readCounter
  writeCounter : q.writeCounter = 2 * p.writeCounter

section
variable {q : Fifo Int} {p : Fifo Frame}

theorem stereo_empty (capacity : Nat) : Stereo (.empty (2 * capacity)) (.empty capacity) :=
  ⟨rfl, rfl, rfl, rfl⟩

theorem Stereo.write (h : Stereo q p) (fs : List Frame) :
    Stereo (q.write (interleave fs)) (p.write fs) := by
  have hstored : q.stored (interleave fs) = interleave (p.stored fs) := by
    rw [Fifo.stored, h.capacity, h.items, length_interleave, ← Nat.mul_sub, take_interleave]
    rfl
  refine ⟨h.capacity, ?_, h.readCounter, ?_⟩
  · simp only [Fifo.write, h.items, hstored, interleave_append]
  · simp only [Fifo.write, h.writeCounter, hstored, length_interleave]; omega

theorem Stereo.taken (h : Stereo q p) (m : Nat) : q.taken (2 * m) = interleave (p.taken m) := by
  rw [Fifo.taken, h.items, take_interleave]
  rfl

theorem Stereo.readNow (h : Stereo q p) (m : Nat) : Stereo (q.readNow (2 * m)) (p.readNow m) := by
  refine ⟨h.capacity, ?_, ?_, h.writeCounter⟩
  · simp only [Fifo.readNow, h.items, drop_interleave]
  · simp only [Fifo.readNow, h.readCounter, h.taken, length_interleave]; omega

theorem Stereo.buffer (h : Stereo q p) (m : Nat) :
    q.buffer 0 (2 * m) = interleave (p.buffer (0, 0) m) := by
  rw [Fifo.buffer, h.taken, length_interleave, ← Nat.mul_sub, ← replicate_interleave,
    ← interleave_append]
  rfl

end

/-! ### Steps and runs -/

theorem toNat_toInt32 (n : Nat) : ∃ k, (toInt32 (n * 2)).toNat = 2 * k := by
  refine ⟨(toInt32 (n * 2)).toNat / 2, ?_⟩
  unfold toInt32
  split <;> omega

def Resample.Padded (e : Resample) : Prop :=
  ∃ k, sourceFrames e.source = e.frames ++ List.replicate k (0, 0)

section
variable {audioBufferSize : Int} {s t : State} {a : Action} {es : List Resample} {p : Fifo Frame}

theorem stereo_initializeStream (h : Even (toUInt32 audioBufferSize)) :
    ∃ p : Fifo Frame, Stereo (initializeStream audioBufferSize).fifoBuffer p ∧ p.items = [] := by
  obtain ⟨c, hc⟩ := h
  refine ⟨.empty c, ?_, rfl⟩
  rw [initializeStream, show toUInt32 audioBufferSize = 2 * c by omega]
  exact stereo_empty c

/-- One step of the FIFO of samples is one step of the FIFO of frames, in which nothing that is handed
out or kept was not there or offered before. -/
theorem stereo_step (heven : Even (toUInt32 audioBufferSize)) (h : Stereo s.fifoBuffer p)
    (hstep : step audioBufferSize s a = some (t, es)) :
    ∃ p' : Fifo Frame, Stereo t.fifoBuffer p' ∧ (∀ e ∈ es, e.Padded) ∧
      (es.flatMap Resample.frames ++ p'.items).Sublist (p.items ++ written a) := by
  cases a with
  | write fs =>
    obtain ⟨rfl, rfl⟩ := Prod.mk.inj (Option.some.inj hstep)
    obtain ⟨k, hk⟩ := toNat_toInt32 fs.length
    refine ⟨p.write (fs.take k), ?_, by simp, ?_⟩
    · rw [State.writeFifo, hk, take_interleave]
      exact h.write _
    · have hoffered : (p.items ++ fs.take k).Sublist (p.items ++ fs) :=
        (List.Sublist.refl _).append (List.take_sublist _ _)
      exact (p.write_items_sublist _).trans hoffered
  | onAudioReady m =>
    obtain ⟨rfl, rfl⟩ := Prod.mk.inj (Option.some.inj hstep)
    rw [Nat.mul_comm m 2]
    have hsource : sourceFrames (s.fifoBuffer.buffer 0 (2 * m)) = p.buffer (0, 0) m := by
      rw [h.buffer, sourceFrames_interleave]
    have hframes : Resample.frames ⟨s.fifoBuffer.buffer 0 (2 * m), (s.fifoBuffer.taken (2 * m)).length⟩ =
        p.taken m := by
      rw [Resample.frames, hsource, h.taken, length_interleave, Nat.mul_div_cancel_left _ two_pos,
        p.take_buffer]
    refine ⟨p.readNow m, h.readNow m, ?_, ?_⟩
    · rw [List.forall_mem_singleton, Resample.Padded, hframes, hsource]
      exact ⟨_, rfl⟩
    · simp only [List.flatMap_singleton, hframes, written, List.append_nil]
      rw [p.taken_append_items]
  | initializeStream =>
    obtain ⟨rfl, rfl⟩ := Prod.mk.inj (Option.some.inj hstep)
    obtain ⟨p', hp', hnil⟩ := stereo_initializeStream heven
    exact ⟨p', hp', by simp, by simp [hnil]⟩

theorem stereo_run (heven : Even (toUInt32 audioBufferSize)) (h : Stereo s.fifoBuffer p)
    (as : List Action) :
    ∃ p' : Fifo Frame, Stereo (run (step audioBufferSize) s as).1.fifoBuffer p' ∧
      (∀ e ∈ (run (step audioBufferSize) s as).2, e.Padded) ∧
      ((run (step audioBufferSize) s as).2.flatMap Resample.frames ++ p'.items).Sublist
        (p.items ++ as.flatMap written) := by
  induction as generalizing s p with
  | nil => exact ⟨p, h, by simp, by simp⟩
  | cons a as ih =>
    rcases hstep : step audioBufferSize s a with _ | ⟨t, es⟩
    · cases a <;> cases hstep
    · obtain ⟨p₁, h₁, hpad₁, hsub₁⟩ := stereo_step heven h hstep
      obtain ⟨p₂, h₂, hpad₂, hsub₂⟩ := ih h₁
      rw [run_cons_some hstep]
      refine ⟨p₂, h₂, List.forall_mem_append.2 ⟨hpad₁, hpad₂⟩, ?_⟩
      rw [List.flatMap_append, List.flatMap_cons, List.append_assoc, ← List.append_assoc p.items]
      refine ((List.Sublist.refl _).append hsub₂).trans ?_
      rw [← List.append_assoc]
      exact hsub₁.append (List.Sublist.refl _)

end

/-- For every core and every interleaving of writes and reads of any sizes: the capacity, the fill
level and the counters of the FIFO stay even, and what the resampler is handed, the zero frames of
underruns left out, is a sublist of the frames written. -/
theorem stereo_order {K : Type} [Field K] [LinearOrder K] [FloorRing K]
    (settings : AudioLatencySettings) (inputSampleRate : Int) (contentRefreshRate : K)
    (as : List Action) :
    let size := computeAudioBufferSize settings inputSampleRate contentRefreshRate
    let r := run (step size) (initializeStream size) as
    (Even r.1.fifoBuffer.capacity ∧ Even r.1.fifoBuffer.items.length ∧
      Even r.1.fifoBuffer.readCounter ∧ Even r.1.fifoBuffer.writeCounter) ∧
    (∀ e ∈ r.2, e.Padded) ∧ (r.2.flatMap Resample.frames).Sublist (as.flatMap written) := by
  intro size r
  have heven : Even (toUInt32 size) := even_toUInt32_roundToEven _
  obtain ⟨p₀, h₀, hnil⟩ := stereo_initializeStream heven
  obtain ⟨p, h, hpad, hsub⟩ := stereo_run heven h₀ as
  refine ⟨⟨?_, ?_, ?_, ?_⟩, hpad, ?_⟩
  · exact ⟨p.capacity, by rw [h.capacity]; omega⟩
  · exact ⟨p.items.length, by rw [h.items, length_interleave]; omega⟩
  · exact ⟨p.readCounter, by rw [h.readCounter]; omega⟩
  · exact ⟨p.writeCounter, by rw [h.writeCounter]; omega⟩
  · rw [hnil, List.nil_append] at hsub
    exact (List.sublist_append_left _ _).trans hsub

end SweetHome.Audio
