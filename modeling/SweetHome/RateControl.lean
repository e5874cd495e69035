import SweetHome.LinearResampler
import SweetHome.TemporaryAudioBuffer

/-!
# The rate control of `onAudioReady`

Each callback asks the FIFO for the frames that its rates and its controller call for, rounded to a whole number,
and keeps the difference in `framesToSubmit`. In exact arithmetic the controller stays within its bounds and the
differences never add up (`rate_control`). The number asked for can be 0, though, and the resampler reads in
front of the source then: the callbacks that stay inside are those that ask for a frame (`along_inside_iff`).
-/

namespace SweetHome.RateControl
open Step Audio FpsSync TemporaryAudioBuffer

section
variable (K : Type) [Field K] [LinearOrder K]

structure State where
  baseConversionFactor : K
  framesToSubmit : K := 0
  errorIntegral : K := 0
  playbackSpeed : K := 1

inductive Action where
  | setPlaybackSpeed (newPlaybackSpeed : K)
  /-- The stream is disconnected, and another is opened. -/
  | initializeStream (baseConversionFactor : K)
  /-- A callback, on whatever is in the FIFO by then. -/
  | onAudioReady (fifoBuffer : Fifo Int) (numFrames : Nat)

variable {K} in
/-- The frames that the device asks for. -/
def Action.frames : Action K → List Nat
  | setPlaybackSpeed _ => []
  | initializeStream _ => []
  | onAudioReady _ numFrames => [numFrames]

variable {K} in
/-- The FIFO that a callback finds has room. -/
def Action.HasRoom : Action K → Prop
  | setPlaybackSpeed _ => True
  | initializeStream _ => True
  | onAudioReady fifoBuffer _ => 0 < fifoBuffer.capacity

/-- What a callback computes, and what its resampler does. -/
structure Callback where
  numFrames : Nat
  dynamicBufferFactor : K
  finalConversionFactor : K
  currentFramesToSubmit : Int
  /-- The indices of the source that were read. -/
  reads : List Int
  sink : List Int16

end

section
variable {K : Type} [Field K] [LinearOrder K] [FloorRing K]

/-- What `readNow` leaves in the temporary buffer. -/
def temporaryAudioBuffer (fifoBuffer : Fifo Int) (currentFramesToSubmit : Int) (i : Int) : Int16 :=
  Int16.ofInt ((fifoBuffer.buffer 0 (currentFramesToSubmit * 2).toNat).getD i.toNat 0)

def start (baseConversionFactor : K) : State K where
  baseConversionFactor := baseConversionFactor

def step : Step (State K) (Action K) (Callback K)
  | s, .setPlaybackSpeed newPlaybackSpeed => some ({ s with playbackSpeed := newPlaybackSpeed }, [])
  | s, .initializeStream baseConversionFactor => some ({ s with baseConversionFactor := baseConversionFactor }, [])
  | s, .onAudioReady fifoBuffer numFrames =>
    if 0 < fifoBuffer.capacity then
      let (dynamicBufferFactor, errorIntegral) :=
        computeDynamicBufferConversionFactor fifoBuffer s.errorIntegral (numFrames / (1000 : Nat))
      let finalConversionFactor := s.baseConversionFactor * dynamicBufferFactor * s.playbackSpeed
      let (currentFramesToSubmit, framesToSubmit) := onAudioReady finalConversionFactor s.framesToSubmit numFrames
      let resampled : LinearResampler.State K :=
        LinearResampler.resample (temporaryAudioBuffer fifoBuffer currentFramesToSubmit) currentFramesToSubmit
          numFrames
      some ({ s with framesToSubmit := framesToSubmit, errorIntegral := errorIntegral },
        [⟨numFrames, dynamicBufferFactor, finalConversionFactor, currentFramesToSubmit, resampled.reads,
          resampled.sink⟩])
    else none

/-! ### A callback -/

/-- What the rates and the controller call for in a callback. -/
def State.factor (s : State K) (fifoBuffer : Fifo Int) (numFrames : Nat) : K :=
  s.baseConversionFactor *
    (computeDynamicBufferConversionFactor fifoBuffer s.errorIntegral (numFrames / (1000 : Nat))).1 * s.playbackSpeed

variable {s t : State K} {a : Action K} {es : List (Callback K)}

theorem step_onAudioReady {fifoBuffer : Fifo Int} {numFrames : Nat}
    (h : step s (.onAudioReady fifoBuffer numFrames) = some (t, es)) :
    ∃ e : Callback K, es = [e] ∧ e.numFrames = numFrames ∧
      e.dynamicBufferFactor =
        (computeDynamicBufferConversionFactor fifoBuffer s.errorIntegral (numFrames / (1000 : Nat))).1 ∧
      e.finalConversionFactor = s.factor fifoBuffer numFrames ∧
      e.currentFramesToSubmit = lround (s.framesToSubmit + numFrames * s.factor fifoBuffer numFrames) ∧
      t.framesToSubmit =
        s.framesToSubmit + numFrames * s.factor fifoBuffer numFrames - (e.currentFramesToSubmit : K) ∧
      (∃ source, e.reads =
          (LinearResampler.resample source e.currentFramesToSubmit numFrames : LinearResampler.State K).reads ∧
        e.sink =
          (LinearResampler.resample source e.currentFramesToSubmit numFrames : LinearResampler.State K).sink) := by
  by_cases hcapacity : 0 < fifoBuffer.capacity
  · obtain ⟨rfl, rfl⟩ := Prod.mk.inj (Option.some.inj ((if_pos hcapacity).symm.trans h))
    exact ⟨_, rfl, rfl, rfl, rfl, rfl, rfl, _, rfl, rfl⟩
  · cases (if_neg hcapacity).symm.trans h

/-- The remaining steps show nothing, and leave the fraction alone. -/
theorem step_other (ha : ∀ fifoBuffer numFrames, a ≠ .onAudioReady fifoBuffer numFrames)
    (h : step s a = some (t, es)) : es = [] ∧ t.framesToSubmit = s.framesToSubmit := by
  cases a with
  | onAudioReady fifoBuffer numFrames => exact absurd rfl (ha fifoBuffer numFrames)
  | setPlaybackSpeed newPlaybackSpeed | initializeStream baseConversionFactor =>
    obtain ⟨rfl, rfl⟩ := Prod.mk.inj (Option.some.inj h)
    exact ⟨rfl, rfl⟩

/-- With a FIFO that has room, each call is a callback of its frames. -/
theorem step_frames (s : State K) (a : Action K) (ha : a.HasRoom) :
    ∃ t es, step s a = some (t, es) ∧ es.map Callback.numFrames = a.frames := by
  cases a with
  | onAudioReady fifoBuffer numFrames => exact ⟨_, _, if_pos ha, rfl⟩
  | setPlaybackSpeed newPlaybackSpeed | initializeStream baseConversionFactor => exact ⟨_, _, rfl, rfl⟩

/-- A callback asks for what it is called for and for what was left over, up to what it leaves over. -/
theorem step_account (h : step s a = some (t, es)) :
    (es.map fun e => (e.currentFramesToSubmit : K)).sum + t.framesToSubmit =
      s.framesToSubmit + (es.map fun e => (e.numFrames * e.finalConversionFactor : K)).sum := by
  cases a with
  | onAudioReady fifoBuffer numFrames =>
    obtain ⟨e, rfl, hframes, -, hfactor, -, hrest, -⟩ := step_onAudioReady h
    rw [List.map_singleton, List.map_singleton, List.sum_singleton, List.sum_singleton, hrest, hframes, hfactor]
    ring
  | setPlaybackSpeed newPlaybackSpeed | initializeStream baseConversionFactor =>
    obtain ⟨rfl, hrest⟩ := step_other (by nofun) h
    rw [hrest, List.map_nil, List.map_nil, List.sum_nil, zero_add, add_zero]

/-! ### The resampler's frames -/

/-- The resampler reads among the samples it is given, and writes as many as it is asked for. -/
def Inside (_ : State K) (_ : Action K) (_ : State K) (es : List (Callback K)) : Prop :=
  ∀ e ∈ es, (∀ i ∈ e.reads, 0 ≤ i ∧ i ≤ 2 * e.currentFramesToSubmit - 1) ∧ e.sink.length = 2 * e.numFrames

/-- With the fraction that is left over, there is at least half a frame to ask for. -/
def Asks (s : State K) (a : Action K) (_ : State K) (_ : List (Callback K)) : Prop :=
  match a with
  | .onAudioReady fifoBuffer numFrames =>
    numFrames = 0 ∨ 1 / (2 : Nat) ≤ s.framesToSubmit + numFrames * s.factor fifoBuffer numFrames
  | _ => True

instance (s t : State K) (a : Action K) (es : List (Callback K)) : Decidable (Inside s a t es) :=
  inferInstanceAs (Decidable (∀ e ∈ es, _ ∧ _))

end

section
variable {K : Type} [Field K] [LinearOrder K] [IsStrictOrderedRing K] [FloorRing K]
variable {s t : State K} {a : Action K} {es : List (Callback K)}

theorem inside_iff (h : step s a = some (t, es)) : Inside s a t es ↔ Asks s a t es := by
  cases a with
  | onAudioReady fifoBuffer numFrames =>
    obtain ⟨e, rfl, hframes, -, -, hcurrent, -, source, hreads, hsink⟩ := step_onAudioReady h
    have hlength : e.sink.length = 2 * e.numFrames := by
      rw [hsink, hframes, LinearResampler.length_sink_resample]
    rw [Inside, List.forall_mem_singleton, and_iff_left hlength, hreads, LinearResampler.reads_inside_iff, hcurrent,
      one_le_lround_iff, Asks, Nat.cast_ofNat]
  | setPlaybackSpeed newPlaybackSpeed | initializeStream baseConversionFactor =>
    obtain ⟨rfl, -⟩ := step_other (by nofun) h
    exact iff_of_true nofun trivial

/-- Along a run of callbacks, the resampler stays inside exactly if each of them asks for a frame. -/
theorem along_inside_iff (baseConversionFactor : K) (as : List (Action K)) :
    Along step Inside (start baseConversionFactor) as ↔ Along step Asks (start baseConversionFactor) as :=
  along_iff (I := fun _ => True) (G := Inside) (C := Asks) (fun _ h => inside_iff h) (fun _ _ _ => trivial) trivial as

/-- At speed 0 nothing is asked for, and the sample before the first is read. -/
theorem along_inside_iff_paused :
    Along step Inside (start (1 : ℚ)) [.setPlaybackSpeed 0, .onAudioReady (.empty 2) 1] ↔
      Along step Asks (start (1 : ℚ)) [.setPlaybackSpeed 0, .onAudioReady (.empty 2) 1] :=
  along_inside_iff 1 _

theorem not_inside_paused :
    ¬ Along step Inside (start (1 : ℚ)) [.setPlaybackSpeed 0, .onAudioReady (.empty 2) 1] := by
  decide +kernel

/-! ### The account of the fractions -/

theorem factor_mem (fifoBuffer : Fifo Int) (errorIntegral dt : K) :
    1 - (maxp + maxi) ≤ (computeDynamicBufferConversionFactor fifoBuffer errorIntegral dt).1 ∧
      (computeDynamicBufferConversionFactor fifoBuffer errorIntegral dt).1 ≤ 1 + (maxp + maxi) := by
  have hp := (clamp_mem (kp * errorMeasure fifoBuffer) (b := (maxp : K)) maxp_pos.le).2
  have hi := (clamp_mem (ki * (errorIntegral + errorMeasure fifoBuffer * dt)) (b := (maxi : K)) maxi_pos.le).2
  refine ⟨?_, factor_le fifoBuffer errorIntegral dt⟩
  simp only [computeDynamicBufferConversionFactor]
  linarith

theorem step_factor_mem (h : step s a = some (t, es)) :
    ∀ e ∈ es, 1 - (maxp + maxi) ≤ e.dynamicBufferFactor ∧ e.dynamicBufferFactor ≤ 1 + (maxp + maxi) := by
  cases a with
  | onAudioReady fifoBuffer numFrames =>
    obtain ⟨e, rfl, -, hfactor, -⟩ := step_onAudioReady h
    rw [List.forall_mem_singleton, hfactor]
    exact factor_mem ..
  | setPlaybackSpeed newPlaybackSpeed | initializeStream baseConversionFactor =>
    obtain ⟨rfl, -⟩ := step_other (by nofun) h
    nofun

theorem step_framesToSubmit (hs : |s.framesToSubmit| ≤ 1 / 2) (h : step s a = some (t, es)) :
    |t.framesToSubmit| ≤ 1 / 2 := by
  cases a with
  | onAudioReady fifoBuffer numFrames =>
    obtain ⟨e, -, -, -, -, hcurrent, hrest, -⟩ := step_onAudioReady h
    rw [hrest, hcurrent]
    exact abs_sub_lround _
  | setPlaybackSpeed newPlaybackSpeed | initializeStream baseConversionFactor =>
    rw [(step_other (by nofun) h).2]
    exact hs

/-- Over all callbacks, the total of what is asked for is never more than half a frame away from the total of what is
called for. -/
theorem rate_control (baseConversionFactor : K) (as : List (Action K)) :
    let r := run step (start baseConversionFactor) as
    ((∀ a ∈ as, a.HasRoom) → r.2.map Callback.numFrames = as.flatMap Action.frames) ∧
      (∀ e ∈ r.2, 1 - (maxp + maxi) ≤ e.dynamicBufferFactor ∧ e.dynamicBufferFactor ≤ 1 + (maxp + maxi)) ∧
      |r.1.framesToSubmit| ≤ 1 / 2 ∧
      |((r.2.map fun e => (e.currentFramesToSubmit : K)).sum) -
        (r.2.map fun e => (e.numFrames * e.finalConversionFactor : K)).sum| ≤ 1 / 2 := by
  intro r
  have hrest : |r.1.framesToSubmit| ≤ 1 / 2 :=
    run_inv (I := fun s : State K => |s.framesToSubmit| ≤ 1 / 2) step_framesToSubmit (by norm_num [start]) as
  have hsum : (r.2.map fun e => (e.currentFramesToSubmit : K)).sum + r.1.framesToSubmit =
      0 + (r.2.map fun e => (e.numFrames * e.finalConversionFactor : K)).sum :=
    run_balance (f := State.framesToSubmit) step_account (start baseConversionFactor) as
  refine ⟨map_run step_frames _, ?_, hrest, ?_⟩
  · exact forall_mem_run (I := fun _ => True) (fun _ h => ⟨trivial, step_factor_mem h⟩) trivial as
  · rw [zero_add] at hsum
    rw [← hsum, sub_add_cancel_left, abs_neg]
    exact hrest

/-- A pause, and a callback that is called for 3/4 of a frame. -/
theorem rate_control_three_quarters :
    let r := run step (start (3 / 4 : ℚ))
      [.setPlaybackSpeed 0, .onAudioReady (.empty 2) 1, .setPlaybackSpeed 1, .onAudioReady (.empty 2) 1]
    r.2.map Callback.numFrames = [1, 1] ∧
      (∀ e ∈ r.2, 1 - (maxp + maxi) ≤ e.dynamicBufferFactor ∧ e.dynamicBufferFactor ≤ 1 + (maxp + maxi)) ∧
      |r.1.framesToSubmit| ≤ 1 / 2 ∧
      |((r.2.map fun e => (e.currentFramesToSubmit : ℚ)).sum) -
        (r.2.map fun e => (e.numFrames * e.finalConversionFactor : ℚ)).sum| ≤ 1 / 2 := by
  obtain ⟨hframes, hrest⟩ := rate_control (3 / 4 : ℚ)
    [.setPlaybackSpeed 0, .onAudioReady (.empty 2) 1, .setPlaybackSpeed 1, .onAudioReady (.empty 2) 1]
  exact ⟨hframes (by simp [Action.HasRoom, Fifo.empty]), hrest⟩

end

end SweetHome.RateControl
