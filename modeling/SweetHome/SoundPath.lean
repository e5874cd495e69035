import SweetHome.FilterStream
import SweetHome.RateControl

/-!
# From the core to the device

The core's frames on their way through `Audio::write`, the FIFO, the controller and the resampler of `onAudioReady`
and the stream that adapts the size of the callbacks. The whole path is a queue of frames: whatever sizes the device
asks for, and whatever is written between two callbacks, the device is given what is heard of stretches that are taken
from that queue, one after the other, each interpolated to a block, at the pace of the rates and of the speeds that are
set (`sound_path`). In exact arithmetic.
-/

namespace SweetHome.SoundPath
open Audio (Frame Stereo interleave sourceFrames toInt32 toUInt32 truncate)
open TemporaryAudioBuffer (Settings asked maxp maxi most Fits computeDynamicBufferConversionFactor)
open FilterStream (DataCallback configure block blocksFor)

section
variable {K : Type} [Field K] [LinearOrder K]

/-- A call on the thread of the emulator. -/
inductive Call where
  | write (frames : List (Int16 × Int16))
  | setFrameSpeed (speed : Nat)
deriving DecidableEq, Repr

def toFrame (f : Int16 × Int16) : Frame := (f.1.toInt, f.2.toInt)

def Call.run (audio : TemporaryAudioBuffer.State K) : Call → TemporaryAudioBuffer.State K
  | write frames =>
    { audio with toState := audio.writeFifo (interleave (frames.map toFrame)) (toInt32 (frames.length * 2)) }
  | setFrameSpeed speed => { audio with playbackSpeed := speed }

/-- The application, with the calls that come before each of its next callbacks. -/
structure Session (K : Type) [Field K] [LinearOrder K] where
  audio : TemporaryAudioBuffer.State K
  calls : List (List Call)

variable [FloorRing K] (c : Settings K)

/-- `Audio::onAudioReady`: what it leaves in the buffer, and in its fields. -/
def play (numFrames : Nat) (audio : TemporaryAudioBuffer.State K) : List Int16 × TemporaryAudioBuffer.State K :=
  let (dynamicBufferFactor, errorIntegral) :=
    computeDynamicBufferConversionFactor audio.fifoBuffer audio.errorIntegral (numFrames / (1000 : Nat))
  let factor :=
    FpsSync.finalConversionFactor c.inputSampleRate audio.streamSampleRate dynamicBufferFactor audio.playbackSpeed
  let (currentFramesToSubmit, framesToSubmit) := FpsSync.onAudioReady factor audio.framesToSubmit numFrames
  let resampled : LinearResampler.State K := LinearResampler.resample
    (RateControl.temporaryAudioBuffer audio.fifoBuffer currentFramesToSubmit) currentFramesToSubmit numFrames
  (resampled.sink, { audio with
    fifoBuffer := audio.fifoBuffer.readNow (currentFramesToSubmit * 2).toNat
    framesToSubmit := framesToSubmit
    errorIntegral := errorIntegral })

def onAudioReady : DataCallback (Session K) := fun numFrames s =>
  let (data, audio) := play c numFrames ((s.calls.headD []).foldl Call.run s.audio)
  ((data, .continue), ⟨audio, s.calls.tail⟩)

/-! ### As a queue of frames -/

/-- What a call does to the queue; an `int32_t` counts the samples of a write. -/
def Call.actions : Call → List (Fifo.Action Frame)
  | write frames => [.write ((frames.map toFrame).take ((toInt32 (frames.length * 2)).toNat / 2))]
  | setFrameSpeed _ => []

def Call.written : Call → List Frame
  | write frames => frames.map toFrame
  | setFrameSpeed _ => []

def Call.speed (playbackSpeed : Nat) : Call → Nat
  | write _ => playbackSpeed
  | setFrameSpeed speed => speed

/-- The speed at a callback: the last that was set before it. -/
def speedAt (playbackSpeed : Nat) (calls : List (List Call)) (i : Nat) : Nat :=
  (calls.take (i + 1)).flatten.foldl Call.speed playbackSpeed

/-- The calls of the emulator, and what each callback takes. -/
def schedule : List (List Call) → List Nat → List (Fifo.Action Frame)
  | _, [] => []
  | calls, m :: ms => (calls.headD []).flatMap Call.actions ++ .readNow m :: schedule calls.tail ms

/-- The samples of a stretch of frames. -/
def sampleAt (stretch : List Frame) (i : Int) : Int16 := Int16.ofInt ((interleave stretch).getD i.toNat 0)

variable (K) in
/-- What a stretch of frames sounds like in so many frames. -/
def heard (numFrames : Nat) (stretch : List Frame) : List Int :=
  (List.range numFrames).flatMap fun k : Nat =>
    [truncate (LinearResampler.interpolate (sampleAt stretch) stretch.length 0
        (k * (stretch.length : Int) / numFrames : K)),
      truncate (LinearResampler.interpolate (sampleAt stretch) stretch.length 1
        (k * (stretch.length : Int) / numFrames : K))]

/-- What a callback takes when the controller makes it as slow as it can. -/
def least (speed : Nat) (streamSampleRate : ℕ+) : K :=
  c.framesPerCallback *
    FpsSync.finalConversionFactor (K := K) c.inputSampleRate streamSampleRate (1 - (maxp + maxi)) speed

/-- At the speeds that are set, a callback takes at least a frame, and no more than half the buffer. -/
structure Suits (streamSampleRate : ℕ+) (fastest : Nat) : Prop where
  framesPerCallback : 1 ≤ c.framesPerCallback
  one_le_fastest : 1 ≤ fastest
  least : 1 ≤ least c 1 streamSampleRate
  most : most c fastest streamSampleRate ≤ (c.audioBufferSize / (2 : Nat) : K)

def Call.Within (fastest : Nat) : Call → Prop
  | write _ => True
  | setFrameSpeed speed => 1 ≤ speed ∧ speed ≤ fastest

end

section
variable {K : Type} [Field K] [LinearOrder K] [IsStrictOrderedRing K] [FloorRing K]
variable {c : Settings K} {streamSampleRate : ℕ+} {fastest : Nat} {audio : TemporaryAudioBuffer.State K}
  {p : Fifo Frame}

/-! ### A callback -/

/-- A callback takes more when the controller or the speed asks for more. -/
theorem Suits.mono (hc : Suits c streamSampleRate fastest) {factor factor' : K} {speed speed' : Nat}
    (hnonneg : 0 ≤ factor) (hfactor : factor ≤ factor') (hspeed : speed ≤ speed') :
    c.framesPerCallback * FpsSync.finalConversionFactor c.inputSampleRate streamSampleRate factor speed ≤
      c.framesPerCallback * FpsSync.finalConversionFactor c.inputSampleRate streamSampleRate factor' speed' := by
  have hrate : (0 : K) ≤ c.inputSampleRate := by
    exact_mod_cast (TemporaryAudioBuffer.inputSampleRate_pos c hc.framesPerCallback).le
  have hframes : (0 : K) ≤ c.framesPerCallback := by exact_mod_cast hc.framesPerCallback.trans' (by decide)
  have hspeed : (speed : K) ≤ speed' := by exact_mod_cast hspeed
  have hfactor' : 0 ≤ factor' := hnonneg.trans hfactor
  rw [FpsSync.finalConversionFactor, FpsSync.finalConversionFactor]
  gcongr

theorem fits (hc : Suits c streamSampleRate fastest) {speed : Nat} (hspeed : speed ≤ fastest) :
    Fits c speed streamSampleRate := fun _ =>
  (hc.mono (by norm_num [maxp, maxi]) le_rfl hspeed).trans hc.most

theorem one_le_least (hc : Suits c streamSampleRate fastest) {speed : Nat} (hspeed : 1 ≤ speed) :
    1 ≤ least c speed streamSampleRate :=
  hc.least.trans (hc.mono (by norm_num [maxp, maxi]) le_rfl hspeed)

/-- The application and the queue that stands for it. -/
structure Simulates (c : Settings K) (streamSampleRate : ℕ+) (fastest : Nat) (audio : TemporaryAudioBuffer.State K)
    (p : Fifo Frame) : Prop where
  stereo : Stereo audio.fifoBuffer p
  inv : TemporaryAudioBuffer.Inv audio
  rate : audio.streamSampleRate = streamSampleRate
  speed : 1 ≤ audio.playbackSpeed ∧ audio.playbackSpeed ≤ fastest

omit [IsStrictOrderedRing K] in
theorem Simulates.call (h : Simulates c streamSampleRate fastest audio p) {call : Call} (hcall : call.Within fastest) :
    ∃ p', Step.Leads Fifo.step p call.actions p' [] ∧ Simulates c streamSampleRate fastest (call.run audio) p' ∧
      (call.run audio).framesToSubmit = audio.framesToSubmit := by
  cases call with
  | write frames =>
    obtain ⟨k, hk⟩ := Audio.toNat_toInt32 frames.length
    have hwrite : Fifo.step p (.write ((frames.map toFrame).take k)) =
        some (p.write ((frames.map toFrame).take k), []) := rfl
    refine ⟨p.write ((frames.map toFrame).take k), ?_, ⟨?_, ⟨h.inv.lower, h.inv.upper⟩, h.rate, h.speed⟩, rfl⟩
    · rw [Call.actions, hk, Nat.mul_div_cancel_left k two_pos]
      exact (Step.leads_nil _).cons hwrite
    · change Stereo (audio.fifoBuffer.write ((interleave (frames.map toFrame)).take _)) _
      rw [hk, Audio.take_interleave]
      exact h.stereo.write _
  | setFrameSpeed speed =>
    exact ⟨p, Step.leads_nil p, ⟨h.stereo, ⟨h.inv.lower, h.inv.upper⟩, h.rate, hcall⟩, rfl⟩

omit [LinearOrder K] [IsStrictOrderedRing K] [FloorRing K] in
theorem playbackSpeed_calls (audio : TemporaryAudioBuffer.State K) (calls : List Call) :
    (calls.foldl Call.run audio).playbackSpeed = calls.foldl Call.speed audio.playbackSpeed := by
  induction calls generalizing audio with
  | nil => rfl
  | cons call calls ih =>
    have hcall : (call.run audio).playbackSpeed = call.speed audio.playbackSpeed := by cases call <;> rfl
    rw [List.foldl_cons, List.foldl_cons, ih, hcall]

omit [IsStrictOrderedRing K] in
theorem Simulates.calls (h : Simulates c streamSampleRate fastest audio p) {calls : List Call}
    (hcalls : ∀ call ∈ calls, call.Within fastest) :
    ∃ p', Step.Leads Fifo.step p (calls.flatMap Call.actions) p' [] ∧
      Simulates c streamSampleRate fastest (calls.foldl Call.run audio) p' ∧
      (calls.foldl Call.run audio).framesToSubmit = audio.framesToSubmit := by
  induction calls generalizing audio p with
  | nil => exact ⟨p, Step.leads_nil p, h, rfl⟩
  | cons call calls ih =>
    obtain ⟨p₁, hfirst, h₁, hframes₁⟩ := h.call (hcalls call (List.mem_cons_self ..))
    obtain ⟨p₂, hrest, h₂, hframes₂⟩ := ih h₁ fun other hother => hcalls other (List.mem_cons_of_mem _ hother)
    exact ⟨p₂, hfirst.append hrest, h₂, hframes₂.trans hframes₁⟩

theorem asked_bounds (hc : Suits c streamSampleRate fastest) (h : Simulates c streamSampleRate fastest audio p) :
    least c audio.playbackSpeed streamSampleRate ≤ asked c audio c.framesPerCallback.toNat ∧
      asked c audio c.framesPerCallback.toNat ≤ most c audio.playbackSpeed streamSampleRate := by
  have hframes : ((c.framesPerCallback.toNat : Nat) : K) = c.framesPerCallback := by
    have hnonneg : (c.framesPerCallback.toNat : Int) = c.framesPerCallback :=
      Int.toNat_of_nonneg (hc.framesPerCallback.trans' (by decide))
    exact_mod_cast congrArg (Int.cast (R := K)) hnonneg
  obtain ⟨hlow, hhigh⟩ := RateControl.factor_mem audio.fifoBuffer audio.errorIntegral
    ((c.framesPerCallback.toNat : K) / (1000 : Nat))
  rw [asked, TemporaryAudioBuffer.State.controlled, h.rate, hframes]
  rw [hframes] at hlow hhigh
  have hslow : (0 : K) ≤ 1 - (maxp + maxi) := by norm_num [maxp, maxi]
  exact ⟨hc.mono hslow hlow le_rfl, hc.mono (hslow.trans hlow) hhigh le_rfl⟩

/-- What a callback takes is rounded to at least a frame and to no more than there is room for, and what it leaves over
is less than a frame. -/
theorem Simulates.stretch (hc : Suits c streamSampleRate fastest) (h : Simulates c streamSampleRate fastest audio p) :
    ∃ m : Nat, lround (audio.framesToSubmit + asked c audio c.framesPerCallback.toNat) = m ∧ 1 ≤ m ∧
      2 * (m : Int) ≤ c.audioBufferSize ∧
      TemporaryAudioBuffer.Inv (SoundPath.play c c.framesPerCallback.toNat audio).2 := by
  obtain ⟨hleast, -⟩ := asked_bounds hc h
  have hcallback := hc.framesPerCallback
  generalize hn : c.framesPerCallback.toNat = n at hleast
  have hrange : 1 ≤ n ∧ n ≤ c.framesPerCallback := by omega
  have hasks : 1 / 2 ≤ audio.framesToSubmit + asked c audio n := by
    have hlower := h.inv.lower
    have hone := one_le_least hc h.speed.1
    linarith
  have hround := (one_le_lround_iff _).2 hasks
  obtain ⟨m, hm⟩ := Int.eq_ofNat_of_zero_le (hround.trans' (by decide))
  have hstep : TemporaryAudioBuffer.step c audio (.onAudioReady n) =
      some ((SoundPath.play c n audio).2, [lround (audio.framesToSubmit + asked c audio n) * 2]) :=
    TemporaryAudioBuffer.step_onAudioReady c audio n hrange
  have hback : TemporaryAudioBuffer.NeverBack audio (.onAudioReady n) (SoundPath.play c n audio).2
      [lround (audio.framesToSubmit + asked c audio n) * 2] := by
    rintro ⟨hzero, -⟩
    have hspeed := h.speed.1
    omega
  have hfits : ∀ q ∈ ({(audio.playbackSpeed, audio.streamSampleRate)} : Set (Nat × ℕ+)), Fits c q.1 q.2 := by
    rintro q rfl
    rw [h.rate]
    exact fits hc h.speed.2
  have hlaw := (TemporaryAudioBuffer.law_iff c hfits h.inv hstep rfl).2 hback
  have hroom := (hlaw _ (List.mem_singleton_self _)).2
  rw [hm] at hround hroom
  exact ⟨m, hm, by omega, by omega, TemporaryAudioBuffer.inv_step c h.inv hstep hback⟩

/-- A callback takes a stretch of the queue, and leaves what is heard of it. -/
theorem Simulates.play (hc : Suits c streamSampleRate fastest) (h : Simulates c streamSampleRate fastest audio p) :
    ∃ m : Nat, (1 ≤ m ∧ 2 * (m : Int) ≤ c.audioBufferSize) ∧
      Simulates c streamSampleRate fastest (play c c.framesPerCallback.toNat audio).2 (p.readNow m) ∧
      (play c c.framesPerCallback.toNat audio).1.map Int16.toInt =
        heard K c.framesPerCallback.toNat (p.buffer (0, 0) m) ∧
      (m : K) + (play c c.framesPerCallback.toNat audio).2.framesToSubmit =
        audio.framesToSubmit + asked c audio c.framesPerCallback.toNat := by
  obtain ⟨m, hm, hone, hroom, hinv⟩ := h.stretch hc
  generalize c.framesPerCallback.toNat = n at hm hinv
  have hdata : (SoundPath.play c n audio).1 = (LinearResampler.resample
      (RateControl.temporaryAudioBuffer audio.fifoBuffer m) m n : LinearResampler.State K).sink := by
    rw [← hm]
    rfl
  have hfifo : (SoundPath.play c n audio).2.fifoBuffer = audio.fifoBuffer.readNow ((m : Int) * 2).toNat := by
    rw [← hm]
    rfl
  have hrest : (SoundPath.play c n audio).2.framesToSubmit =
      audio.framesToSubmit + asked c audio n - lround (audio.framesToSubmit + asked c audio n) := rfl
  have htwice : ((m : Int) * 2).toNat = 2 * m := by omega
  refine ⟨m, ⟨hone, hroom⟩, ⟨?_, hinv, h.rate, h.speed⟩, ?_, ?_⟩
  · rw [hfifo, htwice]
    exact h.stereo.readNow m
  · have hsource : RateControl.temporaryAudioBuffer audio.fifoBuffer m = sampleAt (p.buffer (0, 0) m) := by
      funext i
      rw [RateControl.temporaryAudioBuffer, htwice, h.stereo.buffer, sampleAt]
    rw [hdata, hsource, LinearResampler.toInt_sink_resample (Int.natCast_nonneg m), heard, p.length_buffer]
  · rw [hrest, hm]
    push_cast
    ring

/-! ### All callbacks -/

/-- Callbacks that took these stretches kept, up to half a frame at every one of them, the pace that the speeds, the
rates and the controller allow. -/
structure Paced (c : Settings K) (streamSampleRate : ℕ+) (playbackSpeed : Nat) (calls : List (List Call))
    (ms : List Nat) (before : K) : Prop where
  inside : ∀ m ∈ ms, 1 ≤ m ∧ 2 * (m : Int) ≤ c.audioBufferSize
  lower : ∀ k ≤ ms.length,
    ∑ i ∈ Finset.range k, least c (speedAt playbackSpeed calls i) streamSampleRate + before - 1 / 2 ≤ (ms.take k).sum
  upper : ∀ k ≤ ms.length,
    (ms.take k).sum ≤ ∑ i ∈ Finset.range k, most c (speedAt playbackSpeed calls i) streamSampleRate + before + 1 / 2

theorem speedAt_zero (playbackSpeed : Nat) (calls : List (List Call)) :
    speedAt playbackSpeed calls 0 = (calls.headD []).foldl Call.speed playbackSpeed := by
  cases calls with
  | nil => rfl
  | cons batch calls => simp [speedAt]

theorem speedAt_succ (playbackSpeed : Nat) (calls : List (List Call)) (i : Nat) :
    speedAt playbackSpeed calls (i + 1) = speedAt (speedAt playbackSpeed calls 0) calls.tail i := by
  rw [speedAt_zero]
  cases calls with
  | nil => rfl
  | cons batch calls =>
    rw [speedAt, List.take_succ_cons, List.flatten_cons, List.foldl_append]
    rfl

theorem Paced.cons {speed m : Nat} {calls : List (List Call)} {ms : List Nat} {f₀ f₁ asked : K}
    (hm : 1 ≤ m ∧ 2 * (m : Int) ≤ c.audioBufferSize) (hbefore : -(1 / 2) ≤ f₀ ∧ f₀ ≤ 1 / 2)
    (hasked : least c (speedAt speed calls 0) streamSampleRate ≤ asked ∧
      asked ≤ most c (speedAt speed calls 0) streamSampleRate)
    (hfirst : m + f₁ = f₀ + asked) (h : Paced c streamSampleRate (speedAt speed calls 0) calls.tail ms f₁) :
    Paced c streamSampleRate speed calls (m :: ms) f₀ where
  inside := List.forall_mem_cons.2 ⟨hm, h.inside⟩
  lower k hk := by
    cases k with
    | zero => simpa using hbefore.2
    | succ k =>
      have hlower := h.lower k (Nat.le_of_succ_le_succ hk)
      rw [Finset.sum_range_succ', List.take_succ_cons, List.sum_cons, Nat.cast_add]
      simp only [speedAt_succ]
      linarith [hasked.1]
  upper k hk := by
    cases k with
    | zero =>
      rw [Finset.range_zero, Finset.sum_empty, List.take_zero, List.sum_nil, Nat.cast_zero]
      linarith [hbefore.1]
    | succ k =>
      have hupper := h.upper k (Nat.le_of_succ_le_succ hk)
      rw [Finset.sum_range_succ', List.take_succ_cons, List.sum_cons, Nat.cast_add]
      simp only [speedAt_succ]
      linarith [hasked.2]

theorem paced_nil (calls : List (List Call)) {speed : Nat} {before : K}
    (hbefore : -(1 / 2) ≤ before ∧ before ≤ 1 / 2) : Paced c streamSampleRate speed calls [] before where
  inside := by simp
  lower k hk := by
    obtain rfl : k = 0 := Nat.le_zero.1 hk
    simpa using hbefore.2
  upper k hk := by
    obtain rfl : k = 0 := Nat.le_zero.1 hk
    rw [Finset.range_zero, Finset.sum_empty, List.take_zero, List.sum_nil, Nat.cast_zero]
    linarith [hbefore.1]

theorem Simulates.blocks (hc : Suits c streamSampleRate fastest) (n : Nat) {calls : List (List Call)}
    (h : Simulates c streamSampleRate fastest audio p) (hcalls : ∀ batch ∈ calls, ∀ call ∈ batch, call.Within fastest) :
    let made := Pull.blocks (block c.framesPerCallback.toNat (onAudioReady c)) n ⟨audio, calls⟩
    ∃ ms takes p', ms.length = n ∧ Step.Leads Fifo.step p (schedule calls ms) p' takes ∧
      made.1.map Int16.toInt = takes.flatMap (fun e => heard K c.framesPerCallback.toNat (e.buffer (0, 0))) ∧
      Simulates c streamSampleRate fastest made.2.audio p' ∧
      Paced c streamSampleRate audio.playbackSpeed calls ms audio.framesToSubmit := by
  induction n generalizing audio p calls with
  | zero =>
    exact ⟨[], [], p, rfl, Step.leads_nil p, rfl, h, paced_nil calls ⟨h.inv.lower, h.inv.upper.le⟩⟩
  | succ n ih =>
    have hbatch : ∀ call ∈ calls.headD [], call.Within fastest := by
      cases calls with
      | nil => exact fun call hcall => absurd hcall List.not_mem_nil
      | cons batch calls => exact hcalls batch (List.mem_cons_self ..)
    obtain ⟨p₁, hwritten, h₁, hframes⟩ := h.calls hbatch
    obtain ⟨m, hm, h₂, hdata, hrest⟩ := h₁.play hc
    obtain ⟨ms, takes, p', hms, hleads, hblocks, h', hpaced⟩ :=
      ih h₂ fun batch hmem => hcalls batch (List.mem_of_mem_tail hmem)
    have htake : Fifo.step p₁ (.readNow m) = some (p₁.readNow m, [⟨p₁.taken m, m - (p₁.taken m).length⟩]) := rfl
    have hspeed : ((calls.headD []).foldl Call.run audio).playbackSpeed = speedAt audio.playbackSpeed calls 0 := by
      rw [playbackSpeed_calls, speedAt_zero]
    have hbounds := asked_bounds hc h₁
    rw [hspeed] at hbounds
    have hpaced' : Paced c streamSampleRate (speedAt audio.playbackSpeed calls 0) calls.tail ms _ := hspeed ▸ hpaced
    refine ⟨m :: ms, _, p', by rw [List.length_cons, hms], hwritten.append (hleads.cons htake), ?_, h',
      hpaced'.cons hm ⟨h.inv.lower, h.inv.upper.le⟩ hbounds (hframes ▸ hrest)⟩
    rw [Pull.blocks, List.map_append, List.nil_append, List.flatMap_append, List.flatMap_singleton, ← hblocks]
    exact congrArg (· ++ _) hdata

theorem simulates_start (hc : Suits c streamSampleRate fastest) :
    Simulates c streamSampleRate fastest (TemporaryAudioBuffer.start c streamSampleRate)
      (.empty (toUInt32 c.audioBufferSize / 2)) where
  stereo := by
    have heven : Even (toUInt32 c.audioBufferSize) := Audio.even_toUInt32_roundToEven _
    have hstereo := Audio.stereo_empty (toUInt32 c.audioBufferSize / 2)
    rwa [Nat.two_mul_div_two_of_even heven] at hstereo
  inv := TemporaryAudioBuffer.inv_start c streamSampleRate
  rate := rfl
  speed := ⟨Nat.le_refl 1, hc.one_le_fastest⟩

theorem written_actions (calls : List Call) :
    ((calls.flatMap Call.actions).flatMap Fifo.Action.written).Sublist (calls.flatMap Call.written) := by
  induction calls with
  | nil => exact List.Sublist.refl _
  | cons call calls ih =>
    rw [List.flatMap_cons, List.flatMap_append, List.flatMap_cons]
    refine List.Sublist.append ?_ ih
    cases call with
    | write frames =>
      rw [Call.actions, List.flatMap_singleton]
      exact List.take_sublist _ _
    | setFrameSpeed speed => exact List.Sublist.refl _

theorem written_schedule (calls : List (List Call)) (ms : List Nat) :
    ((schedule calls ms).flatMap Fifo.Action.written).Sublist
      ((calls.take ms.length).flatten.flatMap Call.written) := by
  induction ms generalizing calls with
  | nil => exact List.nil_sublist _
  | cons m ms ih =>
    have hrest := ih calls.tail
    rw [schedule, List.flatMap_append, List.flatMap_cons, Fifo.Action.written, List.nil_append]
    cases calls with
    | nil => simpa using hrest
    | cons batch calls =>
      rw [List.length_cons, List.take_succ_cons, List.flatten_cons, List.flatMap_append]
      exact (written_actions batch).append hrest

omit [IsStrictOrderedRing K] in
theorem plays (c : Settings K) :
    FilterStream.Plays 2 c.framesPerCallback.toNat (onAudioReady c) where
  fills s := by
    rw [Nat.mul_comm]
    exact LinearResampler.length_sink_resample _
  continues _ := rfl

/-- The device is given, whatever sizes it asks for, what is heard of stretches that are taken one after the other
from a queue of the frames written. A stretch never reaches outside of the temporary buffer, and together they keep the
pace of the rates and of the speeds that were set. -/
theorem sound_path (hc : Suits c streamSampleRate fastest) (calls : List (List Call))
    (hcalls : ∀ batch ∈ calls, ∀ call ∈ batch, call.Within fastest) (requests : List Nat) :
    ∃ t es ms, Step.Leads (FilterStream.step 2 (onAudioReady c))
        (configure 2 c.framesPerCallback.toNat ⟨TemporaryAudioBuffer.start c streamSampleRate, calls⟩) requests t es ∧
      es.map List.length = requests.map (· * 2) ∧
      let queue := Step.run Fifo.step (.empty (toUInt32 c.audioBufferSize / 2)) (schedule calls ms)
      es.flatten.map Int16.toInt =
        (queue.2.flatMap fun e => heard K c.framesPerCallback.toNat (e.buffer (0, 0))).take (requests.sum * 2) ∧
      ms.length = (requests.sum + (c.framesPerCallback.toNat - 1)) / c.framesPerCallback.toNat ∧
      Paced c streamSampleRate 1 calls ms 0 ∧
      Stereo t.mFlowGraph.app.audio.fifoBuffer queue.1 ∧
      (queue.2.flatMap Fifo.Taken.items ++ queue.1.items).Sublist
        ((calls.take ms.length).flatten.flatMap Call.written) := by
  have hcallback := hc.framesPerCallback
  have hframes : 0 < c.framesPerCallback.toNat := by omega
  obtain ⟨n, bytes, t, es, hleads, hflatten, hlengths, hpulls⟩ := FilterStream.leads_requests two_pos hframes (plays c)
    rfl (FilterStream.inv_configure two_pos hframes ⟨TemporaryAudioBuffer.start c streamSampleRate, calls⟩) requests
  obtain ⟨hsamples, happ⟩ := hpulls.configured two_pos (plays c)
  obtain ⟨ms, takes, p', hms, hqueue, hblocks, hend, hpaced⟩ := (simulates_start hc).blocks hc
    ((requests.sum + (c.framesPerCallback.toNat - 1)) / c.framesPerCallback.toNat) hcalls
  refine ⟨t, es, ms, hleads, hlengths, ?_⟩
  intro queue
  have hrun : queue = (p', takes) := hqueue.run
  refine ⟨?_, hms, hpaced, ?_, ?_⟩
  · rw [hflatten, hsamples, List.map_take, hrun, ← hblocks]
    rfl
  · rw [happ, hrun]
    exact hend.stereo
  · exact (Fifo.run_sublist _ _).trans (written_schedule calls ms)

/-- One frame, and a second block at twice the speed. -/
theorem sound_path_twice :
    ∃ t es ms, Step.Leads (FilterStream.step 2 (onAudioReady TemporaryAudioBuffer.equalRates))
        (configure 2 TemporaryAudioBuffer.equalRates.framesPerCallback.toNat
          ⟨TemporaryAudioBuffer.start TemporaryAudioBuffer.equalRates 50000,
            [[.write [(1, 2)]], [.setFrameSpeed 2]]⟩) [100, 300] t es ∧
      es.map List.length = [100, 300].map (· * 2) ∧
      let queue := Step.run Fifo.step (.empty (toUInt32 TemporaryAudioBuffer.equalRates.audioBufferSize / 2))
        (schedule [[.write [(1, 2)]], [.setFrameSpeed 2]] ms)
      es.flatten.map Int16.toInt = (queue.2.flatMap fun e =>
        heard ℚ TemporaryAudioBuffer.equalRates.framesPerCallback.toNat (e.buffer (0, 0))).take
          ([100, 300].sum * 2) ∧
      ms.length = ([100, 300].sum + (TemporaryAudioBuffer.equalRates.framesPerCallback.toNat - 1)) /
        TemporaryAudioBuffer.equalRates.framesPerCallback.toNat ∧
      Paced TemporaryAudioBuffer.equalRates 50000 1 [[.write [(1, 2)]], [.setFrameSpeed 2]] ms 0 ∧
      Stereo t.mFlowGraph.app.audio.fifoBuffer queue.1 ∧
      (queue.2.flatMap Fifo.Taken.items ++ queue.1.items).Sublist
        (([[.write [(1, 2)]], [.setFrameSpeed 2]].take ms.length).flatten.flatMap Call.written) := by
  have hsize : TemporaryAudioBuffer.equalRates.audioBufferSize = 3200 := by decide +kernel
  have hcallback : TemporaryAudioBuffer.equalRates.framesPerCallback = 320 := by
    rw [Settings.framesPerCallback, hsize]
    decide
  have hrate : TemporaryAudioBuffer.equalRates.inputSampleRate = 50000 := rfl
  have hstream : ((50000 : ℕ+) : Nat) = 50000 := rfl
  have hsuits : Suits TemporaryAudioBuffer.equalRates 50000 2 := by
    refine ⟨by rw [hcallback]; decide, by decide, ?_, ?_⟩
    · rw [least, hcallback, FpsSync.finalConversionFactor, hrate, hstream]
      norm_num [maxp, maxi]
    · rw [most, hcallback, hsize, FpsSync.finalConversionFactor, hrate, hstream]
      norm_num [maxp, maxi]
  exact sound_path hsuits [[.write [(1, 2)]], [.setFrameSpeed 2]] (by simp [Call.Within]) [100, 300]

end

end SweetHome.SoundPath
