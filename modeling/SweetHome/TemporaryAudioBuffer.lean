import SweetHome.FpsSync
import Mathlib.Algebra.Order.Archimedean.Basic
import Mathlib.Data.PNat.Defs

/-!
# The temporary buffer of `onAudioReady`

`Audio` sizes its buffers by the input sample rate and the latency alone, while a callback takes from the FIFO
in proportion to the sample rate of the stream and to the playback speed as well. What it reads fits the
temporary buffer exactly as long as the fastest conversion of the largest callback takes no more than
half of it (`fits_iff`). In exact arithmetic over an ordered field.
-/

namespace SweetHome.TemporaryAudioBuffer
open Step Audio FpsSync

section
variable (K : Type) [Field K] [LinearOrder K] [FloorRing K]

/-- What the constructor of `Audio` is given. -/
structure Settings where
  audioLatencySettings : AudioLatencySettings
  inputSampleRate : Int
  contentRefreshRate : K
  /-- The size of the buffers is an `int32_t`. -/
  size_lt : computeAudioBufferSize audioLatencySettings inputSampleRate contentRefreshRate < 2 ^ 31

/-- The rest of `Audio`. -/
structure State extends Audio.State where
  /-- Of the stream that is open. -/
  streamSampleRate : ℕ+
  playbackSpeed : Nat := 1
  framesToSubmit : K := 0
  errorIntegral : K := 0

end

inductive Action where
  | write (frames : List Frame)
  | setFrameSpeed (speed : Nat)
  | onAudioReady (numFrames : Nat)
  /-- The stream is disconnected, and another is opened. -/
  | onErrorAfterClose (streamSampleRate : ℕ+)

section
variable {K : Type} [Field K] [LinearOrder K] [FloorRing K]

def Settings.audioBufferSize (c : Settings K) : Int :=
  computeAudioBufferSize c.audioLatencySettings c.inputSampleRate c.contentRefreshRate

/-- The callback size that the constructor asks for. -/
def Settings.framesPerCallback (c : Settings K) : Int := c.audioBufferSize.tdiv 10

/-! ### The controller -/

def kp : K := (6 : Nat) / (1000 : Nat)
def ki : K := (2 : Nat) / (100000 : Nat)
def maxp : K := (3 : Nat) / (1000 : Nat)
def maxi : K := (2 : Nat) / (100 : Nat)

/-- `std::clamp` -/
def clamp (x lo hi : K) : K := max lo (min x hi)

def errorMeasure (fifoBuffer : Fifo Int) : K :=
  (fifoBuffer.capacity - (2 : Nat) * fifoBuffer.items.length) / fifoBuffer.capacity

/-- The factor, and the integral that is kept. -/
def computeDynamicBufferConversionFactor (fifoBuffer : Fifo Int) (errorIntegral dt : K) : K × K :=
  let errorMeasure := errorMeasure fifoBuffer
  let errorIntegral := errorIntegral + errorMeasure * dt
  let proportionalAdjustment := clamp (kp * errorMeasure) (-maxp) maxp
  let integralAdjustment := clamp (ki * errorIntegral) (-maxi) maxi
  (1 - (proportionalAdjustment + integralAdjustment), errorIntegral)

/-! ### Steps -/

variable (c : Settings K)

def start (streamSampleRate : ℕ+) : State K where
  toState := initializeStream c.audioBufferSize
  streamSampleRate := streamSampleRate

/-- A callback shows the number of samples that it reads into the temporary buffer. -/
def step : Step (State K) Action Int
  | s, .write frames =>
    some ({ s with toState := s.writeFifo (interleave frames) (toInt32 (frames.length * 2)) }, [])
  | s, .setFrameSpeed speed => some ({ s with playbackSpeed := speed }, [])
  | s, .onAudioReady numFrames =>
    if 1 ≤ numFrames ∧ numFrames ≤ c.framesPerCallback then
      let (dynamicBufferFactor, errorIntegral) :=
        computeDynamicBufferConversionFactor s.fifoBuffer s.errorIntegral (numFrames / (1000 : Nat))
      let factor :=
        finalConversionFactor c.inputSampleRate s.streamSampleRate dynamicBufferFactor s.playbackSpeed
      let (currentFramesToSubmit, framesToSubmit) := onAudioReady factor s.framesToSubmit numFrames
      some ({ s with
        fifoBuffer := s.fifoBuffer.readNow (currentFramesToSubmit * 2).toNat
        framesToSubmit := framesToSubmit
        errorIntegral := errorIntegral }, [currentFramesToSubmit * 2])
    else none
  | s, .onErrorAfterClose streamSampleRate =>
    some ({ s with toState := initializeStream c.audioBufferSize, streamSampleRate := streamSampleRate }, [])

/-! ### The law, and when it holds -/

/-- What is read is between 0 and the length of the temporary buffer. -/
def Law (_ : State K) (_ : Action) (_ : State K) (es : List Int) : Prop :=
  ∀ e ∈ es, 0 ≤ e ∧ e ≤ c.audioBufferSize

instance (s t : State K) (a : Action) (es : List Int) : Decidable (Law c s a t es) :=
  inferInstanceAs (Decidable (∀ e ∈ es, _ ∧ _))

/-- The calls come at these speeds and sample rates of the stream. -/
def CallsAt (p : Set (Nat × ℕ+)) (s : State K) (a : Action) (_ : State K) (_ : List Int) : Prop :=
  match a with
  | .onAudioReady _ => (s.playbackSpeed, s.streamSampleRate) ∈ p
  | _ => True

/-- What the largest callback takes when the controller makes it as fast as it can. -/
def most (speed : Nat) (streamSampleRate : ℕ+) : K :=
  c.framesPerCallback *
    finalConversionFactor (K := K) c.inputSampleRate streamSampleRate (1 + (maxp + maxi)) speed

/-- It is no more than half the buffer. -/
def Fits (speed : Nat) (streamSampleRate : ℕ+) : Prop :=
  1 ≤ c.framesPerCallback → most c speed streamSampleRate ≤ (c.audioBufferSize / (2 : Nat) : K)

/-- No call at speed 0 finds exactly the fraction that rounds to -1. -/
def NeverBack (s : State K) (a : Action) (_ : State K) (_ : List Int) : Prop :=
  match a with
  | .onAudioReady _ => ¬ (s.playbackSpeed = 0 ∧ s.framesToSubmit = -(1 / (2 : Nat)))
  | _ => True

theorem tdiv_nonpos {x : Int} (hx : x ≤ 0) {n : Int} (hn : 0 ≤ n) : x.tdiv n ≤ 0 := by
  have hneg : 0 ≤ (-x).tdiv n := Int.tdiv_nonneg (by omega) hn
  rw [Int.neg_tdiv] at hneg
  omega

theorem audioBufferSize_pos (h : 1 ≤ c.framesPerCallback) : 0 < c.audioBufferSize := by
  by_contra hneg
  have hcallback : c.framesPerCallback ≤ 0 := tdiv_nonpos (not_lt.1 hneg) (by omega)
  omega

theorem coe_toUInt32 (h : 1 ≤ c.framesPerCallback) : (toUInt32 c.audioBufferSize : Int) = c.audioBufferSize := by
  have hpos := audioBufferSize_pos c h
  have hlt : c.audioBufferSize < 2 ^ 31 := c.size_lt
  unfold toUInt32
  omega

theorem exists_half : ∃ m : Int, c.audioBufferSize = m * 2 := ⟨_, rfl⟩

/-! ### A callback -/

variable (s : State K) (numFrames : Nat)

def State.controlled : K × K :=
  computeDynamicBufferConversionFactor s.fifoBuffer s.errorIntegral (numFrames / (1000 : Nat))

/-- What a callback takes, before it is rounded, besides the fraction that is left of the last. -/
def asked : K :=
  numFrames * finalConversionFactor c.inputSampleRate s.streamSampleRate (s.controlled numFrames).1 s.playbackSpeed

theorem step_onAudioReady (h : 1 ≤ numFrames ∧ numFrames ≤ c.framesPerCallback) :
    step c s (.onAudioReady numFrames) =
      some ({ s with
        fifoBuffer := s.fifoBuffer.readNow (lround (s.framesToSubmit + asked c s numFrames) * 2).toNat
        framesToSubmit := s.framesToSubmit + asked c s numFrames -
          lround (s.framesToSubmit + asked c s numFrames)
        errorIntegral := (s.controlled numFrames).2 },
        [lround (s.framesToSubmit + asked c s numFrames) * 2]) :=
  if_pos h

theorem asked_of_speed_zero (hspeed : s.playbackSpeed = 0) : asked c s numFrames = 0 := by
  simp [asked, finalConversionFactor, hspeed]

end

section
variable {K : Type} [Field K] [LinearOrder K] [IsStrictOrderedRing K] [FloorRing K]

/-! ### Bounds -/

theorem clamp_mem (x : K) {b : K} (hb : 0 ≤ b) : -b ≤ clamp x (-b) b ∧ clamp x (-b) b ≤ b :=
  ⟨le_max_left _ _, max_le (by linarith) (min_le_right _ _)⟩

theorem clamp_of_le {x b : K} (hb : 0 ≤ b) (hx : x ≤ -b) : clamp x (-b) b = -b := by
  rw [clamp, min_eq_left (by linarith), max_eq_left hx]

theorem maxp_pos : (0 : K) < maxp := by norm_num [maxp]

theorem maxi_pos : (0 : K) < maxi := by norm_num [maxi]

theorem factor_le (q : Fifo Int) (errorIntegral dt : K) :
    (computeDynamicBufferConversionFactor q errorIntegral dt).1 ≤ 1 + (maxp + maxi) := by
  have hp := (clamp_mem (kp * errorMeasure q) (b := (maxp : K)) maxp_pos.le).1
  have hi := (clamp_mem (ki * (errorIntegral + errorMeasure q * dt)) (b := (maxi : K)) maxi_pos.le).1
  simp only [computeDynamicBufferConversionFactor]
  linarith

theorem factor_pos (q : Fifo Int) (errorIntegral dt : K) :
    0 < (computeDynamicBufferConversionFactor q errorIntegral dt).1 := by
  have hp := (clamp_mem (kp * errorMeasure q) (b := (maxp : K)) maxp_pos.le).2
  have hi := (clamp_mem (ki * (errorIntegral + errorMeasure q * dt)) (b := (maxi : K)) maxi_pos.le).2
  have hsum : (maxp + maxi : K) < 1 := by norm_num [maxp, maxi]
  simp only [computeDynamicBufferConversionFactor]
  linarith

variable (c : Settings K)

theorem computeMaximumLatency_pos (l : AudioLatencySettings) (fps : K) : 0 < computeMaximumLatency l fps :=
  lt_of_lt_of_le (by norm_num) (le_max_right _ _)

/-- There is a buffer only for a positive input sample rate. -/
theorem inputSampleRate_pos (h : 1 ≤ c.framesPerCallback) : 0 < c.inputSampleRate := by
  by_contra hneg
  have hlatency := computeMaximumLatency_pos c.audioLatencySettings c.contentRefreshRate
  have hquot : (c.inputSampleRate : K) / (500 / computeMaximumLatency c.audioLatencySettings
      c.contentRefreshRate) ≤ 0 :=
    div_nonpos_of_nonpos_of_nonneg (by exact_mod_cast not_lt.1 hneg) (by positivity)
  have htruncate : truncate ((c.inputSampleRate : K) / (500 / computeMaximumLatency
      c.audioLatencySettings c.contentRefreshRate)) ≤ 0 := by
    rw [truncate]
    split
    · exact Int.floor_nonpos hquot
    · exact Int.ceil_nonpos.2 hquot
  have hsize : c.audioBufferSize ≤ 0 := by
    have hhalf := tdiv_nonpos htruncate (n := 2) (by omega)
    rw [Settings.audioBufferSize, computeAudioBufferSize, roundToEven]
    omega
  have hpos := audioBufferSize_pos c h
  omega

section
variable (s : State K) (numFrames : Nat)

theorem asked_pos (h : 1 ≤ numFrames ∧ numFrames ≤ c.framesPerCallback) (hspeed : s.playbackSpeed ≠ 0) :
    0 < asked c s numFrames := by
  have hrate : (0 : K) < c.inputSampleRate := by exact_mod_cast inputSampleRate_pos c (by omega)
  have hstream : (0 : K) < (s.streamSampleRate : Nat) := by exact_mod_cast s.streamSampleRate.pos
  have hframes : (0 : K) < numFrames := by exact_mod_cast h.1
  have hcontrolled : 0 < (s.controlled numFrames).1 := factor_pos ..
  have hplayback : (0 : K) < s.playbackSpeed := by exact_mod_cast Nat.pos_of_ne_zero hspeed
  rw [asked, finalConversionFactor]
  positivity

/-- No call asks for more than the largest callback with the controller at its fastest. -/
theorem asked_le (h : 1 ≤ numFrames ∧ numFrames ≤ c.framesPerCallback)
    (hfits : Fits c s.playbackSpeed s.streamSampleRate) : asked c s numFrames ≤ (c.audioBufferSize / 2 : K) := by
  have hcallback : 1 ≤ c.framesPerCallback := by omega
  have hrate : (0 : K) ≤ c.inputSampleRate := by exact_mod_cast (inputSampleRate_pos c hcallback).le
  have hframes : (numFrames : K) ≤ c.framesPerCallback := by exact_mod_cast h.2
  have hcontrolled : (s.controlled numFrames).1 ≤ 1 + (maxp + maxi) := factor_le ..
  have hpos : 0 ≤ (s.controlled numFrames).1 := (factor_pos ..).le
  refine le_trans ?_ (hfits hcallback)
  rw [asked, most, finalConversionFactor, finalConversionFactor]
  gcongr

end

/-! ### A call that fits -/

/-- What is left of a callback is less than half a frame, unless the last was read backwards. -/
structure Inv (s : State K) : Prop where
  lower : -(1 / 2) ≤ s.framesToSubmit
  upper : s.framesToSubmit < 1 / 2

theorem inv_start (streamSampleRate : ℕ+) : Inv (start c streamSampleRate) where
  lower := by norm_num [start]
  upper := by norm_num [start]

variable {s t : State K} {a : Action} {es : List Int} {p : Set (Nat × ℕ+)}

/-- A call goes back exactly if it is made at speed 0 and finds minus a half. -/
theorem neg_half_lt_iff (hs : Inv s) {numFrames : Nat}
    (h : 1 ≤ numFrames ∧ numFrames ≤ c.framesPerCallback) :
    -(1 / 2) < s.framesToSubmit + asked c s numFrames ↔
      ¬ (s.playbackSpeed = 0 ∧ s.framesToSubmit = -(1 / (2 : Nat))) := by
  have hlower := hs.lower
  rw [Nat.cast_ofNat]
  by_cases hspeed : s.playbackSpeed = 0
  · rw [asked_of_speed_zero c s numFrames hspeed, add_zero, lt_iff_le_and_ne, and_iff_right hlower]
    simp [hspeed, eq_comm]
  · have hpos := asked_pos c s numFrames h hspeed
    simp only [hspeed, false_and, not_false_iff, iff_true]
    linarith

theorem law_iff (hp : ∀ q ∈ p, Fits c q.1 q.2) (hs : Inv s) (h : step c s a = some (t, es))
    (ha : CallsAt p s a t es) : Law c s a t es ↔ NeverBack s a t es := by
  cases a with
  | onAudioReady numFrames =>
    by_cases hn : 1 ≤ numFrames ∧ numFrames ≤ c.framesPerCallback
    · obtain ⟨m, hm⟩ := exists_half c
      have hle := asked_le c s numFrames hn (hp _ ha)
      rw [step_onAudioReady c s numFrames hn] at h
      obtain ⟨-, rfl⟩ := Prod.mk.inj (Option.some.inj h)
      rw [Law, List.forall_mem_singleton, NeverBack, ← neg_half_lt_iff c hs hn]
      constructor
      · intro hlaw
        refine lt_of_le_of_ne ?_ fun heq => ?_
        · have hasked : 0 ≤ asked c s numFrames := by
            by_cases hspeed : s.playbackSpeed = 0
            · exact (asked_of_speed_zero c s numFrames hspeed).ge
            · exact (asked_pos c s numFrames hn hspeed).le
          have hlower := hs.lower
          linarith
        · rw [← heq, lround_neg_half] at hlaw
          omega
      · intro hlt
        have hupper := hs.upper
        have hround := lround_of_neg_half_lt hlt
        have hnonneg : 0 ≤ lround (s.framesToSubmit + asked c s numFrames) := by
          rw [hround]
          exact Int.floor_nonneg.2 (by linarith)
        have hsize : (c.audioBufferSize / 2 : K) = m := by
          rw [hm]
          push_cast
          ring
        have hhalf : lround (s.framesToSubmit + asked c s numFrames) ≤ m := by
          rw [hround, ← Int.lt_add_one_iff, Int.floor_lt]
          push_cast
          linarith
        omega
    · simp only [step, if_neg hn] at h
      cases h
  | write frames | setFrameSpeed speed | onErrorAfterClose streamSampleRate =>
    obtain ⟨-, rfl⟩ := Prod.mk.inj (Option.some.inj h)
    exact iff_of_true nofun trivial

theorem inv_step (hs : Inv s) (h : step c s a = some (t, es)) (ha : NeverBack s a t es) : Inv t := by
  cases a with
  | onAudioReady numFrames =>
    by_cases hn : 1 ≤ numFrames ∧ numFrames ≤ c.framesPerCallback
    · have hlt := (neg_half_lt_iff c hs hn).2 ha
      have hfloor := Int.floor_le (s.framesToSubmit + asked c s numFrames + 1 / 2)
      have hfloor' := Int.lt_floor_add_one (s.framesToSubmit + asked c s numFrames + 1 / 2)
      rw [step_onAudioReady c s numFrames hn] at h
      obtain ⟨rfl, -⟩ := Prod.mk.inj (Option.some.inj h)
      constructor
      · rw [lround_of_neg_half_lt hlt]
        linarith
      · rw [lround_of_neg_half_lt hlt]
        linarith
    · simp only [step, if_neg hn] at h
      cases h
  | write frames | setFrameSpeed speed | onErrorAfterClose streamSampleRate =>
    obtain ⟨rfl, -⟩ := Prod.mk.inj (Option.some.inj h)
    exact ⟨hs.lower, hs.upper⟩

/-- Of calls that fit, all that are not made at speed 0 on minus a half read no more than there is room for. -/
theorem along_law_iff (hp : ∀ q ∈ p, Fits c q.1 q.2) (streamSampleRate : ℕ+) (as : List Action)
    (has : Along (step c) (CallsAt p) (start c streamSampleRate) as) :
    Along (step c) (Law c) (start c streamSampleRate) as ↔
      Along (step c) NeverBack (start c streamSampleRate) as :=
  along_iff_of (I := Inv) (D := CallsAt p) (G := Law c) (C := NeverBack) (fun hs h ha => law_iff c hp hs h ha)
    (fun hs h _ hback => inv_step c hs h hback) (inv_start c streamSampleRate) as has

/-! ### Calls that do not fit

A full FIFO drives the controller to its bound. From there on, each of the largest callbacks leaves more of a
fraction than the last, until it has to read more than there is room for.
-/

/-- The frames that fill an empty FIFO. -/
def fill : List Frame := List.replicate (toUInt32 c.audioBufferSize / 2) (0, 0)

omit [IsStrictOrderedRing K] in
theorem length_fill (h : 1 ≤ c.framesPerCallback) (q : Audio.State)
    (hcapacity : q.fifoBuffer.capacity = toUInt32 c.audioBufferSize) :
    (q.writeFifo (interleave (fill c)) (toInt32 ((fill c).length * 2))).fifoBuffer.items.length =
      toUInt32 c.audioBufferSize := by
  have hcoe := coe_toUInt32 c h
  have hlt : c.audioBufferSize < 2 ^ 31 := c.size_lt
  have heven : toUInt32 c.audioBufferSize % 2 = 0 := Nat.even_iff.1 (even_toUInt32_roundToEven _)
  have hlength : (fill c).length * 2 = toUInt32 c.audioBufferSize := by
    rw [fill, List.length_replicate]
    omega
  have hsize : (toInt32 (toUInt32 c.audioBufferSize)).toNat = toUInt32 c.audioBufferSize := by
    unfold toInt32
    split <;> omega
  have hle := q.fifoBuffer.length_le
  rw [hcapacity] at hle
  simp only [Audio.State.writeFifo, Fifo.write, Fifo.stored, List.length_append, List.length_take,
    length_interleave, hlength, hsize, hcapacity]
  omega

omit [IsStrictOrderedRing K] in
theorem errorMeasure_full {q : Fifo Int} (h : 0 < q.capacity) (hfull : q.items.length = q.capacity) :
    errorMeasure q = (-1 : K) := by
  have hne : (q.capacity : K) ≠ 0 := by exact_mod_cast h.ne'
  rw [errorMeasure, hfull]
  field_simp
  ring

/-- After that many callbacks on a full FIFO. -/
structure Warm (speed : Nat) (streamSampleRate : ℕ+) (callbacks : Nat) (s : State K) : Prop where
  speed : s.playbackSpeed = speed
  streamSampleRate : s.streamSampleRate = streamSampleRate
  capacity : s.fifoBuffer.capacity = toUInt32 c.audioBufferSize
  errorIntegral : s.errorIntegral = -(callbacks * (c.framesPerCallback.toNat / (1000 : Nat)))

variable {speed : Nat} {streamSampleRate : ℕ+} {callbacks : Nat}

/-- The largest callback on a full FIFO, and the controller at its bound. -/
theorem controlled_full (h : 1 ≤ c.framesPerCallback) (hs : Warm c speed streamSampleRate callbacks s)
    (hfull : s.fifoBuffer.items.length = s.fifoBuffer.capacity) :
    (s.controlled c.framesPerCallback.toNat).2 =
        -((callbacks + 1 : Nat) * (c.framesPerCallback.toNat / (1000 : Nat))) ∧
      (1000000 ≤ callbacks + 1 → (s.controlled c.framesPerCallback.toNat).1 = 1 + (maxp + maxi)) := by
  have hcapacity : 0 < s.fifoBuffer.capacity := by
    have hcoe := coe_toUInt32 c h
    have hpos := audioBufferSize_pos c h
    rw [hs.capacity]
    omega
  have herror : errorMeasure s.fifoBuffer = (-1 : K) := errorMeasure_full hcapacity hfull
  have hintegral : s.errorIntegral + -1 * (c.framesPerCallback.toNat / (1000 : Nat)) =
      -((callbacks + 1 : Nat) * (c.framesPerCallback.toNat / (1000 : Nat))) := by
    rw [hs.errorIntegral]
    push_cast
    ring
  refine ⟨?_, fun hwarm => ?_⟩
  · simp only [State.controlled, computeDynamicBufferConversionFactor, herror, hintegral]
  · have hp : kp * (-1 : K) ≤ -maxp := by norm_num [kp, maxp]
    have hi : ki * -((callbacks + 1 : Nat) * ((c.framesPerCallback.toNat : K) / (1000 : Nat))) ≤ -maxi := by
      have hcallbacks : (1000000 : K) ≤ (callbacks + 1 : Nat) := by exact_mod_cast hwarm
      have hframes : (1 : K) ≤ c.framesPerCallback.toNat := by
        have hone : 1 ≤ c.framesPerCallback.toNat := by omega
        exact_mod_cast hone
      have hproduct : (1000000 : K) * 1 ≤ (callbacks + 1 : Nat) * c.framesPerCallback.toNat := by gcongr
      simp only [ki, maxi]
      linarith
    simp only [State.controlled, computeDynamicBufferConversionFactor, herror, hintegral,
      clamp_of_le maxp_pos.le hp, clamp_of_le maxi_pos.le hi]
    ring

/-- All histories from here read no more than there is room for. -/
def Safe (p : Set (Nat × ℕ+)) (s : State K) : Prop :=
  ∀ as, Along (step c) (CallsAt p) s as → Along (step c) (Law c) s as

omit [IsStrictOrderedRing K] in
theorem Safe.step (hs : Safe c p s) (h : step c s a = some (t, es)) (ha : CallsAt p s a t es) :
    Law c s a t es ∧ Safe c p t := forall_along_step hs h ha

def filled (s : State K) : State K :=
  { s with toState := s.writeFifo (interleave (fill c)) (toInt32 ((fill c).length * 2)) }

theorem safe_round (h : 1 ≤ c.framesPerCallback) (hp : (speed, streamSampleRate) ∈ p)
    (hs : Warm c speed streamSampleRate callbacks s) (hsafe : Safe c p s) :
    ∃ t, Warm c speed streamSampleRate (callbacks + 1) t ∧ Safe c p t ∧ t.framesToSubmit ≤ 1 / 2 ∧
      (1000000 ≤ callbacks + 1 →
        s.framesToSubmit + (most c speed streamSampleRate - c.audioBufferSize / 2) ≤ t.framesToSubmit) := by
  have hn : 1 ≤ c.framesPerCallback.toNat ∧ (c.framesPerCallback.toNat : Int) ≤ c.framesPerCallback := by omega
  have hcast : (c.framesPerCallback.toNat : K) = c.framesPerCallback := by
    have hint : (c.framesPerCallback.toNat : Int) = c.framesPerCallback := by omega
    rw [← Int.cast_natCast, hint]
  obtain ⟨-, hsafe⟩ := hsafe.step c (a := .write (fill c)) (t := filled c s) rfl trivial
  have hwarm : Warm c speed streamSampleRate callbacks (filled c s) :=
    ⟨hs.speed, hs.streamSampleRate, hs.capacity, hs.errorIntegral⟩
  have hfull : (filled c s).fifoBuffer.items.length = (filled c s).fifoBuffer.capacity := by
    rw [hwarm.capacity]
    exact length_fill c h s.toState hs.capacity
  obtain ⟨hintegral, hfactor⟩ := controlled_full c h hwarm hfull
  have hcall : CallsAt p (filled c s) (.onAudioReady c.framesPerCallback.toNat) (filled c s) [] := by
    rw [CallsAt, hwarm.speed, hwarm.streamSampleRate]
    exact hp
  obtain ⟨hlaw, hsafe⟩ := hsafe.step c (step_onAudioReady c _ c.framesPerCallback.toNat hn) hcall
  refine ⟨_, ?_, hsafe, ?_, fun hlong => ?_⟩
  · exact ⟨hs.speed, hs.streamSampleRate, hs.capacity, hintegral⟩
  · exact (abs_le.1 (abs_sub_lround _)).2
  · have hasked : asked c (filled c s) c.framesPerCallback.toNat = most c speed streamSampleRate := by
      rw [asked, most, hcast, hfactor hlong, hwarm.speed, hwarm.streamSampleRate]
    have hround : (lround (s.framesToSubmit + asked c (filled c s) c.framesPerCallback.toNat) : K) * 2 ≤
        c.audioBufferSize := by
      exact_mod_cast (hlaw _ (List.mem_singleton_self _)).2
    show s.framesToSubmit + _ ≤ s.framesToSubmit + asked c (filled c s) c.framesPerCallback.toNat -
      (lround (s.framesToSubmit + asked c (filled c s) c.framesPerCallback.toNat) : K)
    rw [hasked] at hround ⊢
    linarith

theorem safe_rounds (h : 1 ≤ c.framesPerCallback) (hp : (speed, streamSampleRate) ∈ p)
    (hs : Warm c speed streamSampleRate callbacks s) (hsafe : Safe c p s) (n : Nat) :
    ∃ t, Warm c speed streamSampleRate (callbacks + n) t ∧ Safe c p t ∧
      (1000000 ≤ callbacks + 1 →
        s.framesToSubmit + n * (most c speed streamSampleRate - c.audioBufferSize / 2) ≤ t.framesToSubmit) := by
  induction n with
  | zero => exact ⟨s, hs, hsafe, fun _ => by simp⟩
  | succ n ih =>
    obtain ⟨t, ht, hsafe, hle⟩ := ih
    obtain ⟨u, hu, hsafe, -, hround⟩ := safe_round c h hp ht hsafe
    refine ⟨u, hu, hsafe, fun hlong => ?_⟩
    have hbefore := hle hlong
    have hmore := hround (by omega)
    push_cast
    linarith

theorem fits_of_safe (hp : (speed, streamSampleRate) ∈ p) {first : ℕ+} (hsafe : Safe c p (start c first)) :
    Fits c speed streamSampleRate := by
  intro h
  by_contra hgt
  have hexcess : 0 < most c speed streamSampleRate - c.audioBufferSize / 2 := by linarith
  obtain ⟨-, hsafe⟩ := hsafe.step c (a := .setFrameSpeed speed) rfl trivial
  obtain ⟨-, hsafe⟩ := hsafe.step c (a := .onErrorAfterClose streamSampleRate) rfl trivial
  obtain ⟨s, hs, hsafe, -⟩ :=
    safe_rounds c h hp (show Warm c speed streamSampleRate 0 _ from ⟨rfl, rfl, rfl, by simp [start]⟩) hsafe 1000000
  obtain ⟨n, hn⟩ :=
    exists_nat_gt ((1 / 2 - s.framesToSubmit) / (most c speed streamSampleRate - c.audioBufferSize / 2))
  rw [div_lt_iff₀ hexcess] at hn
  obtain ⟨t, ht, hsafe, hle⟩ := safe_rounds c h hp hs hsafe n
  obtain ⟨u, -, -, hhalf, hround⟩ := safe_round c h hp ht hsafe
  have hbefore := hle (by omega)
  have hmore := hround (by omega)
  linarith

/-- Whatever the history of the FIFO and the fraction, callbacks at the speeds and sample rates in `p` read no
more than the temporary buffer holds, and no less than nothing, exactly if each of the pairs fits, and no call at
speed 0 finds minus a half. -/
theorem fits_iff (p : Set (Nat × ℕ+)) (first : ℕ+) :
    (∀ as, Along (step c) (CallsAt p) (start c first) as → Along (step c) (Law c) (start c first) as) ↔
      (∀ q ∈ p, Fits c q.1 q.2) ∧
        ∀ as, Along (step c) (CallsAt p) (start c first) as → Along (step c) NeverBack (start c first) as := by
  constructor
  · intro hsafe
    have hfits : ∀ q ∈ p, Fits c q.1 q.2 := fun q hq => fits_of_safe c hq hsafe
    exact ⟨hfits, fun as has => (along_law_iff c hfits first as has).1 (hsafe as has)⟩
  · rintro ⟨hfits, hback⟩ as has
    exact (along_law_iff c hfits first as has).2 (hback as has)

end

/-- 50 kHz and 250 frames per second on a stream of 50 kHz: buffers of 3200 samples. -/
def equalRates : Settings ℚ where
  audioLatencySettings := DEFAULT_LATENCY_SETTINGS
  inputSampleRate := 50000
  contentRefreshRate := 250
  size_lt := by decide +kernel

theorem fits_equalRates : Fits equalRates 1 50000 := by
  intro _
  have hsize : equalRates.audioBufferSize = 3200 := by decide +kernel
  have hcallback : equalRates.framesPerCallback = 320 := by rw [Settings.framesPerCallback, hsize]; decide
  have hrate : equalRates.inputSampleRate = 50000 := rfl
  have hstream : ((50000 : ℕ+) : Nat) = 50000 := rfl
  rw [most, hcallback, hsize, finalConversionFactor, hrate, hstream]
  norm_num [maxp, maxi]

/-- Calls at the normal speed are not calls at speed 0. -/
theorem neverBack_equalRates (as : List Action)
    (has : Along (step equalRates) (CallsAt {(1, 50000)}) (start equalRates 50000) as) :
    Along (step equalRates) NeverBack (start equalRates 50000) as := by
  refine along_mono (fun s a t es ha => ?_) as has
  cases a with
  | onAudioReady numFrames =>
    rintro ⟨hspeed, -⟩
    have hone : s.playbackSpeed = 1 := congrArg Prod.fst ha
    omega
  | write frames | setFrameSpeed speed | onErrorAfterClose streamSampleRate => trivial

/-- At the normal speed the largest callback reads no more than the buffer has. -/
theorem fits_at_normal_speed : Along (step equalRates) (Law equalRates) (start equalRates 50000)
    [.onAudioReady 320] := by
  refine (fits_iff equalRates {(1, 50000)} 50000).2 ⟨?_, neverBack_equalRates⟩ _ ?_
  · rintro q rfl
    exact fits_equalRates
  · unfold Along
    split
    · trivial
    · exact ⟨rfl, trivial⟩

/-- At eight times the speed, the first callback reads more samples than the buffer has. -/
theorem overrun_at_speed : ¬ Along (step equalRates) (Law equalRates) (start equalRates 50000)
    [.setFrameSpeed 8, .onAudioReady 320] := by
  decide +kernel

end SweetHome.TemporaryAudioBuffer
