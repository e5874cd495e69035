import SweetHome.Audio
import SweetHome.Lib.Round
import Mathlib.Data.Rat.Floor
import Mathlib.Tactic.FieldSimp
import Mathlib.Tactic.Ring

/-!
# Frame pacing and the input rate of `Audio`

In exact arithmetic over an ordered field. With the screen close enough to the core, `FPSSync` runs
the core once per displayed frame, and `afterGameLoad` stretches the sample rate that `Audio` is told
by the ratio of the two rates. The core then produces `s / f * r` frames per second, where the stretch
gives `s * (f / r)`: the two agree up to the rounding only where the rates are that close
(`balanced_iff`).
-/

namespace SweetHome.FpsSync
open Audio

def FPS_TOLERANCE : Nat := 5

structure FPSSync (K : Type) where
  contentRefreshRate : K
  screenRefreshRate : K
  useVSync : Bool
  /-- In microseconds. -/
  sampleInterval : Int
  /-- In nanoseconds; `none` is `MIN_TIME`. -/
  lastFrame : Option Int

section
variable {K : Type} [Field K] [LinearOrder K] [FloorRing K]

namespace FPSSync

def make (contentRefreshRate screenRefreshRate : K) : FPSSync K where
  contentRefreshRate := contentRefreshRate
  screenRefreshRate := screenRefreshRate
  useVSync := decide (|contentRefreshRate - screenRefreshRate| < FPS_TOLERANCE)
  sampleInterval := truncate (1000000 / contentRefreshRate)
  lastFrame := none

/-- The frames to run at the time `now`, in nanoseconds. -/
def advanceFrames (now : Int) (y : FPSSync K) : Int × FPSSync K :=
  if y.useVSync then (1, y) else
    let lastFrame := y.lastFrame.getD now
    let frames := max ((now - lastFrame).tdiv (y.sampleInterval * 1000)) 1
    (frames, { y with lastFrame := some (lastFrame + y.sampleInterval * 1000 * frames) })

def getTimeStretchFactor (y : FPSSync K) : K :=
  if y.useVSync then y.contentRefreshRate / y.screenRefreshRate else 1

def retroRuns (now : Int) (frameSpeed : Nat) (y : FPSSync K) : Nat :=
  min (y.advanceFrames now).1.toNat 2 * frameSpeed

end FPSSync

def inputSampleRate (fps sampleRate screenRefreshRate : K) : Int :=
  lround (sampleRate * (FPSSync.make fps screenRefreshRate).getTimeStretchFactor)

/-! ### What `Audio` consumes -/

/-- `baseConversionFactor` of a stream, times the factors of the controller and of the speed. -/
def finalConversionFactor (inputSampleRate : Int) (streamSampleRate : Nat)
    (dynamicBufferFactor playbackSpeed : K) : K :=
  inputSampleRate / streamSampleRate * dynamicBufferFactor * playbackSpeed

/-- The frames that `onAudioReady` takes from the FIFO, and the fraction it keeps for the next call. -/
def onAudioReady (finalConversionFactor framesToSubmit : K) (numFrames : Nat) : Int × K :=
  let framesToSubmit := framesToSubmit + numFrames * finalConversionFactor
  let currentFramesToSubmit := lround framesToSubmit
  (currentFramesToSubmit, framesToSubmit - currentFramesToSubmit)

def consumed (finalConversionFactor : K) : K → List Nat → Int
  | _, [] => 0
  | framesToSubmit, numFrames :: callbacks =>
    let (current, rest) := onAudioReady finalConversionFactor framesToSubmit numFrames
    current + consumed finalConversionFactor rest callbacks

def consumedPerSecond (inputSampleRate : Int) (streamSampleRate : Nat) (callbacks : List Nat) : Int :=
  consumed (finalConversionFactor inputSampleRate streamSampleRate 1 1 : K) 0 callbacks

/-! ### The law and the condition -/

def producedPerSecond (fps sampleRate screenRefreshRate : K) : K :=
  sampleRate / fps * screenRefreshRate

/-- With vsync the core runs once per displayed frame, and a second of callbacks, in whatever sizes,
takes what it produces to within one frame; without, the stretch is 1 and it takes the sample rate. -/
def Balanced (fps sampleRate screenRefreshRate : K) : Prop :=
  if |fps - screenRefreshRate| < FPS_TOLERANCE then
    (∀ now, (FPSSync.make fps screenRefreshRate).retroRuns now 1 = 1) ∧
    ∀ (streamSampleRate : Nat) (callbacks : List Nat), 0 < streamSampleRate →
      callbacks.sum = streamSampleRate →
      |(consumedPerSecond (K := K) (inputSampleRate fps sampleRate screenRefreshRate)
          streamSampleRate callbacks : K) - producedPerSecond fps sampleRate screenRefreshRate| ≤ 1
  else
    (FPSSync.make fps screenRefreshRate).getTimeStretchFactor = 1 ∧
    ∀ (streamSampleRate : Nat) (callbacks : List Nat), 0 < streamSampleRate →
      callbacks.sum = streamSampleRate →
      consumedPerSecond (K := K) (inputSampleRate fps sampleRate screenRefreshRate)
        streamSampleRate callbacks = lround sampleRate

/-- The rates are out of tolerance, or so close that the ratio and its inverse stretch the sample rate
to the same integer, or to neighbours. -/
def RatesClose (fps sampleRate screenRefreshRate : K) : Prop :=
  FPS_TOLERANCE ≤ |fps - screenRefreshRate| ∨
  RoundsNear (sampleRate * (fps / screenRefreshRate)) (sampleRate / fps * screenRefreshRate)

end

/-! ### A second of callbacks takes the input sample rate -/

section
variable {K : Type} [Field K] [LinearOrder K] [IsStrictOrderedRing K] [FloorRing K]

theorem consumed_eq (factor : K) (callbacks : List Nat) {framesToSubmit : K}
    (h : |framesToSubmit| ≤ 1 / 2) :
    |framesToSubmit + callbacks.sum * factor - consumed factor framesToSubmit callbacks| ≤ 1 / 2 := by
  induction callbacks generalizing framesToSubmit with
  | nil => simpa [consumed] using h
  | cons numFrames callbacks ih =>
    have hrest := ih (abs_sub_lround (framesToSubmit + numFrames * factor))
    have hsum : framesToSubmit + ((numFrames :: callbacks).sum : Nat) * factor -
          consumed factor framesToSubmit (numFrames :: callbacks) =
        framesToSubmit + numFrames * factor - lround (framesToSubmit + numFrames * factor) +
          callbacks.sum * factor - consumed factor (framesToSubmit + numFrames * factor -
            lround (framesToSubmit + numFrames * factor)) callbacks := by
      simp only [consumed, onAudioReady, List.sum_cons]
      push_cast
      ring
    rw [hsum]
    exact hrest

theorem consumedPerSecond_eq (rate : Int) {streamSampleRate : Nat} {callbacks : List Nat}
    (hpos : 0 < streamSampleRate) (hsum : callbacks.sum = streamSampleRate) :
    consumedPerSecond (K := K) rate streamSampleRate callbacks = rate := by
  have hne : (streamSampleRate : K) ≠ 0 := by exact_mod_cast hpos.ne'
  have h := consumed_eq (finalConversionFactor rate streamSampleRate 1 1 : K) callbacks
    (show |(0 : K)| ≤ 1 / 2 by simp)
  have hrate : (0 : K) + callbacks.sum * finalConversionFactor rate streamSampleRate 1 1 = rate := by
    rw [hsum, finalConversionFactor]
    field_simp
    ring
  rw [hrate] at h
  have hlt : |rate - consumedPerSecond (K := K) rate streamSampleRate callbacks| < 1 := by
    have : ((|rate - consumedPerSecond (K := K) rate streamSampleRate callbacks| : Int) : K) ≤ 1 / 2 := by
      push_cast; exact h
    have : ((|rate - consumedPerSecond (K := K) rate streamSampleRate callbacks| : Int) : K) < (1 : Int) := by
      push_cast at this ⊢; linarith
    exact_mod_cast this
  have := Int.abs_lt_one_iff.1 hlt
  omega

/-! ### The direction of the ratio -/

omit [IsStrictOrderedRing K] in
theorem retroRuns_vsync {fps screenRefreshRate : K} (h : |fps - screenRefreshRate| < FPS_TOLERANCE)
    (now : Int) : (FPSSync.make fps screenRefreshRate).retroRuns now 1 = 1 := by
  simp [FPSSync.retroRuns, FPSSync.advanceFrames, FPSSync.make, h]

/-- For positive rates, the input rate of `Audio` matches what the core produces exactly when the rates
are out of tolerance or that close. -/
theorem balanced_iff {fps sampleRate screenRefreshRate : K} (hf : 0 < fps) (hs : 0 < sampleRate)
    (hr : 0 < screenRefreshRate) :
    Balanced fps sampleRate screenRefreshRate ↔ RatesClose fps sampleRate screenRefreshRate := by
  by_cases hv : |fps - screenRefreshRate| < FPS_TOLERANCE
  · have hrate : inputSampleRate fps sampleRate screenRefreshRate =
        lround (sampleRate * (fps / screenRefreshRate)) := by
      simp [inputSampleRate, FPSSync.getTimeStretchFactor, FPSSync.make, hv]
    have hnonneg : 0 ≤ sampleRate * (fps / screenRefreshRate) := by positivity
    have hclose := roundsNear_iff hnonneg (sampleRate / fps * screenRefreshRate)
    rw [Balanced, if_pos hv, RatesClose, hrate, or_iff_right (not_le.2 hv), hclose]
    constructor
    · rintro ⟨-, h⟩
      have hsecond := h 48000 [48000] (by norm_num) (by norm_num)
      rwa [consumedPerSecond_eq _ (by norm_num) (by norm_num)] at hsecond
    · intro h
      refine ⟨retroRuns_vsync hv, fun streamSampleRate callbacks hpos hsum => ?_⟩
      rw [consumedPerSecond_eq _ hpos hsum]
      exact h
  · have hfactor : (FPSSync.make fps screenRefreshRate).getTimeStretchFactor = 1 := by
      simp [FPSSync.getTimeStretchFactor, FPSSync.make, hv]
    rw [Balanced, if_neg hv]
    refine iff_of_true ⟨hfactor, fun streamSampleRate callbacks hpos hsum => ?_⟩ (.inl (not_lt.1 hv))
    rw [consumedPerSecond_eq _ hpos hsum, inputSampleRate, hfactor, mul_one]

end

theorem balanced_equal_rates : Balanced (60 : ℚ) 44100 60 := by
  refine (balanced_iff (by norm_num) (by norm_num) (by norm_num)).2 (.inr ?_)
  have hy : (44100 : ℚ) / 60 * 60 = (44100 : Int) := by norm_num
  rw [RoundsNear, hy, Int.ceil_intCast, Int.floor_intCast]
  norm_num

/-- At 60 frames per second on a 59 Hz screen the core makes 43365 frames per second, and `Audio` is
told to take 44847. -/
theorem stretch_inverted : ¬ Balanced (60 : ℚ) 44100 59 := by
  have hv : |(60 : ℚ) - 59| < FPS_TOLERANCE := by norm_num [FPS_TOLERANCE]
  have hrate : inputSampleRate (60 : ℚ) 44100 59 = 44847 := by
    simp only [inputSampleRate, FPSSync.getTimeStretchFactor, FPSSync.make, hv, decide_true, if_true]
    rw [lround_of_nonneg (by norm_num), Int.floor_eq_iff]
    norm_num
  rw [Balanced, if_pos hv, hrate]
  rintro ⟨-, h⟩
  have hsecond := h 48000 [48000] (by norm_num) (by norm_num)
  rw [consumedPerSecond_eq _ (by norm_num) (by norm_num), producedPerSecond] at hsecond
  norm_num at hsecond

end SweetHome.FpsSync
