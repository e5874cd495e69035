import SweetHome.Lib.Run
import Mathlib.Algebra.Order.Field.Rat
import Mathlib.Data.PNat.Defs
import Mathlib.Data.Rat.Floor
import Mathlib.Tactic.Ring

/-!
# Frame pacing without vsync

`advanceFrames` asks for the frames whose time has come since `lastFrame`, for one at least, and moves `lastFrame`
on by as many intervals; `wait` sleeps until then. So `lastFrame` stays on the grid of intervals that begins at the
first reading of the clock, and within one interval of the last (`along_paced`). Times are integers, in nanoseconds.
-/

namespace SweetHome.FramePacing
open Step

/-- `TimePoint::min()`, which stands for no frame yet. -/
def MIN_TIME : Int := -2 ^ 63

/-- What `steady_clock::now()` returns is later. -/
abbrev Reading := {t : Int // MIN_TIME < t}

structure FPSSync where
  /-- In microseconds. -/
  sampleInterval : ℕ+
  lastFrame : Int := MIN_TIME

/-- What a call of `advanceFrames` computes. -/
structure Advance where
  now : Int
  /-- What is subtracted from `now`. -/
  lastFrame : Int
  frames : Int
  /-- The `unsigned` that is returned. -/
  requestedFrames : Nat

namespace FPSSync

def interval (y : FPSSync) : Int := y.sampleInterval * 1000

def start (started : Reading) (y : FPSSync) : FPSSync := { y with lastFrame := started }

def reset (y : FPSSync) : FPSSync := { y with lastFrame := MIN_TIME }

/-- The first call after a reset reads the clock twice. -/
def advanceFrames (started now : Reading) (y : FPSSync) : Advance × FPSSync :=
  let y := if y.lastFrame = MIN_TIME then y.start started else y
  let frames := max ((now.1 - y.lastFrame).tdiv y.interval) 1
  (⟨now, y.lastFrame, frames, (frames % 2 ^ 32).toNat⟩, { y with lastFrame := y.lastFrame + y.interval * frames })

end FPSSync

/-- The pacing, and what has happened since the last reset. -/
structure State extends FPSSync where
  /-- The last reading of the clock. -/
  clock : Int := MIN_TIME
  firstReading : Option Int := none
  /-- All that was requested. -/
  requested : Int := 0

inductive Action where
  /-- In `resume`. -/
  | reset
  | advanceFrames (started now : Reading)

/-- The clock never goes back, and `wait` has slept until `lastFrame`. -/
def State.InTime (s : State) (started now : Reading) : Prop :=
  s.clock ≤ now ∧ s.lastFrame ≤ now ∧ (s.lastFrame = MIN_TIME → s.clock ≤ started ∧ started.1 ≤ now)

instance (s : State) (started now : Reading) : Decidable (s.InTime started now) :=
  inferInstanceAs (Decidable (_ ∧ _ ∧ (_ → _)))

/-- After a call, with what it requested. -/
def State.advanced (s : State) (started now : Reading) : State where
  toFPSSync := (s.advanceFrames started now).2
  clock := now
  firstReading := some (s.firstReading.getD started)
  requested := s.requested + (s.advanceFrames started now).1.frames

def step : Step State Action Advance
  | s, .reset => some ({ s with toFPSSync := s.reset, firstReading := none, requested := 0 }, [])
  | s, .advanceFrames started now =>
    if s.InTime started now then some (s.advanced started now, [(s.advanceFrames started now).1]) else none

def start (sampleInterval : ℕ+) : State where
  sampleInterval := sampleInterval

/-- What is requested follows the clock. -/
structure Paced (t : State) (now : Int) (e : Advance) (t₀ : Int) : Prop where
  firstReading : t.firstReading = some t₀
  whole : t.lastFrame - t₀ = t.interval * t.requested
  lower : now - t.interval < t.lastFrame
  upper : t.lastFrame ≤ now + t.interval
  near : |(t.requested : ℚ) - (now - t₀ : Int) / t.interval| ≤ 1
  real : e.lastFrame ≠ MIN_TIME
  /-- Nothing is lost as long as the number fits. -/
  returned : e.now - e.lastFrame < 2 ^ 32 * t.interval → e.requestedFrames = e.frames

/-- A reset begins anew, and a call counts from the first reading since. -/
def Law (s : State) (a : Action) (t : State) (es : List Advance) : Prop :=
  match a with
  | .reset => t.lastFrame = MIN_TIME ∧ t.firstReading = none ∧ t.requested = 0
  | .advanceFrames started now =>
    ∃ e, es = [e] ∧ t.requested = s.requested + e.frames ∧ Paced t now e (s.firstReading.getD started)

/-! ### A call -/

namespace FPSSync
variable (y : FPSSync) (started now : Reading)

theorem interval_pos : 0 < y.interval := by
  have hpos := y.sampleInterval.pos
  rw [interval]
  omega

/-- From when the time is counted. -/
def from' : Int := if y.lastFrame = MIN_TIME then started else y.lastFrame

theorem advanceFrames_fst_lastFrame : (y.advanceFrames started now).1.lastFrame = y.from' started := by
  unfold advanceFrames from'
  split <;> rfl

theorem advanceFrames_snd_lastFrame : (y.advanceFrames started now).2.lastFrame =
    y.from' started + y.interval * (y.advanceFrames started now).1.frames := by
  unfold advanceFrames from'
  split <;> rfl

theorem advanceFrames_frames : (y.advanceFrames started now).1.frames =
    max ((now.1 - y.from' started).tdiv y.interval) 1 := by
  unfold advanceFrames from'
  split <;> rfl

theorem advanceFrames_requestedFrames : ((y.advanceFrames started now).1.requestedFrames : Int) =
    (y.advanceFrames started now).1.frames % 2 ^ 32 :=
  Int.toNat_of_nonneg (Int.emod_nonneg _ (by norm_num))

theorem advanceFrames_interval : (y.advanceFrames started now).2.interval = y.interval := by
  unfold advanceFrames
  split <;> rfl

end FPSSync

/-- The frames whose time has come, and one at least, take a time up to an interval around another. -/
theorem intervals_bounds {last now interval : Int} (hpos : 0 < interval) (hle : last ≤ now) :
    now - interval < last + interval * max ((now - last).tdiv interval) 1 ∧
      last + interval * max ((now - last).tdiv interval) 1 ≤ now + interval := by
  have hdiv : (now - last).tdiv interval = (now - last) / interval := Int.tdiv_eq_ediv_of_nonneg (by omega)
  have hmod := Int.emod_add_mul_ediv (now - last) interval
  have hlow := Int.emod_nonneg (now - last) hpos.ne'
  have hhigh := Int.emod_lt_of_pos (now - last) hpos
  rw [hdiv]
  rcases Int.lt_or_le ((now - last) / interval) 1 with hlt | hge
  · have hzero : (now - last) / interval = 0 :=
      le_antisymm (by omega) (Int.ediv_nonneg (by omega) hpos.le)
    rw [hzero] at hmod ⊢
    constructor <;> simp <;> omega
  · rw [max_eq_left hge]
    constructor <;> omega

theorem intervals_lt {last now interval n : Int} (hpos : 0 < interval) (hle : last ≤ now) (hn : 1 < n)
    (h : now - last < n * interval) : max ((now - last).tdiv interval) 1 < n := by
  rw [Int.tdiv_eq_ediv_of_nonneg (by omega)]
  exact max_lt (Int.ediv_lt_of_lt_mul hpos h) hn

/-! ### A run -/

theorem abs_sub_div_le_one {t₀ now last interval requested : Int} (hpos : 0 < interval)
    (hwhole : last - t₀ = interval * requested) (hlower : now - interval < last) (hupper : last ≤ now + interval) :
    |(requested : ℚ) - (now - t₀ : Int) / interval| ≤ 1 := by
  have hcast : (0 : ℚ) < interval := Int.cast_pos.2 hpos
  have hrequested : (requested : ℚ) = (last - t₀ : Int) / interval := by
    rw [hwhole, Int.cast_mul, mul_div_cancel_left₀ _ hcast.ne']
  have hdiff : ((last - t₀ : Int) / interval - (now - t₀ : Int) / interval : ℚ) = (last - now : Int) / interval := by
    push_cast
    ring
  rw [hrequested, hdiff, abs_le, le_div_iff₀ hcast, div_le_iff₀ hcast]
  constructor <;> norm_cast <;> omega

/-- Either nothing has happened since the reset, or `lastFrame` has been moved on from the first reading. -/
inductive Inv (s : State) : Prop where
  | reset (lastFrame : s.lastFrame = MIN_TIME) (firstReading : s.firstReading = none) (requested : s.requested = 0)
  | paced (t₀ : Int) (lastFrame : MIN_TIME < s.lastFrame) (firstReading : s.firstReading = some t₀)
    (whole : s.lastFrame - t₀ = s.interval * s.requested)

theorem inv_start (sampleInterval : ℕ+) : Inv (start sampleInterval) := .reset rfl rfl rfl

variable {s t : State} {a : Action} {es : List Advance} {started now : Reading}

theorem Inv.counted (hs : Inv s) (h : s.InTime started now) :
    MIN_TIME < s.from' started ∧ s.from' started ≤ now ∧
      s.from' started - s.firstReading.getD started = s.interval * s.requested := by
  obtain ⟨-, hlast, hstarted⟩ := h
  unfold FPSSync.from'
  cases hs with
  | reset lastFrame firstReading requested =>
    rw [if_pos lastFrame, firstReading, requested]
    exact ⟨started.2, (hstarted lastFrame).2, by simp⟩
  | paced t₀ lastFrame firstReading whole =>
    rw [if_neg lastFrame.ne', firstReading]
    exact ⟨lastFrame, hlast, whole⟩

theorem step_advanceFrames (h : step s (.advanceFrames started now) = some (t, es)) :
    s.InTime started now ∧ t = s.advanced started now ∧ es = [(s.advanceFrames started now).1] := by
  by_cases hin : s.InTime started now
  · obtain ⟨rfl, rfl⟩ := Prod.mk.inj (Option.some.inj ((if_pos hin).symm.trans h))
    exact ⟨hin, rfl, rfl⟩
  · cases (if_neg hin).symm.trans h

theorem advanced_whole (hs : Inv s) (h : s.InTime started now) :
    (s.advanced started now).lastFrame - s.firstReading.getD started =
      s.interval * (s.advanced started now).requested := by
  obtain ⟨-, -, hwhole⟩ := hs.counted h
  have hnext := s.advanceFrames_snd_lastFrame started now
  rw [State.advanced, hnext, mul_add, ← hwhole]
  ring

theorem advanced_paced (hs : Inv s) (h : s.InTime started now) :
    Paced (s.advanced started now) now (s.advanceFrames started now).1 (s.firstReading.getD started) := by
  obtain ⟨hreal, hle, -⟩ := hs.counted h
  have hpos := s.interval_pos
  have hinterval : (s.advanced started now).interval = s.interval := s.advanceFrames_interval started now
  obtain ⟨hlower, hupper⟩ := intervals_bounds hpos hle
  rw [← FPSSync.advanceFrames_frames, ← FPSSync.advanceFrames_snd_lastFrame] at hlower hupper
  constructor
  case firstReading => rfl
  case whole => rw [hinterval]; exact advanced_whole hs h
  case lower => rw [hinterval]; exact hlower
  case upper => rw [hinterval]; exact hupper
  case near => rw [hinterval]; exact abs_sub_div_le_one hpos (advanced_whole hs h) hlower hupper
  case real => rw [FPSSync.advanceFrames_fst_lastFrame]; exact hreal.ne'
  case returned =>
    rw [hinterval, FPSSync.advanceFrames_fst_lastFrame, FPSSync.advanceFrames_requestedFrames,
      FPSSync.advanceFrames_frames]
    intro hfits
    exact Int.emod_eq_of_lt (le_trans zero_le_one (le_max_right _ _)) (intervals_lt hpos hle (by norm_num) hfits)

theorem inv_step (hs : Inv s) (h : step s a = some (t, es)) : Inv t := by
  cases a with
  | reset =>
    obtain ⟨rfl, -⟩ := Prod.mk.inj (Option.some.inj h)
    exact .reset rfl rfl rfl
  | advanceFrames started now =>
    obtain ⟨hin, rfl, -⟩ := step_advanceFrames h
    obtain ⟨hreal, -, -⟩ := hs.counted hin
    have hframes : 0 < s.interval * (s.advanceFrames started now).1.frames := by
      rw [FPSSync.advanceFrames_frames]
      exact mul_pos s.interval_pos (lt_of_lt_of_le zero_lt_one (le_max_right _ _))
    have hpaced := advanced_paced hs hin
    refine .paced _ ?_ hpaced.firstReading hpaced.whole
    rw [State.advanced, FPSSync.advanceFrames_snd_lastFrame]
    omega

theorem law_step (hs : Inv s) (h : step s a = some (t, es)) : Law s a t es := by
  cases a with
  | reset =>
    obtain ⟨rfl, -⟩ := Prod.mk.inj (Option.some.inj h)
    exact ⟨rfl, rfl, rfl⟩
  | advanceFrames started now =>
    obtain ⟨hin, rfl, rfl⟩ := step_advanceFrames h
    exact ⟨_, rfl, rfl, advanced_paced hs hin⟩

/-- Along every run of calls in time, the pacing follows the clock from the first reading on. -/
theorem along_paced (sampleInterval : ℕ+) (as : List Action) : Along step Law (start sampleInterval) as := by
  have hiff : Along step Law (start sampleInterval) as ↔ Along step (fun _ _ _ _ => True) (start sampleInterval) as :=
    along_iff (I := Inv) (G := Law) (C := fun _ _ _ _ => True) (fun hs h => iff_of_true (law_step hs h) trivial)
      (fun hs h _ => inv_step hs h) (inv_start sampleInterval) as
  exact hiff.2 (along_true _ as)

theorem min_time_lt (t : Nat) : MIN_TIME < t := by
  rw [MIN_TIME]
  omega

/-- Frames of a millisecond: the second call is late and asks for two, the third one is early again. -/
theorem along_paced_late :
    let call (t : Nat) : Action := .advanceFrames ⟨t, min_time_lt t⟩ ⟨t, min_time_lt t⟩
    let calls := [.reset, call 0, call 3200000, call 3200000]
    Along step Law (start 1000) calls ∧ (run step (start 1000) calls).2.map Advance.requestedFrames = [1, 2, 1] ∧
      (run step (start 1000) calls).1.lastFrame = 4000000 :=
  ⟨along_paced 1000 _, by decide, by decide⟩

end SweetHome.FramePacing
