import SweetHome.Rewind
import SweetHome.Lib.Window

/-!
# What the rewind buffer keeps

The buffer is the window of the last `rewindBufferMaxSize` states, whatever duration is selected: it is
as deep as the duration says exactly if that is 5 seconds, or if no more than ten states have been
captured since the buffer was last changed otherwise (`depthFollows_iff`).

The sampler looks neither at the switch nor at the pause. Each of its ticks while rewind is off or the
emulation is paused spends history, but for the ticks of a pause that has already filled the buffer
with the state it stands at (`spentByPlay_iff`).
-/

namespace SweetHome.Rewind
open Step

section
variable {s t : State} {a : Action} {es : List Event}

theorem rewindBufferMaxSize_pos : 0 < rewindBufferMaxSize := by decide

theorem sampler_eq_push (s : State) :
    s.sampler.rewindBuffer =
      Window.push rewindBufferMaxSize s.rewindBuffer ⟨s.core, s.captures, s.timeline⟩ := rfl

/-! ### The depth -/

/-- The states that the selected duration stands for. -/
def State.depth (s : State) : Nat := s.rewindBufferMaxDurationSec * 1000 / rewindIntervalMs

/-- After `depth` captures or more since the last flush, pop or selection the buffer is the last
`depth` of them; after fewer, all of them are its newest states, and after a flush its only ones. -/
structure DepthFollows (s : State) : Prop where
  window : s.depth ≤ s.history.recent.length →
    s.rewindBuffer = s.history.recent.rtake s.depth
  fewer : s.history.recent.length < s.depth → s.history.recent <:+ s.rewindBuffer
  flushed : s.history.recent.length < s.depth → s.history.base = [] →
    s.rewindBuffer = s.history.recent

structure Windowed (s : State) : Prop where
  buffer : s.rewindBuffer = (s.history.base ++ s.history.recent).rtake rewindBufferMaxSize
  duration : ∃ position, s.rewindBufferMaxDurationSec = durations position

theorem Windowed.length_le (hi : Windowed s) : s.rewindBuffer.length ≤ rewindBufferMaxSize := by
  rw [hi.buffer, Window.length_rtake]
  exact Nat.min_le_left _ _

theorem windowed_start (core : Bytes) (rewindEnabled : Bool) : Windowed (start core rewindEnabled) :=
  ⟨rfl, 0, rfl⟩

theorem windowed_step (hi : Windowed s) (h : step s a = some (t, es)) : Windowed t := by
  have hbase : ∀ buffer : List Snapshot, buffer.length ≤ rewindBufferMaxSize →
      buffer = (buffer ++ []).rtake rewindBufferMaxSize := by
    intro buffer hlength
    rw [List.append_nil, Window.rtake_of_length_le hlength]
  constructor
  case buffer =>
    rcases step_cases h with ⟨-, rfl, -⟩ | ⟨state, hold, -, hpops, -⟩ | ⟨-, -, hquiet, -⟩
    · rw [sampler_eq_push, hi.buffer, Window.push_rtake rewindBufferMaxSize_pos, List.append_assoc]
      rfl
    · rw [hpops.eq]
      exact hbase _ ((List.dropLast_sublist _).length_le.trans hi.length_le)
    · by_cases hclears : a.Clears
      · obtain ⟨hbuffer, hhistory⟩ := hquiet.cleared hclears
        rw [hbuffer, hhistory]
        rfl
      · obtain ⟨hbuffer, hhistory | hhistory⟩ := hquiet.kept hclears <;> rw [hbuffer, hhistory]
        · exact hi.buffer
        · exact hbase _ hi.length_le
  case duration =>
    rcases step_cases h with ⟨-, rfl, -⟩ | ⟨state, hold, -, hpops, -⟩ | ⟨-, -, hquiet, -⟩
    · exact hi.duration
    · rw [hpops.eq]
      exact hi.duration
    · rcases hquiet.duration with hsame | hselected
      · rw [hsame]
        exact hi.duration
      · exact hselected

theorem depth_cases (hi : Windowed s) :
    (s.rewindBufferMaxDurationSec = 5 ∧ s.depth = rewindBufferMaxSize) ∨
      (s.rewindBufferMaxDurationSec ≠ 5 ∧ rewindBufferMaxSize < s.depth) := by
  obtain ⟨position, hduration⟩ := hi.duration
  unfold State.depth
  rw [hduration]
  match position with
  | 0 | 1 | 2 => decide

theorem depthFollows_state_iff (hi : Windowed s) :
    DepthFollows s ↔
      s.rewindBufferMaxDurationSec = 5 ∨ s.history.recent.length ≤ rewindBufferMaxSize := by
  have hbuffer := hi.buffer
  have hlength := hi.length_le
  constructor
  · intro hdepth
    rcases depth_cases hi with ⟨hfive, -⟩ | ⟨-, hdeep⟩
    · exact .inl hfive
    · right
      by_cases hfew : s.history.recent.length < s.depth
      · exact (hdepth.fewer hfew).length_le.trans hlength
      · have := congrArg List.length (hdepth.window (Nat.le_of_not_lt hfew))
        rw [Window.length_rtake] at this
        omega
  · intro hcondition
    have hfit : s.depth = rewindBufferMaxSize ∨
        s.history.recent.length ≤ rewindBufferMaxSize ∧ rewindBufferMaxSize < s.depth := by
      rcases depth_cases hi with ⟨-, hten⟩ | ⟨hne, hdeep⟩
      · exact .inl hten
      · exact .inr ⟨hcondition.resolve_left hne, hdeep⟩
    refine ⟨?window, ?fewer, ?flushed⟩
    case window =>
      intro hmany
      have hten : s.depth = rewindBufferMaxSize := by omega
      rw [hbuffer, ← hten, Window.rtake_append_of_le hmany]
    case fewer =>
      intro hfew
      rw [hbuffer]
      exact Window.suffix_rtake_append (by omega)
    case flushed =>
      intro hfew hbase
      rw [hbuffer, hbase, List.nil_append]
      exact Window.rtake_of_length_le (by omega)

/-! ### What spends it -/

/-- A tick of the sampler while rewind is off or the emulation is paused leaves the bytes in the buffer
as they were, and while rewind is off there are none. -/
def SpentByPlay (s : State) (a : Action) (t : State) (_ : List Event) : Prop :=
  (a = .rewindSampler → s.rewindEnabled = false ∨ s.paused = true →
    t.rewindBuffer.map Snapshot.state = s.rewindBuffer.map Snapshot.state) ∧
  (t.rewindEnabled = false → t.rewindBuffer = [])

/-- The sampler ticks only while rewind is on; and in a pause only once the buffer is full of the state
that the core stands at. -/
def SamplesPlay (s : State) (a : Action) (_ : State) (_ : List Event) : Prop :=
  a = .rewindSampler → s.rewindEnabled = true ∧
    (s.paused = true →
      s.rewindBuffer.map Snapshot.state = List.replicate rewindBufferMaxSize s.core)

instance (s a t es) : Decidable (SpentByPlay s a t es) := by unfold SpentByPlay; infer_instance

instance (s a t es) : Decidable (SamplesPlay s a t es) := by unfold SamplesPlay; infer_instance

structure EmptyOff (s : State) : Prop where
  empty : s.rewindEnabled = false → s.rewindBuffer = []
  length_le : s.rewindBuffer.length ≤ rewindBufferMaxSize

theorem map_push {α β : Type} (f : α → β) (n : Nat) (l : List α) (x : α) :
    (Window.push n l x).map f = Window.push n (l.map f) (f x) := by
  unfold Window.push
  simp only [List.length_append, List.length_map, List.length_singleton]
  split
  · rw [List.map_tail, List.map_append, List.map_singleton]
  · rw [List.map_append, List.map_singleton]

theorem sampler_keeps_iff (hi : EmptyOff s) :
    s.sampler.rewindBuffer.map Snapshot.state = s.rewindBuffer.map Snapshot.state ↔
      s.rewindBuffer.map Snapshot.state = List.replicate rewindBufferMaxSize s.core := by
  rw [sampler_eq_push, map_push]
  exact Window.push_eq_self_iff rewindBufferMaxSize_pos (by simpa using hi.length_le)

theorem spentByPlay_step_iff (hi : EmptyOff s) (h : step s a = some (t, es)) :
    SpentByPlay s a t es ↔ SamplesPlay s a t es := by
  rcases step_cases h with ⟨rfl, rfl, rfl⟩ | ⟨state, hold, rfl, hpops, rfl⟩ | ⟨hne, -, hquiet, rfl⟩
  · obtain ⟨older, -, hbuffer⟩ := sampler_rewindBuffer s
    have hgrows : s.sampler.rewindBuffer ≠ [] := by simp [hbuffer]
    constructor
    · rintro ⟨hkeeps, hempty⟩ -
      have hon : s.rewindEnabled = true := by
        by_contra hoff
        exact hgrows (hempty ((Bool.not_eq_true _).mp hoff))
      exact ⟨hon, fun hpaused => (sampler_keeps_iff hi).1 (hkeeps rfl (.inr hpaused))⟩
    · intro hplay
      obtain ⟨hon, hfull⟩ := hplay rfl
      constructor
      · rintro - (hoff | hpaused)
        · rw [hon] at hoff
          cases hoff
        · exact (sampler_keeps_iff hi).2 (hfull hpaused)
      · intro hoff
        rw [show s.sampler.rewindEnabled = s.rewindEnabled from rfl, hon] at hoff
        cases hoff
  · refine iff_of_true ⟨by simp, ?_⟩ (by simp [SamplesPlay])
    intro hoff
    rw [hpops.eq] at hoff ⊢
    simp [hi.empty hoff]
  · refine iff_of_true ⟨fun ha => absurd ha hne, ?_⟩ fun ha => absurd ha hne
    intro hoff
    by_cases hclears : a.Clears
    · exact (hquiet.cleared hclears).1
    · rw [(hquiet.kept hclears).1]
      exact hi.empty ((hquiet.enabled hoff).resolve_left hclears)

theorem emptyOff_step (hi : EmptyOff s) (h : step s a = some (t, es)) (hC : SamplesPlay s a t es) :
    EmptyOff t := by
  refine ⟨((spentByPlay_step_iff hi h).2 hC).2, ?_⟩
  rcases step_cases h with ⟨-, rfl, -⟩ | ⟨state, hold, -, hpops, -⟩ | ⟨-, -, hquiet, -⟩
  · rw [sampler_eq_push]
    exact Window.length_push_le hi.length_le
  · rw [hpops.eq]
    exact (List.dropLast_sublist _).length_le.trans hi.length_le
  · by_cases hclears : a.Clears
    · simp [(hquiet.cleared hclears).1]
    · rw [(hquiet.kept hclears).1]
      exact hi.length_le

end

/-- In every state that an activity reaches: the buffer is as deep as the selected duration says exactly
when that is 5 seconds, or when there have been at most ten captures since the last flush, pop or
selection. -/
theorem depthFollows_iff (core : Bytes) (rewindEnabled : Bool) (as : List Action) :
    DepthFollows (run step (start core rewindEnabled) as).1 ↔
      (run step (start core rewindEnabled) as).1.rewindBufferMaxDurationSec = 5 ∨
        (run step (start core rewindEnabled) as).1.history.recent.length ≤ rewindBufferMaxSize :=
  depthFollows_state_iff (run_inv windowed_step (windowed_start core rewindEnabled) as)

/-- Ten seconds are selected, and the eleventh capture pushes out the first. -/
theorem ten_seconds_keep_five :
    ¬ DepthFollows (run step (start [1] true)
      (.spinnerRewindDuration 1 :: List.replicate 11 .rewindSampler)).1 := by
  intro h
  have := h.flushed (by decide) (by decide)
  exact absurd this (by decide)

/-- Over every run of an activity: rewind history is spent only by play exactly when the sampler ticks
only in play, or in a pause that has nothing left to spend. -/
theorem spentByPlay_iff (core : Bytes) (rewindEnabled : Bool) (as : List Action) :
    Along step SpentByPlay (start core rewindEnabled) as ↔
      Along step SamplesPlay (start core rewindEnabled) as :=
  along_iff (I := EmptyOff) spentByPlay_step_iff emptyOff_step ⟨fun _ => rfl, Nat.zero_le _⟩ as

/-- Rewind is switched off, which empties the buffer, and the sampler goes on. -/
theorem sampler_ignores_switch :
    ¬ Along step SpentByPlay (start [1] true) [.switchRewindEnable false, .rewindSampler] := by
  decide

end SweetHome.Rewind
