import SweetHome.Rewind
import Mathlib.Order.Lattice
import Mathlib.Data.List.Pairwise

/-!
# What a rewind restores

Where a saved state is restored or the core is reset, the states that were captured before belong to
another timeline. Three of the handlers flush them, the other six do not: the buffer stays in one
timeline exactly if those six run only on an empty buffer (`staysInTimeline_iff`).

A hold of the button goes strictly backwards exactly if the coroutine restores nothing after the
sampler has ticked in that hold (`strictlyBackwards_iff`): the sampler appends to the end that the
coroutine takes from.
-/

namespace SweetHome.Rewind
open Step

def Event.state : Event → Snapshot
  | .rewound state _ => state

def Event.hold : Event → Hold
  | .rewound _ hold => hold

section
variable {s t : State} {a : Action} {es : List Event}

/-! ### Restores and resets -/

/-- A restore or a reset leaves nothing of the timeline before it in the buffer, and a rewind restores
nothing from before the last of them. -/
def StaysInTimeline (_ : State) (a : Action) (t : State) (es : List Event) : Prop :=
  (a.Restarts → ∀ x ∈ t.rewindBuffer, x.timeline = t.timeline) ∧
  ∀ e ∈ es, e.state.timeline = t.timeline

/-- The handlers that do not flush the buffer find it empty. -/
def FlushesRestarts (s : State) (a : Action) (_ : State) (_ : List Event) : Prop :=
  a.Restarts → a.Clears ∨ s.rewindBuffer = []

instance (s a t es) : Decidable (StaysInTimeline s a t es) := by unfold StaysInTimeline; infer_instance

instance (s a t es) : Decidable (FlushesRestarts s a t es) := by unfold FlushesRestarts; infer_instance

def OneTimeline (s : State) : Prop := ∀ x ∈ s.rewindBuffer, x.timeline = s.timeline

theorem staysInTimeline_step_iff (hi : OneTimeline s) (h : step s a = some (t, es)) :
    StaysInTimeline s a t es ↔ FlushesRestarts s a t es := by
  rcases step_cases h with ⟨rfl, rfl, rfl⟩ | ⟨state, hold, rfl, hpops, rfl⟩ | ⟨-, -, hquiet, rfl⟩
  · exact iff_of_true ⟨False.elim, by simp⟩ False.elim
  · refine iff_of_true ⟨False.elim, ?_⟩ False.elim
    have hmem : state ∈ s.rewindBuffer := List.mem_of_getLast? hpops.last
    simpa [Event.state, hpops.eq] using hi state hmem
  · by_cases hclears : a.Clears
    · refine iff_of_true ⟨?_, by simp⟩ fun _ => .inl hclears
      intro _
      simp [(hquiet.cleared hclears).1]
    · have hbuffer := (hquiet.kept hclears).1
      simp only [StaysInTimeline, FlushesRestarts, hbuffer, hclears, false_or, List.not_mem_nil,
        false_implies, implies_true, and_true]
      refine imp_congr_right fun hrestarts => ?_
      rw [hquiet.timeline, if_pos hrestarts, List.eq_nil_iff_forall_not_mem]
      refine forall₂_congr fun x hx => ?_
      have := hi x hx
      simp only [iff_false]
      omega

theorem oneTimeline_step (hi : OneTimeline s) (h : step s a = some (t, es))
    (hC : FlushesRestarts s a t es) : OneTimeline t := by
  rcases step_cases h with ⟨rfl, rfl, rfl⟩ | ⟨state, hold, rfl, hpops, rfl⟩ | ⟨-, -, hquiet, rfl⟩
  · obtain ⟨older, holder, hbuffer⟩ := sampler_rewindBuffer s
    intro x hx
    rw [hbuffer, List.mem_append, List.mem_singleton] at hx
    rcases hx with hx | rfl
    · exact hi x (holder.subset hx)
    · rfl
  · rw [hpops.eq]
    intro x hx
    exact hi x (List.dropLast_subset _ hx)
  · intro x hx
    by_cases hclears : a.Clears
    · simp [(hquiet.cleared hclears).1] at hx
    · rw [(hquiet.kept hclears).1] at hx
      rw [hquiet.timeline]
      split
      · rename_i hrestarts
        rcases hC hrestarts with hc | hempty
        · exact absurd hc hclears
        · simp [hempty] at hx
      · exact hi x hx

/-! ### One hold of the button -/

/-- What is restored in a hold was captured before it, and before everything that the hold has
restored. -/
def StrictlyBackwards (_ : State) (_ : Action) (_ : State) (es : List Event) : Prop :=
  ∀ e ∈ es, e.state.captured < e.hold.since ∧ ∀ last ∈ e.hold.last, e.state.captured < last

/-- The coroutine takes nothing after the sampler has ticked in the hold. -/
def Undisturbed (s : State) (a : Action) (_ : State) (_ : List Event) : Prop :=
  a = .rewindTick → s.rewindBuffer ≠ [] → ∀ hold ∈ s.rewindProgressiveJob, hold.sampled = false

instance (s a t es) : Decidable (StrictlyBackwards s a t es) := by
  unfold StrictlyBackwards; infer_instance

instance (s a t es) : Decidable (Undisturbed s a t es) := by unfold Undisturbed; infer_instance

/-- The buffer is in the order of the captures. In a hold without a tick of the sampler all of it is
older than what was restored; after such a tick the newest state is one of the hold. -/
structure Ordered (s : State) : Prop where
  sorted : s.rewindBuffer.Pairwise fun x y => x.captured < y.captured
  below : ∀ x ∈ s.rewindBuffer, x.captured < s.captures
  undisturbed : ∀ hold ∈ s.rewindProgressiveJob, hold.sampled = false →
    hold.since = s.captures ∧ ∀ last ∈ hold.last, ∀ x ∈ s.rewindBuffer, x.captured < last
  disturbed : ∀ hold ∈ s.rewindProgressiveJob, hold.sampled = true →
    ∀ x ∈ s.rewindBuffer.getLast?, hold.since ≤ x.captured
  since : ∀ hold ∈ s.rewindProgressiveJob, hold.since ≤ s.captures

theorem strictlyBackwards_step_iff (hi : Ordered s) (h : step s a = some (t, es)) :
    StrictlyBackwards s a t es ↔ Undisturbed s a t es := by
  rcases step_cases h with ⟨rfl, rfl, rfl⟩ | ⟨state, hold, rfl, hpops, rfl⟩ | ⟨-, htick, -, rfl⟩
  · exact iff_of_true (by simp [StrictlyBackwards]) (by simp [Undisturbed])
  · have hmem : state ∈ s.rewindBuffer := List.mem_of_getLast? hpops.last
    have hlaw : StrictlyBackwards s .rewindTick t [.rewound state hold] ↔
        state.captured < hold.since ∧ ∀ last ∈ hold.last, state.captured < last := by
      simp [StrictlyBackwards, Event.state, Event.hold]
    have hcondition : Undisturbed s .rewindTick t [.rewound state hold] ↔ hold.sampled = false := by
      simp [Undisturbed, hpops.job, List.ne_nil_of_mem hmem]
    rw [hlaw, hcondition]
    constructor
    · intro hback
      by_contra hsampled
      have hlast := hi.disturbed hold hpops.job (by simpa using hsampled) state hpops.last
      omega
    · intro hsampled
      obtain ⟨hsince, hlast⟩ := hi.undisturbed hold hpops.job hsampled
      refine ⟨?_, fun last hl => hlast last hl state hmem⟩
      rw [hsince]
      exact hi.below state hmem
  · exact iff_of_true (by simp [StrictlyBackwards]) fun ha hne => absurd (htick ha) hne

theorem ordered_sampler (hi : Ordered s) : Ordered s.sampler := by
  obtain ⟨older, holder, hbuffer⟩ := sampler_rewindBuffer s
  have hjob : ∀ hold ∈ s.sampler.rewindProgressiveJob,
      hold.sampled = true ∧ hold.since ≤ s.captures := by
    intro hold hhold
    obtain ⟨before, hb, rfl⟩ := Option.map_eq_some_iff.1 hhold
    exact ⟨rfl, hi.since before hb⟩
  constructor
  case sorted =>
    rw [hbuffer, List.pairwise_append]
    refine ⟨hi.sorted.sublist holder.sublist, List.pairwise_singleton _ _, ?_⟩
    intro x hx y hy
    rw [List.mem_singleton.1 hy]
    exact hi.below x (holder.subset hx)
  case below =>
    intro x hx
    show x.captured < s.captures + 1
    rw [hbuffer, List.mem_append, List.mem_singleton] at hx
    rcases hx with hx | rfl
    · have := hi.below x (holder.subset hx)
      omega
    · exact Nat.lt_succ_self _
  case undisturbed =>
    intro hold hhold hsampled
    rw [(hjob hold hhold).1] at hsampled
    cases hsampled
  case disturbed =>
    intro hold hhold _ x hx
    rw [hbuffer, List.getLast?_concat] at hx
    cases hx
    exact (hjob hold hhold).2
  case since =>
    intro hold hhold
    exact le_trans (hjob hold hhold).2 (Nat.le_succ _)

theorem ordered_pops {state : Snapshot} {hold : Hold} (hi : Ordered s) (hpops : Pops s state hold t)
    (hsampled : hold.sampled = false) : Ordered t := by
  have hbuffer : s.rewindBuffer = s.rewindBuffer.dropLast ++ [state] :=
    (List.dropLast_append_getLast? state hpops.last).symm
  rw [hpops.eq]
  constructor
  case sorted => exact hi.sorted.sublist (List.dropLast_sublist _)
  case below =>
    intro x hx
    exact hi.below x (List.dropLast_subset _ hx)
  case undisturbed =>
    rintro _ ⟨⟩ -
    refine ⟨(hi.undisturbed hold hpops.job hsampled).1, ?_⟩
    rintro _ ⟨⟩ x hx
    have hsorted := hi.sorted
    rw [hbuffer, List.pairwise_append] at hsorted
    exact hsorted.2.2 x hx state (List.mem_singleton_self state)
  case disturbed =>
    rintro _ ⟨⟩ htrue
    rw [show hold.sampled = true from htrue] at hsampled
    cases hsampled
  case since =>
    rintro _ ⟨⟩
    exact hi.since hold hpops.job

theorem ordered_quiet (hi : Ordered s) (hquiet : Quiet s a t) : Ordered t := by
  have hbuffer : t.rewindBuffer = s.rewindBuffer ∨ t.rewindBuffer = [] := by
    by_cases hclears : a.Clears
    · exact .inr (hquiet.cleared hclears).1
    · exact .inl (hquiet.kept hclears).1
  have hsub : t.rewindBuffer ⊆ s.rewindBuffer := by
    rcases hbuffer with h | h <;> simp [h]
  have hnew : ∀ hold ∈ t.rewindProgressiveJob,
      hold ∈ s.rewindProgressiveJob ∨ hold = { since := s.captures } := by
    intro hold hhold
    rcases hquiet.job with h | h | h <;> rw [h] at hhold
    · exact .inl hhold
    · cases hhold
    · cases hhold; exact .inr rfl
  constructor
  case sorted =>
    rcases hbuffer with h | h <;> rw [h]
    · exact hi.sorted
    · exact List.Pairwise.nil
  case below =>
    intro x hx
    rw [hquiet.captures]
    exact hi.below x (hsub hx)
  case undisturbed =>
    intro hold hhold hsampled
    rw [hquiet.captures]
    rcases hnew hold hhold with hold' | rfl
    · obtain ⟨hsince, hlast⟩ := hi.undisturbed hold hold' hsampled
      exact ⟨hsince, fun last hl x hx => hlast last hl x (hsub hx)⟩
    · exact ⟨rfl, by simp⟩
  case disturbed =>
    intro hold hhold hsampled x hx
    rcases hnew hold hhold with hold' | rfl
    · rcases hbuffer with h | h <;> rw [h] at hx
      · exact hi.disturbed hold hold' hsampled x hx
      · cases hx
    · cases hsampled
  case since =>
    intro hold hhold
    rw [hquiet.captures]
    rcases hnew hold hhold with hold' | rfl
    · exact hi.since hold hold'
    · exact le_refl _

theorem ordered_step (hi : Ordered s) (h : step s a = some (t, es)) (hC : Undisturbed s a t es) :
    Ordered t := by
  rcases step_cases h with ⟨-, rfl, -⟩ | ⟨state, hold, rfl, hpops, -⟩ | ⟨-, -, hquiet, -⟩
  · exact ordered_sampler hi
  · have hmem : state ∈ s.rewindBuffer := List.mem_of_getLast? hpops.last
    exact ordered_pops hi hpops (hC rfl (List.ne_nil_of_mem hmem) hold hpops.job)
  · exact ordered_quiet hi hquiet

end

/-- Over every run of an activity: the buffer never crosses a restore or a reset exactly when the
handlers that do not flush it find it empty. -/
theorem staysInTimeline_iff (core : Bytes) (rewindEnabled : Bool) (as : List Action) :
    Along step StaysInTimeline (start core rewindEnabled) as ↔
      Along step FlushesRestarts (start core rewindEnabled) as :=
  along_iff (I := OneTimeline) staysInTimeline_step_iff oneTimeline_step (by simp [OneTimeline, start]) as

/-- The emulator is reset; the rewind then brings the game back from before. -/
theorem reset_keeps_snapshots :
    ¬ Along step StaysInTimeline (start [1] true) [.rewindSampler, .btnHardwareReset [0], .btnRewindDown,
      .rewindTick] := by
  decide

/-- Over every run of an activity, for every way the sampler and the coroutine take turns: each hold
goes strictly backwards exactly when its coroutine restores nothing after a tick of the sampler. -/
theorem strictlyBackwards_iff (core : Bytes) (rewindEnabled : Bool) (as : List Action) :
    Along step StrictlyBackwards (start core rewindEnabled) as ↔
      Along step Undisturbed (start core rewindEnabled) as :=
  along_iff (I := Ordered) strictlyBackwards_step_iff ordered_step
    ⟨List.Pairwise.nil, by simp [start], by simp [start], by simp [start], by simp [start]⟩ as

/-- The sampler ticks in a hold, and the coroutine goes forward again to what it has captured. -/
theorem sampler_disturbs_hold :
    ¬ Along step StrictlyBackwards (start [1] true) [.rewindSampler, .rewindSampler, .btnRewindDown,
      .rewindTick, .rewindSampler, .rewindTick] := by
  decide

end SweetHome.Rewind
