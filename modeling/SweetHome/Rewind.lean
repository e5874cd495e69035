import SweetHome.Lib.Run

/-!
# The rewind of `GameActivity`

A sampler appends the state of the core to `rewindBuffer` on its own timer, and a coroutine that lives
while the button is held takes the newest state off again and restores it. Both run on the main thread,
and so do the switch, the spinner, the menus and the handlers that restore a saved state. The laws of
the buffer speak of what the code does not keep: which capture a state is, and what was restored or
flushed before it. Those are the fields of `History`, `Hold` and `Snapshot` that no branch looks at.
-/

namespace SweetHome.Rewind
open Step

abbrev Bytes := List UInt8

/-- A state of the core with the number of its capture, and of the restores and resets before it. -/
structure Snapshot where
  state : Bytes
  captured : Nat
  timeline : Nat
deriving DecidableEq, Repr

def rewindIntervalMs : Nat := 500

/-- Computed once, when `rewindBufferMaxDurationSec` is 5. -/
def rewindBufferMaxSize : Nat := (5 * 1000) / rewindIntervalMs

def durations : Fin 3 → Nat
  | 0 => 5
  | 1 => 10
  | 2 => 20

/-- `rewindProgressiveJob` while it is active. -/
structure Hold where
  /-- The captures before the button was pressed. -/
  since : Nat
  /-- The capture that was restored last. -/
  last : Option Nat := none
  /-- The sampler has ticked since the button was pressed. -/
  sampled : Bool := false
deriving DecidableEq, Repr

/-- What the buffer held after the last flush, pop or selection of a duration, and what has been
captured since. -/
structure History where
  base : List Snapshot := []
  recent : List Snapshot := []

structure State where
  core : Bytes
  /-- `GLRetroView.onPause` was called last, not `onResume`. -/
  paused : Bool := false
  rewindBuffer : List Snapshot := []
  rewindEnabled : Bool
  rewindBufferMaxDurationSec : Nat := 5
  pressed : Bool := false
  rewindProgressiveJob : Option Hold := none
  captures : Nat := 0
  timeline : Nat := 0
  history : History := {}

/-- A new activity, with the preference that it reads. -/
def start (core : Bytes) (rewindEnabled : Bool) : State where
  core := core
  rewindEnabled := rewindEnabled

/-- The handlers that restore a saved state. -/
inductive Restore where
  | gameSaveState
  | autoSave
  | saveFile
  | manualSave
  | btnLoad
  | loadFromSlot
  | quickLoad
deriving DecidableEq, Repr

namespace Restore

def clearsRewind : Restore → Bool
  | gameSaveState | autoSave | saveFile => true
  | manualSave | btnLoad | loadFromSlot | quickLoad => false

def dismissesDialog : Restore → Bool
  | loadFromSlot | quickLoad => true
  | gameSaveState | autoSave | saveFile | manualSave | btnLoad => false

end Restore

inductive Action where
  /-- The core runs for a frame. -/
  | frameRendered (core : Bytes)
  | rewindSampler
  | btnRewindDown
  | btnRewindUp
  | rewindTick
  | switchRewindEnable (isChecked : Bool)
  | spinnerRewindDuration (position : Fin 3)
  | drawerOpened
  | drawerClosed
  | showDialog
  | dismissDialog
  /-- `ok` is what `unserializeState` returns. -/
  | restore (r : Restore) (data : Bytes) (ok : Bool)
  | btnHardwareReset (core : Bytes)
  | openLoadMenu (core : Bytes)
deriving DecidableEq, Repr

inductive Event where
  | rewound (state : Snapshot) (hold : Hold)
deriving DecidableEq, Repr

namespace State

def sampler (s : State) : State :=
  let state : Snapshot := ⟨s.core, s.captures, s.timeline⟩
  let buffer := s.rewindBuffer ++ [state]
  { s with
    rewindBuffer := if buffer.length > rewindBufferMaxSize then buffer.tail else buffer
    captures := s.captures + 1
    rewindProgressiveJob := s.rewindProgressiveJob.map ({ · with sampled := true })
    history := { s.history with recent := s.history.recent ++ [state] } }

def clear (s : State) : State := { s with rewindBuffer := [], history := {} }

/-- What the core does from now on is a new timeline. -/
def restart (s : State) (core : Bytes) : State :=
  { s with core := core, timeline := s.timeline + 1 }

def restore (s : State) (r : Restore) (data : Bytes) (ok : Bool) : State :=
  let s := if ok then s.restart data else s
  let s := if r.clearsRewind then s.clear else s
  if r.dismissesDialog then { s with paused := false } else s

end State

def step : Step State Action Event
  | s, .frameRendered core => if s.paused then none else some ({ s with core := core }, [])
  | s, .rewindSampler => some (s.sampler, [])
  | s, .btnRewindDown =>
    -- a finger goes down once before it goes up
    if s.pressed then none else
      some ({ s with
        pressed := true
        rewindProgressiveJob := if s.rewindEnabled then some { since := s.captures } else none }, [])
  | s, .btnRewindUp => some ({ s with pressed := false, rewindProgressiveJob := none }, [])
  | s, .rewindTick =>
    match s.rewindProgressiveJob with
    | none => none
    | some hold =>
      match s.rewindBuffer.getLast? with
      | none => some ({ s with rewindProgressiveJob := none }, [])
      | some state =>
        some ({ s with
          core := state.state
          rewindBuffer := s.rewindBuffer.dropLast
          rewindProgressiveJob := some { hold with last := some state.captured }
          history := { base := s.rewindBuffer.dropLast } }, [.rewound state hold])
  | s, .switchRewindEnable isChecked =>
    let s := { s with rewindEnabled := isChecked }
    some (if isChecked then s else s.clear, [])
  | s, .spinnerRewindDuration position =>
    some ({ s with
      rewindBufferMaxDurationSec := durations position
      history := { base := s.rewindBuffer } }, [])
  | s, .drawerOpened | s, .showDialog => some ({ s with paused := true }, [])
  | s, .drawerClosed | s, .dismissDialog => some ({ s with paused := false }, [])
  | s, .restore r data ok => some (s.restore r data ok, [])
  | s, .btnHardwareReset core => some (s.restart core, [])
  | s, .openLoadMenu core => some ({ s.restart core with paused := true }, [])

/-! ### What a step can do to the buffer -/

/-- The core leaves the timeline that it was in. -/
def Action.Restarts : Action → Prop
  | .restore _ _ ok => ok = true
  | .btnHardwareReset _ | .openLoadMenu _ => True
  | _ => False

def Action.Clears : Action → Prop
  | .restore r _ _ => r.clearsRewind = true
  | .switchRewindEnable isChecked => isChecked = false
  | _ => False

instance : DecidablePred Action.Restarts
  | .restore _ _ ok => inferInstanceAs (Decidable (ok = true))
  | .btnHardwareReset _ | .openLoadMenu _ => .isTrue trivial
  | .frameRendered _ | .rewindSampler | .btnRewindDown | .btnRewindUp | .rewindTick
  | .switchRewindEnable _ | .spinnerRewindDuration _ | .drawerOpened | .drawerClosed | .showDialog
  | .dismissDialog => .isFalse id

instance : DecidablePred Action.Clears
  | .restore r _ _ => inferInstanceAs (Decidable (r.clearsRewind = true))
  | .switchRewindEnable isChecked => inferInstanceAs (Decidable (isChecked = false))
  | .btnHardwareReset _ | .openLoadMenu _ | .frameRendered _ | .rewindSampler | .btnRewindDown
  | .btnRewindUp | .rewindTick | .spinnerRewindDuration _ | .drawerOpened | .drawerClosed
  | .showDialog | .dismissDialog => .isFalse id

/-- A step that neither captures nor restores a snapshot. -/
structure Quiet (s : State) (a : Action) (t : State) : Prop where
  captures : t.captures = s.captures
  timeline : t.timeline = if a.Restarts then s.timeline + 1 else s.timeline
  job : t.rewindProgressiveJob = s.rewindProgressiveJob ∨ t.rewindProgressiveJob = none ∨
    t.rewindProgressiveJob = some { since := s.captures }
  enabled : t.rewindEnabled = false → a.Clears ∨ s.rewindEnabled = false
  duration : t.rewindBufferMaxDurationSec = s.rewindBufferMaxDurationSec ∨
    ∃ position, t.rewindBufferMaxDurationSec = durations position
  cleared : a.Clears → t.rewindBuffer = [] ∧ t.history = {}
  kept : ¬ a.Clears → t.rewindBuffer = s.rewindBuffer ∧
    (t.history = s.history ∨ t.history = { base := s.rewindBuffer })

/-- The step of `rewindTick` that takes `state` off the buffer. -/
structure Pops (s : State) (state : Snapshot) (hold : Hold) (t : State) : Prop where
  job : s.rewindProgressiveJob = some hold
  last : s.rewindBuffer.getLast? = some state
  eq : t = { s with
    core := state.state
    rewindBuffer := s.rewindBuffer.dropLast
    rewindProgressiveJob := some { hold with last := some state.captured }
    history := { base := s.rewindBuffer.dropLast } }

section
variable {s t : State} {a : Action} {es : List Event}

/-- The sampler may push out the oldest state, and puts the state of the core at the end. -/
theorem sampler_rewindBuffer (s : State) :
    ∃ older, older <:+ s.rewindBuffer ∧
      s.sampler.rewindBuffer = older ++ [⟨s.core, s.captures, s.timeline⟩] := by
  simp only [State.sampler]
  split
  · rename_i hfull
    rcases hbuffer : s.rewindBuffer with _ | ⟨oldest, older⟩
    · simp [hbuffer, rewindBufferMaxSize, rewindIntervalMs] at hfull
    · exact ⟨older, List.suffix_cons oldest older, rfl⟩
  · exact ⟨s.rewindBuffer, List.suffix_rfl, rfl⟩

theorem quiet_restore (s : State) (r : Restore) (data : Bytes) (ok : Bool) :
    Quiet s (.restore r data ok) (s.restore r data ok) := by
  unfold State.restore
  constructor
  case kept => cases r <;> cases ok <;> simp [Action.Clears, Restore.clearsRewind,
    Restore.dismissesDialog, State.restart]
  case cleared => cases r <;> cases ok <;> simp [Action.Clears, Restore.clearsRewind,
    Restore.dismissesDialog, State.clear]
  case enabled =>
    intro h
    right
    cases r <;> cases ok <;> exact h
  case duration => left; cases r <;> cases ok <;> rfl
  case job => left; cases r <;> cases ok <;> rfl
  case captures => cases r <;> cases ok <;> rfl
  case timeline => cases r <;> cases ok <;> simp [Action.Restarts, Restore.clearsRewind,
    Restore.dismissesDialog, State.clear, State.restart]

theorem step_cases (h : step s a = some (t, es)) :
    (a = .rewindSampler ∧ t = s.sampler ∧ es = []) ∨
    (∃ state hold, a = .rewindTick ∧ Pops s state hold t ∧ es = [.rewound state hold]) ∨
    (a ≠ .rewindSampler ∧ (a = .rewindTick → s.rewindBuffer = []) ∧ Quiet s a t ∧ es = []) := by
  cases a with
  | rewindSampler =>
    obtain ⟨rfl, rfl⟩ := Prod.mk.inj (Option.some.inj h)
    exact .inl ⟨rfl, rfl, rfl⟩
  | rewindTick =>
    simp only [step] at h
    split at h
    · cases h
    · split at h
      all_goals
        rename_i hlast
        obtain ⟨rfl, rfl⟩ := Prod.mk.inj (Option.some.inj h)
      · have hempty : s.rewindBuffer = [] := List.getLast?_eq_none_iff.1 hlast
        refine .inr (.inr ⟨by simp, fun _ => hempty, ?_, rfl⟩)
        exact ⟨rfl, rfl, .inr (.inl rfl), .inr, .inl rfl, False.elim, fun _ => ⟨rfl, .inl rfl⟩⟩
      · exact .inr (.inl ⟨_, _, rfl, ⟨‹_›, hlast, rfl⟩, rfl⟩)
  | frameRendered core =>
    simp only [step] at h
    split at h
    · cases h
    · obtain ⟨rfl, rfl⟩ := Prod.mk.inj (Option.some.inj h)
      refine .inr (.inr ⟨by simp, by simp, ?_, rfl⟩)
      exact ⟨rfl, rfl, .inl rfl, .inr, .inl rfl, False.elim, fun _ => ⟨rfl, .inl rfl⟩⟩
  | btnRewindDown =>
    simp only [step] at h
    split at h
    · cases h
    · obtain ⟨rfl, rfl⟩ := Prod.mk.inj (Option.some.inj h)
      refine .inr (.inr ⟨by simp, by simp, ?_, rfl⟩)
      refine ⟨rfl, rfl, ?_, .inr, .inl rfl, False.elim, fun _ => ⟨rfl, .inl rfl⟩⟩
      right
      cases s.rewindEnabled <;> simp
  | btnRewindUp =>
    obtain ⟨rfl, rfl⟩ := Prod.mk.inj (Option.some.inj h)
    refine .inr (.inr ⟨by simp, by simp, ?_, rfl⟩)
    exact ⟨rfl, rfl, .inr (.inl rfl), .inr, .inl rfl, False.elim, fun _ => ⟨rfl, .inl rfl⟩⟩
  | switchRewindEnable isChecked =>
    obtain ⟨rfl, rfl⟩ := Prod.mk.inj (Option.some.inj h)
    refine .inr (.inr ⟨by simp, by simp, ?_, rfl⟩)
    cases isChecked with
    | false =>
      refine ⟨rfl, rfl, .inl rfl, fun _ => .inl rfl, .inl rfl, fun _ => ⟨rfl, rfl⟩, ?_⟩
      exact fun hkept => absurd rfl hkept
    | true =>
      refine ⟨rfl, rfl, .inl rfl, by simp, .inl rfl, ?_, fun _ => ⟨rfl, .inl rfl⟩⟩
      simp [Action.Clears]
  | restore r data ok =>
    obtain ⟨rfl, rfl⟩ := Prod.mk.inj (Option.some.inj h)
    exact .inr (.inr ⟨by simp, by simp, quiet_restore s r data ok, rfl⟩)
  | spinnerRewindDuration position =>
    obtain ⟨rfl, rfl⟩ := Prod.mk.inj (Option.some.inj h)
    refine .inr (.inr ⟨by simp, by simp, ?_, rfl⟩)
    exact ⟨rfl, rfl, .inl rfl, .inr, .inr ⟨position, rfl⟩, False.elim, fun _ => ⟨rfl, .inr rfl⟩⟩
  | drawerOpened | drawerClosed | showDialog | dismissDialog | btnHardwareReset | openLoadMenu =>
    obtain ⟨rfl, rfl⟩ := Prod.mk.inj (Option.some.inj h)
    refine .inr (.inr ⟨by simp, by simp, ?_, rfl⟩)
    exact ⟨rfl, rfl, .inl rfl, .inr, .inl rfl, False.elim, fun _ => ⟨rfl, .inl rfl⟩⟩

end

end SweetHome.Rewind
