import SweetHome.Lib.Run

/-!
# The pause behind a menu

The drawer, the slot dialogs and the lifecycle observer of the view drive one pause flag, and none of them
looks at the others: each resumes the GL thread when it is done. The game stands still behind a menu
exactly as long as nobody resumes while a menu of another is open (`pause_iff`).
-/

namespace SweetHome.MenuPause
open Step

structure State where
  /-- The last of the calls `onPause` and `onResume` of the view was `onResume`, or there was none. -/
  running : Bool := true
  drawerOpen : Bool := false
  /-- The save and load dialogs that are showing. -/
  dialogs : Nat := 0
  /-- The captures whose callback is to open a save dialog. -/
  captures : Nat := 0
  resumed : Bool := false
  /-- `RenderLifecycleObserver` is added, which is after the game is loaded. -/
  observed : Bool := false
deriving DecidableEq, Repr

inductive Action where
  | onResume
  | onPause
  | addObserver
  | onDrawerOpened
  | onDrawerClosed
  /-- From the button, in the drawer or not: the screen is captured first. -/
  | showSaveDialog
  /-- The callback of the capture. -/
  | showSaveDialogInternal
  | showLoadDialog
  /-- The first frame after a start with `open_load_menu`. -/
  | openLoadMenu
  | onDismiss
deriving DecidableEq, Repr

namespace State

/-- `onPause` of the view. -/
def pause (s : State) : State := { s with running := false }

/-- `onResume` of the view. -/
def resume (s : State) : State := { s with running := true }

def openDialog (s : State) : State := { s.pause with dialogs := s.dialogs + 1 }

def MenuOpen (s : State) : Prop := s.drawerOpen = true ∨ 0 < s.dialogs

instance (s : State) : Decidable s.MenuOpen := inferInstanceAs (Decidable (_ ∨ _))

end State

/-- An observer that is added while the Activity is resumed is told so at once. -/
def step : Step State Action Empty
  | s, .onResume =>
    if s.resumed then none
    else
      let s := { s with resumed := true }
      some (if s.observed then s.resume else s, [])
  | s, .onPause =>
    if s.resumed then
      let s := { s with resumed := false }
      some (if s.observed then s.pause else s, [])
    else none
  | s, .addObserver =>
    if s.observed then none
    else
      let s := { s with observed := true }
      some (if s.resumed then s.resume else s, [])
  | s, .onDrawerOpened => if s.drawerOpen then none else some ({ s.pause with drawerOpen := true }, [])
  | s, .onDrawerClosed => if s.drawerOpen then some ({ s.resume with drawerOpen := false }, []) else none
  | s, .showSaveDialog => some ({ s with captures := s.captures + 1 }, [])
  | s, .showSaveDialogInternal =>
    if 0 < s.captures then some ({ s.openDialog with captures := s.captures - 1 }, []) else none
  | s, .showLoadDialog => some (s.openDialog, [])
  | s, .openLoadMenu => some (s.pause.openDialog, [])
  | s, .onDismiss => if 0 < s.dialogs then some ({ s.resume with dialogs := s.dialogs - 1 }, []) else none

/-! ### The law, and when it holds -/

/-- The game stands still behind a menu, and runs in front of the player when there is none. -/
structure Still (s : State) : Prop where
  behind : s.MenuOpen → s.running = false
  front : s.resumed = true → ¬ s.MenuOpen → s.running = true

instance (s : State) : Decidable (Still s) :=
  decidable_of_iff ((s.MenuOpen → s.running = false) ∧ (s.resumed = true → ¬ s.MenuOpen → s.running = true))
    ⟨fun h => ⟨h.1, h.2⟩, fun h => ⟨h.behind, h.front⟩⟩

def Law (_ : State) (_ : Action) (t : State) (_ : List Empty) : Prop := Still t

instance (s : State) (a : Action) (t : State) (es : List Empty) : Decidable (Law s a t es) :=
  inferInstanceAs (Decidable (Still t))

/-- The step does not resume the GL thread while a menu stays open. -/
def LastToResume (s : State) : Action → Prop
  | .onResume => s.observed = true → ¬ s.MenuOpen
  | .addObserver => s.resumed = true → ¬ s.MenuOpen
  | .onDrawerClosed => s.dialogs = 0
  | .onDismiss => s.drawerOpen = false ∧ s.dialogs = 1
  | _ => True

def Condition (s : State) (a : Action) (_ : State) (_ : List Empty) : Prop := LastToResume s a

/-- Who has paused: a menu, or the observer that is to resume with the Activity. -/
structure Inv (s : State) : Prop where
  behind : s.MenuOpen → s.running = false
  paused : s.running = false → s.MenuOpen ∨ s.observed = true ∧ s.resumed = false

theorem inv_start : Inv {} := ⟨by decide, by decide⟩

variable {s t : State} {a : Action} {es : List Empty}

theorem Inv.still (h : Inv s) : Still s := by
  refine ⟨h.behind, fun hresumed hclosed => ?_⟩
  rcases hrunning : s.running with _ | _
  · rcases h.paused hrunning with hopen | ⟨-, hpaused⟩
    · exact absurd hopen hclosed
    · rw [hresumed] at hpaused; cases hpaused
  · rfl

/-- A menu opens, and its owner pauses. -/
theorem inv_pause (h : t.running = false) (hopen : t.MenuOpen) : Inv t :=
  ⟨fun _ => h, fun _ => .inl hopen⟩

/-- Nobody's menu is open, and the GL thread runs. -/
theorem inv_resume (h : t.running = true) (hclosed : ¬ t.MenuOpen) : Inv t :=
  ⟨fun hopen => absurd hopen hclosed, fun hpaused => by rw [h] at hpaused; cases hpaused⟩

theorem not_menuOpen : ¬ s.MenuOpen ↔ s.drawerOpen = false ∧ s.dialogs = 0 := by
  simp [State.MenuOpen]

theorem inv_step (hs : Inv s) (h : step s a = some (t, es)) (ha : LastToResume s a) : Inv t := by
  cases a with
  | onResume =>
    simp only [step] at h
    split at h
    · cases h
    · obtain ⟨rfl, -⟩ := Prod.mk.inj (Option.some.inj h)
      rcases hobserved : s.observed with _ | _
      · refine ⟨hs.behind, fun hpaused => ?_⟩
        rcases hs.paused hpaused with hopen | ⟨hattached, -⟩
        · exact .inl hopen
        · rw [hobserved] at hattached; cases hattached
      · exact inv_resume rfl (ha hobserved)
  | onPause =>
    rcases hobserved : s.observed with _ | _ <;> simp only [step, hobserved] at h <;> split at h
    · obtain ⟨rfl, -⟩ := Prod.mk.inj (Option.some.inj h)
      refine ⟨hs.behind, fun hpaused => (hs.paused hpaused).imp_right fun hattached => ?_⟩
      rw [hobserved] at hattached
      exact absurd hattached.1 nofun
    · cases h
    · obtain ⟨rfl, -⟩ := Prod.mk.inj (Option.some.inj h)
      exact ⟨fun _ => rfl, fun _ => .inr ⟨rfl, rfl⟩⟩
    · cases h
  | addObserver =>
    rcases hresumed : s.resumed with _ | _ <;> simp only [step, hresumed] at h <;> split at h
    · cases h
    · obtain ⟨rfl, -⟩ := Prod.mk.inj (Option.some.inj h)
      exact ⟨hs.behind, fun hpaused => (hs.paused hpaused).imp_right fun _ => ⟨rfl, rfl⟩⟩
    · cases h
    · obtain ⟨rfl, -⟩ := Prod.mk.inj (Option.some.inj h)
      exact inv_resume rfl (ha hresumed)
  | onDrawerOpened =>
    simp only [step] at h
    split at h
    · cases h
    · obtain ⟨rfl, -⟩ := Prod.mk.inj (Option.some.inj h)
      exact inv_pause rfl (.inl rfl)
  | onDrawerClosed =>
    simp only [step] at h
    split at h
    · obtain ⟨rfl, -⟩ := Prod.mk.inj (Option.some.inj h)
      exact inv_resume rfl (not_menuOpen.2 ⟨rfl, ha⟩)
    · cases h
  | showSaveDialog =>
    obtain ⟨rfl, -⟩ := Prod.mk.inj (Option.some.inj h)
    exact ⟨hs.behind, hs.paused⟩
  | showSaveDialogInternal =>
    simp only [step] at h
    split at h
    · obtain ⟨rfl, -⟩ := Prod.mk.inj (Option.some.inj h)
      exact inv_pause rfl (.inr (Nat.succ_pos _))
    · cases h
  | showLoadDialog | openLoadMenu =>
    obtain ⟨rfl, -⟩ := Prod.mk.inj (Option.some.inj h)
    exact inv_pause rfl (.inr (Nat.succ_pos _))
  | onDismiss =>
    simp only [step] at h
    split at h
    · obtain ⟨rfl, -⟩ := Prod.mk.inj (Option.some.inj h)
      exact inv_resume rfl (not_menuOpen.2 ⟨ha.1, by simp [ha.2]⟩)
    · cases h

/-- Whoever resumes while a menu stays open lets the game run behind it. -/
theorem lastToResume_of_still (h : step s a = some (t, es)) (ht : Still t) : LastToResume s a := by
  have hclosed : t.running = true → ¬ t.MenuOpen := by
    intro hrunning hopen
    rw [ht.behind hopen] at hrunning
    cases hrunning
  cases a with
  | onResume =>
    intro hobserved
    simp only [step, hobserved, if_true] at h
    split at h
    · cases h
    · obtain ⟨rfl, -⟩ := Prod.mk.inj (Option.some.inj h)
      exact hclosed rfl
  | addObserver =>
    intro hresumed
    simp only [step, hresumed, if_true] at h
    split at h
    · cases h
    · obtain ⟨rfl, -⟩ := Prod.mk.inj (Option.some.inj h)
      exact hclosed rfl
  | onDrawerClosed =>
    simp only [step] at h
    split at h
    · obtain ⟨rfl, -⟩ := Prod.mk.inj (Option.some.inj h)
      exact (not_menuOpen.1 (hclosed rfl)).2
    · cases h
  | onDismiss =>
    simp only [step] at h
    split at h
    · rename_i hshowing
      obtain ⟨rfl, -⟩ := Prod.mk.inj (Option.some.inj h)
      obtain ⟨hdrawer, hdialogs⟩ := not_menuOpen.1 (hclosed rfl)
      have hone : s.dialogs - 1 = 0 := hdialogs
      exact ⟨hdrawer, by omega⟩
    · cases h
  | onPause | onDrawerOpened | showSaveDialog | showSaveDialogInternal | showLoadDialog | openLoadMenu =>
    trivial

/-- The game stands still behind every menu of a run, and runs when there is none, exactly if in the run
nobody resumes while a menu stays open. -/
theorem pause_iff (as : List Action) : Along step Law {} as ↔ Along step Condition {} as :=
  along_iff (G := Law) (C := Condition)
    (fun hs h => ⟨lastToResume_of_still h, fun ha => (inv_step hs h ha).still⟩)
    (fun hs h ha => inv_step hs h ha) inv_start as

/-- The load dialog is opened from the drawer, and dismissed: the game runs behind the open drawer. -/
theorem runs_behind_drawer :
    ¬ Along step Law {} [.onResume, .addObserver, .onDrawerOpened, .showLoadDialog, .onDismiss] := by
  decide

end SweetHome.MenuPause
