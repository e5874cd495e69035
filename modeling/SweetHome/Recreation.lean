import SweetHome.ManualSaves

/-!
# The recreation of `GameActivity`

When the screen is rotated, `onSaveInstanceState` puts the state of the core into a bundle, and a new
activity is created with that bundle and the intent of the first launch. `onCreate` restores the bundle
only without the extra `new_game`, and then runs the other actions of the intent once more. So the game
goes on where it was exactly if the intent is neither a new game nor has another action that finds a
different state to restore, or resets the core (`keepsGame_iff`).
-/

namespace SweetHome.Recreation
open Step SaveStates
open ManualSaves (fileName autoSaveName)

/-- What the core goes on from; the frames since are not counted. -/
inductive CoreState where
  | powerOn
  | restored (data : Snapshot)
deriving DecidableEq, Repr

/-- The files of `filesDir` by their names, those included that the app does not write. -/
abbrev Files := String → Option SaveStates.Entry

def Files.saves (files : Files) : FilesDir := fun file => files (fileName file)

structure Intent where
  newGame : Bool := false
  testRom : Bool := false
  loadLastManualSave : Bool := false
  saveFileName : Option String := none
  openLoadMenu : Bool := false
deriving DecidableEq, Repr

namespace Intent

/-- The extras that `onCreate` reads before the first frame. -/
def extras (intent : Intent) : Extras where
  newGame := intent.newGame
  testRom := intent.testRom
  loadLastManualSave := intent.loadLastManualSave

/-- The file of `save_file`, unless the name is null or empty or there is no such file. -/
def saveFile (intent : Intent) (files : Files) : Option SaveStates.Entry :=
  (intent.saveFileName.filter (· ≠ "")).bind files

end Intent

section
variable (retroUnserialize : Snapshot → Bool)

/-- A state that the core has serialized, which it takes back. -/
abbrev Serialized := { data : Snapshot // retroUnserialize data = true }

/-- The core stays as it is where it does not take the state. -/
def unserializeState (core : CoreState) (data : Snapshot) : CoreState :=
  if retroUnserialize data then .restored data else core

/-- The runnables that `onCreate` has posted, in their order. -/
def runPosted (z : Session) (core : CoreState) : CoreState :=
  z.posted.foldl (fun core p => unserializeState retroUnserialize core p.data) core

/-- The collectors that `onCreate` has launched, in their order. -/
def onFrameRendered (files : Files) (intent : Intent) (core : CoreState) : CoreState :=
  let core :=
    match intent.saveFile files with
    | some file => unserializeState retroUnserialize core file.data
    | none => core
  -- `reset`
  if intent.openLoadMenu then .powerOn else core

/-- An activity from the game load until its first frame has been rendered. -/
def startUp (files : Files) (intent : Intent) (savedInstanceState : Option Snapshot) : CoreState :=
  let z := SaveStates.onCreate files.saves intent.extras savedInstanceState
  onFrameRendered retroUnserialize files intent (runPosted retroUnserialize z .powerOn)

structure State where
  files : Files
  intent : Intent
  core : CoreState

inductive Action where
  /-- What the handlers of the menus and the other sessions write and delete. -/
  | write (name : String) (entry : Option SaveStates.Entry)
  /-- `paused` is what `onPause` serializes, `saved` what `onSaveInstanceState` does. -/
  | recreate (paused : Snapshot) (now : Nat) (saved : Serialized retroUnserialize)

/-- `onPause` saves automatically. -/
def onPause (s : State) (paused : Snapshot) (now : Nat) : Files :=
  Function.update s.files autoSaveName (some ⟨paused, now⟩)

def step : Step State (Action retroUnserialize) Empty
  | s, .write name entry => some ({ s with files := Function.update s.files name entry }, [])
  | s, .recreate paused now saved =>
    let files := onPause s paused now
    some ({ s with files := files, core := startUp retroUnserialize files s.intent (some saved) }, [])

def launch (files : Files) (intent : Intent) : State :=
  ⟨files, intent, startUp retroUnserialize files intent none⟩

end

section
variable {retroUnserialize : Snapshot → Bool}

/-! ### The law and the condition -/

def KeepsGame (_ : State) (a : Action retroUnserialize) (t : State) (_ : List Empty) : Prop :=
  match a with
  | .write _ _ => True
  | .recreate _ _ saved => t.core = .restored saved

/-- The file of `load_last_manual_save`. -/
def Intent.lastManualSave (intent : Intent) (files : Files) : Option SaveStates.Entry :=
  if intent.loadLastManualSave then (manualSave files.saves).bind files.saves else none

/-- The state that the intent restores itself: that of `save_file`, or else the last manual save. -/
def ownRestore (retroUnserialize : Snapshot → Bool) (files : Files) (intent : Intent) :
    Option Snapshot :=
  ((intent.saveFile files).map SaveStates.Entry.data).filter retroUnserialize <|>
    ((intent.lastManualSave files).map SaveStates.Entry.data).filter retroUnserialize

/-- The intent does not open the load menu, and it restores no state but the saved one; or else it is
not a new game. -/
def NothingOverrides (s : State) (a : Action retroUnserialize) (_ : State) (_ : List Empty) : Prop :=
  match a with
  | .write _ _ => True
  | .recreate paused now saved =>
    s.intent.openLoadMenu = false ∧
      match ownRestore retroUnserialize (onPause s paused now) s.intent with
      | some data => data = saved
      | none => s.intent.newGame = false

instance (s : State) (a : Action retroUnserialize) (t es) : Decidable (KeepsGame s a t es) := by
  unfold KeepsGame
  split <;> infer_instance

/-! ### What a start-up leaves -/

theorem unserializeState_option (core : CoreState) (file : Option SaveStates.Entry) :
    (match file with
      | some file => unserializeState retroUnserialize core file.data
      | none => core) = ((file.map SaveStates.Entry.data).filter retroUnserialize).elim core .restored := by
  rcases file with _ | file
  · rfl
  · unfold unserializeState
    cases h : retroUnserialize file.data <;> simp [Option.filter, h]

theorem runPosted_saved (files : Files) (intent : Intent) (saved : Serialized retroUnserialize) :
    runPosted retroUnserialize (SaveStates.onCreate files.saves intent.extras (some saved)) .powerOn =
      (((intent.lastManualSave files).map SaveStates.Entry.data).filter retroUnserialize).elim
        (if intent.newGame then .powerOn else .restored saved) .restored := by
  have hbundle : unserializeState retroUnserialize .powerOn saved = .restored saved.1 := by
    rw [unserializeState, if_pos saved.2]
  rw [← unserializeState_option]
  unfold runPosted SaveStates.onCreate Intent.lastManualSave Intent.extras
  rw [List.foldl_append]
  cases intent.newGame <;> cases intent.loadLastManualSave <;>
    rcases (manualSave files.saves).bind files.saves with _ | file <;> simp [hbundle, Posted.data]

/-- What the intent restores itself comes last, but for the reset of the load menu. -/
theorem startUp_saved (files : Files) (intent : Intent) (saved : Serialized retroUnserialize) :
    startUp retroUnserialize files intent (some saved) =
      if intent.openLoadMenu then .powerOn else
        (ownRestore retroUnserialize files intent).elim
          (if intent.newGame then .powerOn else .restored saved) .restored := by
  unfold startUp onFrameRendered ownRestore
  dsimp only
  rw [unserializeState_option, runPosted_saved]
  congr 1
  rcases ((intent.saveFile files).map SaveStates.Entry.data).filter retroUnserialize with _ | data <;> rfl

theorem keepsGame_step_iff {s t : State} {a : Action retroUnserialize} {es : List Empty}
    (h : step retroUnserialize s a = some (t, es)) :
    KeepsGame s a t es ↔ NothingOverrides s a t es := by
  cases a with
  | write name entry => exact Iff.rfl
  | recreate paused now saved =>
    obtain ⟨rfl, -⟩ := Prod.mk.inj (Option.some.inj h)
    simp only [KeepsGame, NothingOverrides, startUp_saved]
    rcases s.intent.openLoadMenu with _ | _
    · rcases ownRestore retroUnserialize (onPause s paused now) s.intent with _ | data
      · cases s.intent.newGame <;> simp
      · simp
    · simp

/-- For every intent, whatever files there are and come and go, and over any number of recreations: each
of them goes on from the state that it has saved exactly when nothing in the intent overrides it. -/
theorem keepsGame_iff (retroUnserialize : Snapshot → Bool) (files : Files) (intent : Intent)
    (as : List (Action retroUnserialize)) :
    Along (step retroUnserialize) KeepsGame (launch retroUnserialize files intent) as ↔
      Along (step retroUnserialize) NothingOverrides (launch retroUnserialize files intent) as := by
  refine along_iff (I := fun _ => True) (fun _ h => ?_) (fun _ _ _ => trivial) trivial as
  exact keepsGame_step_iff h

/-- A new game is rotated, and starts from the beginning again. -/
theorem new_game_restarts :
    ¬ Along (step fun _ => true) KeepsGame
      (launch (fun _ => true) (fun _ => none) { newGame := true })
      [.recreate ⟨.sweetHome, 0⟩ 0 ⟨⟨.sweetHome, 1⟩, rfl⟩] := by
  decide

end

end SweetHome.Recreation
