import SweetHome.Lib.Run
import Mathlib.Data.List.MinMax
import Mathlib.Logic.Function.Basic

/-!
# The saved states of `GameActivity`

The save files in `filesDir`, shared by all the sessions of `GameActivity`, whichever ROM they run.
A session serializes its core into the automatic save, a slot, the instance state or the rewind
buffer, and restores from each of them. The instance state and the rewind buffer stay with the ROM
of their session; the files are keyed by fixed names only, and nothing in them tells the ROM. So
whether the states stay apart is a matter of the order in which the sessions save and restore: they do
exactly if the last save to a file before it is restored is one of a session launched with the same
`test_rom` extra, and the test ROM saves automatically only before the main game has
(`neverCrosses_iff`).
-/

namespace SweetHome.SaveStates
open Step

inductive Rom where
  | sweetHome
  | pee240
deriving DecidableEq, Repr

def romFile (isTestRom : Bool) : Rom := if isTestRom then .pee240 else .sweetHome

/-- The bytes of one `retro_serialize` call: the ROM of the core that made them, and which call. -/
structure Snapshot where
  rom : Rom
  call : Nat
deriving DecidableEq, Repr

inductive SaveFile where
  | autoSave
  /-- `save_slot_0.sav` (the quicksave) to `save_slot_5.sav` -/
  | slot (slot : Fin 6)
  /-- The name `save_slot_$it.sav` with its dollar sign, which the search for the last manual save
  looks up and no code writes. -/
  | escapedSlot
deriving DecidableEq, Repr

structure Entry where
  data : Snapshot
  lastModified : Nat
deriving DecidableEq, Repr

abbrev FilesDir := SaveFile → Option Entry

structure Extras where
  newGame : Bool := false
  testRom : Bool := false
  loadLastManualSave : Bool := false
  saveFile : Option SaveFile := none
deriving DecidableEq, Repr

inductive Posted where
  | gameSaveState (data : Snapshot)
  | autoSave (loaded : Entry)
  | manualSave (loaded : Entry)

namespace Posted

def data : Posted → Snapshot
  | gameSaveState data => data
  | autoSave loaded => loaded.data
  | manualSave loaded => loaded.data

/-- The file that it was loaded from; the escaped name is never there. -/
def file : Posted → Option SaveFile
  | gameSaveState _ => none
  | autoSave _ => some .autoSave
  | manualSave _ => some (.slot 0)

def clearsRewind : Posted → Bool
  | manualSave _ => false
  | _ => true

end Posted

structure Session where
  extras : Extras
  posted : List Posted
  /-- The collector of the `save_file` extra waits for the first rendered frame. -/
  saveFilePending : Bool
  rewindBuffer : List Snapshot := []
  rewinding : Bool := false
  /-- The load dialog is open, with the `lastFile` it found when it was opened. -/
  loadDialog : Option (Option SaveFile) := none

structure State where
  files : FilesDir := fun _ => none
  session : Option Session := none
  bundles : List (Extras × Snapshot) := []
  rewindEnabled : Bool := true
  serialized : Nat := 0

inductive Action where
  | start (extras : Extras)
  | recreate (extras : Extras) (gameSaveState : Snapshot)
  | runPosted
  | frameRendered
  | rewindSampler
  | btnRewindDown
  | btnRewindUp
  | rewindTick
  | switchRewindEnable (isChecked : Bool)
  | onPause (now : Nat)
  | btnReturnToTitle (now : Nat)
  | btnPowerOff (now : Nat)
  | onSaveInstanceState
  /-- `saveToSlot` of the save dialog; `btnSave` is slot 0. -/
  | saveToSlot (slot : Fin 6) (now : Nat)
  | btnLoad
  | showLoadDialog
  | dismissLoadDialog
  | loadFromSlot (slot : Fin 6)
  | quickLoad
  | deleteSlot (slot : Fin 6)
  | onDestroy

inductive Event where
  | unserialize (rom : Rom) (data : Snapshot)
  | autoSave (old : Option Entry) (new : Entry)

/-! ### The files -/

theorem quickSlot_lt : 0 < 6 := by decide

/-- The slot of the quick saves. -/
def quickSlot : Fin 6 := ⟨0, quickSlot_lt⟩

def slots (l : List (Fin 6)) : List SaveFile := l.map .slot

/-- `slots.filter { it.exists() }.maxByOrNull { it.lastModified() }` -/
def lastFile (files : FilesDir) (slots : List SaveFile) : Option SaveFile :=
  (slots.filter fun f => (files f).isSome).argmax fun f => (files f).elim 0 Entry.lastModified

def btnLoadFile (files : FilesDir) : Option SaveFile :=
  if (files (.slot 0)).isSome then some (.slot 0) else lastFile files (slots [1, 2, 3, 4, 5])

def manualSave (files : FilesDir) : Option SaveFile :=
  if (files (.slot 0)).isSome then some (.slot 0) else
    ([1, 2, 3, 4, 5].map fun _ : Nat => SaveFile.escapedSlot).find? fun f => (files f).isSome

def onCreate (files : FilesDir) (extras : Extras) (savedInstanceState : Option Snapshot) : Session where
  extras := extras
  posted :=
    (if extras.newGame then [] else
      match savedInstanceState with
      | some data => [.gameSaveState data]
      | none => (files .autoSave).toList.map .autoSave) ++
    (if extras.loadLastManualSave then ((manualSave files).bind files).toList.map .manualSave else [])
  saveFilePending := extras.saveFile.isSome

/-! ### The steps of a session -/

/-- `(rewindBufferMaxDurationSec * 1000) / rewindIntervalMs`, fixed when the activity is built. -/
def rewindBufferMaxSize : Nat := (5 * 1000) / 500

namespace State

def serializeState (s : State) (z : Session) : State × Snapshot :=
  ({ s with serialized := s.serialized + 1 }, ⟨romFile z.extras.testRom, s.serialized⟩)

def writeFile (s : State) (z : Session) (f : SaveFile) (now : Nat) : State × Entry :=
  let (s, data) := s.serializeState z
  let new : Entry := ⟨data, now⟩
  ({ s with files := Function.update s.files f (some new) }, new)

def saveAutomatically (s : State) (z : Session) (now : Nat) : State × List Event :=
  let (t, new) := s.writeFile z .autoSave now
  (t, [.autoSave (s.files .autoSave) new])

end State

def Session.unserializeState (z : Session) (data : Snapshot) : List Event :=
  [.unserialize (romFile z.extras.testRom) data]

def stepSession (s : State) (z : Session) : Action → Option (State × List Event)
  | .runPosted =>
    match z.posted with
    | [] => none
    | p :: ps =>
      let z' := { z with posted := ps, rewindBuffer := if p.clearsRewind then [] else z.rewindBuffer }
      some ({ s with session := some z' }, z.unserializeState p.data)
  | .frameRendered =>
    match z.saveFilePending, z.extras.saveFile with
    | true, some f =>
      let z' := { z with saveFilePending := false }
      match s.files f with
      | some file => some ({ s with session := some { z' with rewindBuffer := [] } },
          z.unserializeState file.data)
      | none => some ({ s with session := some z' }, [])
    | _, _ => some (s, [])
  | .rewindSampler =>
    let (s, state) := s.serializeState z
    let buffer := z.rewindBuffer ++ [state]
    some ({ s with session := some { z with
      rewindBuffer := if buffer.length > rewindBufferMaxSize then buffer.tail else buffer } }, [])
  | .btnRewindDown =>
    some ({ s with session := some { z with rewinding := z.rewinding || s.rewindEnabled } }, [])
  | .btnRewindUp => some ({ s with session := some { z with rewinding := false } }, [])
  | .rewindTick =>
    if z.rewinding then
      match z.rewindBuffer.getLast? with
      | none => some ({ s with session := some { z with rewinding := false } }, [])
      | some state =>
        some ({ s with session := some { z with rewindBuffer := z.rewindBuffer.dropLast } },
          z.unserializeState state)
    else none
  | .switchRewindEnable isChecked =>
    some ({ s with
      rewindEnabled := isChecked
      session := some { z with rewindBuffer := if isChecked then z.rewindBuffer else [] } }, [])
  | .onPause now | .btnReturnToTitle now => some (s.saveAutomatically z now)
  | .btnPowerOff now =>
    let (s, es) := s.saveAutomatically z now
    some ({ s with session := none }, es)
  | .onSaveInstanceState =>
    let (s, data) := s.serializeState z
    some ({ s with bundles := (z.extras, data) :: s.bundles }, [])
  | .saveToSlot slot now => some ((s.writeFile z (.slot slot) now).1, [])
  | .btnLoad =>
    match (btnLoadFile s.files).bind s.files with
    | some file => some (s, z.unserializeState file.data)
    | none => some (s, [])
  | .showLoadDialog =>
    let last := lastFile s.files (slots [0, 1, 2, 3, 4, 5])
    some ({ s with session := some { z with loadDialog := some last } }, [])
  | .dismissLoadDialog => some ({ s with session := some { z with loadDialog := none } }, [])
  | .loadFromSlot slot =>
    match z.loadDialog, s.files (.slot slot) with
    | none, _ => none
    | some _, none => some (s, [])
    | some _, some file =>
      some ({ s with session := some { z with loadDialog := none } }, z.unserializeState file.data)
  | .quickLoad =>
    match z.loadDialog with
    | some (some last) =>
      match s.files last with
      | some file =>
        some ({ s with session := some { z with loadDialog := none } }, z.unserializeState file.data)
      -- the file has been deleted since the dialog was opened: `readBytes` throws in the handler
      | none => some ({ s with session := none }, [])
    | _ => none
  | .deleteSlot slot => some ({ s with files := Function.update s.files (.slot slot) none }, [])
  | .onDestroy => some ({ s with session := none }, [])
  | .start _ | .recreate _ _ => none

def step : Step State Action Event
  | s, a =>
    match s.session, a with
    | none, .start extras => some ({ s with session := some (onCreate s.files extras none) }, [])
    | none, .recreate extras data =>
      if (extras, data) ∈ s.bundles then
        some ({ s with session := some (onCreate s.files extras (some data)) }, [])
      else none
    | none, _ => none
    | some z, a => stepSession s z a

/-! ### The law and the condition -/

/-- A state goes back into the ROM that it came from, and the automatic save of the main game is not
replaced by one of the test ROM. -/
def RomsMatch : Event → Prop
  | .unserialize rom data => data.rom = rom
  | .autoSave old new => new.data.rom = .pee240 → ∀ o ∈ old, o.data.rom ≠ .sweetHome

instance : DecidablePred RomsMatch
  | .unserialize rom data => inferInstanceAs (Decidable (data.rom = rom))
  | .autoSave old new =>
    inferInstanceAs (Decidable (new.data.rom = .pee240 → ∀ o ∈ old, o.data.rom ≠ .sweetHome))

def NeverCrosses (_ : State) (_ : Action) (_ : State) (es : List Event) : Prop :=
  ∀ e ∈ es, RomsMatch e

instance (s a t es) : Decidable (NeverCrosses s a t es) := by unfold NeverCrosses; infer_instance

namespace Action

/-- The `test_rom` extra of the session that the action launches. -/
def launches? : Action → Option Bool
  | start extras | recreate extras _ => some extras.testRom
  | _ => none

/-- The file that the action saves to. -/
def saves? : Action → Option SaveFile
  | onPause _ | btnReturnToTitle _ | btnPowerOff _ => some .autoSave
  | saveToSlot slot _ => some (.slot slot)
  | _ => none

end Action

/-! The past of a run is the list of its actions, the latest first. -/

/-- The `test_rom` extra of the session that is running. -/
def launched (past : List Action) : Option Bool := past.findSome? Action.launches?

def untilLaunch (past : List Action) : List Action := past.dropWhile fun a => a.launches?.isNone

/-- The `test_rom` extras of the sessions that have saved to the file, the latest save first. -/
def savers (f : SaveFile) : List Action → List Bool
  | [] => []
  | a :: past => if a.saves? = some f then (launched past).toList ++ savers f past else savers f past

def existing (files : FilesDir) (f : SaveFile) : Option SaveFile :=
  if (files f).isSome then some f else none

/-- The save file that the action restores. -/
def Session.restores (z : Session) (files : FilesDir) : Action → Option SaveFile
  | .runPosted => z.posted.head?.bind Posted.file
  | .frameRendered => if z.saveFilePending then z.extras.saveFile.bind (existing files) else none
  | .btnLoad => (btnLoadFile files).bind (existing files)
  | .loadFromSlot slot => z.loadDialog.bind fun _ => existing files (.slot slot)
  | .quickLoad => z.loadDialog.bind fun last => last.bind (existing files)
  | _ => none

/-- What has been done when the file is read: `onCreate` reads what it posts. -/
def Action.readsAfter (past : List Action) : Action → List Action
  | .runPosted => untilLaunch past
  | _ => past

/-- The last save to a file before it is read for a restore is one of a session launched with the same
`test_rom` extra, and the test ROM saves automatically only before the main game has. -/
def KeepsApart : State × List Action → Action → State × List Action → List Event → Prop
  | (s, past), a, _, _ =>
    (∀ z ∈ s.session, ∀ f ∈ z.restores s.files a, (savers f (a.readsAfter past)).head? = launched past) ∧
    (a.saves? = some .autoSave → launched past = some true → false ∉ savers .autoSave past)

/-! ### Every state in a file is of the ROM that its last saver ran -/

section
variable {past : List Action} {a : Action} {f : SaveFile}

theorem romFile_inj {a b : Bool} : romFile a = romFile b ↔ a = b := by
  cases a <;> cases b <;> decide

theorem launched_of_launches {testRom : Bool} (h : a.launches? = some testRom) :
    launched (a :: past) = some testRom := by
  simp [launched, h]

theorem launched_of_none (h : a.launches? = none) : launched (a :: past) = launched past := by
  simp [launched, h]

theorem untilLaunch_of_launches {testRom : Bool} (h : a.launches? = some testRom) :
    untilLaunch (a :: past) = a :: past := by
  simp [untilLaunch, h]

theorem untilLaunch_of_none (h : a.launches? = none) : untilLaunch (a :: past) = untilLaunch past := by
  simp [untilLaunch, h]

theorem savers_of_saves {testRom : Bool} (h : a.saves? = some f) (hl : launched past = some testRom) :
    savers f (a :: past) = testRom :: savers f past := by
  simp [savers, h, hl]

theorem savers_of_ne (h : a.saves? ≠ some f) : savers f (a :: past) = savers f past := by
  simp [savers, h]

theorem saves_of_launches {testRom : Bool} (h : a.launches? = some testRom) : a.saves? = none := by
  cases a <;> first | rfl | cases h

theorem saves_ne_escapedSlot : a.saves? ≠ some .escapedSlot := by
  cases a <;> simp [Action.saves?]

/-- No code writes the escaped name. -/
theorem savers_escapedSlot (past : List Action) : savers .escapedSlot past = [] := by
  induction past with
  | nil => rfl
  | cons a past ih => rw [savers_of_ne saves_ne_escapedSlot, ih]

def Snapshot.SavedTo (d : Snapshot) (f : SaveFile) (past : List Action) : Prop :=
  (savers f past).head?.map romFile = some d.rom

def Posted.Attributed (p : Posted) (past : List Action) (testRom : Bool) : Prop :=
  match p.file with
  | none => p.data.rom = romFile testRom
  | some f => p.data.SavedTo f (untilLaunch past)

structure Session.Attributed (z : Session) (past : List Action) : Prop where
  launched : launched past = some z.extras.testRom
  posted : ∀ p ∈ z.posted, p.Attributed past z.extras.testRom
  rewindBuffer : ∀ d ∈ z.rewindBuffer, d.rom = romFile z.extras.testRom

structure Inv (p : State × List Action) : Prop where
  files : ∀ f, ∀ e ∈ p.1.files f, e.data.SavedTo f p.2
  /-- The automatic save is never deleted. -/
  autoSave : p.1.files .autoSave = none → savers .autoSave p.2 = []
  /-- The automatic saves of the test ROM come first. -/
  ordered : (savers .autoSave p.2).head? = some true → false ∉ savers .autoSave p.2
  bundles : ∀ b ∈ p.1.bundles, b.2.rom = romFile b.1.testRom
  session : ∀ z ∈ p.1.session, z.Attributed p.2

theorem inv_init : Inv ({}, []) := by
  refine ⟨?_, ?_, ?_, ?_, ?_⟩ <;> simp [savers]

end

section
variable {s t : State} {z : Session} {past : List Action} {a : Action} {es : List Event}

theorem manualSave_eq_slot (hi : Inv (s, past)) {f : SaveFile} {e : Entry} (hf : f ∈ manualSave s.files)
    (he : e ∈ s.files f) : f = .slot 0 := by
  simp only [manualSave] at hf
  split at hf
  · exact (Option.some.inj hf).symm
  · obtain ⟨-, -, rfl⟩ := List.mem_map.1 (List.mem_of_find?_eq_some hf)
    have hsaved := hi.files .escapedSlot e he
    simp [Snapshot.SavedTo, savers_escapedSlot] at hsaved

theorem attributed_onCreate (hi : Inv (s, past)) {extras : Extras} (hl : a.launches? = some extras.testRom)
    (saved : Option Snapshot) (hsaved : ∀ d ∈ saved, d.rom = romFile extras.testRom) :
    (onCreate s.files extras saved).Attributed (a :: past) := by
  have hfiles : ∀ f, ∀ e ∈ s.files f, e.data.SavedTo f (untilLaunch (a :: past)) := by
    intro f e he
    rw [untilLaunch_of_launches hl, Snapshot.SavedTo, savers_of_ne (by simp [saves_of_launches hl])]
    exact hi.files f e he
  refine ⟨launched_of_launches hl, ?_, by simp [onCreate]⟩
  intro p hp
  simp only [onCreate, List.mem_append] at hp
  rcases hp with hp | hp
  · split at hp
    · cases hp
    · rcases saved with _ | data
      · obtain ⟨e, he, rfl⟩ := List.mem_map.1 hp
        exact hfiles .autoSave e (by simpa using he)
      · obtain rfl : p = .gameSaveState data := by simpa using hp
        exact hsaved data rfl
  · split at hp
    · obtain ⟨e, he, rfl⟩ := List.mem_map.1 hp
      obtain ⟨f, hf, he⟩ := Option.bind_eq_some_iff.1 (by simpa using he)
      obtain rfl := manualSave_eq_slot hi hf he
      exact hfiles (.slot 0) e he
    · cases hp

/-- What a step of a session can leave behind: what was there, and states of its own ROM. -/
structure Leaves (s : State) (z : Session) (a : Action) (t : State) : Prop where
  launches : a.launches? = none
  saved : ∀ f, a.saves? = some f → ∃ e ∈ t.files f, e.data.rom = romFile z.extras.testRom
  kept : ∀ f, a.saves? ≠ some f → t.files f = s.files f ∨ t.files f = none ∧ f ≠ .autoSave
  bundles : ∀ b ∈ t.bundles, b ∈ s.bundles ∨ b.2.rom = romFile b.1.testRom
  session : ∀ z' ∈ t.session, z'.extras = z.extras ∧ z'.posted ⊆ z.posted ∧
    ∀ d ∈ z'.rewindBuffer, d ∈ z.rewindBuffer ∨ d.rom = romFile z.extras.testRom

theorem Leaves.savedTo (h : Leaves s z a t) (hi : Inv (s, past)) (hz : s.session = some z) (f : SaveFile)
    (e : Entry) (he : e ∈ t.files f) : e.data.SavedTo f (a :: past) := by
  have hl := (hi.session z hz).launched
  by_cases hf : a.saves? = some f
  · obtain ⟨e', he', hrom⟩ := h.saved f hf
    obtain rfl : e = e' := Option.some.inj (he.symm.trans he')
    rw [Snapshot.SavedTo, savers_of_saves hf hl, hrom]
    rfl
  · rw [Snapshot.SavedTo, savers_of_ne hf]
    rcases h.kept f hf with hsame | ⟨hnone, -⟩
    · exact hi.files f e (hsame ▸ he)
    · rw [hnone] at he
      cases he

theorem Leaves.autoSave (h : Leaves s z a t) (hi : Inv (s, past)) (hnone : t.files .autoSave = none) :
    savers .autoSave (a :: past) = [] := by
  by_cases hf : a.saves? = some .autoSave
  · obtain ⟨e, he, -⟩ := h.saved _ hf
    rw [hnone] at he
    cases he
  · rw [savers_of_ne hf]
    rcases h.kept _ hf with hsame | ⟨-, hne⟩
    · exact hi.autoSave (hsame ▸ hnone)
    · exact absurd rfl hne

theorem ordered_step (hi : Inv (s, past)) (hz : s.session = some z)
    (hC : a.saves? = some .autoSave → launched past = some true → false ∉ savers .autoSave past)
    (htest : (savers .autoSave (a :: past)).head? = some true) : false ∉ savers .autoSave (a :: past) := by
  have hl := (hi.session z hz).launched
  by_cases hf : a.saves? = some .autoSave
  · rw [savers_of_saves hf hl] at htest ⊢
    have htrue : z.extras.testRom = true := by simpa using htest
    simp only [htrue, List.mem_cons, Bool.false_eq_true, false_or]
    exact hC hf (htrue ▸ hl)
  · rw [savers_of_ne hf] at htest ⊢
    exact hi.ordered htest

theorem Leaves.inv (h : Leaves s z a t) (hi : Inv (s, past)) (hz : s.session = some z)
    (hC : a.saves? = some .autoSave → launched past = some true → false ∉ savers .autoSave past) :
    Inv (t, a :: past) := by
  have hsession := hi.session z hz
  refine ⟨h.savedTo hi hz, h.autoSave hi, ordered_step hi hz hC, ?_, ?_⟩
  · intro b hb
    exact (h.bundles b hb).elim (hi.bundles b) id
  · intro z' hz'
    obtain ⟨hx, hp, hr⟩ := h.session z' hz'
    constructor
    · rw [launched_of_none h.launches, hx]
      exact hsession.launched
    · intro p hmem
      have hposted := hsession.posted p (hp hmem)
      rw [Posted.Attributed] at hposted ⊢
      rwa [hx, untilLaunch_of_none h.launches]
    · intro d hd
      rw [hx]
      exact (hr d hd).elim (hsession.rewindBuffer d) id

theorem leaves_session {o : Option Session} {r : Bool} {k : Nat} (hl : a.launches? = none) (hs : a.saves? = none)
    (h : ∀ z' ∈ o, z'.extras = z.extras ∧ z'.posted ⊆ z.posted ∧ z'.rewindBuffer ⊆ z.rewindBuffer) :
    Leaves s z a { s with session := o, rewindEnabled := r, serialized := k } := by
  refine ⟨hl, by simp [hs], fun _ _ => .inl rfl, fun _ hb => .inl hb, ?_⟩
  intro z' hz'
  obtain ⟨hx, hp, hr⟩ := h z' hz'
  exact ⟨hx, hp, fun d hd => .inl (hr hd)⟩

theorem leaves_files {o : Option Session} {f : SaveFile} {new : Option Entry} {k : Nat} (hl : a.launches? = none)
    (ho : ∀ z' ∈ o, z' = z)
    (hnew : a.saves? = some f ∧ (∃ e ∈ new, e.data.rom = romFile z.extras.testRom) ∨
      a.saves? = none ∧ new = none ∧ f ≠ .autoSave) :
    Leaves s z a { s with files := Function.update s.files f new, session := o, serialized := k } := by
  refine ⟨hl, ?_, ?_, fun _ hb => .inl hb, ?_⟩
  · intro g hg
    rcases hnew with ⟨hf, hnew⟩ | ⟨hnone, -⟩
    · obtain rfl : f = g := Option.some.inj (hf.symm.trans hg)
      simpa using hnew
    · rw [hnone] at hg
      cases hg
  · intro g hg
    by_cases hgf : g = f
    · subst hgf
      rcases hnew with ⟨hf, -⟩ | ⟨-, rfl, hauto⟩
      · exact absurd hf hg
      · exact .inr ⟨by simp, hauto⟩
    · exact .inl (by simp [hgf])
  · intro z' hz'
    rw [ho z' hz']
    exact ⟨rfl, fun _ hp => hp, fun _ hd => .inl hd⟩

theorem leaves_stepSession (hz : s.session = some z) (h : stepSession s z a = some (t, es)) :
    Leaves s z a t := by
  have hsame : a.launches? = none → a.saves? = none → Leaves s z a s := fun hl hs =>
    leaves_session (o := s.session) hl hs (by simp [hz])
  cases a with
  | runPosted =>
    simp only [stepSession] at h
    split at h
    · cases h
    · obtain ⟨rfl, -⟩ := Prod.mk.inj (Option.some.inj h)
      refine leaves_session rfl rfl ?_
      rintro _ ⟨⟩
      refine ⟨rfl, by simp_all, ?_⟩
      simp only
      split <;> simp
  | frameRendered =>
    simp only [stepSession] at h
    split at h
    · split at h
      all_goals
        obtain ⟨rfl, -⟩ := Prod.mk.inj (Option.some.inj h)
        exact leaves_session rfl rfl (by simp)
    · obtain ⟨rfl, -⟩ := Prod.mk.inj (Option.some.inj h)
      exact hsame rfl rfl
  | rewindSampler =>
    obtain ⟨rfl, -⟩ := Prod.mk.inj (Option.some.inj h)
    refine ⟨rfl, by simp [Action.saves?], fun _ _ => .inl rfl, fun _ hb => .inl hb, ?_⟩
    rintro _ ⟨⟩
    refine ⟨rfl, fun _ hp => hp, ?_⟩
    intro d hd
    have hmem : d ∈ z.rewindBuffer ++ [(s.serializeState z).2] := by
      simp only at hd
      split at hd
      · exact List.mem_of_mem_tail hd
      · exact hd
    rcases List.mem_append.1 hmem with hd | hd
    · exact .inl hd
    · rw [List.mem_singleton.1 hd]; exact .inr rfl
  | rewindTick =>
    simp only [stepSession] at h
    split at h
    · split at h
      all_goals obtain ⟨rfl, -⟩ := Prod.mk.inj (Option.some.inj h)
      · exact leaves_session rfl rfl (by simp)
      · exact leaves_session rfl rfl (by simp [List.dropLast_subset])
    · cases h
  | switchRewindEnable isChecked =>
    obtain ⟨rfl, -⟩ := Prod.mk.inj (Option.some.inj h)
    exact leaves_session rfl rfl (by cases isChecked <;> simp)
  | btnRewindDown | btnRewindUp | showLoadDialog | dismissLoadDialog | onDestroy =>
    obtain ⟨rfl, -⟩ := Prod.mk.inj (Option.some.inj h)
    exact leaves_session rfl rfl (by simp)
  | onPause now | btnReturnToTitle now | saveToSlot slot now =>
    obtain ⟨rfl, -⟩ := Prod.mk.inj (Option.some.inj h)
    exact leaves_files rfl (by simp [hz]) (.inl ⟨rfl, _, rfl, rfl⟩)
  | deleteSlot slot =>
    obtain ⟨rfl, -⟩ := Prod.mk.inj (Option.some.inj h)
    exact leaves_files rfl (by simp [hz]) (.inr ⟨rfl, rfl, by simp⟩)
  | btnPowerOff now =>
    obtain ⟨rfl, -⟩ := Prod.mk.inj (Option.some.inj h)
    exact leaves_files rfl (by simp) (.inl ⟨rfl, _, rfl, rfl⟩)
  | onSaveInstanceState =>
    obtain ⟨rfl, -⟩ := Prod.mk.inj (Option.some.inj h)
    refine ⟨rfl, by simp [Action.saves?], fun _ _ => .inl rfl, ?_, (hsame rfl rfl).session⟩
    intro b hb
    rcases List.mem_cons.1 hb with rfl | hb
    · exact .inr rfl
    · exact .inl hb
  | btnLoad =>
    simp only [stepSession] at h
    split at h
    all_goals
      obtain ⟨rfl, -⟩ := Prod.mk.inj (Option.some.inj h)
      exact hsame rfl rfl
  | loadFromSlot slot =>
    simp only [stepSession] at h
    split at h
    · cases h
    all_goals obtain ⟨rfl, -⟩ := Prod.mk.inj (Option.some.inj h)
    · exact hsame rfl rfl
    · exact leaves_session rfl rfl (by simp)
  | quickLoad =>
    simp only [stepSession] at h
    split at h
    · split at h
      all_goals
        obtain ⟨rfl, -⟩ := Prod.mk.inj (Option.some.inj h)
        exact leaves_session rfl rfl (by simp)
    · cases h
  | start extras => cases h
  | recreate extras data => cases h

/-! ### What a step of a session passes to the core and to the automatic save -/

def Session.Keeps (z : Session) (d : Snapshot) : Prop :=
  .gameSaveState d ∈ z.posted ∨ d ∈ z.rewindBuffer

/-- What the action gets of the file: the runnables have it from `onCreate`. -/
def Session.reads (z : Session) (files : FilesDir) (f : SaveFile) : Action → Option Snapshot
  | .runPosted => z.posted.head?.map Posted.data
  | _ => (files f).map Entry.data

/-- The events of a step: it passes on nothing, a state that the session keeps, or the file that it restores, or it
saves automatically. -/
inductive Passes (s : State) (z : Session) (a : Action) : List Event → Prop
  | nothing (hr : z.restores s.files a = none) (ha : a.saves? ≠ some .autoSave) : Passes s z a []
  | kept (hr : z.restores s.files a = none) (ha : a.saves? ≠ some .autoSave) {d : Snapshot} (hd : z.Keeps d) :
    Passes s z a (z.unserializeState d)
  | file {f : SaveFile} {d : Snapshot} (hr : z.restores s.files a = some f) (ha : a.saves? ≠ some .autoSave)
    (hd : z.reads s.files f a = some d) : Passes s z a (z.unserializeState d)
  | save (hr : z.restores s.files a = none) (ha : a.saves? = some .autoSave) (now : Nat) :
    Passes s z a [.autoSave (s.files .autoSave) (s.writeFile z .autoSave now).2]

theorem existing_of_some {files : FilesDir} {f : SaveFile} {e : Entry} (h : files f = some e) :
    existing files f = some f := by
  simp [existing, h]

theorem existing_of_none {files : FilesDir} {f : SaveFile} (h : files f = none) : existing files f = none := by
  simp [existing, h]

theorem stepSession_events (h : stepSession s z a = some (t, es)) : Passes s z a es := by
  cases a with
  | runPosted =>
    simp only [stepSession] at h
    split at h
    · cases h
    · rename_i p ps hp
      obtain ⟨-, rfl⟩ := Prod.mk.inj (Option.some.inj h)
      match p with
      | .gameSaveState d =>
        have hkeeps : z.Keeps d := .inl (by simp [hp])
        exact .kept (by simp [Session.restores, hp, Posted.file]) (by simp [Action.saves?]) hkeeps
      | .autoSave loaded =>
        have hr : z.restores s.files .runPosted = some .autoSave := by simp [Session.restores, hp, Posted.file]
        exact .file hr (by simp [Action.saves?]) (by simp [Session.reads, hp])
      | .manualSave loaded =>
        have hr : z.restores s.files .runPosted = some (.slot 0) := by simp [Session.restores, hp, Posted.file]
        exact .file hr (by simp [Action.saves?]) (by simp [Session.reads, hp])
  | frameRendered =>
    simp only [stepSession] at h
    split at h
    · rename_i f hpending hfile
      have hr : z.restores s.files .frameRendered = existing s.files f := by
        simp [Session.restores, hpending, hfile]
      split at h <;> rename_i hf <;> obtain ⟨-, rfl⟩ := Prod.mk.inj (Option.some.inj h)
      · exact .file (hr.trans (existing_of_some hf)) (by simp [Action.saves?]) (by simp [Session.reads, hf])
      · exact .nothing (hr.trans (existing_of_none hf)) (by simp [Action.saves?])
    · rename_i hnone
      obtain ⟨-, rfl⟩ := Prod.mk.inj (Option.some.inj h)
      refine .nothing ?_ (by simp [Action.saves?])
      simp only [Session.restores]
      split
      · rcases hfile : z.extras.saveFile with _ | f
        · rfl
        · exact absurd hfile (hnone f ‹_›)
      · rfl
  | rewindTick =>
    simp only [stepSession] at h
    split at h
    · split at h <;> obtain ⟨-, rfl⟩ := Prod.mk.inj (Option.some.inj h)
      · exact .nothing rfl (by simp [Action.saves?])
      · exact .kept rfl (by simp [Action.saves?]) (.inr (List.mem_of_getLast? ‹_›))
    · cases h
  | btnLoad =>
    simp only [stepSession] at h
    split at h <;> rename_i hfile <;> obtain ⟨-, rfl⟩ := Prod.mk.inj (Option.some.inj h)
    · obtain ⟨f, hf, hfile⟩ := Option.bind_eq_some_iff.1 hfile
      have hr : z.restores s.files .btnLoad = some f := by simp [Session.restores, hf, existing_of_some hfile]
      exact .file hr (by simp [Action.saves?]) (by simp [Session.reads, hfile])
    · refine .nothing ?_ (by simp [Action.saves?])
      rcases hf : btnLoadFile s.files with _ | f
      · simp [Session.restores, hf]
      · rw [hf, Option.bind_some] at hfile
        simp [Session.restores, hf, existing_of_none hfile]
  | loadFromSlot slot =>
    simp only [stepSession] at h
    split at h
    · cases h
    all_goals
      rename_i hd hf
      obtain ⟨-, rfl⟩ := Prod.mk.inj (Option.some.inj h)
      have hr : z.restores s.files (.loadFromSlot slot) = existing s.files (.slot slot) := by
        simp [Session.restores, hd]
    · exact .nothing (hr.trans (existing_of_none hf)) (by simp [Action.saves?])
    · exact .file (hr.trans (existing_of_some hf)) (by simp [Action.saves?]) (by simp [Session.reads, hf])
  | quickLoad =>
    simp only [stepSession] at h
    split at h
    · rename_i last hd
      have hr : z.restores s.files .quickLoad = existing s.files last := by simp [Session.restores, hd]
      split at h <;> rename_i hf <;> obtain ⟨-, rfl⟩ := Prod.mk.inj (Option.some.inj h)
      · exact .file (hr.trans (existing_of_some hf)) (by simp [Action.saves?]) (by simp [Session.reads, hf])
      · exact .nothing (hr.trans (existing_of_none hf)) (by simp [Action.saves?])
    · cases h
  | onPause now | btnReturnToTitle now | btnPowerOff now =>
    obtain ⟨-, rfl⟩ := Prod.mk.inj (Option.some.inj h)
    exact .save rfl rfl now
  | rewindSampler | btnRewindDown | btnRewindUp | switchRewindEnable | onSaveInstanceState
  | saveToSlot | showLoadDialog | dismissLoadDialog | deleteSlot | onDestroy =>
    obtain ⟨-, rfl⟩ := Prod.mk.inj (Option.some.inj h)
    exact .nothing rfl (by simp [Action.saves?])
  | start extras => cases h
  | recreate extras data => cases h

theorem Session.Attributed.keeps (hz : z.Attributed past) {d : Snapshot} (h : z.Keeps d) :
    d.rom = romFile z.extras.testRom := by
  rcases h with h | h
  · exact hz.posted _ h
  · exact hz.rewindBuffer d h

theorem savedTo_reads (hi : Inv (s, past)) (hz : s.session = some z) {f : SaveFile} {d : Snapshot}
    (hr : z.restores s.files a = some f) (hd : z.reads s.files f a = some d) : d.SavedTo f (a.readsAfter past) := by
  have hfile : ∀ {o : Option Entry}, o = s.files f → o.map Entry.data = some d → d.SavedTo f past := by
    rintro _ rfl h
    obtain ⟨e, he, rfl⟩ := Option.map_eq_some_iff.1 h
    exact hi.files f e he
  cases a with
  | runPosted =>
    obtain ⟨p, hp, hf⟩ := Option.bind_eq_some_iff.1 hr
    obtain ⟨q, hq, rfl⟩ := Option.map_eq_some_iff.1 hd
    obtain rfl : p = q := Option.some.inj (hp.symm.trans hq)
    have hposted := (hi.session z hz).posted p (List.mem_of_head? hp)
    rwa [Posted.Attributed, hf] at hposted
  | _ => exact hfile rfl hd

theorem keepsApart_iff (hi : Inv (s, past)) (hz : s.session = some z) {q : State × List Action} :
    KeepsApart (s, past) a q es ↔
      (∀ f ∈ z.restores s.files a, (savers f (a.readsAfter past)).head? = some z.extras.testRom) ∧
      (a.saves? = some .autoSave → z.extras.testRom = true → false ∉ savers .autoSave past) := by
  simp [KeepsApart, hz, (hi.session z hz).launched]

/-- The test ROM overwrites nothing of the main game exactly if the main game has not saved automatically. -/
theorem overwrites_iff (hi : Inv (s, past)) :
    (∀ old ∈ s.files .autoSave, old.data.rom ≠ .sweetHome) ↔ false ∉ savers .autoSave past := by
  rcases hold : s.files .autoSave with _ | old
  · simp [hi.autoSave hold]
  · have hsaved := hi.files .autoSave old hold
    obtain ⟨last, hlast, hrom⟩ := Option.map_eq_some_iff.1 hsaved
    have hforall : (∀ o ∈ some old, o.data.rom ≠ .sweetHome) ↔ last = true := by
      simp only [Option.mem_def, Option.some.injEq, forall_eq', ← hrom]
      cases last <;> decide
    rw [hforall]
    constructor
    · rintro rfl
      exact hi.ordered hlast
    · intro hnone
      rcases last with _ | _
      · exact absurd (List.mem_of_head? hlast) hnone
      · rfl

theorem stepSession_iff (hi : Inv (s, past)) (hz : s.session = some z) (h : stepSession s z a = some (t, es))
    {q : State × List Action} : NeverCrosses s a t es ↔ KeepsApart (s, past) a q es := by
  rw [keepsApart_iff hi hz]
  cases stepSession_events h with
  | nothing hr ha => exact iff_of_true (by simp [NeverCrosses]) ⟨by simp [hr], fun hs => absurd hs ha⟩
  | kept hr ha hd =>
    refine iff_of_true ?_ ⟨by simp [hr], fun hs => absurd hs ha⟩
    simpa [NeverCrosses, Session.unserializeState, RomsMatch] using (hi.session z hz).keeps hd
  | @file f d hr ha hd =>
    have hsaved := savedTo_reads hi hz hr hd
    obtain ⟨last, hlast, hrom⟩ := Option.map_eq_some_iff.1 hsaved
    simp [NeverCrosses, Session.unserializeState, RomsMatch, hr, ha, hlast, ← hrom, romFile_inj]
  | save hr ha now =>
    have hnew : (s.writeFile z .autoSave now).2.data.rom = .pee240 ↔ z.extras.testRom = true := by
      simp only [State.writeFile, State.serializeState]
      cases z.extras.testRom <;> decide
    have hlaw : NeverCrosses s a t [.autoSave (s.files .autoSave) (s.writeFile z .autoSave now).2] ↔
        (z.extras.testRom = true → ∀ old ∈ s.files .autoSave, old.data.rom ≠ .sweetHome) := by
      simp only [NeverCrosses, List.forall_mem_singleton, RomsMatch, hnew]
    rw [hlaw, overwrites_iff hi]
    constructor
    · intro hg
      exact ⟨by simp [hr], fun _ => hg⟩
    · intro hg
      exact hg.2 ha

/-! ### Runs -/

theorem step_cases (h : step s a = some (t, es)) :
    (s.session = none ∧ es = [] ∧ ∃ extras saved, a.launches? = some extras.testRom ∧
      t = { s with session := some (onCreate s.files extras saved) } ∧
      ∀ d ∈ saved, (extras, d) ∈ s.bundles) ∨
    ∃ z, s.session = some z ∧ stepSession s z a = some (t, es) := by
  simp only [step] at h
  split at h
  · obtain ⟨rfl, rfl⟩ := Prod.mk.inj (Option.some.inj h)
    exact .inl ⟨‹_›, rfl, _, none, rfl, rfl, by simp⟩
  · split at h
    · obtain ⟨rfl, rfl⟩ := Prod.mk.inj (Option.some.inj h)
      exact .inl ⟨‹_›, rfl, _, some _, rfl, rfl, by simpa⟩
    · cases h
  · cases h
  · exact .inr ⟨_, ‹_›, h⟩

theorem inv_launch (hi : Inv (s, past)) {extras : Extras} (hl : a.launches? = some extras.testRom)
    {saved : Option Snapshot} (hsaved : ∀ d ∈ saved, (extras, d) ∈ s.bundles) :
    Inv ({ s with session := some (onCreate s.files extras saved) }, a :: past) := by
  have hsame : ∀ f, savers f (a :: past) = savers f past := fun f =>
    savers_of_ne (by simp [saves_of_launches hl])
  refine ⟨?_, ?_, ?_, hi.bundles, ?_⟩
  · intro f e he
    rw [Snapshot.SavedTo, hsame]
    exact hi.files f e he
  · rw [hsame]
    exact hi.autoSave
  · rw [hsame]
    exact hi.ordered
  · rintro _ ⟨⟩
    exact attributed_onCreate hi hl saved fun d hd => hi.bundles _ (hsaved d hd)

theorem inv_step (hi : Inv (s, past)) (h : step s a = some (t, es)) {q : State × List Action}
    (hC : KeepsApart (s, past) a q es) : Inv (t, a :: past) := by
  rcases step_cases h with ⟨-, -, extras, saved, hl, rfl, hsaved⟩ | ⟨z, hz, h⟩
  · exact inv_launch hi hl hsaved
  · exact (leaves_stepSession hz h).inv hi hz hC.2

theorem step_iff (hi : Inv (s, past)) (h : step s a = some (t, es)) {q : State × List Action} :
    NeverCrosses s a t es ↔ KeepsApart (s, past) a q es := by
  rcases step_cases h with ⟨hz, rfl, extras, saved, hl, -⟩ | ⟨z, hz, h⟩
  · exact iff_of_true (by simp [NeverCrosses]) (by simp [KeepsApart, hz, saves_of_launches hl])
  · exact stepSession_iff hi hz h

end

/-- From a fresh install, over any sequence of sessions: no state crosses games and the test ROM
never replaces the automatic save of the main game exactly when the schedule keeps them apart. -/
theorem neverCrosses_iff (as : List Action) :
    Along step NeverCrosses {} as ↔ Along (recorded step) KeepsApart ({}, []) as := by
  rw [← along_recorded []]
  refine along_iff (I := Inv) ?_ ?_ inv_init as
  · rintro ⟨s, past⟩ a ⟨t, past'⟩ es hi h
    exact step_iff hi (recorded_eq_some.1 h).1
  · rintro ⟨s, past⟩ a ⟨t, past'⟩ es hi h hC
    obtain ⟨h, rfl⟩ := recorded_eq_some.1 h
    exact inv_step hi h hC

/-- The main game saves on pause; the test ROM, launched next, restores that state. -/
theorem test_rom_restores_main_save :
    ¬ Along step NeverCrosses {}
      [.start {}, .onPause 0, .onDestroy, .start { testRom := true }, .runPosted] := by
  decide

end SweetHome.SaveStates
