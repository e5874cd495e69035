import SweetHome.Lib.Run
import SweetHome.ManualSaves
import SweetHome.Rewind

/-!
# The load dialog

What the quick-load button restores is settled when the dialog opens; the files go later, a slot at the end of
its fade. The load button of a slot looks for its file again, the quick-load button does not, so it is right
exactly while the file that was the latest at first is still there (`loads_iff`).
-/

namespace SweetHome.LoadDialog
open Step
open Rewind (Bytes)
open SaveStates (quickSlot)
open ManualSaves (slotName)

structure Save where
  lastModified : Nat
  data : Bytes
deriving DecidableEq

abbrev Files := Fin 6 → Option Save

/-- The latest of the saves, of several the one of the first slot. -/
def latest (files : Files) : Option (Fin 6) :=
  ((List.finRange 6).filter fun it => (files it).isSome).argmax fun it =>
    ((files it).map Save.lastModified).getD 0

structure State where
  files : Files
  /-- The target of the quick-load button, which is disabled where there is none. -/
  lastFile : Option (Fin 6)
  /-- The delete buttons that are enabled. -/
  deleteEnabled : Fin 6 → Bool
  /-- Slots whose container fades out. -/
  fading : Fin 6 → Bool := fun _ => false
  /-- Whether the dialog is shown. -/
  shown : Bool := true

/-- `retroView` is initialized: the buttons that show the dialog get their listeners after it. -/
def showLoadDialog (files : Files) : State where
  files := files
  lastFile := latest files
  deleteEnabled := fun slot => (files slot).isSome

inductive Action where
  /-- The load button of a slot, with the answer of `unserializeState` where it is called. -/
  | loadFromSlot (slot : Fin 6) (ok : Bool)
  /-- The delete button of a slot, confirmed. -/
  | deleteBtn (slot : Fin 6)
  | endAction (slot : Fin 6)
  | quickLoadBtn (ok : Bool)
  /-- The delete button of the quicksave, confirmed. -/
  | quickDeleteBtn2
deriving DecidableEq

inductive Event where
  /-- `readBytes`; without a file it throws, and nobody catches that. -/
  | readBytes (slot : Fin 6) (data : Option Bytes)
  | unserializeState (data : Bytes)
  | showDarkToast (message : String)
deriving DecidableEq

namespace State

def delete (s : State) (slot : Fin 6) : State := { s with files := Function.update s.files slot none }

def dismiss (s : State) : State := { s with shown := false }

/-- The file of a slot is read and handed to the core. -/
def restore (s : State) (slot : Fin 6) (ok : Bool) (restored failed : String) : State × List Event :=
  match s.files slot with
  | none => (s.dismiss, [.readBytes slot none])
  | some save =>
    (s.dismiss, [.readBytes slot (some save.data), .unserializeState save.data,
      .showDarkToast (if ok then restored else failed)])

end State

/-- `lastFile.name.filter { it.isDigit() }` -/
def digits (name : String) : String := String.ofList (name.toList.filter Char.isDigit)

def step : Step State Action Event
  | s, .loadFromSlot slot ok =>
    if s.shown && slot != quickSlot then
      if (s.files slot).isSome then
        some (s.restore slot ok ("Sauvegarde du slot " ++ toString slot.val ++ " restaurée")
          ("Erreur lors de la restauration du slot " ++ toString slot.val))
      else some (s, [.showDarkToast ("Aucune sauvegarde dans le slot " ++ toString slot.val)])
    else none
  | s, .deleteBtn slot =>
    if s.shown && slot != quickSlot && s.deleteEnabled slot then
      let existing := (s.files slot).isSome
      let s := { s with deleteEnabled := Function.update s.deleteEnabled slot existing }
      if existing then
        -- a second fade of the container replaces the first
        some ({ s with fading := Function.update s.fading slot true }, [])
      else
        some (s, [.showDarkToast ("Aucune sauvegarde à supprimer dans le slot " ++ toString slot.val)])
    else none
  | s, .endAction slot =>
    if s.fading slot then
      some ({ s.delete slot with fading := Function.update s.fading slot false },
        [.showDarkToast ("Sauvegarde du slot " ++ toString slot.val ++ " supprimée")])
    else none
  | s, .quickLoadBtn ok =>
    match s.lastFile with
    | none => none
    | some lastFile =>
      if s.shown then
        some (s.restore lastFile ok
          ("Sauvegarde la plus récente restaurée (slot " ++ digits (slotName lastFile.val) ++ ")")
          "Erreur lors de la restauration de la sauvegarde")
      else none
  | s, .quickDeleteBtn2 =>
    if s.shown then
      if (s.files quickSlot).isSome then some (s.delete quickSlot, [.showDarkToast "Quicksave supprimé"])
      else some (s, [.showDarkToast "Aucun quicksave à supprimer"])
    else none

/-! ### The law, and when it holds -/

def Latest (files : Files) (slot : Fin 6) (save : Save) : Prop :=
  files slot = some save ∧ ∀ other x, files other = some x → x.lastModified ≤ save.lastModified

/-- Nothing is read that is gone, and the quick-load button restores the latest of the saves, or tells that
there is none. -/
structure Loads (s : State) (a : Action) (es : List Event) : Prop where
  read : ∀ slot, .readBytes slot none ∉ es
  quickLoad : ∀ ok, a = .quickLoadBtn ok →
    (∃ slot save, Latest s.files slot save ∧ .unserializeState save.data ∈ es) ∨
      (∀ slot, s.files slot = none) ∧ ∃ message, .showDarkToast message ∈ es

/-- The target of the quick-load button is still there when it is clicked. -/
def TargetExists (s : State) (a : Action) : Prop :=
  ∀ ok, a = .quickLoadBtn ok → ∀ lastFile, s.lastFile = some lastFile → s.files lastFile ≠ none

/-- Files only go, and the target is the one from the beginning. -/
structure Inv (files : Files) (s : State) : Prop where
  kept : ∀ slot save, s.files slot = some save → files slot = some save
  lastFile : s.lastFile = latest files

section
variable {files : Files} {s t : State} {a : Action} {es : List Event}

theorem latest_spec {lastFile : Fin 6} {save : Save} (h : latest files = some lastFile)
    (hsave : files lastFile = some save) : Latest files lastFile save := by
  refine ⟨hsave, ?_⟩
  intro other x hx
  have hmem : other ∈ (List.finRange 6).filter fun it => (files it).isSome := by simp [hx]
  have hle := List.le_of_mem_argmax hmem h
  simpa [hx, hsave] using hle

theorem Inv.delete (hs : Inv files s) (slot : Fin 6) : Inv files (s.delete slot) := by
  refine ⟨?_, hs.lastFile⟩
  intro other save hsave
  by_cases hslot : other = slot
  · subst hslot; simp [State.delete] at hsave
  · exact hs.kept other save (by simpa [State.delete, hslot] using hsave)

theorem restore_fst (slot : Fin 6) (ok : Bool) (restored failed : String) :
    (s.restore slot ok restored failed).1 = s.dismiss := by
  unfold State.restore; split <;> rfl

theorem step_inv (hs : Inv files s) (h : step s a = some (t, es)) : Inv files t := by
  cases a with
  | loadFromSlot slot ok =>
    simp only [step] at h
    split_ifs at h
    · have ht := congrArg Prod.fst (Option.some.inj h)
      obtain rfl : s.dismiss = t := (restore_fst ..).symm.trans ht
      exact ⟨hs.kept, hs.lastFile⟩
    · cases h; exact hs
  | deleteBtn slot =>
    simp only [step] at h
    split_ifs at h <;> cases h <;> exact ⟨hs.kept, hs.lastFile⟩
  | endAction slot =>
    simp only [step] at h
    split_ifs at h
    cases h
    exact ⟨(hs.delete slot).kept, hs.lastFile⟩
  | quickLoadBtn ok =>
    simp only [step] at h
    split at h
    · cases h
    · split_ifs at h
      have ht := congrArg Prod.fst (Option.some.inj h)
      obtain rfl : s.dismiss = t := (restore_fst ..).symm.trans ht
      exact ⟨hs.kept, hs.lastFile⟩
  | quickDeleteBtn2 =>
    simp only [step] at h
    split_ifs at h <;> cases h
    · exact hs.delete quickSlot
    · exact hs

theorem restore_of_some {slot : Fin 6} {save : Save} (h : s.files slot = some save) (ok : Bool)
    (restored failed : String) : (s.restore slot ok restored failed).2 =
      [.readBytes slot (some save.data), .unserializeState save.data,
        .showDarkToast (if ok then restored else failed)] := by
  rw [State.restore, h]

theorem restore_of_none {slot : Fin 6} (h : s.files slot = none) (ok : Bool) (restored failed : String) :
    (s.restore slot ok restored failed).2 = [.readBytes slot none] := by
  rw [State.restore, h]

theorem loads_of_looks (h : step s a = some (t, es)) (hquick : ∀ ok, a ≠ .quickLoadBtn ok) : Loads s a es := by
  refine ⟨?_, fun ok hok => absurd hok (hquick ok)⟩
  intro slot
  cases a with
  | loadFromSlot slot ok =>
    simp only [step] at h
    split_ifs at h with _ hexists
    · obtain ⟨save, hsave⟩ := Option.isSome_iff_exists.1 hexists
      obtain rfl : _ = es := (restore_of_some hsave ..).symm.trans (congrArg Prod.snd (Option.some.inj h))
      simp
    · cases h; simp
  | deleteBtn slot =>
    simp only [step] at h
    split_ifs at h <;> cases h <;> simp
  | endAction slot =>
    simp only [step] at h
    split_ifs at h
    cases h; simp
  | quickLoadBtn ok => exact absurd rfl (hquick ok)
  | quickDeleteBtn2 =>
    simp only [step] at h
    split_ifs at h <;> cases h <;> simp

theorem loads_quickLoadBtn_iff (hs : Inv files s) {ok : Bool} (h : step s (.quickLoadBtn ok) = some (t, es)) :
    Loads s (.quickLoadBtn ok) es ↔ TargetExists s (.quickLoadBtn ok) := by
  simp only [step] at h
  split at h
  · cases h
  · rename_i lastFile hlast
    split_ifs at h
    have hes := congrArg Prod.snd (Option.some.inj h)
    have htarget : TargetExists s (.quickLoadBtn ok) ↔ s.files lastFile ≠ none := by
      simp [TargetExists, hlast]
    rw [htarget]
    rcases hsave : s.files lastFile with _ | save
    · obtain rfl : _ = es := (restore_of_none hsave ..).symm.trans hes
      refine iff_of_false ?_ (by simp)
      rintro ⟨hread, -⟩
      exact hread lastFile (by simp)
    · obtain rfl : _ = es := (restore_of_some hsave ..).symm.trans hes
      refine iff_of_true ⟨fun slot => by simp, ?_⟩ (by simp)
      rintro _ ⟨⟩
      refine .inl ⟨lastFile, save, ⟨hsave, ?_⟩, by simp⟩
      intro other x hx
      exact (latest_spec (hs.lastFile ▸ hlast) (hs.kept lastFile save hsave)).2 other x (hs.kept other x hx)

end

/-- From the opening of the dialog on, all clicks do what they are to do exactly as long as each click on the
quick-load button finds its target. -/
theorem loads_iff (files : Files) (as : List Action) :
    Along step (fun s a _ es => Loads s a es) (showLoadDialog files) as ↔
      Along step (fun s a _ _ => TargetExists s a) (showLoadDialog files) as := by
  refine along_iff (I := Inv files) ?_ (fun hs h _ => step_inv hs h) ⟨fun _ _ h => h, rfl⟩ as
  intro s a t es hs h
  by_cases hquick : ∃ ok, a = .quickLoadBtn ok
  · obtain ⟨ok, rfl⟩ := hquick
    exact loads_quickLoadBtn_iff hs h
  · have hnone : ∀ ok, a ≠ .quickLoadBtn ok := fun ok hok => hquick ⟨ok, hok⟩
    exact iff_of_true (loads_of_looks h hnone) fun ok hok => absurd hok (hnone ok)

/-- A quicksave, and a later save in the first slot. -/
def twoSaves : Files := fun slot =>
  if slot = quickSlot then some ⟨10, [1]⟩ else if slot.val = 1 then some ⟨20, [2]⟩ else none

/-- The later save is deleted, and the quick-load button reads it when its fade has ended. -/
theorem not_loads_deleted :
    ¬ Along step (fun s a _ es => Loads s a es) (showLoadDialog twoSaves)
      [.deleteBtn ⟨1, by decide⟩, .endAction ⟨1, by decide⟩, .quickLoadBtn true] := by
  intro h
  have hread := ((h.2).2).1.read ⟨1, by decide⟩
  revert hread
  decide

end SweetHome.LoadDialog
