import SweetHome.SaveStates

/-!
# The lookups of the manual saves

Three handlers look for a manual save by the names of its file. The one behind the load button finds
the quicksave, or else the latest of the five slots (`btnLoad_spec`). The other two escape the dollar sign
in the name of a slot, so they look for a file that nobody writes: they agree with the first exactly if
there is a quicksave or no manual save at all (`lookupsAgree_iff`).
-/

namespace SweetHome.ManualSaves
open SaveStates

/-- The files of `filesDir` that exist, with `lastModified`. -/
abbrev Directory := String → Option Nat

/-- `"save_slot_${it}.sav"` -/
def slotName (it : Nat) : String := "save_slot_" ++ toString it ++ ".sav"

/-- `"save_slot_${'$'}it.sav"`, where nothing is left to interpolate. -/
def escapedName (_ : Nat) : String := "save_slot_" ++ "$" ++ "it.sav"

def autoSaveName : String := "auto_save_state.bin"

namespace Directory

def fileExists (d : Directory) (name : String) : Bool := (d name).isSome

def lastModified (d : Directory) (name : String) : Nat := (d name).getD 0

end Directory

/-! ### The lookups -/

/-- What the Continue button of `MainActivity` does. -/
inductive Continue where
  | loadAutoSave
  | loadLastManualSave (manualSave : String)
  | alert (message : String)
deriving DecidableEq, Repr

def manualSave (d : Directory) : Option String :=
  if d.fileExists (slotName 0) then some (slotName 0) else
    ([1, 2, 3, 4, 5].map escapedName).find? d.fileExists

def btnContinue (d : Directory) : Continue :=
  if d.fileExists autoSaveName then .loadAutoSave else
    match manualSave d with
    | some file => .loadLastManualSave file
    | none => .alert ("Aucune partie à reprendre.\nCommence une nouvelle partie ou charge une " ++
        "sauvegarde manuelle.")

/-- The extra `load_last_manual_save` of `GameActivity`: the file that it restores, or what it shows. -/
def loadLastManualSave (d : Directory) : Except String String :=
  match manualSave d with
  | some file => if d.fileExists file then .ok file else .error "Aucune sauvegarde manuelle trouvée"
  | none => .error "Aucune sauvegarde manuelle trouvée"

def btnLoad (d : Directory) : Except String String :=
  if d.fileExists (slotName 0) then .ok (slotName 0) else
    match (([1, 2, 3, 4, 5].map slotName).filter d.fileExists).argmax d.lastModified with
    | some lastFile => .ok lastFile
    | none => .error ("Aucune sauvegarde trouvée.\nAppuyez sur le bouton de gauche pour créer un " ++
        "quicksave, ou faites un appui long pour accéder aux sauvegardes manuelles.")

def Continue.file : Continue → Option String
  | .loadLastManualSave manualSave => some manualSave
  | _ => none

/-! ### The directory of the manual saves -/

def fileName : SaveFile → String
  | .autoSave => autoSaveName
  | .slot slot => slotName slot
  | .escapedSlot => escapedName 0

def saveFiles : List SaveFile := .autoSave :: .escapedSlot :: (List.finRange 6).map .slot

def directory (files : SaveFile → Option Nat) : Directory := fun name =>
  (saveFiles.find? fun file => fileName file = name).bind files

def manualSaves (saves : Fin 6 → Option Nat) : SaveFile → Option Nat
  | .slot slot => saves slot
  | .autoSave | .escapedSlot => none

theorem fileName_inj : ∀ {file other : SaveFile}, fileName file = fileName other → file = other := by
  have hslot : ∀ slot other : Fin 6, slotName slot = slotName other → slot = other := by decide
  have hauto : ∀ slot : Fin 6, slotName slot ≠ autoSaveName := by decide
  have hescaped : ∀ slot : Fin 6, slotName slot ≠ escapedName 0 := by decide
  have hother : autoSaveName ≠ escapedName 0 := by decide
  intro file other h
  cases file <;> cases other <;> simp only [fileName] at h
  case slot.slot slot other => rw [hslot slot other h]
  case autoSave.slot slot => exact absurd h.symm (hauto slot)
  case slot.autoSave slot => exact absurd h (hauto slot)
  case slot.escapedSlot slot => exact absurd h (hescaped slot)
  case escapedSlot.slot slot => exact absurd h.symm (hescaped slot)
  case autoSave.escapedSlot => exact absurd h hother
  case escapedSlot.autoSave => exact absurd h.symm hother
  all_goals rfl

theorem mem_saveFiles (file : SaveFile) : file ∈ saveFiles := by
  cases file <;> simp [saveFiles]

theorem directory_fileName (files : SaveFile → Option Nat) (file : SaveFile) :
    directory files (fileName file) = files file := by
  unfold directory
  rcases hfind : saveFiles.find? fun other => fileName other = fileName file with _ | other
  · have hnone := List.find?_eq_none.1 hfind file (mem_saveFiles file)
    simp at hnone
  · have hname : fileName other = fileName file := by simpa using List.find?_some hfind
    rw [Option.bind_some, fileName_inj hname]

section
variable (saves : Fin 6 → Option Nat) (slot : Fin 6)

@[simp] theorem fileExists_slotName :
    (directory (manualSaves saves)).fileExists (slotName slot) = (saves slot).isSome := by
  rw [Directory.fileExists, show slotName slot = fileName (.slot slot) from rfl, directory_fileName]
  rfl

theorem fileExists_quicksave :
    (directory (manualSaves saves)).fileExists (slotName 0) = (saves 0).isSome :=
  fileExists_slotName saves 0

@[simp] theorem fileExists_escapedName (it : Nat) :
    (directory (manualSaves saves)).fileExists (escapedName it) = false := by
  rw [Directory.fileExists, show escapedName it = fileName .escapedSlot from rfl, directory_fileName]
  rfl

@[simp] theorem fileExists_autoSaveName :
    (directory (manualSaves saves)).fileExists autoSaveName = false := by
  rw [Directory.fileExists, show autoSaveName = fileName .autoSave from rfl, directory_fileName]
  rfl

@[simp] theorem lastModified_slotName :
    (directory (manualSaves saves)).lastModified (slotName slot) = (saves slot).getD 0 := by
  rw [Directory.lastModified, show slotName slot = fileName (.slot slot) from rfl, directory_fileName]
  rfl

end

/-! ### What they find -/

def slots : List (Fin 6) := (List.finRange 6).tail

/-- The quicksave, or else the latest of the slots. -/
structure LastManualSave (saves : Fin 6 → Option Nat) (slot : Fin 6) : Prop where
  isSome : (saves slot).isSome
  quicksave : (saves 0).isSome → slot = 0
  latest : (saves 0).isSome = false → ∀ other, (saves other).getD 0 ≤ (saves slot).getD 0

section
variable {saves : Fin 6 → Option Nat}

theorem manualSave_eq :
    manualSave (directory (manualSaves saves)) = if (saves 0).isSome then some (slotName 0) else none := by
  have hnone : ([1, 2, 3, 4, 5].map escapedName).find? (directory (manualSaves saves)).fileExists =
      none := by
    simp
  rw [manualSave, fileExists_quicksave, hnone]

theorem btnContinue_file :
    (btnContinue (directory (manualSaves saves))).file =
      if (saves 0).isSome then some (slotName 0) else none := by
  rw [btnContinue, fileExists_autoSaveName, manualSave_eq]
  cases (saves 0).isSome <;> rfl

theorem loadLastManualSave_file :
    (loadLastManualSave (directory (manualSaves saves))).toOption =
      if (saves 0).isSome then some (slotName 0) else none := by
  rw [loadLastManualSave, manualSave_eq]
  cases h : (saves 0).isSome with
  | false => rfl
  | true => simp [fileExists_quicksave, h, Except.toOption]

theorem btnLoad_quicksave (h : (saves 0).isSome) :
    (btnLoad (directory (manualSaves saves))).toOption = some (slotName 0) := by
  rw [btnLoad, fileExists_quicksave, if_pos h]
  rfl

theorem eq_zero_or_mem_slots : ∀ slot : Fin 6, slot = 0 ∨ slot ∈ slots := by decide

theorem mem_candidates (name : String) :
    name ∈ ([1, 2, 3, 4, 5].map slotName).filter (directory (manualSaves saves)).fileExists ↔
      ∃ slot ∈ slots, slotName slot = name ∧ (saves slot).isSome := by
  rw [show [1, 2, 3, 4, 5].map slotName = slots.map fun slot : Fin 6 => slotName slot from rfl, List.mem_filter,
    List.mem_map]
  constructor
  · rintro ⟨⟨slot, hslot, rfl⟩, hexists⟩
    exact ⟨slot, hslot, rfl, by rwa [fileExists_slotName] at hexists⟩
  · rintro ⟨slot, hslot, rfl, hexists⟩
    exact ⟨⟨slot, hslot, rfl⟩, by rwa [fileExists_slotName]⟩

/-- The load button finds the quicksave or else the latest slot, and nothing only if there is no
manual save. -/
theorem btnLoad_spec :
    (∀ name ∈ (btnLoad (directory (manualSaves saves))).toOption,
      ∃ slot : Fin 6, name = slotName slot ∧ LastManualSave saves slot) ∧
    ((btnLoad (directory (manualSaves saves))).toOption = none ↔ ∀ slot, saves slot = none) := by
  rcases hquick : (saves 0).isSome with _ | _
  · have hzero : saves 0 = none := by simpa using hquick
    rw [btnLoad, fileExists_quicksave, hquick, if_neg Bool.false_ne_true]
    split
    · rename_i name hlast
      obtain ⟨slot, -, rfl, hexists⟩ := (mem_candidates name).1 (List.argmax_mem hlast)
      constructor
      · rintro _ ⟨⟩
        refine ⟨slot, rfl, hexists, by simp [hquick], ?_⟩
        intro _ other
        rcases hother : saves other with _ | time
        · exact Nat.zero_le _
        · have hmem : other ∈ slots := by
            refine (eq_zero_or_mem_slots other).resolve_left ?_
            rintro rfl
            simp [hzero] at hother
          have hexists : (saves other).isSome := by rw [hother]; rfl
          have hcandidate := (mem_candidates (slotName other)).2 ⟨other, hmem, rfl, hexists⟩
          simpa [hother] using List.le_of_mem_argmax hcandidate hlast
      · refine iff_of_false (by simp [Except.toOption]) ?_
        intro hnone
        simp [hnone slot] at hexists
    · rename_i hlast
      refine ⟨by simp [Except.toOption], iff_of_true rfl ?_⟩
      intro slot
      rcases eq_zero_or_mem_slots slot with rfl | hslot
      · exact hzero
      · by_contra hne
        have hcandidate := (mem_candidates (slotName slot)).2
          ⟨slot, hslot, rfl, Option.isSome_iff_ne_none.2 hne⟩
        rw [List.argmax_eq_none.1 hlast] at hcandidate
        cases hcandidate
  · rw [btnLoad_quicksave hquick]
    constructor
    · rintro _ ⟨⟩
      exact ⟨0, rfl, hquick, fun _ => rfl, by simp [hquick]⟩
    · refine iff_of_false (by simp) ?_
      intro hnone
      simp [hnone 0] at hquick

/-! ### Whether they agree -/

/-- The three lookups choose the same file, the last manual save, and each of them reports that there is
none exactly if there is none. -/
structure LookupsAgree (saves : Fin 6 → Option Nat) : Prop where
  btnContinue_eq : (btnContinue (directory (manualSaves saves))).file =
    (btnLoad (directory (manualSaves saves))).toOption
  loadLastManualSave_eq : (loadLastManualSave (directory (manualSaves saves))).toOption =
    (btnLoad (directory (manualSaves saves))).toOption
  last : ∀ name ∈ (btnLoad (directory (manualSaves saves))).toOption,
    ∃ slot : Fin 6, name = slotName slot ∧ LastManualSave saves slot
  none_iff : (btnLoad (directory (manualSaves saves))).toOption = none ↔ ∀ slot, saves slot = none

/-- For every set of manual saves and all their times: the three lookups agree exactly when there is a
quicksave or nothing at all. -/
theorem lookupsAgree_iff (saves : Fin 6 → Option Nat) :
    LookupsAgree saves ↔ (saves 0).isSome ∨ ∀ slot, saves slot = none := by
  obtain ⟨hlast, hnone⟩ := @btnLoad_spec saves
  constructor
  · intro hagree
    rcases hquick : (saves 0).isSome with _ | _
    · right
      have heq := hagree.btnContinue_eq
      rw [btnContinue_file, hquick, if_neg Bool.false_ne_true] at heq
      exact hnone.1 heq.symm
    · exact .inl rfl
  · intro hcondition
    have hload : (btnLoad (directory (manualSaves saves))).toOption =
        if (saves 0).isSome then some (slotName 0) else none := by
      rcases hcondition with hquick | hempty
      · rw [btnLoad_quicksave hquick, if_pos hquick]
      · rw [hnone.2 hempty, hempty 0]
        rfl
    exact ⟨btnContinue_file.trans hload.symm, loadLastManualSave_file.trans hload.symm, hlast, hnone⟩

/-- Only slot 3 is there: the load button restores it, the Continue button does not find it. -/
theorem slot_unseen : ¬ LookupsAgree fun slot => if slot = 3 then some 7 else none := by
  intro h
  exact absurd h.btnContinue_eq (by decide)

end

end SweetHome.ManualSaves
