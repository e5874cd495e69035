import SweetHome.Lib.Run
import Mathlib.Logic.Function.Basic

/-!
# The copies of the assets

The core and the ROM are copied to the files directory under their bare names, and a file that is there is taken for the
copy of whatever asset is asked for. So what counts is who has come first: since the last restore, the first copy of a
name writes its file, all of it or not, and the later ones are answered with that (`shipped_iff`). The cores of all
ABIs go by one name (`fileName_coreAsset`).
-/

namespace SweetHome.AssetCopies
open Step

abbrev Bytes := List UInt8

inductive Entry where
  | file (bytes : Bytes)
  | directory
deriving DecidableEq, Repr

def Entry.bytes? : Entry → Option Bytes
  | file bytes => some bytes
  | directory => none

abbrev Directory := String → Option Entry

/-- The files directory of an app that has just been installed. -/
def emptyDirectory : Directory := fun name => if name ∈ ["", ".", ".."] then some .directory else none

/-- What is packaged in a version of the app. -/
abbrev Assets := String → Option Bytes

/-- `File(assetName).name` -/
def fileName (assetName : String) : String :=
  String.ofList ((assetName.toList.reverse.dropWhile (· == '/')).takeWhile (· != '/')).reverse

inductive Event where
  /-- A call returns a file with these bytes, or a directory. -/
  | returned (assetName : String) (bytes : Option Bytes)
  /-- `assets.open` throws. -/
  | thrown (assetName : String)
deriving DecidableEq, Repr

def copyAssetToInternalStorage (assets : Assets) (assetName : String) (filesDir : Directory) : Directory × Event :=
  let file := fileName assetName
  match filesDir file with
  | none =>
    match assets assetName with
    | some input => (Function.update filesDir file (some (.file input)), .returned assetName (some input))
    | none => (filesDir, .thrown assetName)
  | some entry => (filesDir, .returned assetName entry.bytes?)

/-- The process dies in a call when that many bytes have been copied. -/
def interruptedCopy (assets : Assets) (assetName : String) (written : Nat) (filesDir : Directory) : Directory :=
  let file := fileName assetName
  match filesDir file, assets assetName with
  | none, some input => Function.update filesDir file (some (.file (input.take written)))
  | _, _ => filesDir

/-! ### What the game asks for -/

def getDeviceAbi (supportedAbis : List String) : String := supportedAbis.head?.getD "armeabi-v7a"

def coreName : String := "fceumm_libretro_android.so"

def coreAsset (supportedAbis : List String) : String := "cores/" ++ getDeviceAbi supportedAbis ++ "/" ++ coreName

theorem fileName_append (directory : String) {name : String} (hne : name.toList ≠ [])
    (hname : ∀ c ∈ name.toList, c ≠ '/') : fileName (directory ++ "/" ++ name) = name := by
  have hlist : (directory ++ "/" ++ name).toList.reverse =
      name.toList.reverse ++ '/' :: directory.toList.reverse := by
    simp [String.toList_append]
  have hall : ∀ c ∈ name.toList.reverse, (c != '/') = true := fun c hc => by
    simpa using hname c (List.mem_reverse.1 hc)
  obtain ⟨c, cs, hcons⟩ := List.exists_cons_of_ne_nil (List.reverse_ne_nil_iff.2 hne)
  have hfirst : c ≠ '/' := by simpa using hall c (by simp [hcons])
  have hdrop : ((name.toList.reverse ++ '/' :: directory.toList.reverse).dropWhile (· == '/')) =
      name.toList.reverse ++ '/' :: directory.toList.reverse := by
    rw [hcons, List.cons_append, List.dropWhile_cons_of_neg (by simpa using hfirst)]
  rw [fileName, hlist, hdrop, List.takeWhile_append_of_pos hall, List.takeWhile_cons_of_neg (by decide),
    List.append_nil, List.reverse_reverse, String.ofList_toList]

theorem fileName_coreAsset (supportedAbis : List String) : fileName (coreAsset supportedAbis) = coreName := by
  have hall : coreName.toList.all (· != '/') = true := by decide +kernel
  refine fileName_append ("cores/" ++ getDeviceAbi supportedAbis) (by decide +kernel) fun c hc => ?_
  simpa using List.all_eq_true.1 hall c hc

/-- What is there as the core of one ABI is returned for any other. -/
theorem copyAssetToInternalStorage_coreAsset (assets : Assets) {filesDir : Directory} {entry : Entry}
    (h : filesDir coreName = some entry) (supportedAbis : List String) :
    copyAssetToInternalStorage assets (coreAsset supportedAbis) filesDir =
      (filesDir, .returned (coreAsset supportedAbis) entry.bytes?) := by
  simp only [copyAssetToInternalStorage, fileName_coreAsset, h]

/-! ### Steps -/

structure State where
  filesDir : Directory := emptyDirectory
  assets : Assets
  /-- The directory that the last restore has brought. -/
  restored : Directory := emptyDirectory
  /-- What the copies since then had for the file of a name, whether it was there or not. -/
  offered : List (String × Bytes) := []

inductive Action where
  | copyAssetToInternalStorage (assetName : String)
  | die (assetName : String) (written : Nat)
  /-- The app is updated. -/
  | update (assets : Assets)
  | restore (backup : Directory)

def State.offer (s : State) (assetName : String) (f : Bytes → Bytes) : State :=
  { s with offered := s.offered ++ ((s.assets assetName).map fun input => (fileName assetName, f input)).toList }

def step : Step State Action Event
  | s, .copyAssetToInternalStorage assetName =>
    let (filesDir, e) := copyAssetToInternalStorage s.assets assetName s.filesDir
    some ({ s.offer assetName id with filesDir := filesDir }, [e])
  | s, .die assetName written =>
    some ({ s.offer assetName (List.take written) with
      filesDir := interruptedCopy s.assets assetName written s.filesDir }, [])
  | s, .update assets => some ({ s with assets := assets }, [])
  | s, .restore backup => some ({ s with filesDir := backup, restored := backup, offered := [] }, [])

/-! ### The law, and when it holds -/

/-- A file that is returned is the asset, as the running version has it. -/
def Shipped (s : State) (_ : Action) (_ : State) (es : List Event) : Prop :=
  ∀ assetName bytes, .returned assetName bytes ∈ es → ∃ asset, s.assets assetName = some asset ∧ bytes = some asset

/-- What has come first for a name: with the restore, or by a copy since. -/
def State.first (s : State) (name : String) : Option Entry :=
  s.restored name <|> (s.offered.lookup name).map .file

/-- If anything has come for the name of an asset that is asked for, the first was all of this asset. -/
def FirstWasAsset (s : State) (a : Action) (_ : State) (_ : List Event) : Prop :=
  match a with
  | .copyAssetToInternalStorage assetName =>
    ∀ entry, s.first (fileName assetName) = some entry → ∃ asset, s.assets assetName = some asset ∧ entry = .file asset
  | _ => True

/-- The directory holds what has come first. -/
def Inv (s : State) : Prop := ∀ name, s.filesDir name = s.first name

variable {s t : State} {a : Action} {es : List Event}

/-- A directory in which nothing has been offered since it was restored. -/
theorem inv_of_restored (hdir : s.filesDir = s.restored) (hoffered : s.offered = []) : Inv s := by
  intro name
  rw [State.first, hoffered, ← hdir]
  cases s.filesDir name <;> rfl

/-! ### One copy -/

theorem update_of_none {d : Directory} {file : String} (h : d file = none) (entry : Entry) (name : String) :
    Function.update d file (some entry) name = (d name <|> if name = file then some entry else none) := by
  by_cases hname : name = file
  · subst hname
    simp [h]
  · rw [Function.update_of_ne hname, if_neg hname]
    cases d name <;> rfl

theorem orElse_of_some {d : Directory} {file : String} {entry : Entry} (h : d file = some entry) (e : Option Entry)
    (name : String) : d name = (d name <|> if name = file then e else none) := by
  by_cases hname : name = file
  · subst hname
    rw [h]
    rfl
  · rw [if_neg hname]
    cases d name <;> rfl

theorem copyAssetToInternalStorage_dir (assets : Assets) (assetName : String) (d : Directory) (name : String) :
    (copyAssetToInternalStorage assets assetName d).1 name =
      (d name <|> if name = fileName assetName then ((assets assetName).map id).map .file else none) := by
  unfold copyAssetToInternalStorage
  dsimp only
  rcases hfile : d (fileName assetName) with _ | entry
  · rcases assets assetName with _ | input
    · cases hname : d name <;> simp [hname]
    · dsimp only [Option.map_some, id]
      exact update_of_none hfile _ name
  · exact orElse_of_some hfile _ name

/-- A copy that is interrupted leaves what a whole copy of so much of the asset would. -/
theorem interruptedCopy_eq (assets : Assets) (assetName : String) (written : Nat) (d : Directory) :
    interruptedCopy assets assetName written d =
      (copyAssetToInternalStorage (fun name => (assets name).map (List.take written)) assetName d).1 := by
  unfold interruptedCopy copyAssetToInternalStorage
  dsimp only
  rcases d (fileName assetName) with _ | entry
  · rcases assets assetName with _ | input
    · rfl
    · rfl
  · rfl

theorem interruptedCopy_dir (assets : Assets) (assetName : String) (written : Nat) (d : Directory) (name : String) :
    interruptedCopy assets assetName written d name =
      (d name <|>
        if name = fileName assetName then ((assets assetName).map (List.take written)).map .file else none) := by
  rw [interruptedCopy_eq, copyAssetToInternalStorage_dir, Option.map_id, id]

/-- What is offered counts for its name, if nothing else has come before. -/
theorem first_offer (s : State) (assetName : String) (f : Bytes → Bytes) (name : String) :
    (s.offer assetName f).first name =
      (s.first name <|> if name = fileName assetName then ((s.assets assetName).map f).map .file else none) := by
  have hlast : (((s.assets assetName).map fun input => (fileName assetName, f input)).toList).lookup name =
      if name = fileName assetName then (s.assets assetName).map f else none := by
    rcases s.assets assetName with _ | input
    · simp
    · by_cases hname : name = fileName assetName
      · simp [hname]
      · have hbeq : (name == fileName assetName) = false := beq_false_of_ne hname
        simp [List.lookup_cons, hbeq, hname]
  simp only [State.first, State.offer, List.lookup_append, hlast]
  rcases s.restored name with _ | entry
  · rcases s.offered.lookup name with _ | bytes
    · by_cases hname : name = fileName assetName
      · rw [if_pos hname, if_pos hname]
        rfl
      · rw [if_neg hname, if_neg hname]
        rfl
    · rfl
  · simp

/-! ### Runs -/

theorem inv_step (hs : Inv s) (h : step s a = some (t, es)) : Inv t := by
  cases a with
  | copyAssetToInternalStorage assetName =>
    obtain ⟨rfl, -⟩ := Prod.mk.inj (Option.some.inj h)
    intro name
    refine (copyAssetToInternalStorage_dir s.assets assetName s.filesDir name).trans ?_
    rw [hs name]
    exact (first_offer s assetName id name).symm
  | die assetName written =>
    obtain ⟨rfl, -⟩ := Prod.mk.inj (Option.some.inj h)
    intro name
    refine (interruptedCopy_dir s.assets assetName written s.filesDir name).trans ?_
    rw [hs name]
    exact (first_offer s assetName (List.take written) name).symm
  | update assets =>
    obtain ⟨rfl, -⟩ := Prod.mk.inj (Option.some.inj h)
    exact hs
  | restore backup =>
    obtain ⟨rfl, -⟩ := Prod.mk.inj (Option.some.inj h)
    exact inv_of_restored rfl rfl

theorem step_iff (hs : Inv s) (h : step s a = some (t, es)) : Shipped s a t es ↔ FirstWasAsset s a t es := by
  cases a with
  | copyAssetToInternalStorage assetName =>
    obtain ⟨-, rfl⟩ := Prod.mk.inj (Option.some.inj h)
    simp only [Shipped, FirstWasAsset, ← hs (fileName assetName), List.mem_singleton]
    rcases s.filesDir (fileName assetName) with _ | entry
    · -- nothing is there: what is returned has just been copied
      refine iff_of_true (fun name bytes he => ?_) nofun
      rcases hasset : s.assets assetName with _ | input <;> rw [hasset] at he
      · cases he
      · obtain ⟨rfl, rfl⟩ := Event.returned.inj he
        exact ⟨input, hasset, rfl⟩
    · constructor
      · intro hshipped entry' hentry
        obtain rfl := Option.some.inj hentry
        obtain ⟨asset, hasset, hbytes⟩ := hshipped _ _ rfl
        refine ⟨asset, hasset, ?_⟩
        cases entry with
        | file bytes => rw [Option.some.inj hbytes]
        | directory => cases hbytes
      · intro hfirst name bytes he
        obtain ⟨rfl, rfl⟩ := Event.returned.inj he
        obtain ⟨asset, hasset, rfl⟩ := hfirst entry rfl
        exact ⟨asset, hasset, rfl⟩
  | die | update | restore =>
    obtain ⟨-, rfl⟩ := Prod.mk.inj (Option.some.inj h)
    exact iff_of_true nofun trivial

/-- In every history, the files that are returned are the assets as they are shipped exactly if for each asset that is
asked for, nothing has come for its name since the last restore and with it, or first all of this asset has. -/
theorem shipped_iff (assets : Assets) (as : List Action) :
    Along step Shipped { assets := assets } as ↔ Along step FirstWasAsset { assets := assets } as :=
  along_iff (G := Shipped) (C := FirstWasAsset) step_iff (fun hs h _ => inv_step hs h)
    (inv_of_restored rfl rfl) as

theorem step_copyAssetToInternalStorage (s : State) (assetName : String) :
    step s (.copyAssetToInternalStorage assetName) = some
      ({ s.offer assetName id with filesDir := (copyAssetToInternalStorage s.assets assetName s.filesDir).1 },
        [(copyAssetToInternalStorage s.assets assetName s.filesDir).2]) := rfl

/-- A version with a core for two ABIs. -/
def twoCores : Assets := fun assetName =>
  if assetName = coreAsset ["arm64-v8a"] then some [183]
  else if assetName = coreAsset ["x86_64"] then some [62]
  else none

/-- The files directory of a device with the ABI x86_64 is restored on one with arm64-v8a. -/
theorem not_shipped_restored :
    ¬ Along step Shipped { assets := twoCores }
      [.restore (copyAssetToInternalStorage twoCores (coreAsset ["x86_64"]) emptyDirectory).1,
        .copyAssetToInternalStorage (coreAsset ["arm64-v8a"])] := by
  intro h
  have hcore : (copyAssetToInternalStorage twoCores (coreAsset ["x86_64"]) emptyDirectory).1 coreName =
      some (.file [62]) := by decide +kernel
  rw [along_cons_some rfl, along_cons_some (step_copyAssetToInternalStorage ..),
    copyAssetToInternalStorage_coreAsset _ hcore] at h
  obtain ⟨asset, hasset, hbytes⟩ := h.2.1 (coreAsset ["arm64-v8a"]) (some [62]) (List.mem_singleton_self _)
  have harm : twoCores (coreAsset ["arm64-v8a"]) = some [183] := by decide +kernel
  rw [hasset.symm.trans harm |> Option.some.inj] at hbytes
  exact absurd hbytes (by decide)

end SweetHome.AssetCopies
