import SweetHome.Lib.FdTable
import Mathlib.Data.List.Nodup

/-!
# Descriptors handed in for a load from virtual files

`loadGameFromVirtualFiles` takes descriptors over from the Java side, each in the `FDWrapper` of a
`VFSFile`. With several files, or a core that needs a full path, the files move into `VFS`, which
closes them when the session is destroyed. Otherwise the one file is read into memory, its number is
closed there, and the wrapper closes the same number once more after `retro_load_game`, when the core
may have it. What is closed over the life of the session is compared with who owns it
(`session_closesOnce_iff`).
-/

namespace SweetHome

structure VFSFile where
  virtualPath : String
  fd : Nat
deriving DecidableEq, Repr

namespace VirtualFiles

inductive Owner where
  | handed (i : Nat)
  | core
  | other
deriving DecidableEq, Repr

structure Process where
  table : FdTable Owner
  virtualFiles : List VFSFile
  closed : List Owner := []
deriving DecidableEq, Repr

inductive CoreOp where
  | open
  | close (n : Nat)
deriving DecidableEq, Repr

def CoreOp.exec : CoreOp → FdTable Owner → FdTable Owner
  | .open, t => t.alloc .core
  | .close n, t => if t.get n = some .core then t.free n else t

def runCore (ops : List CoreOp) (t : FdTable Owner) : FdTable Owner := ops.foldl (fun t op => op.exec t) t

namespace Process

/-- `close` called by the front-end; on a free number it fails and closes nothing. -/
def close (n : Nat) (p : Process) : Process :=
  { p with table := p.table.free n, closed := p.closed ++ (p.table.get n).toList }

def destroyFDWrapper (fd : Nat) (p : Process) : Process := if fd > 0 then p.close fd else p

def destroyFiles : List VFSFile → Process → Process
  | [], p => p
  | f :: fs, p => destroyFiles fs (p.destroyFDWrapper f.fd)

/-- `VFS::initialize`: the assignment destroys the files registered before. -/
def initializeFiles (files : List VFSFile) (p : Process) : Process :=
  { destroyFiles p.virtualFiles p with virtualFiles := files }

def deinitializeFiles (p : Process) : Process := { destroyFiles p.virtualFiles p with virtualFiles := [] }

def readFileAsBytes (fileDescriptor : Nat) (p : Process) : Process := p.close fileDescriptor

def retroLoadGame (ops : List CoreOp) (p : Process) : Process := { p with table := runCore ops p.table }

end Process

def loadUsingVFS (needFullpath : Bool) (virtualFiles : List VFSFile) : Bool :=
  needFullpath || decide (virtualFiles.length > 1)

/-- The process after the load, when the vector handed in is gone, and whether the load succeeded:
an empty vector and a `false` from the core both end in an exception. -/
def loadGameFromVirtualFiles (virtualFiles : List VFSFile) (needFullpath : Bool) (ops : List CoreOp)
    (result : Bool) (p : Process) : Process × Bool :=
  match virtualFiles with
  | [] => (p, false)
  | firstFile :: _ =>
    if loadUsingVFS needFullpath virtualFiles then
      -- the vector has been moved from, so nothing is left to destroy at the end
      (((p.initializeFiles virtualFiles).retroLoadGame ops), result)
    else
      (((p.readFileAsBytes firstFile.fd).retroLoadGame ops).destroyFiles virtualFiles, result)

/-- The life of a session: the view of a failed load is aborted and never destroys it. -/
def session (virtualFiles : List VFSFile) (needFullpath : Bool) (ops : List CoreOp) (result : Bool)
    (p : Process) : Process :=
  let (p, loaded) := loadGameFromVirtualFiles virtualFiles needFullpath ops result p
  if loaded then p.deinitializeFiles else p

/-- What a session starts from: the files own the descriptors handed in, and what an earlier load may
have left in `VFS` owns its own. -/
structure Input where
  files : List VFSFile
  table : FdTable Owner
  registered : List VFSFile
  handed : ∀ i f, files[i]? = some f → table.get f.fd = some (.handed i)
  others : ∀ f ∈ registered, table.get f.fd = some .other
  nodup : (registered.map (·.fd)).Nodup

def Input.process (x : Input) : Process := ⟨x.table, x.registered, []⟩

/-- Each descriptor handed in is closed exactly once, and none of the core's is. -/
def ClosesOnce (files : List VFSFile) (p : Process) : Prop :=
  (∀ i < files.length, p.closed.count (.handed i) = 1) ∧ .core ∉ p.closed

instance (files p) : Decidable (ClosesOnce files p) := by unfold ClosesOnce; infer_instance

/-- Either nothing is handed in; or the files go to `VFS`, the game loads, and no file has number 0;
or the file is read into memory and has number 0, or a number that the opens and closes of the core
leave free. -/
def OneOwner (x : Input) (needFullpath : Bool) (ops : List CoreOp) (result : Bool) : Prop :=
  x.files = [] ∨
  (loadUsingVFS needFullpath x.files = true ∧ result = true ∧ ∀ f ∈ x.files, f.fd ≠ 0) ∨
  (loadUsingVFS needFullpath x.files = false ∧
    ∀ f ∈ x.files, f.fd = 0 ∨ (runCore ops (x.table.free f.fd)).get f.fd = none)

/-! ### The core touches only its own descriptors -/

theorem get_exec {op : CoreOp} {t : FdTable Owner} {n : Nat} {o : Owner} (ho : o ≠ .core) :
    (op.exec t).get n = some o ↔ t.get n = some o := by
  rcases op with _ | m
  · rw [CoreOp.exec, FdTable.get_alloc]
    split
    · subst n; simp [ho.symm]
    · rfl
  · rw [CoreOp.exec]
    split
    · rename_i hm
      rw [FdTable.get_free]
      split
      · subst n; simp [hm, ho.symm]
      · rfl
    · rfl

theorem get_runCore {ops : List CoreOp} {t : FdTable Owner} {n : Nat} {o : Owner} (ho : o ≠ .core) :
    (runCore ops t).get n = some o ↔ t.get n = some o := by
  induction ops generalizing t with
  | nil => rfl
  | cons op ops ih => exact (ih (t := op.exec t)).trans (get_exec ho)

theorem get_runCore_of_none (ops : List CoreOp) {t : FdTable Owner} {n : Nat} (h : t.get n = none) :
    (runCore ops t).get n = none ∨ (runCore ops t).get n = some .core := by
  rcases hn : (runCore ops t).get n with _ | o
  · exact .inl rfl
  · by_cases ho : o = .core
    · exact .inr (by rw [ho])
    · rw [(get_runCore ho).1 hn] at h
      exact absurd h nofun

/-! ### What the destructor of a vector closes -/

def numbers (files : List VFSFile) : List Nat := (files.map (·.fd)).filter (0 < ·)

theorem destroyFiles_eq (files : List VFSFile) (p : Process) :
    p.destroyFiles files =
      { p with
        table := (FdTable.closeAll (numbers files) p.table).1
        closed := p.closed ++ (FdTable.closeAll (numbers files) p.table).2 } := by
  induction files generalizing p with
  | nil => simp [Process.destroyFiles, numbers, FdTable.closeAll]
  | cons f fs ih =>
    show (p.destroyFDWrapper f.fd).destroyFiles fs = _
    rw [ih]
    by_cases hf : 0 < f.fd
    · simp [Process.destroyFDWrapper, Process.close, numbers, hf, FdTable.closeAll]
    · simp [Process.destroyFDWrapper, numbers, hf]

theorem closed_destroyFiles {files : List VFSFile} {p : Process} (h : (files.map (·.fd)).Nodup) :
    (p.destroyFiles files).closed = p.closed ++ (numbers files).filterMap p.table.get := by
  have hnodup : (numbers files).Nodup := h.filter _
  rw [destroyFiles_eq, FdTable.closed_closeAll _ hnodup]

theorem get_destroyFiles (files : List VFSFile) (p : Process) (n : Nat) :
    (p.destroyFiles files).table.get n = if n ∈ numbers files then none else p.table.get n := by
  rw [destroyFiles_eq, FdTable.get_closeAll]

theorem mem_numbers {files : List VFSFile} {n : Nat} :
    n ∈ numbers files ↔ 0 < n ∧ ∃ f ∈ files, f.fd = n := by
  simp [numbers, and_comm]

theorem closed_others {files : List VFSFile} {p : Process} (h : (files.map (·.fd)).Nodup)
    (hown : ∀ f ∈ files, p.table.get f.fd = some .other) :
    ∃ k, (p.destroyFiles files).closed = p.closed ++ List.replicate k .other := by
  refine ⟨((numbers files).filterMap p.table.get).length, ?_⟩
  rw [closed_destroyFiles h, List.append_cancel_left_eq, List.eq_replicate_iff]
  refine ⟨rfl, ?_⟩
  intro o ho
  obtain ⟨n, hn, hget⟩ := List.mem_filterMap.1 ho
  obtain ⟨-, f, hf, rfl⟩ := mem_numbers.1 hn
  rw [hown f hf] at hget
  exact (Option.some.inj hget).symm

section
variable {files : List VFSFile} {t : FdTable Owner}

theorem nodup_of_handed (h : ∀ i f, files[i]? = some f → t.get f.fd = some (.handed i)) :
    (files.map (·.fd)).Nodup := by
  rw [List.nodup_iff_injective_getElem]
  rintro ⟨i, hi⟩ ⟨j, hj⟩ heq
  simp only [List.length_map] at hi hj
  have hi' := h i files[i] (List.getElem?_eq_getElem hi)
  have hj' := h j files[j] (List.getElem?_eq_getElem hj)
  simp only [List.getElem_map] at heq
  rw [heq, hj'] at hi'
  simpa [eq_comm] using hi'

theorem count_handed (h : ∀ i f, files[i]? = some f → t.get f.fd = some (.handed i)) {i : Nat}
    {f : VFSFile} (hf : files[i]? = some f) :
    ((numbers files).filterMap t.get).count (.handed i) = if f.fd = 0 then 0 else 1 := by
  have howner : ∀ n ∈ numbers files, ∃ j g, files[j]? = some g ∧ g.fd = n ∧
      t.get n = some (.handed j) := by
    intro n hn
    obtain ⟨-, g, hg, rfl⟩ := mem_numbers.1 hn
    obtain ⟨j, hj⟩ := List.mem_iff_getElem?.1 hg
    exact ⟨j, g, hj, rfl, h j g hj⟩
  split
  · rename_i hzero
    apply List.count_eq_zero_of_not_mem
    intro hmem
    obtain ⟨n, hn, hget⟩ := List.mem_filterMap.1 hmem
    obtain ⟨j, g, hg, rfl, hj⟩ := howner n hn
    obtain rfl : j = i := by simpa [hj] using hget
    obtain rfl : g = f := Option.some.inj (hg.symm.trans hf)
    exact absurd (mem_numbers.1 hn).1 (by omega)
  · rename_i hpos
    have hnodup : (numbers files).Nodup := (nodup_of_handed h).filter _
    refine List.count_eq_one_of_mem (List.pairwise_filterMap.2 ?_) ?_
    · -- the table has one descriptor at each number, and each is handed in once
      apply hnodup.pairwise_of_forall_ne
      intro m hm n hn hne o ho o' ho' heq
      apply hne
      subst heq
      obtain ⟨j, g, hg, rfl, hj⟩ := howner m hm
      obtain ⟨k, g', hg', rfl, hk⟩ := howner n hn
      obtain rfl : j = k := by
        rw [hj] at ho; rw [hk, ← ho] at ho'; simpa using ho'.symm
      rw [Option.some.inj (hg.symm.trans hg')]
    · exact List.mem_filterMap.2 ⟨f.fd, mem_numbers.2 ⟨by omega, f, List.mem_of_getElem? hf, rfl⟩, h i f hf⟩

end

/-! ### The two branches of the load -/

section
variable {x : Input} {needFullpath result : Bool} {ops : List CoreOp}

theorem load_vfs (hne : x.files ≠ []) (hvfs : loadUsingVFS needFullpath x.files = true) :
    loadGameFromVirtualFiles x.files needFullpath ops result x.process =
      ((x.process.initializeFiles x.files).retroLoadGame ops, result) := by
  obtain ⟨first, rest, hfiles⟩ := List.exists_cons_of_ne_nil hne
  rw [hfiles] at hvfs ⊢
  simp only [loadGameFromVirtualFiles, hvfs, if_true]

/-- `initialize` closes what an earlier load left, and nothing of this session. -/
theorem closed_load_vfs (x : Input) (ops : List CoreOp) :
    ∃ k, ((x.process.initializeFiles x.files).retroLoadGame ops).closed = List.replicate k .other :=
  closed_others (p := x.process) x.nodup x.others

theorem get_load_vfs (ops : List CoreOp) {i : Nat} {f : VFSFile} (hf : x.files[i]? = some f) :
    ((x.process.initializeFiles x.files).retroLoadGame ops).table.get f.fd = some (.handed i) := by
  refine (get_runCore (by simp)).2 ?_
  show (x.process.destroyFiles x.registered).table.get f.fd = _
  rw [get_destroyFiles, if_neg, Input.process, x.handed i f hf]
  intro hmem
  obtain ⟨-, g, hg, hfd⟩ := mem_numbers.1 hmem
  have hother := x.others g hg
  rw [hfd, x.handed i f hf] at hother
  exact absurd hother nofun

/-- `destroy` closes the descriptors that the numbers of the files still stand for. -/
theorem closed_session_vfs (ops : List CoreOp) (hne : x.files ≠ []) (hvfs : loadUsingVFS needFullpath x.files = true) :
    ∃ k, (session x.files needFullpath ops true x.process).closed = List.replicate k .other ++
      (numbers x.files).filterMap ((x.process.initializeFiles x.files).retroLoadGame ops).table.get := by
  obtain ⟨k, hk⟩ := closed_load_vfs x ops
  refine ⟨k, ?_⟩
  rw [← hk, ← closed_destroyFiles (nodup_of_handed fun i f hf => get_load_vfs ops hf), session, load_vfs hne hvfs]
  rfl

theorem count_session_vfs (hne : x.files ≠ []) (hvfs : loadUsingVFS needFullpath x.files = true) {i : Nat}
    {f : VFSFile} (hf : x.files[i]? = some f) :
    (session x.files needFullpath ops true x.process).closed.count (.handed i) = if f.fd = 0 then 0 else 1 := by
  obtain ⟨k, hk⟩ := closed_session_vfs ops hne hvfs
  rw [hk, List.count_append, count_handed (fun i f hf => get_load_vfs ops hf) hf]
  simp [List.count_replicate]

theorem core_session_vfs (hne : x.files ≠ []) (hvfs : loadUsingVFS needFullpath x.files = true) :
    .core ∉ (session x.files needFullpath ops true x.process).closed := by
  obtain ⟨k, hk⟩ := closed_session_vfs ops hne hvfs
  rw [hk, List.mem_append, not_or]
  refine ⟨by simp [List.mem_replicate], ?_⟩
  intro hmem
  obtain ⟨n, hn, hget⟩ := List.mem_filterMap.1 hmem
  obtain ⟨-, f, hf, rfl⟩ := mem_numbers.1 hn
  obtain ⟨i, hi⟩ := List.mem_iff_getElem?.1 hf
  rw [get_load_vfs ops hi] at hget
  exact absurd hget nofun

/-- Through `VFS`: the descriptors handed in are closed by `destroy` only. -/
theorem closesOnce_vfs (hne : x.files ≠ []) (hvfs : loadUsingVFS needFullpath x.files = true) :
    ClosesOnce x.files (session x.files needFullpath ops result x.process) ↔
      result = true ∧ ∀ f ∈ x.files, f.fd ≠ 0 := by
  cases result with
  | false =>
    refine iff_of_false ?_ (by simp)
    rintro ⟨honce, -⟩
    obtain ⟨k, hk⟩ := closed_load_vfs x ops
    have hcount := honce 0 (List.length_pos_of_ne_nil hne)
    simp [session, load_vfs hne hvfs, hk, List.count_replicate] at hcount
  | true =>
    constructor
    · rintro ⟨honce, -⟩
      refine ⟨rfl, ?_⟩
      intro f hf hzero
      obtain ⟨i, hi⟩ := List.mem_iff_getElem?.1 hf
      have hcount := honce i (List.getElem?_eq_some_iff.1 hi).1
      rw [count_session_vfs hne hvfs hi, if_pos hzero] at hcount
      omega
    · rintro ⟨-, hpos⟩
      refine ⟨?_, core_session_vfs hne hvfs⟩
      intro i hi
      rw [count_session_vfs hne hvfs (List.getElem?_eq_getElem hi), if_neg (hpos _ (List.getElem_mem hi))]

/-- The process after the one file was read, before its wrapper is destroyed. -/
def read (x : Input) (fd : Nat) (ops : List CoreOp) : Process := (x.process.readFileAsBytes fd).retroLoadGame ops

theorem load_bytes {f : VFSFile} (hfiles : x.files = [f]) (hvfs : loadUsingVFS needFullpath x.files = false) :
    loadGameFromVirtualFiles x.files needFullpath ops result x.process =
      ((read x f.fd ops).destroyFDWrapper f.fd, result) := by
  rw [hfiles] at hvfs ⊢
  simp only [loadGameFromVirtualFiles, hvfs, Bool.false_eq_true, if_false]
  rfl

theorem handed_bytes {f : VFSFile} (hfiles : x.files = [f]) : x.table.get f.fd = some (.handed 0) :=
  x.handed 0 f (by rw [hfiles]; rfl)

/-- What an earlier load left in `VFS` is not touched before the session is destroyed. -/
theorem others_bytes (ops : List CoreOp) {f : VFSFile} (hfiles : x.files = [f]) :
    ∀ g ∈ x.registered, ((read x f.fd ops).destroyFDWrapper f.fd).table.get g.fd = some .other := by
  intro g hg
  have hne : g.fd ≠ f.fd := by
    intro heq
    have hother := x.others g hg
    rw [heq, handed_bytes hfiles] at hother
    exact absurd hother nofun
  have hget : (read x f.fd ops).table.get g.fd = some .other := by
    refine (get_runCore (by simp)).2 ?_
    show (x.table.free f.fd).get g.fd = _
    rw [FdTable.get_free_of_ne _ hne]
    exact x.others g hg
  unfold Process.destroyFDWrapper
  split
  · show ((read x f.fd ops).table.free f.fd).get g.fd = _
    rw [FdTable.get_free_of_ne _ hne, hget]
  · exact hget

/-- The descriptor is closed once, and then whatever has its number. -/
theorem closed_wrapper_bytes {f : VFSFile} (hfiles : x.files = [f]) :
    ((read x f.fd ops).destroyFDWrapper f.fd).closed =
      .handed 0 :: if f.fd > 0 then ((runCore ops (x.table.free f.fd)).get f.fd).toList else [] := by
  have hclosed : (read x f.fd ops).closed = [.handed 0] := by
    simp [read, Process.readFileAsBytes, Process.close, Process.retroLoadGame, Input.process, handed_bytes hfiles]
  have htable : (read x f.fd ops).table = runCore ops (x.table.free f.fd) := rfl
  unfold Process.destroyFDWrapper
  split <;> simp [Process.close, hclosed, htable]

theorem closed_session_bytes (ops : List CoreOp) (result : Bool) {f : VFSFile} (hfiles : x.files = [f])
    (hvfs : loadUsingVFS needFullpath x.files = false) :
    ∃ k, (session x.files needFullpath ops result x.process).closed =
      ((read x f.fd ops).destroyFDWrapper f.fd).closed ++ List.replicate k .other := by
  cases result with
  | false => exact ⟨0, by simp [session, load_bytes hfiles hvfs]⟩
  | true =>
    have hvirtual : ((read x f.fd ops).destroyFDWrapper f.fd).virtualFiles = x.registered := by
      unfold Process.destroyFDWrapper; split <;> rfl
    obtain ⟨k, hk⟩ := closed_others x.nodup (others_bytes ops hfiles)
    refine ⟨k, ?_⟩
    rw [session, load_bytes hfiles hvfs]
    simp only [if_true, Process.deinitializeFiles, hvirtual]
    exact hk

/-- Into memory: `readFileAsBytes` closes the one descriptor, and the wrapper closes its number again. -/
theorem closesOnce_bytes {f : VFSFile} (hfiles : x.files = [f])
    (hvfs : loadUsingVFS needFullpath x.files = false) :
    ClosesOnce x.files (session x.files needFullpath ops result x.process) ↔
      f.fd = 0 ∨ (runCore ops (x.table.free f.fd)).get f.fd = none := by
  obtain ⟨k, hk⟩ := closed_session_bytes ops result hfiles hvfs
  rw [ClosesOnce, hk, closed_wrapper_bytes hfiles, hfiles]
  rcases get_runCore_of_none ops (x.table.get_free_self f.fd) with hnone | hcore
  · rw [hnone]
    simp [List.count_replicate, List.mem_replicate]
  · rw [hcore]
    by_cases hpos : f.fd = 0
    · simp [hpos, List.count_replicate, List.mem_replicate]
    · simp [hpos, Nat.pos_of_ne_zero hpos]

end

/-- Over the life of a session each descriptor handed in is closed exactly once, and none of the
core's is, exactly when each has one owner. -/
theorem session_closesOnce_iff (x : Input) (needFullpath : Bool) (ops : List CoreOp) (result : Bool) :
    ClosesOnce x.files (session x.files needFullpath ops result x.process) ↔
      OneOwner x needFullpath ops result := by
  rcases hfiles : x.files with _ | ⟨f, fs⟩
  · simp [OneOwner, hfiles, ClosesOnce, session, loadGameFromVirtualFiles, Input.process]
  · have hne : x.files ≠ [] := by simp [hfiles]
    rw [← hfiles]
    rcases hvfs : loadUsingVFS needFullpath x.files
    · have hfs : x.files = [f] := by
        have hnil : needFullpath = false ∧ fs = [] := by simpa [loadUsingVFS, hfiles] using hvfs
        rw [hfiles, hnil.2]
      have hone : OneOwner x needFullpath ops result ↔
          ∀ g ∈ x.files, g.fd = 0 ∨ (runCore ops (x.table.free g.fd)).get g.fd = none := by
        simp [OneOwner, hvfs, hne]
      rw [closesOnce_bytes hfs hvfs, hone, hfs, List.forall_mem_singleton]
    · rw [closesOnce_vfs hne hvfs]
      simp [OneOwner, hvfs, hne]

/-- One file at descriptor 3 whose core wants no path: the core opens a file of its own, gets number 3
and keeps it, and the wrapper closes it. -/
theorem wrapper_closes_core_descriptor :
    ¬ ∀ (x : Input) (needFullpath : Bool) (ops : List CoreOp) (result : Bool),
      ClosesOnce x.files (session x.files needFullpath ops result x.process) := by
  intro h
  let x : Input :=
    { files := [⟨"game.nes", 3⟩]
      table := ⟨[some .other, some .other, some .other, some (.handed 0)]⟩
      registered := []
      handed := by
        intro i f hf
        match i with
        | 0 => cases hf; rfl
        | i + 1 => simp at hf
      others := by simp
      nodup := by simp }
  exact absurd (h x false [.open] true) (by decide)

end VirtualFiles
end SweetHome
