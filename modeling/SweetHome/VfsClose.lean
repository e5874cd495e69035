import SweetHome.Lib.Run
import SweetHome.VirtualFiles
import Mathlib.Logic.Function.Basic

/-!
# The two closes of `VFS::close`

`retro_vfs_file_close_impl` first closes the `FILE` of a buffered stream and then the descriptor of
the stream, where that is positive. A stream that `retro_vfs_file_open_impl` opens has one of the two.
`virtualOpen` fills both with the same descriptor, so between the two closes anybody else can be
handed its number. Other threads open and close in between, through `VFS` or not.
-/

namespace SweetHome
open Step

def findVirtualFile (virtualFiles : List VFSFile) (path : String) : Option VFSFile :=
  virtualFiles.find? fun f => path = f.virtualPath

namespace VfsClose

inductive Owner where
  | handle (h : Nat)
  | virtualFile
  | other
deriving DecidableEq, Repr

/-- The fields of `retro_vfs_file_handle` that `close` reads; `fp` is the descriptor under the
`FILE`. -/
structure Stream where
  fd : Nat
  hints : BitVec 32
  fp : Option Nat
deriving DecidableEq, Repr

def RFILE_HINT_UNBUFFERED : BitVec 32 := 1 <<< 8

def RETRO_VFS_FILE_ACCESS_HINT_FREQUENT_ACCESS : BitVec 32 := 1

def Stream.Buffered (s : Stream) : Prop := s.hints &&& RFILE_HINT_UNBUFFERED = 0

instance (s : Stream) : Decidable s.Buffered := by unfold Stream.Buffered; infer_instance

inductive Phase where
  | opened
  /-- Between the two closes; `closed` tells whose descriptor the first one closed. -/
  | closing (closed : List Owner)
  | closed
deriving DecidableEq, Repr

structure Handle where
  stream : Stream
  isVirtual : Bool
  phase : Phase := .opened
deriving DecidableEq, Repr

structure State where
  table : FdTable Owner
  count : Nat := 0
  handle : Nat → Option Handle := fun _ => none

inductive Action where
  /-- `VFS::open`; `success` tells whether a real path opens, in a valid mode. -/
  | open (path : String) (hints : BitVec 32) (success : Bool)
  /-- The first half of `VFS::close`, up to `fclose`. -/
  | fclose (h : Nat)
  /-- The second half, from `close(stream->fd)`. -/
  | close (h : Nat)
  | otherOpen
  | otherClose (n : Nat)
deriving DecidableEq, Repr

inductive Event where
  | closed (h : Nat) (owner : Owner)
  | returned (h : Nat) (isVirtual : Bool) (closed : List Owner)
deriving DecidableEq, Repr

/-! ### Open -/

def virtualOpen (hints : BitVec 32) (h : Nat) (t : FdTable Owner) : FdTable Owner × Stream :=
  let duplicateFD := t.lowest
  (t.alloc (.handle h), { fd := duplicateFD, hints := hints, fp := some duplicateFD })

/-- `retro_vfs_file_open_impl` of a path that opens. -/
def retroVfsFileOpenImpl (hints : BitVec 32) (h : Nat) (t : FdTable Owner) :
    FdTable Owner × Stream :=
  let stream : Stream :=
    { fd := 0, hints := hints &&& ~~~RETRO_VFS_FILE_ACCESS_HINT_FREQUENT_ACCESS, fp := none }
  (t.alloc (.handle h),
    if stream.Buffered then { stream with fp := some t.lowest } else { stream with fd := t.lowest })

def State.addHandle (s : State) (isVirtual : Bool) (r : FdTable Owner × Stream) : State where
  table := r.1
  count := s.count + 1
  handle := Function.update s.handle s.count (some ⟨r.2, isVirtual, .opened⟩)

def State.open (virtualFiles : List VFSFile) (path : String) (hints : BitVec 32) (success : Bool)
    (s : State) : State :=
  match findVirtualFile virtualFiles path with
  | some _ => s.addHandle true (virtualOpen hints s.count s.table)
  | none =>
    if success then s.addHandle false (retroVfsFileOpenImpl hints s.count s.table)
    -- the error path closes `stream->fd`, which is still 0 or is -1
    else s

/-! ### Close -/

def Stream.fclose (s : Stream) : Option Nat := if s.Buffered then s.fp else none

theorem Stream.fclose_buffered {s : Stream} (h : s.Buffered) : s.fclose = s.fp := if_pos h

theorem Stream.fclose_unbuffered {s : Stream} (h : ¬ s.Buffered) : s.fclose = none := if_neg h

def Stream.close (s : Stream) : Option Nat := if s.fd > 0 then some s.fd else none

def closeNumber (t : FdTable Owner) : Option Nat → FdTable Owner × Option Owner
  | none => (t, none)
  | some n => (t.free n, t.get n)

def State.setHandle (s : State) (t : FdTable Owner) (h : Nat) (d : Handle) : State :=
  { s with table := t, handle := Function.update s.handle h (some d) }

def step (virtualFiles : List VFSFile) : Step State Action Event
  | s, .open path hints success => some (s.open virtualFiles path hints success, [])
  | s, .fclose h =>
    match s.handle h with
    | some ⟨stream, isVirtual, .opened⟩ =>
      let (t, owner) := closeNumber s.table stream.fclose
      some (s.setHandle t h ⟨stream, isVirtual, .closing owner.toList⟩, owner.toList.map (.closed h))
    | _ => none
  | s, .close h =>
    match s.handle h with
    | some ⟨stream, isVirtual, .closing closed⟩ =>
      let (t, owner) := closeNumber s.table stream.close
      some (s.setHandle t h ⟨stream, isVirtual, .closed⟩,
        owner.toList.map (.closed h) ++ [.returned h isVirtual (closed ++ owner.toList)])
    | _ => none
  | s, .otherOpen => some ({ s with table := s.table.alloc .other }, [])
  | s, .otherClose n =>
    if s.table.get n = some .other then some ({ s with table := s.table.free n }, []) else none

/-- The registered files hold their descriptors, and nothing has been opened through `VFS`. -/
structure Start (virtualFiles : List VFSFile) where
  table : FdTable Owner
  virtualFile : ∀ f ∈ virtualFiles, table.get f.fd = some .virtualFile
  unopened : ∀ n h, table.get n ≠ some (.handle h)

def Start.state {virtualFiles : List VFSFile} (x : Start virtualFiles) : State := { table := x.table }

/-! ### The law and the condition -/

def Event.Own : Event → Prop
  | .closed h owner => owner = .handle h
  | .returned h isVirtual l => isVirtual = true → l = [.handle h]

instance : DecidablePred Event.Own
  | .closed h owner => inferInstanceAs (Decidable (owner = .handle h))
  | .returned h isVirtual l => inferInstanceAs (Decidable (isVirtual = true → l = [.handle h]))

/-- `VFS::close` closes nobody else's descriptor, and that of a virtual handle exactly once. -/
def ClosesOwn (_ : State) (_ : Action) (_ : State) (es : List Event) : Prop := ∀ e ∈ es, e.Own

instance (s a t es) : Decidable (ClosesOwn s a t es) := by unfold ClosesOwn; infer_instance

/-- When `close(stream->fd)` comes for a virtual handle: a stream with the unbuffered hint has a
positive number; a buffered one has number 0, or a number that nobody has taken since `fclose`. -/
def NumberFree (s : State) : Action → State → List Event → Prop
  | .close h, _, _ => ∀ d ∈ s.handle h, d.isVirtual = true →
      if d.stream.Buffered then d.stream.fd = 0 ∨ s.table.get d.stream.fd = none
      else d.stream.fd ≠ 0
  | _, _, _ => True

/-! ### Which descriptors a handle has -/

structure Owns (t : FdTable Owner) (h : Nat) (d : Handle) : Prop where
  virtualFp : d.isVirtual = true → d.stream.fp = some d.stream.fd
  realFd : d.isVirtual = false → d.stream.Buffered → d.stream.fd = 0
  realFp : d.isVirtual = false → d.stream.fp.isSome → d.stream.Buffered
  fp : d.phase = .opened → ∀ n ∈ d.stream.fclose, t.get n = some (.handle h)
  fd : d.phase ≠ .closed → ¬ d.stream.Buffered → t.get d.stream.fd = some (.handle h)
  first : ∀ l, d.phase = .closing l → d.isVirtual = true →
    l = if d.stream.Buffered then [.handle h] else []

structure Inv (s : State) : Prop where
  fresh : ∀ h, s.count ≤ h → s.handle h = none
  owns : ∀ h, ∀ d ∈ s.handle h, Owns s.table h d

section
variable {virtualFiles : List VFSFile} {s t : State} {es : List Event} {h : Nat}

theorem inv_start (x : Start virtualFiles) : Inv x.state :=
  ⟨fun _ _ => rfl, fun _ _ hd => by cases hd⟩

theorem Owns.mono {u u' : FdTable Owner} {d : Handle} (ho : Owns u h d)
    (hu : ∀ n, u.get n = some (.handle h) → u'.get n = some (.handle h)) : Owns u' h d :=
  { ho with
    fp := fun hp n hn => hu n (ho.fp hp n hn)
    fd := fun hp hb => hu _ (ho.fd hp hb) }

theorem Inv.table {u : FdTable Owner} (hi : Inv s)
    (hu : ∀ n h, s.table.get n = some (.handle h) → u.get n = some (.handle h)) :
    Inv { s with table := u } :=
  ⟨hi.fresh, fun h d hd => (hi.owns h d hd).mono fun n => hu n h⟩

theorem Inv.set {u : FdTable Owner} {d : Handle} (hi : Inv s) (hh : (s.handle h).isSome)
    (hu : ∀ n g, g ≠ h → s.table.get n = some (.handle g) → u.get n = some (.handle g))
    (hd : Owns u h d) : Inv (s.setHandle u h d) := by
  constructor
  · intro g hg
    have hne : g ≠ h := by
      rintro rfl
      rw [hi.fresh g hg] at hh
      exact absurd hh nofun
    simpa [State.setHandle, hne] using hi.fresh g hg
  · intro g e he
    rcases eq_or_ne g h with rfl | hne
    · obtain rfl : d = e := by simpa [State.setHandle] using he
      exact hd
    · exact (hi.owns g e (by simpa [State.setHandle, hne] using he)).mono fun n => hu n g hne

/-! ### `VFS::open` -/

theorem inv_addHandle {isVirtual : Bool} {stream : Stream} (hi : Inv s)
    (ho : Owns (s.table.alloc (.handle s.count)) s.count ⟨stream, isVirtual, .opened⟩) :
    Inv (s.addHandle isVirtual (s.table.alloc (.handle s.count), stream)) := by
  constructor
  · intro h hh
    have hcount : s.count + 1 ≤ h := hh
    have hne : h ≠ s.count := by omega
    simpa [State.addHandle, hne] using hi.fresh h (by omega)
  · intro h d hd
    rcases eq_or_ne h s.count with rfl | hne
    · obtain rfl : ⟨stream, isVirtual, .opened⟩ = d := by simpa [State.addHandle] using hd
      exact ho
    · exact (hi.owns h d (by simpa [State.addHandle, hne] using hd)).mono
        fun _ => FdTable.get_alloc_of_some _

theorem owns_virtualOpen (hints : BitVec 32) (h : Nat) (u : FdTable Owner) :
    Owns (virtualOpen hints h u).1 h ⟨(virtualOpen hints h u).2, true, .opened⟩ := by
  refine ⟨fun _ => rfl, by simp, by simp, ?_, fun _ _ => FdTable.get_alloc_lowest u _, by simp⟩
  intro _ n hn
  obtain rfl : u.lowest = n := by
    simp only [Stream.fclose] at hn
    split at hn
    · simpa [virtualOpen] using hn
    · cases hn
  exact FdTable.get_alloc_lowest u _

theorem owns_retroVfsFileOpenImpl (hints : BitVec 32) (h : Nat) (u : FdTable Owner) :
    Owns (retroVfsFileOpenImpl hints h u).1 h ⟨(retroVfsFileOpenImpl hints h u).2, false, .opened⟩ := by
  unfold retroVfsFileOpenImpl
  by_cases hb : Stream.Buffered ⟨0, hints &&& ~~~RETRO_VFS_FILE_ACCESS_HINT_FREQUENT_ACCESS, none⟩
  · simp only [hb, if_true]
    refine ⟨by simp, fun _ _ => rfl, fun _ _ => hb, ?_, fun _ hn => absurd hb hn, by simp⟩
    intro _ n hn
    obtain rfl : u.lowest = n :=
      Option.some.inj ((Stream.fclose_buffered (s := ⟨_, _, some u.lowest⟩) hb).symm.trans hn)
    exact FdTable.get_alloc_lowest u _
  · simp only [hb, if_false]
    refine ⟨by simp, fun _ h => absurd h hb, by simp, ?_,
      fun _ _ => FdTable.get_alloc_lowest u _, by simp⟩
    intro _ n hn
    cases (Stream.fclose_unbuffered (s := ⟨u.lowest, _, none⟩) hb).symm.trans hn

theorem inv_open (hi : Inv s) (path : String) (hints : BitVec 32) (success : Bool) :
    Inv (s.open virtualFiles path hints success) := by
  unfold State.open
  split
  · exact inv_addHandle hi (owns_virtualOpen hints s.count s.table)
  · split
    · exact inv_addHandle hi (owns_retroVfsFileOpenImpl hints s.count s.table)
    · exact hi

/-! ### `VFS::close` -/

theorem get_closeNumber {u : FdTable Owner} {o : Option Nat} {n : Nat} {owner : Owner}
    (h : u.get n = some owner) (hne : (closeNumber u o).2 ≠ some owner) :
    (closeNumber u o).1.get n = some owner := by
  rcases o with _ | m
  · exact h
  · have hnm : n ≠ m := by
      rintro rfl
      exact hne h
    simpa [closeNumber, hnm] using h

theorem inv_fclose {stream : Stream} {isVirtual : Bool} (hi : Inv s)
    (hd : s.handle h = some ⟨stream, isVirtual, .opened⟩) :
    ∃ l, (closeNumber s.table stream.fclose).2.toList = l ∧ (∀ o ∈ l, o = .handle h) ∧
      Inv (s.setHandle (closeNumber s.table stream.fclose).1 h ⟨stream, isVirtual, .closing l⟩) := by
  have ho := hi.owns h _ hd
  -- `fclose` can only hit the descriptor of the stream itself
  have hown : ∀ o ∈ (closeNumber s.table stream.fclose).2, o = .handle h := by
    rcases hf : stream.fclose with _ | n
    · simp [closeNumber]
    · intro o hmem
      have := ho.fp rfl n hf
      simp only [closeNumber] at hmem
      rw [this] at hmem
      exact (Option.some.inj hmem).symm
  refine ⟨_, rfl, fun o hmem => hown o (by simpa using hmem), hi.set (by simp [hd]) ?_ ?_⟩
  · intro n g hne hg
    refine get_closeNumber hg ?_
    intro heq
    apply hne
    simpa using hown _ heq
  · refine ⟨ho.virtualFp, ho.realFd, ho.realFp, by simp, ?fd, ?first⟩
    case fd =>
      intro _ hb
      show (closeNumber s.table stream.fclose).1.get stream.fd = _
      rw [Stream.fclose_unbuffered hb]
      exact ho.fd (by simp) hb
    case first =>
      intro l hl hv
      obtain rfl := Phase.closing.inj hl
      by_cases hb : stream.Buffered
      · have hf : stream.fclose = some stream.fd :=
          (Stream.fclose_buffered hb).trans (ho.virtualFp hv)
        rw [if_pos hb, hf]
        simp [closeNumber, ho.fp rfl _ hf]
      · rw [if_neg hb, Stream.fclose_unbuffered hb]
        rfl

theorem inv_close {stream : Stream} {isVirtual : Bool} {l : List Owner} (hi : Inv s)
    (hd : s.handle h = some ⟨stream, isVirtual, .closing l⟩)
    (hown : ∀ o ∈ (closeNumber s.table stream.close).2, o = .handle h) :
    Inv (s.setHandle (closeNumber s.table stream.close).1 h ⟨stream, isVirtual, .closed⟩) := by
  have ho := hi.owns h _ hd
  refine hi.set (by simp [hd]) ?_ ⟨ho.virtualFp, ho.realFd, ho.realFp, by simp, by simp, by simp⟩
  intro n g hne hg
  refine get_closeNumber hg ?_
  intro heq
  apply hne
  simpa using hown _ heq

theorem close_own_iff {stream : Stream} {isVirtual : Bool} {l : List Owner} (hi : Inv s)
    (hd : s.handle h = some ⟨stream, isVirtual, .closing l⟩) :
    ((∀ o ∈ (closeNumber s.table stream.close).2, o = .handle h) ∧
      (isVirtual = true → l ++ (closeNumber s.table stream.close).2.toList = [.handle h])) ↔
    (isVirtual = true → if stream.Buffered then stream.fd = 0 ∨ s.table.get stream.fd = none
      else stream.fd ≠ 0) := by
  have ho := hi.owns h _ hd
  by_cases hz : stream.fd = 0
  · have hnone : closeNumber s.table stream.close = (s.table, none) := by
      simp [Stream.close, hz, closeNumber]
    rw [hnone]
    rcases isVirtual with _ | _
    · simp
    · have hl := ho.first l rfl rfl
      split at hl <;> simp [*]
  · have hget : closeNumber s.table stream.close =
        (s.table.free stream.fd, s.table.get stream.fd) := by
      simp [Stream.close, Nat.pos_of_ne_zero hz, closeNumber]
    rw [hget]
    by_cases hb : stream.Buffered
    · rcases isVirtual with _ | _
      · exact absurd (ho.realFd rfl hb) hz
      · have hl := ho.first l rfl rfl
        rcases hg : s.table.get stream.fd with _ | o
        · simp_all
        · simp_all
    · have hfd := ho.fd (by simp) hb
      rcases isVirtual with _ | _
      · simp [hfd]
      · have hl := ho.first l rfl rfl
        simp_all

/-! ### Runs -/

/-- What a step can do. Those of other code only move descriptors that no handle has. -/
theorem step_cases {a : Action} (hstep : step virtualFiles s a = some (t, es)) :
    (∃ path hints success, a = .open path hints success ∧ es = [] ∧
      t = s.open virtualFiles path hints success) ∨
    (∃ h stream isVirtual owner, a = .fclose h ∧ s.handle h = some ⟨stream, isVirtual, .opened⟩ ∧
      owner = (closeNumber s.table stream.fclose).2.toList ∧ es = owner.map (.closed h) ∧
      t = s.setHandle (closeNumber s.table stream.fclose).1 h ⟨stream, isVirtual, .closing owner⟩) ∨
    (∃ h stream isVirtual l owner, a = .close h ∧
      s.handle h = some ⟨stream, isVirtual, .closing l⟩ ∧
      owner = (closeNumber s.table stream.close).2 ∧
      es = owner.toList.map (.closed h) ++ [.returned h isVirtual (l ++ owner.toList)] ∧
      t = s.setHandle (closeNumber s.table stream.close).1 h ⟨stream, isVirtual, .closed⟩) ∨
    (NumberFree s a t es ∧ es = [] ∧ ∃ u, t = { s with table := u } ∧
      ∀ n h, s.table.get n = some (.handle h) → u.get n = some (.handle h)) := by
  rcases a with ⟨path, hints, success⟩ | h | h | _ | n
  · obtain ⟨rfl, rfl⟩ := Prod.mk.inj (Option.some.inj hstep)
    exact .inl ⟨path, hints, success, rfl, rfl, rfl⟩
  · simp only [step] at hstep
    split at hstep
    · rename_i hd
      obtain ⟨rfl, rfl⟩ := Prod.mk.inj (Option.some.inj hstep)
      exact .inr (.inl ⟨h, _, _, _, rfl, hd, rfl, rfl, rfl⟩)
    · exact absurd hstep nofun
  · simp only [step] at hstep
    split at hstep
    · rename_i hd
      obtain ⟨rfl, rfl⟩ := Prod.mk.inj (Option.some.inj hstep)
      exact .inr (.inr (.inl ⟨h, _, _, _, _, rfl, hd, rfl, rfl, rfl⟩))
    · exact absurd hstep nofun
  · obtain ⟨rfl, rfl⟩ := Prod.mk.inj (Option.some.inj hstep)
    refine .inr (.inr (.inr ⟨trivial, rfl, _, rfl, ?_⟩))
    intro m g hg
    exact FdTable.get_alloc_of_some _ hg
  · simp only [step] at hstep
    split at hstep
    · rename_i hn
      obtain ⟨rfl, rfl⟩ := Prod.mk.inj (Option.some.inj hstep)
      refine .inr (.inr (.inr ⟨trivial, rfl, _, rfl, ?_⟩))
      intro m g hg
      have hne : m ≠ n := by
        rintro rfl
        rw [hn] at hg
        exact absurd hg nofun
      rw [FdTable.get_free_of_ne _ hne, hg]
    · exact absurd hstep nofun

theorem step_iff {a : Action} (hi : Inv s) (hstep : step virtualFiles s a = some (t, es)) :
    ClosesOwn s a t es ↔ NumberFree s a t es := by
  rcases step_cases hstep with ⟨path, hints, success, rfl, rfl, -⟩ |
    ⟨h, stream, isVirtual, owner, rfl, hd, rfl, rfl, -⟩ |
    ⟨h, stream, isVirtual, l, owner, rfl, hd, rfl, rfl, -⟩ | ⟨hfree, rfl, -⟩
  · exact iff_of_true (by simp [ClosesOwn]) trivial
  · obtain ⟨l, hl, hown, -⟩ := inv_fclose hi hd
    refine iff_of_true ?_ trivial
    rw [ClosesOwn, hl, List.forall_mem_map]
    exact hown
  · have hiff := close_own_iff hi hd
    simp only [ClosesOwn, NumberFree, List.forall_mem_append, List.forall_mem_map,
      List.forall_mem_singleton, Event.Own, Option.mem_toList, hd]
    simpa using hiff
  · exact iff_of_true (by simp [ClosesOwn]) hfree

theorem inv_step {a : Action} (hi : Inv s) (hstep : step virtualFiles s a = some (t, es))
    (hC : NumberFree s a t es) : Inv t := by
  have hlaw : ClosesOwn s a t es := (step_iff hi hstep).2 hC
  rcases step_cases hstep with ⟨path, hints, success, rfl, -, rfl⟩ |
    ⟨h, stream, isVirtual, owner, rfl, hd, rfl, -, rfl⟩ |
    ⟨h, stream, isVirtual, l, owner, rfl, hd, rfl, rfl, rfl⟩ | ⟨-, -, u, rfl, hu⟩
  · exact inv_open hi path hints success
  · obtain ⟨l, rfl, -, hi'⟩ := inv_fclose hi hd
    exact hi'
  · refine inv_close hi hd ?_
    intro o ho
    exact hlaw (.closed h o) (List.mem_append_left _ (List.mem_map.2 ⟨o, by simpa using ho, rfl⟩))
  · exact hi.table hu

end

/-- In a run of opens and closes by the core and by the rest of the process, `VFS::close` closes every
descriptor of `virtualOpen` exactly once and never one of somebody else exactly when, whenever its
second close comes for a virtual handle, the number is free as the condition says. -/
theorem closesOwn_iff {virtualFiles : List VFSFile} (x : Start virtualFiles) (as : List Action) :
    Along (step virtualFiles) ClosesOwn x.state as ↔ Along (step virtualFiles) NumberFree x.state as :=
  along_iff (I := Inv) step_iff inv_step (inv_start x) as

/-- Between the two closes of a virtual handle another thread opens a file and gets its number. -/
theorem close_hits_other :
    ¬ ∀ (virtualFiles : List VFSFile) (x : Start virtualFiles) (as : List Action),
      Along (step virtualFiles) ClosesOwn x.state as := by
  intro h
  let x : Start [⟨"game.nes", 3⟩] :=
    { table := ⟨[some .other, some .other, some .other, some .virtualFile]⟩
      virtualFile := by decide
      unopened := by
        intro n h
        match n with
        | 0 | 1 | 2 | 3 => simp [FdTable.get]
        | n + 4 => simp [FdTable.get] }
  exact absurd (h _ x [.open "game.nes" 0 true, .fclose 0, .otherOpen, .close 0]) (by decide)

end VfsClose
end SweetHome
