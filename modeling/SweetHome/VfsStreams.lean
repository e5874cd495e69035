import SweetHome.VfsClose
import Mathlib.Algebra.Ring.Int.Defs

/-!
# Virtual file handles and the offset they share

Every handle on a virtual file is a `dup` of the one registered descriptor, and a `dup` shares the
open file description with its offset. What is private to a handle is the buffer of its `FILE`. So a
handle that reads its descriptor reads on where the last of the handles left off, and opening a handle
puts the others back to the start. A handle is a private stream in the runs where each of its operations
that looks at the offset finds it where the handle itself left it (`private_stream`).
-/

namespace SweetHome.VfsStreams
open Step VfsClose

inductive Whence where
  | start
  | current
  | «end»
deriving DecidableEq, Repr

structure Handle where
  file : Nat
  hints : BitVec 32
  /-- What the `FILE` has read ahead. -/
  buffer : List UInt8 := []
  eof : Bool := false
  /-- Where the operations of the handle itself have last put the offset. -/
  left : Nat := 0
deriving DecidableEq, Repr

def Handle.Buffered (d : Handle) : Prop := d.hints &&& RFILE_HINT_UNBUFFERED = 0

instance (d : Handle) : Decidable d.Buffered := inferInstanceAs (Decidable (_ = _))

structure State where
  offset : Nat → Nat
  handle : Nat → Option Handle := fun _ => none

inductive Action where
  | open (h : Nat) (path : String) (hints : BitVec 32)
  | read (h : Nat) (len : Nat)
  | seek (h : Nat) (offset : Int) (whence : Whence)
  | tell (h : Nat)
  | close (h : Nat)
deriving DecidableEq, Repr

def Action.handle : Action → Nat
  | .open h _ _ | .read h _ | .seek h _ _ | .tell h | .close h => h

inductive Event where
  | read (h : Nat) (bytes : List UInt8)
  | seek (h : Nat) (result : Int)
  | tell (h : Nat) (position : Int)
deriving DecidableEq, Repr

def Event.handle : Event → Nat
  | .read h _ | .seek h _ | .tell h _ => h

variable (bufsize : Nat) (virtualFiles : List VFSFile) (content : Nat → List UInt8)

def seekTarget (size : Nat) (position amount : Int) : Whence → Int
  | .start => amount
  | .current => position + amount
  | .end => size + amount

/-- `lseek` and `fseeko`: the new offset, unless it is negative or overflows `off_t`. -/
def seekTo (target : Int) : Option Nat := if 0 ≤ target ∧ target < 2 ^ 63 then some target.toNat else none

def State.set (s : State) (h : Nat) (d : Handle) : State where
  offset := s.offset
  handle := Function.update s.handle h (some d)

def State.moveTo (s : State) (h : Nat) (d : Handle) (position : Nat) : State where
  offset := Function.update s.offset d.file position
  handle := Function.update s.handle h (some { d with left := position })

/-- `ftello` and `lseek`: what is read ahead is not yet read. -/
def State.position (s : State) (d : Handle) : Int := s.offset d.file - d.buffer.length

/-- What `read` on the descriptor gets. -/
def State.readFd (s : State) (d : Handle) (len : Nat) : List UInt8 :=
  ((content d.file).drop (s.offset d.file)).take len

/-- Whether `fread` has to read the descriptor: not for what is in the buffer, and not past an end of
file that it has met. -/
def Handle.Refills (d : Handle) (len : Nat) : Prop := d.buffer.length < len ∧ d.eof = false

instance (d : Handle) (len : Nat) : Decidable (d.Refills len) := inferInstanceAs (Decidable (_ ∧ _))

def State.fread (s : State) (h : Nat) (d : Handle) (len : Nat) : State × List UInt8 :=
  if d.Refills len then
    let missing := len - d.buffer.length
    let bytes := s.readFd content d (max missing bufsize)
    (s.moveTo h { d with buffer := bytes.drop missing, eof := decide (bytes.length < missing) }
      (s.offset d.file + bytes.length), d.buffer ++ bytes.take missing)
  else
    (s.set h { d with buffer := d.buffer.drop len }, d.buffer.take len)

def State.read (s : State) (h : Nat) (d : Handle) (len : Nat) : State × List UInt8 :=
  let bytes := s.readFd content d len
  (s.moveTo h d (s.offset d.file + bytes.length), bytes)

def State.retroVfsFileReadImpl (s : State) (h : Nat) (d : Handle) (len : Nat) : State × List UInt8 :=
  if d.Buffered then s.fread bufsize content h d len else s.read content h d len

/-- An operation on a handle that is not open does nothing here. -/
def step : Step State Action Event
  | s, .open h path hints =>
    match s.handle h, findVirtualFile virtualFiles path with
    -- `getFileSize` ends with a seek to the start
    | none, some virtualFile => some (s.moveTo h { file := virtualFile.fd, hints } 0, [])
    | _, _ => some (s, [])
  | s, .read h len =>
    match s.handle h with
    | none => some (s, [])
    | some d =>
      let (s, bytes) := s.retroVfsFileReadImpl bufsize content h d len
      some (s, [.read h bytes])
  | s, .seek h offset whence =>
    match s.handle h with
    | none => some (s, [])
    | some d =>
      match seekTo (seekTarget (content d.file).length (s.position d) offset whence) with
      -- a seek drops what was read ahead
      | some position => some (s.moveTo h { d with buffer := [], eof := false } position, [.seek h 0])
      | none => some (s, [.seek h (-1)])
  | s, .tell h =>
    match s.handle h with
    | none => some (s, [])
    -- without buffering `tell` answers 0 whatever `lseek` says
    | some d => some (s, [.tell h (if d.Buffered then s.position d else 0)])
  | s, .close h => some ({ s with handle := Function.update s.handle h none }, [])

/-- Whether the operation looks at the shared offset. -/
def Handle.UsesOffset (d : Handle) : Action → Prop
  | .read _ len => d.Buffered → d.Refills len
  | .seek _ _ .current => True
  | .tell _ => d.Buffered
  | _ => False

/-- An operation that looks at the offset finds it where its handle has left it. -/
def OffsetOwn (s : State) (a : Action) (_ : State) (_ : List Event) : Prop :=
  ∀ d ∈ s.handle a.handle, d.UsesOffset a → s.offset d.file = d.left

instance (d : Handle) : DecidablePred d.UsesOffset
  | .read _ _ => inferInstanceAs (Decidable (_ → _))
  | .seek _ _ .current => .isTrue trivial
  | .tell _ => inferInstanceAs (Decidable d.Buffered)
  | .open _ _ _ | .close _ | .seek _ _ .start | .seek _ _ .end => .isFalse id

instance (s : State) (a : Action) (t : State) (es : List Event) : Decidable (OffsetOwn s a t es) :=
  inferInstanceAs (Decidable (∀ d ∈ s.handle a.handle, d.UsesOffset a → s.offset d.file = d.left))

/-- In the run `s` of all handles and the run `u` of `h` alone, `h` is the same handle; and in `u` the
offset is always where `h` left it. -/
structure Same (h : Nat) (s u : State) : Prop where
  handle : s.handle h = u.handle h
  offset : ∀ d ∈ u.handle h, u.offset d.file = d.left

variable {bufsize virtualFiles content} {s t u : State} {a : Action} {es : List Event} {h len : Nat}
  {d : Handle}

theorem step_total (s : State) (a : Action) : step bufsize virtualFiles content s a ≠ none := by
  cases a with
  | «open» h path hints => simp only [step]; split <;> simp
  | read h len => simp only [step]; split <;> simp
  | seek h offset whence =>
    simp only [step]
    split
    · simp
    · split <;> simp
  | tell h => simp only [step]; split <;> simp
  | close h => simp [step]

theorem retroVfsFileReadImpl_cases (s : State) (h : Nat) (d : Handle) (len : Nat) :
    (∃ d', (s.retroVfsFileReadImpl bufsize content h d len).1 = s.set h d') ∨
      ∃ d' position, (s.retroVfsFileReadImpl bufsize content h d len).1 = s.moveTo h d' position := by
  unfold State.retroVfsFileReadImpl State.fread State.read
  split_ifs
  · exact .inr ⟨_, _, rfl⟩
  · exact .inl ⟨_, rfl⟩
  · exact .inr ⟨_, _, rfl⟩

/-- An operation answers its own handle, and changes nothing but that handle and the offset of its
file. -/
theorem step_cases (hstep : step bufsize virtualFiles content s a = some (t, es)) :
    (∀ e ∈ es, e.handle = a.handle) ∧
    (t = s ∨ (∃ d, t = s.set a.handle d) ∨ (∃ d position, t = s.moveTo a.handle d position) ∨
      t = { s with handle := Function.update s.handle a.handle none }) := by
  rcases a with ⟨g, path, hints⟩ | ⟨g, len⟩ | ⟨g, offset, whence⟩ | g | g
  · simp only [step] at hstep
    split at hstep
    all_goals obtain ⟨rfl, rfl⟩ := Prod.mk.inj (Option.some.inj hstep)
    · exact ⟨by simp, .inr (.inr (.inl ⟨_, _, rfl⟩))⟩
    · exact ⟨by simp, .inl rfl⟩
  · simp only [step] at hstep
    split at hstep
    all_goals obtain ⟨rfl, rfl⟩ := Prod.mk.inj (Option.some.inj hstep)
    · exact ⟨by simp, .inl rfl⟩
    · refine ⟨by simp [Event.handle, Action.handle], .inr ?_⟩
      rcases retroVfsFileReadImpl_cases s g _ len with hset | hmove
      · exact .inl hset
      · exact .inr (.inl hmove)
  · simp only [step] at hstep
    split at hstep
    · obtain ⟨rfl, rfl⟩ := Prod.mk.inj (Option.some.inj hstep)
      exact ⟨by simp, .inl rfl⟩
    · split at hstep
      all_goals obtain ⟨rfl, rfl⟩ := Prod.mk.inj (Option.some.inj hstep)
      · exact ⟨by simp [Event.handle, Action.handle], .inr (.inr (.inl ⟨_, _, rfl⟩))⟩
      · exact ⟨by simp [Event.handle, Action.handle], .inl rfl⟩
  · simp only [step] at hstep
    split at hstep
    all_goals obtain ⟨rfl, rfl⟩ := Prod.mk.inj (Option.some.inj hstep)
    · exact ⟨by simp, .inl rfl⟩
    · exact ⟨by simp [Event.handle, Action.handle], .inl rfl⟩
  · obtain ⟨rfl, rfl⟩ := Prod.mk.inj (Option.some.inj hstep)
    exact ⟨by simp, .inr (.inr (.inr rfl))⟩

theorem Same.moveTo (h : Nat) (d : Handle) (position : Nat) :
    Same h (s.moveTo h d position) (u.moveTo h d position) := by
  refine ⟨by simp [State.moveTo], ?_⟩
  intro e he
  obtain rfl : { d with left := position } = e := by simpa [State.moveTo] using he
  simp [State.moveTo]

theorem Same.set (h : Nat) (d : Handle) (hleft : u.offset d.file = d.left) :
    Same h (s.set h d) (u.set h d) := by
  refine ⟨by simp [State.set], ?_⟩
  intro e he
  obtain rfl : d = e := by simpa [State.set] using he
  exact hleft

theorem Same.retroVfsFileReadImpl (bufsize : Nat) (content : Nat → List UInt8) (h : Nat)
    (hleft : u.offset d.file = d.left)
    (hoffset : (d.Buffered → d.Refills len) → u.offset d.file = s.offset d.file) :
    (u.retroVfsFileReadImpl bufsize content h d len).2 = (s.retroVfsFileReadImpl bufsize content h d len).2 ∧
      Same h (s.retroVfsFileReadImpl bufsize content h d len).1
        (u.retroVfsFileReadImpl bufsize content h d len).1 := by
  unfold State.retroVfsFileReadImpl State.fread State.read State.readFd
  split_ifs with hbuffered hrefills
  · rw [hoffset fun _ => hrefills]
    exact ⟨rfl, Same.moveTo h _ _⟩
  · exact ⟨rfl, Same.set h _ hleft⟩
  · rw [hoffset fun hb => absurd hb hbuffered]
    exact ⟨rfl, Same.moveTo h _ _⟩

theorem Same.other (hsame : Same h s u) (ha : a.handle ≠ h)
    (hstep : step bufsize virtualFiles content s a = some (t, es)) : Same h t u := by
  have hhandle : t.handle h = s.handle h := by
    rcases (step_cases hstep).2 with rfl | ⟨d, rfl⟩ | ⟨d, position, rfl⟩ | rfl
    · rfl
    all_goals
      show Function.update s.handle a.handle _ h = s.handle h
      exact Function.update_of_ne ha.symm _ _
  exact ⟨hhandle.trans hsame.handle, hsame.offset⟩

theorem Same.own (hsame : Same h s u) (ha : a.handle = h)
    (hstep : step bufsize virtualFiles content s a = some (t, es)) (hC : OffsetOwn s a t es) :
    ∃ u', step bufsize virtualFiles content u a = some (u', es) ∧ Same h t u' := by
  have hleft : ∀ d, s.handle h = some d → u.offset d.file = d.left := by
    intro d hd
    exact hsame.offset d (hsame.handle ▸ hd)
  have hoffset : ∀ d, s.handle h = some d → d.UsesOffset a → u.offset d.file = s.offset d.file := by
    intro d hd huses
    rw [hleft d hd, hC d (ha ▸ hd) huses]
  cases a with
  | «open» g path hints =>
    obtain rfl : g = h := ha
    simp only [step, hsame.handle] at hstep ⊢
    split at hstep
    all_goals obtain ⟨rfl, rfl⟩ := Prod.mk.inj (Option.some.inj hstep)
    · exact ⟨_, rfl, Same.moveTo g _ _⟩
    · exact ⟨u, rfl, hsame⟩
  | read g len =>
    obtain rfl : g = h := ha
    simp only [step] at hstep ⊢
    rw [← hsame.handle]
    rcases hd : s.handle g with _ | d
    all_goals
      simp only [hd] at hstep ⊢
      obtain ⟨rfl, rfl⟩ := Prod.mk.inj (Option.some.inj hstep)
    · exact ⟨u, rfl, hsame⟩
    · obtain ⟨hbytes, hsame⟩ := Same.retroVfsFileReadImpl bufsize content g (hleft d hd) (hoffset d hd)
      exact ⟨_, by rw [hbytes], hsame⟩
  | seek g offset whence =>
    obtain rfl : g = h := ha
    simp only [step] at hstep ⊢
    rw [← hsame.handle]
    rcases hd : s.handle g with _ | d
    all_goals simp only [hd] at hstep ⊢
    · obtain ⟨rfl, rfl⟩ := Prod.mk.inj (Option.some.inj hstep)
      exact ⟨u, rfl, hsame⟩
    · -- only a seek from the current position looks at the offset
      have htarget : seekTarget (content d.file).length (u.position d) offset whence =
          seekTarget (content d.file).length (s.position d) offset whence := by
        cases whence with
        | start => rfl
        | current => rw [State.position, State.position, hoffset d hd trivial]
        | «end» => rfl
      rw [htarget]
      split at hstep
      all_goals obtain ⟨rfl, rfl⟩ := Prod.mk.inj (Option.some.inj hstep)
      · exact ⟨_, rfl, Same.moveTo g _ _⟩
      · exact ⟨u, rfl, hsame⟩
  | tell g =>
    obtain rfl : g = h := ha
    simp only [step] at hstep ⊢
    rw [← hsame.handle]
    rcases hd : s.handle g with _ | d
    all_goals
      simp only [hd] at hstep ⊢
      obtain ⟨rfl, rfl⟩ := Prod.mk.inj (Option.some.inj hstep)
    · exact ⟨u, rfl, hsame⟩
    · have hposition : (if d.Buffered then u.position d else 0) = if d.Buffered then s.position d else 0 := by
        split_ifs with hbuffered
        · rw [State.position, State.position, hoffset d hd hbuffered]
        · rfl
      exact ⟨u, by rw [hposition], hsame⟩
  | close g =>
    obtain rfl : g = h := ha
    obtain ⟨rfl, rfl⟩ := Prod.mk.inj (Option.some.inj hstep)
    exact ⟨_, rfl, by simp, by simp⟩

/-- For every buffer size, from any offsets, over any files and any run of operations in which those
that look at the offset find it where their handle has left it: what a handle is answered is what it
would be answered alone. -/
theorem private_stream (bufsize : Nat) (virtualFiles : List VFSFile) (content : Nat → List UInt8)
    (offset : Nat → Nat) (as : List Action)
    (hC : Along (step bufsize virtualFiles content) OffsetOwn { offset := offset } as) (h : Nat) :
    (run (step bufsize virtualFiles content) { offset := offset } as).2.filter (fun e => e.handle = h) =
      (run (step bufsize virtualFiles content) { offset := offset }
        (as.filter fun a => a.handle = h)).2 := by
  refine run_filter (R := Same h) step_total (fun {_ _ a _ _} hR ha hstep => ?_)
    (fun {_ _ a _ es} hR ha hstep hC => ?_) ⟨rfl, by simp⟩ as hC
  · have ha : a.handle ≠ h := by simpa using ha
    refine ⟨hR.other ha hstep, ?_⟩
    rw [List.filter_eq_nil_iff]
    intro e he
    simpa [(step_cases hstep).1 e he] using ha
  · have ha : a.handle = h := by simpa using ha
    obtain ⟨u', hu, hR⟩ := hR.own ha hstep hC
    have hfilter : es.filter (fun e => e.handle = h) = es := by
      rw [List.filter_eq_self]
      intro e he
      simpa [(step_cases hstep).1 e he] using ha
    exact ⟨u', by rw [hfilter]; exact hu, hR⟩

/-- Two handles on one file that take turns: the first reads on from its buffer, and goes back to its
own place before it needs the descriptor again. -/
theorem private_stream_turns :
    (run (step 2 [⟨"game.nes", 3⟩] fun _ => [78, 69, 83]) { offset := fun _ => 0 }
        [.open 0 "game.nes" 0, .read 0 1, .open 1 "game.nes" 0, .read 1 2, .read 0 1, .seek 0 2 .start,
          .read 0 1]).2.filter (fun e => e.handle = 0) =
      (run (step 2 [⟨"game.nes", 3⟩] fun _ => [78, 69, 83]) { offset := fun _ => 0 }
        ([.open 0 "game.nes" 0, .read 0 1, .open 1 "game.nes" 0, .read 1 2, .read 0 1, .seek 0 2 .start,
          .read 0 1].filter fun a => a.handle = 0)).2 :=
  private_stream _ _ _ _ _ (by decide) 0

/-- What the second handle reads, and what it reads ahead, is lost to the first one. -/
theorem second_handle_reads_ahead :
    ¬ ∀ (bufsize : Nat) (virtualFiles : List VFSFile) (content : Nat → List UInt8) (offset : Nat → Nat)
      (as : List Action) (h : Nat),
      (run (step bufsize virtualFiles content) { offset := offset } as).2.filter (fun e => e.handle = h) =
        (run (step bufsize virtualFiles content) { offset := offset }
          (as.filter fun a => a.handle = h)).2 := by
  intro hall
  have := hall 4096 [⟨"game.nes", 3⟩] (fun _ => [78, 69, 83]) (fun _ => 0)
    [.open 0 "game.nes" 0, .open 1 "game.nes" 0, .read 1 1, .read 0 1] 0
  exact absurd this (by decide)

end SweetHome.VfsStreams
