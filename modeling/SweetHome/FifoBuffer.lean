import SweetHome.Audio
import SweetHome.Lib.RingBuffer

/-!
# The FIFO between the emulator and the audio callback

`FifoBuffer` and `FifoController`, with `write` on the thread of the emulator and `readNow` on that of the audio
callback, an atomic access or a byte of a copy at a time. Any order of their steps is a run of a ring buffer
(`run_refines`), so that the callback gets the bytes that have been written, in their order, and no byte is copied
while it is written (`fifo_safe`).
-/

namespace SweetHome.FifoBuffer
open Audio

variable (mBytesPerFrame mTotalFrames : Nat)

/-- A part of a copy, as an offset in `mStorage` and a size. -/
structure Part where
  offset : Int
  numBytes : Int

def convertFramesToBytes (frames : Nat) : Int := toInt32 (frames * mBytesPerFrame)

/-- One part, or two for the end and the start of the storage. -/
def parts (index frames : Nat) : List Part :=
  if (index + frames) % 2 ^ 32 > mTotalFrames then
    let frames1 := mTotalFrames - index
    [⟨convertFramesToBytes mBytesPerFrame index, convertFramesToBytes mBytesPerFrame frames1⟩,
      ⟨0, convertFramesToBytes mBytesPerFrame (frames - frames1)⟩]
  else [⟨convertFramesToBytes mBytesPerFrame index, convertFramesToBytes mBytesPerFrame frames⟩]

def getFullFramesAvailable (writeCounter readCounter : Nat) : Nat :=
  if readCounter > writeCounter then 0
  else if writeCounter - readCounter ≥ mTotalFrames then mTotalFrames else writeCounter - readCounter

/-- Where the thread of the emulator is in `write`. -/
inductive Writer where
  | idle
  | getWriteCounter (buffer : List UInt8) (numFrames : Nat)
  | getReadCounter (buffer : List UInt8) (numFrames writeCounter : Nat)
  | getWriteIndex (buffer : List UInt8) (framesToWrite : Nat)
  | memcpy (buffer : List UInt8) (framesToWrite : Nat) (parts : List Part) (copied : Nat)

/-- Where the thread of the callback is in `readNow`. -/
inductive Reader where
  | idle
  | getWriteCounter (numFrames : Nat)
  | getReadCounter (numFrames writeCounter : Nat)
  | getReadIndex (numFrames framesToRead : Nat)
  | memcpy (numFrames framesToRead : Nat) (parts : List Part) (destination : List UInt8)

structure State where
  mStorage : Nat → UInt8
  mReadCounter : Nat
  mWriteCounter : Nat
  writer : Writer
  reader : Reader

/-- The counter of the other thread can be seen as it was before, by `lag` frames. -/
inductive Action where
  | write (buffer : List UInt8) (numFrames : Int)
  | readNow (numFrames : Int)
  | writer (lag : Nat)
  | reader (lag : Nat)

/-- What a call returns; the buffer of a read is filled up with zeros. -/
inductive Event where
  | wrote (buffer : List UInt8) (framesWritten : Int)
  | read (numFrames : Int) (buffer : List UInt8) (framesRead : Int)
deriving DecidableEq, Repr

def ErrorOutOfRange : Int := -882

/-- What is left of a part behind its first byte. -/
def Part.next (p : Part) : Part := ⟨p.offset + 1, p.numBytes - 1⟩

theorem Part.next_offset (p : Part) : p.next.offset = p.offset + 1 := rfl

theorem Part.next_numBytes (p : Part) : p.next.numBytes = p.numBytes - 1 := rfl

def Part.InStorage (p : Part) : Prop := 0 ≤ p.offset ∧ p.offset < mTotalFrames * mBytesPerFrame

instance (p : Part) : Decidable (p.InStorage mBytesPerFrame mTotalFrames) := inferInstanceAs (Decidable (_ ∧ _))

/-- A byte of a `memcpy` into the storage; `none` outside of it. -/
def State.writePart (s : State) (buffer : List UInt8) (framesToWrite : Nat) (p : Part) (parts : List Part)
    (copied : Nat) : Option (State × List Event) :=
  if p.numBytes < 0 then some ({ s with writer := .idle }, [.wrote buffer ErrorOutOfRange])
  else if p.numBytes = 0 then some ({ s with writer := .memcpy buffer framesToWrite parts copied }, [])
  else if p.InStorage mBytesPerFrame mTotalFrames then
    buffer[copied]?.map fun byte => ({ s with
      mStorage := Function.update s.mStorage p.offset.toNat byte
      writer := .memcpy buffer framesToWrite (p.next :: parts) (copied + 1) }, [])
  else none

/-- A byte of a `memcpy` out of the storage. -/
def State.readPart (s : State) (numFrames framesToRead : Nat) (p : Part) (parts : List Part)
    (destination : List UInt8) : Option (State × List Event) :=
  if p.numBytes < 0 then some ({ s with reader := .idle }, [.read numFrames destination ErrorOutOfRange])
  else if p.numBytes = 0 then some ({ s with reader := .memcpy numFrames framesToRead parts destination }, [])
  else if p.InStorage mBytesPerFrame mTotalFrames then
    some ({ s with
      reader := .memcpy numFrames framesToRead (p.next :: parts) (destination ++ [s.mStorage p.offset.toNat]) }, [])
  else none

def State.stepWriter (s : State) (lag : Nat) : Option (State × List Event) :=
  match s.writer with
  | .idle => none
  | .getWriteCounter buffer numFrames =>
    some ({ s with writer := .getReadCounter buffer numFrames s.mWriteCounter }, [])
  | .getReadCounter buffer numFrames writeCounter =>
    let framesAvailable := mTotalFrames - getFullFramesAvailable mTotalFrames writeCounter (s.mReadCounter - lag)
    some ({ s with writer := .getWriteIndex buffer (min numFrames framesAvailable) }, [])
  | .getWriteIndex buffer framesToWrite =>
    let writeIndex := s.mWriteCounter % mTotalFrames
    some ({ s with
      writer := .memcpy buffer framesToWrite (parts mBytesPerFrame mTotalFrames writeIndex framesToWrite) 0 }, [])
  | .memcpy buffer framesToWrite [] _ =>
    some ({ s with mWriteCounter := (s.mWriteCounter + framesToWrite) % 2 ^ 64, writer := .idle },
      [.wrote buffer framesToWrite])
  | .memcpy buffer framesToWrite (p :: parts) copied =>
    s.writePart mBytesPerFrame mTotalFrames buffer framesToWrite p parts copied

def State.stepReader (s : State) (lag : Nat) : Option (State × List Event) :=
  match s.reader with
  | .idle => none
  | .getWriteCounter numFrames => some ({ s with reader := .getReadCounter numFrames (s.mWriteCounter - lag) }, [])
  | .getReadCounter numFrames writeCounter =>
    let framesAvailable := getFullFramesAvailable mTotalFrames writeCounter s.mReadCounter
    some ({ s with reader := .getReadIndex numFrames (min numFrames framesAvailable) }, [])
  | .getReadIndex numFrames framesToRead =>
    let readIndex := s.mReadCounter % mTotalFrames
    some ({ s with
      reader := .memcpy numFrames framesToRead (parts mBytesPerFrame mTotalFrames readIndex framesToRead) [] }, [])
  | .memcpy numFrames framesToRead [] destination =>
    let framesLeft := numFrames - framesToRead
    let buffer := destination ++ List.replicate (convertFramesToBytes mBytesPerFrame framesLeft).toNat 0
    some ({ s with mReadCounter := (s.mReadCounter + framesToRead) % 2 ^ 64, reader := .idle },
      [.read numFrames buffer framesToRead])
  | .memcpy numFrames framesToRead (p :: parts) destination =>
    s.readPart mBytesPerFrame mTotalFrames numFrames framesToRead p parts destination

/-- A caller has room for its frames, the bytes of which an `int32_t` counts. -/
def step : Step State Action Event
  | s, .write buffer numFrames =>
    match s.writer with
    | .idle =>
      if numFrames ≤ 0 then some (s, [.wrote buffer 0])
      else if numFrames * mBytesPerFrame ≤ buffer.length then
        some ({ s with writer := .getWriteCounter buffer numFrames.toNat }, [])
      else none
    | _ => none
  | s, .readNow numFrames =>
    match s.reader with
    | .idle =>
      if numFrames ≤ 0 then some (s, [.read numFrames [] 0])
      else if numFrames * mBytesPerFrame < 2 ^ 31 then
        some ({ s with reader := .getWriteCounter numFrames.toNat }, [])
      else none
    | _ => none
  | s, .writer lag => s.stepWriter mBytesPerFrame mTotalFrames lag
  | s, .reader lag => s.stepReader mBytesPerFrame mTotalFrames lag

def initial (mStorage : Nat → UInt8) : State := ⟨mStorage, 0, 0, .idle, .idle⟩

/-! ### As a ring buffer -/

/-- From when the frames to write are known, they are reserved. -/
def Writer.producer : Writer → Ring.Producer UInt8
  | getWriteIndex buffer framesToWrite => .storing (buffer.take (framesToWrite * mBytesPerFrame)) 0
  | memcpy buffer framesToWrite _ copied => .storing (buffer.take (framesToWrite * mBytesPerFrame)) copied
  | _ => .idle

def Reader.consumer : Reader → Ring.Consumer UInt8
  | getReadIndex _ framesToRead => .loading (framesToRead * mBytesPerFrame) []
  | memcpy _ framesToRead _ destination => .loading (framesToRead * mBytesPerFrame) destination
  | _ => .idle

def State.ring (s : State) : Ring.State UInt8 where
  cells := s.mStorage
  read := s.mReadCounter * mBytesPerFrame
  write := s.mWriteCounter * mBytesPerFrame
  producer := s.writer.producer mBytesPerFrame
  consumer := s.reader.consumer mBytesPerFrame

/-- The bytes that a call has written, and those that one has read. -/
def Event.written : Event → List UInt8
  | wrote buffer framesWritten => buffer.take (framesWritten.toNat * mBytesPerFrame)
  | read .. => []

def Event.taken : Event → List UInt8
  | wrote .. => []
  | read _ buffer framesRead => buffer.take (framesRead.toNat * mBytesPerFrame)

/-- An `int32_t` counts the bytes of the storage, which has no more frames than the assertion of the constructor
allows. -/
structure Fits : Prop where
  bytesPerFrame : 0 < mBytesPerFrame
  frames : 0 < mTotalFrames
  frames_le : mTotalFrames ≤ (2 ^ 32 - 1) / 4
  bytes : mTotalFrames * mBytesPerFrame < 2 ^ 31

/-! ### Parts -/

variable {mBytesPerFrame mTotalFrames}

def Part.addresses (p : Part) : List Nat := List.range' p.offset.toNat p.numBytes.toNat

/-- Parts of the storage for the bytes from one position on. -/
structure Covers (mBytesPerFrame mTotalFrames : Nat) (ps : List Part) (position n : Nat) : Prop where
  sizes : ∀ p ∈ ps, 0 ≤ p.offset ∧ 0 ≤ p.numBytes
  addresses : ps.flatMap Part.addresses = (List.range' position n).map (· % (mTotalFrames * mBytesPerFrame))

theorem toInt32_of_lt {x : Nat} (h : x < 2 ^ 31) : toInt32 x = x := by
  rw [toInt32, Nat.mod_eq_of_lt (by omega), if_pos h]

theorem convertFramesToBytes_eq (h : Fits mBytesPerFrame mTotalFrames) {frames : Nat} (hle : frames ≤ mTotalFrames) :
    convertFramesToBytes mBytesPerFrame frames = (frames * mBytesPerFrame : Nat) :=
  toInt32_of_lt ((Nat.mul_le_mul_right mBytesPerFrame hle).trans_lt h.bytes)

theorem covers_parts (h : Fits mBytesPerFrame mTotalFrames) (counter : Nat) {frames : Nat}
    (hle : frames ≤ mTotalFrames) :
    Covers mBytesPerFrame mTotalFrames (parts mBytesPerFrame mTotalFrames (counter % mTotalFrames) frames)
      (counter * mBytesPerFrame) (frames * mBytesPerFrame) := by
  have hindex := Nat.mod_lt counter h.frames
  have hframes := h.frames_le
  have hposition : counter * mBytesPerFrame % (mTotalFrames * mBytesPerFrame) =
      counter % mTotalFrames * mBytesPerFrame := Nat.mul_mod_mul_right ..
  have hnonneg (a b : Nat) : (0 : Int) ≤ a ∧ (0 : Int) ≤ b := ⟨Int.natCast_nonneg a, Int.natCast_nonneg b⟩
  rw [parts, Nat.mod_eq_of_lt (by omega), convertFramesToBytes_eq h hindex.le, convertFramesToBytes_eq h hle]
  split
  · rename_i hwrap
    have hfirst : mTotalFrames * mBytesPerFrame - counter % mTotalFrames * mBytesPerFrame =
        (mTotalFrames - counter % mTotalFrames) * mBytesPerFrame := (Nat.sub_mul ..).symm
    have hsecond : frames * mBytesPerFrame - (mTotalFrames - counter % mTotalFrames) * mBytesPerFrame =
        (frames - (mTotalFrames - counter % mTotalFrames)) * mBytesPerFrame := (Nat.sub_mul ..).symm
    dsimp only
    rw [convertFramesToBytes_eq h (Nat.sub_le ..), convertFramesToBytes_eq h (by omega)]
    refine ⟨List.forall_mem_cons.2 ⟨hnonneg _ _, List.forall_mem_singleton.2 (hnonneg 0 _)⟩, ?_⟩
    rw [Ring.map_mod_range'_wrap (Nat.mul_pos h.frames h.bytesPerFrame) ?_ (Nat.mul_le_mul_right _ hle), hposition,
      hfirst, hsecond]
    · exact congrArg (List.range' _ _ ++ ·) (List.append_nil _)
    · rw [hposition, ← Nat.add_mul]
      exact Nat.mul_lt_mul_of_pos_right hwrap h.bytesPerFrame
  · rename_i hfit
    refine ⟨List.forall_mem_singleton.2 (hnonneg _ _), ?_⟩
    rw [Ring.map_mod_range', hposition]
    · exact List.append_nil _
    · rw [hposition, ← Nat.add_mul]
      exact Nat.mul_le_mul_right _ (by omega)

theorem Covers.nil {position n : Nat} (h : Covers mBytesPerFrame mTotalFrames [] position n) : n = 0 := by
  have hlength := congrArg List.length h.addresses
  rw [List.length_map, List.length_range'] at hlength
  exact hlength.symm

theorem Covers.skip {p : Part} {ps : List Part} {position n : Nat}
    (h : Covers mBytesPerFrame mTotalFrames (p :: ps) position n) (hp : p.numBytes = 0) :
    Covers mBytesPerFrame mTotalFrames ps position n := by
  refine ⟨fun p' hp' => h.sizes p' (List.mem_cons_of_mem _ hp'), ?_⟩
  rw [← h.addresses, List.flatMap_cons, Part.addresses, hp]
  rfl

/-- The next byte of the first part is that of the position. -/
theorem Covers.next (hfits : Fits mBytesPerFrame mTotalFrames) {p : Part} {ps : List Part} {position n : Nat}
    (h : Covers mBytesPerFrame mTotalFrames (p :: ps) position n) (hp : p.numBytes ≠ 0) :
    0 < n ∧ p.offset.toNat = position % (mTotalFrames * mBytesPerFrame) ∧ p.InStorage mBytesPerFrame mTotalFrames ∧
      Covers mBytesPerFrame mTotalFrames (p.next :: ps) (position + 1) (n - 1) := by
  obtain ⟨hoffset, hsize⟩ := h.sizes p (List.mem_cons_self ..)
  have hcons : p.addresses = p.offset.toNat :: p.next.addresses := by
    have hoffset' : p.next.offset.toNat = p.offset.toNat + 1 := by
      rw [Part.next_offset]
      omega
    obtain ⟨k, hk⟩ : ∃ k, p.numBytes.toNat = k + 1 := ⟨p.numBytes.toNat - 1, by omega⟩
    have hsize' : p.next.numBytes.toNat = k := by
      rw [Part.next_numBytes]
      omega
    rw [Part.addresses, Part.addresses, hoffset', hk, hsize', List.range'_succ]
  have haddresses := h.addresses
  rw [List.flatMap_cons, hcons, List.cons_append] at haddresses
  cases n with
  | zero => cases haddresses
  | succ n =>
    rw [List.range'_succ, List.map_cons, List.cons.injEq] at haddresses
    obtain ⟨hfirst, hrest⟩ := haddresses
    have hlt := Nat.mod_lt position (Nat.mul_pos hfits.frames hfits.bytesPerFrame)
    refine ⟨Nat.succ_pos n, hfirst, ⟨hoffset, ?_⟩, ?_, ?_⟩
    · rw [← hfirst] at hlt
      have hcast : (p.offset.toNat : Int) = p.offset := Int.toNat_of_nonneg hoffset
      rw [← hcast]
      exact_mod_cast hlt
    · intro p' hp'
      rcases List.mem_cons.1 hp' with rfl | hp'
      · exact ⟨by rw [Part.next_offset]; omega, by rw [Part.next_numBytes]; omega⟩
      · exact h.sizes p' (List.mem_cons_of_mem _ hp')
    · rw [List.flatMap_cons, hrest]
      rfl

/-! ### The invariant -/

variable {s t : State} {a : Action} {es : List Event}

/-- What holds between the steps of `write`, from the write counter. -/
def Writer.Inv (mBytesPerFrame mTotalFrames w : Nat) : Writer → Prop
  | idle => True
  | getWriteCounter buffer numFrames => numFrames * mBytesPerFrame ≤ buffer.length
  | getReadCounter buffer numFrames writeCounter => numFrames * mBytesPerFrame ≤ buffer.length ∧ writeCounter = w
  | getWriteIndex buffer framesToWrite => framesToWrite * mBytesPerFrame ≤ buffer.length
  | memcpy buffer framesToWrite parts copied => framesToWrite * mBytesPerFrame ≤ buffer.length ∧
    copied ≤ framesToWrite * mBytesPerFrame ∧ Covers mBytesPerFrame mTotalFrames parts
      (w * mBytesPerFrame + copied) (framesToWrite * mBytesPerFrame - copied)

/-- What holds between the steps of `readNow`, from the counters. -/
def Reader.Inv (mBytesPerFrame mTotalFrames r w : Nat) : Reader → Prop
  | idle => True
  | getWriteCounter numFrames => numFrames * mBytesPerFrame < 2 ^ 31
  | getReadCounter numFrames writeCounter => numFrames * mBytesPerFrame < 2 ^ 31 ∧ writeCounter ≤ w
  | getReadIndex numFrames framesToRead => numFrames * mBytesPerFrame < 2 ^ 31 ∧ framesToRead ≤ numFrames
  | memcpy numFrames framesToRead parts destination => numFrames * mBytesPerFrame < 2 ^ 31 ∧
    framesToRead ≤ numFrames ∧ destination.length ≤ framesToRead * mBytesPerFrame ∧
    Covers mBytesPerFrame mTotalFrames parts (r * mBytesPerFrame + destination.length)
      (framesToRead * mBytesPerFrame - destination.length)

theorem Reader.Inv.mono {r w w' : Nat} {reader : Reader} (h : reader.Inv mBytesPerFrame mTotalFrames r w)
    (hw : w ≤ w') : reader.Inv mBytesPerFrame mTotalFrames r w' := by
  cases reader with
  | getReadCounter numFrames writeCounter => exact ⟨h.1, h.2.trans hw⟩
  | _ => exact h

structure Inv (mBytesPerFrame mTotalFrames : Nat) (s : State) : Prop where
  ring : (s.ring mBytesPerFrame).Inv (mTotalFrames * mBytesPerFrame)
  writer : s.writer.Inv mBytesPerFrame mTotalFrames s.mWriteCounter
  reader : s.reader.Inv mBytesPerFrame mTotalFrames s.mReadCounter s.mWriteCounter

/-- How many frames a call of `write` can still add. -/
def Writer.pending : Writer → Nat
  | idle => 0
  | getWriteCounter _ numFrames => numFrames
  | getReadCounter _ numFrames _ => numFrames
  | getWriteIndex _ framesToWrite => framesToWrite
  | memcpy _ framesToWrite _ _ => framesToWrite

def Action.offered : Action → Nat
  | write _ numFrames => numFrames.toNat
  | _ => 0

/-- What an event of the FIFO is in the ring. -/
def Event.InRing (mBytesPerFrame : Nat) (es : List Event) (es' : List (Ring.Event UInt8)) : Prop :=
  es'.flatMap Ring.Event.publishedItems = es.flatMap (Event.written mBytesPerFrame) ∧
    es'.flatMap Ring.Event.releasedItems = es.flatMap (Event.taken mBytesPerFrame)

/-- Every call returns how much it has copied, and a reader gets all of its buffer filled. -/
def Event.Sound (mBytesPerFrame : Nat) : Event → Prop
  | wrote buffer framesWritten => 0 ≤ framesWritten ∧ framesWritten * mBytesPerFrame ≤ buffer.length
  | read numFrames buffer framesRead => 0 ≤ framesRead ∧ framesRead ≤ max 0 numFrames ∧
    buffer = buffer.take (framesRead.toNat * mBytesPerFrame) ++
      List.replicate ((numFrames - framesRead).toNat * mBytesPerFrame) 0

/-- A step keeps the invariant and is none or one of the ring. -/
structure Refines (mBytesPerFrame mTotalFrames : Nat) (s t : State) (es : List Event) : Prop where
  inv : Inv mBytesPerFrame mTotalFrames t
  ring : s.ring mBytesPerFrame = t.ring mBytesPerFrame ∧ Event.InRing mBytesPerFrame es [] ∨
    ∃ a' es', Ring.step (mTotalFrames * mBytesPerFrame) (s.ring mBytesPerFrame) a' =
      some (t.ring mBytesPerFrame, es') ∧ Event.InRing mBytesPerFrame es es'
  sound : ∀ e ∈ es, e.Sound mBytesPerFrame

/-! ### Steps -/

/-- The counters of the frames are in order. -/
theorem Inv.counters (hfits : Fits mBytesPerFrame mTotalFrames) (h : Inv mBytesPerFrame mTotalFrames s) :
    s.mReadCounter ≤ s.mWriteCounter ∧ s.mWriteCounter ≤ s.mReadCounter + mTotalFrames := by
  have hle : s.mReadCounter * mBytesPerFrame ≤ s.mWriteCounter * mBytesPerFrame := h.ring.read_le
  have hroom : s.mWriteCounter * mBytesPerFrame + _ ≤ s.mReadCounter * mBytesPerFrame + mTotalFrames * mBytesPerFrame :=
    h.ring.room
  rw [← Nat.add_mul] at hroom
  exact ⟨Nat.le_of_mul_le_mul_right hle hfits.bytesPerFrame,
    Nat.le_of_mul_le_mul_right (Nat.le_of_add_right_le hroom) hfits.bytesPerFrame⟩

/-- Seeing an older read counter, a writer finds less room. -/
theorem le_getFullFramesAvailable {r r' w : Nat} (hr : r' ≤ r) (hle : r ≤ w) (hroom : w ≤ r + mTotalFrames) :
    w - r ≤ getFullFramesAvailable mTotalFrames w r' := by
  unfold getFullFramesAvailable
  split_ifs <;> omega

/-- Seeing an older write counter, a reader finds fewer frames. -/
theorem getFullFramesAvailable_le {r w w' : Nat} (hw : w' ≤ w) (hle : r ≤ w) :
    r + getFullFramesAvailable mTotalFrames w' r ≤ w := by
  unfold getFullFramesAvailable
  split_ifs <;> omega

/-- A step of the ring keeps its invariant. -/
theorem Refines.of_ring (h : Inv mBytesPerFrame mTotalFrames s) {a' : Ring.Action UInt8}
    {es' : List (Ring.Event UInt8)}
    (hring : Ring.step (mTotalFrames * mBytesPerFrame) (s.ring mBytesPerFrame) a' = some (t.ring mBytesPerFrame, es'))
    (hes : Event.InRing mBytesPerFrame es es')
    (hwriter : t.writer.Inv mBytesPerFrame mTotalFrames t.mWriteCounter)
    (hreader : t.reader.Inv mBytesPerFrame mTotalFrames t.mReadCounter t.mWriteCounter)
    (hsound : ∀ e ∈ es, e.Sound mBytesPerFrame) :
    Refines mBytesPerFrame mTotalFrames s t es :=
  ⟨⟨(Ring.inv_step h.ring hring).1, hwriter, hreader⟩, .inr ⟨a', es', hring, hes⟩, hsound⟩

theorem Refines.of_silent (h : Inv mBytesPerFrame mTotalFrames s)
    (hring : s.ring mBytesPerFrame = t.ring mBytesPerFrame)
    (hwriter : t.writer.Inv mBytesPerFrame mTotalFrames t.mWriteCounter)
    (hreader : t.reader.Inv mBytesPerFrame mTotalFrames t.mReadCounter t.mWriteCounter) :
    Refines mBytesPerFrame mTotalFrames s t [] :=
  ⟨⟨hring ▸ h.ring, hwriter, hreader⟩, .inl ⟨hring, rfl, rfl⟩, nofun⟩

/-- There is room for what a writer has reserved. -/
theorem Inv.reserved_le (hfits : Fits mBytesPerFrame mTotalFrames) (h : Inv mBytesPerFrame mTotalFrames s)
    {items : List UInt8} {done framesToWrite : Nat} (hwriter : s.writer.producer mBytesPerFrame = .storing items done)
    (hlength : items.length = framesToWrite * mBytesPerFrame) :
    s.mWriteCounter + framesToWrite ≤ s.mReadCounter + mTotalFrames := by
  have hroom : s.mWriteCounter * mBytesPerFrame + (s.writer.producer mBytesPerFrame).reserved ≤
      s.mReadCounter * mBytesPerFrame + mTotalFrames * mBytesPerFrame := h.ring.room
  rw [hwriter, Ring.Producer.reserved, hlength, ← Nat.add_mul, ← Nat.add_mul] at hroom
  exact Nat.le_of_mul_le_mul_right hroom hfits.bytesPerFrame

/-- What a reader has claimed has been written. -/
theorem Inv.claimed_le (hfits : Fits mBytesPerFrame mTotalFrames) (h : Inv mBytesPerFrame mTotalFrames s)
    {items : List UInt8} {framesToRead : Nat}
    (hreader : s.reader.consumer mBytesPerFrame = .loading (framesToRead * mBytesPerFrame) items) :
    s.mReadCounter + framesToRead ≤ s.mWriteCounter := by
  obtain ⟨-, hclaimed, -⟩ := h.ring.loaded _ _ hreader
  have hclaimed : s.mReadCounter * mBytesPerFrame + framesToRead * mBytesPerFrame ≤ s.mWriteCounter * mBytesPerFrame :=
    hclaimed
  rw [← Nat.add_mul] at hclaimed
  exact Nat.le_of_mul_le_mul_right hclaimed hfits.bytesPerFrame

section
variable {mStorage : Nat → UInt8} {r w : Nat} {writer : Writer} {reader : Reader} {buffer destination : List UInt8}
  {numFrames framesToWrite framesToRead copied : Nat} {p : Part} {ps : List Part}

/-- The end of a copy into the storage publishes what has been copied. -/
theorem refines_wrote
    (h : Inv mBytesPerFrame mTotalFrames ⟨mStorage, r, w, .memcpy buffer framesToWrite [] copied, reader⟩)
    (hcount : w + framesToWrite < 2 ^ 64) :
    Refines mBytesPerFrame mTotalFrames ⟨mStorage, r, w, .memcpy buffer framesToWrite [] copied, reader⟩
      ⟨mStorage, r, (w + framesToWrite) % 2 ^ 64, .idle, reader⟩ [.wrote buffer framesToWrite] := by
  obtain ⟨hbuffer, hcopied, hcovers⟩ := h.writer
  have hdone := hcovers.nil
  have hlength : (buffer.take (framesToWrite * mBytesPerFrame)).length = framesToWrite * mBytesPerFrame :=
    List.length_take_of_le hbuffer
  have hcount : (w + framesToWrite) % 2 ^ 64 = w + framesToWrite := Nat.mod_eq_of_lt hcount
  have hcounter : (w + framesToWrite) % 2 ^ 64 * mBytesPerFrame =
      w * mBytesPerFrame + (buffer.take (framesToWrite * mBytesPerFrame)).length := by
    rw [hcount, hlength, Nat.add_mul]
  have hring : Ring.step (mTotalFrames * mBytesPerFrame) (State.ring mBytesPerFrame
      ⟨mStorage, r, w, .memcpy buffer framesToWrite [] copied, reader⟩) .publish = some (State.ring mBytesPerFrame
        ⟨mStorage, r, (w + framesToWrite) % 2 ^ 64, .idle, reader⟩,
        [.published (buffer.take (framesToWrite * mBytesPerFrame))]) := by
    rw [State.ring, State.ring, hcounter]
    exact Ring.step_publish (by omega)
  have hsound : Event.Sound mBytesPerFrame (.wrote buffer framesToWrite) :=
    ⟨Int.natCast_nonneg _, by exact_mod_cast hbuffer⟩
  have hmono : w ≤ (w + framesToWrite) % 2 ^ 64 := by omega
  exact .of_ring h hring ⟨rfl, rfl⟩ trivial (h.reader.mono hmono) (List.forall_mem_singleton.2 hsound)

theorem refines_writePart (hfits : Fits mBytesPerFrame mTotalFrames)
    (h : Inv mBytesPerFrame mTotalFrames ⟨mStorage, r, w, .memcpy buffer framesToWrite (p :: ps) copied, reader⟩)
    (hstep : State.writePart mBytesPerFrame mTotalFrames
      ⟨mStorage, r, w, .memcpy buffer framesToWrite (p :: ps) copied, reader⟩ buffer framesToWrite p ps copied =
        some (t, es)) :
    Refines mBytesPerFrame mTotalFrames ⟨mStorage, r, w, .memcpy buffer framesToWrite (p :: ps) copied, reader⟩
      t es := by
  obtain ⟨hbuffer, hcopied, hcovers⟩ := h.writer
  obtain ⟨hoffset, hsize⟩ := hcovers.sizes p (List.mem_cons_self ..)
  rw [State.writePart, if_neg (Int.not_lt.2 hsize)] at hstep
  by_cases hzero : p.numBytes = 0
  · rw [if_pos hzero] at hstep
    cases hstep
    exact .of_silent h rfl ⟨hbuffer, hcopied, hcovers.skip hzero⟩ h.reader
  · obtain ⟨hpos, haddress, hstorage, hrest⟩ := hcovers.next hfits hzero
    rw [if_neg hzero, if_pos hstorage] at hstep
    obtain ⟨byte, hbyte, heq⟩ := Option.map_eq_some_iff.1 hstep
    cases heq
    have hitem : (buffer.take (framesToWrite * mBytesPerFrame))[copied]? = some byte := by
      rw [List.getElem?_take_of_lt (by omega), hbyte]
    have hring : Ring.step (mTotalFrames * mBytesPerFrame) (State.ring mBytesPerFrame
        ⟨mStorage, r, w, .memcpy buffer framesToWrite (p :: ps) copied, reader⟩) .store =
      some (State.ring mBytesPerFrame ⟨Function.update mStorage p.offset.toNat byte, r, w,
        .memcpy buffer framesToWrite (p.next :: ps) (copied + 1), reader⟩, []) := by
      rw [haddress]
      exact Ring.step_store hitem
    refine .of_ring h hring ⟨rfl, rfl⟩ ⟨hbuffer, by omega, ?_⟩ h.reader nofun
    rw [Nat.sub_sub] at hrest
    exact hrest

/-- The end of a copy out of the storage releases what has been copied; the rest of the buffer is zeros. -/
theorem refines_read (hfits : Fits mBytesPerFrame mTotalFrames)
    (h : Inv mBytesPerFrame mTotalFrames ⟨mStorage, r, w, writer, .memcpy numFrames framesToRead [] destination⟩)
    (hcount : w < 2 ^ 64) :
    Refines mBytesPerFrame mTotalFrames ⟨mStorage, r, w, writer, .memcpy numFrames framesToRead [] destination⟩
      ⟨mStorage, (r + framesToRead) % 2 ^ 64, w, writer, .idle⟩
      [.read numFrames (destination ++
        List.replicate (convertFramesToBytes mBytesPerFrame (numFrames - framesToRead)).toNat 0) framesToRead] := by
  obtain ⟨hbuffer, hframes, hcopied, hcovers⟩ := h.reader
  have hclaimed : r + framesToRead ≤ w := h.claimed_le hfits rfl
  have hdone : destination.length = framesToRead * mBytesPerFrame := by
    have := hcovers.nil
    omega
  have hcounter : (r + framesToRead) % 2 ^ 64 * mBytesPerFrame =
      r * mBytesPerFrame + framesToRead * mBytesPerFrame := by
    rw [Nat.mod_eq_of_lt (hclaimed.trans_lt hcount), Nat.add_mul]
  have hring : Ring.step (mTotalFrames * mBytesPerFrame) (State.ring mBytesPerFrame
      ⟨mStorage, r, w, writer, .memcpy numFrames framesToRead [] destination⟩) .release =
      some (State.ring mBytesPerFrame ⟨mStorage, (r + framesToRead) % 2 ^ 64, w, writer, .idle⟩,
        [.released destination]) := by
    rw [State.ring, State.ring, hcounter]
    exact Ring.step_release hdone
  have htake (zeros : List UInt8) : (destination ++ zeros).take (framesToRead * mBytesPerFrame) = destination :=
    List.take_left' hdone
  have hzeros : (convertFramesToBytes mBytesPerFrame (numFrames - framesToRead)).toNat =
      (numFrames - framesToRead) * mBytesPerFrame := by
    have hle : (numFrames - framesToRead) * mBytesPerFrame ≤ numFrames * mBytesPerFrame :=
      Nat.mul_le_mul_right _ (Nat.sub_le ..)
    rw [convertFramesToBytes, toInt32_of_lt (hle.trans_lt hbuffer), Int.toNat_natCast]
  refine .of_ring h hring ⟨rfl, ?_⟩ h.writer trivial (List.forall_mem_singleton.2 ⟨Int.natCast_nonneg _, ?_, ?_⟩)
  · exact congrArg (· ++ []) (htake _).symm
  · omega
  · have hleft : ((numFrames : Int) - framesToRead).toNat = numFrames - framesToRead := by omega
    rw [hzeros, Int.toNat_natCast, htake, hleft]

theorem refines_readPart (hfits : Fits mBytesPerFrame mTotalFrames)
    (h : Inv mBytesPerFrame mTotalFrames
      ⟨mStorage, r, w, writer, .memcpy numFrames framesToRead (p :: ps) destination⟩)
    (hstep : State.readPart mBytesPerFrame mTotalFrames
      ⟨mStorage, r, w, writer, .memcpy numFrames framesToRead (p :: ps) destination⟩ numFrames framesToRead p ps
        destination = some (t, es)) :
    Refines mBytesPerFrame mTotalFrames
      ⟨mStorage, r, w, writer, .memcpy numFrames framesToRead (p :: ps) destination⟩ t es := by
  obtain ⟨hbuffer, hframes, hcopied, hcovers⟩ := h.reader
  obtain ⟨hoffset, hsize⟩ := hcovers.sizes p (List.mem_cons_self ..)
  rw [State.readPart, if_neg (Int.not_lt.2 hsize)] at hstep
  by_cases hzero : p.numBytes = 0
  · rw [if_pos hzero] at hstep
    cases hstep
    exact .of_silent h rfl h.writer ⟨hbuffer, hframes, hcopied, hcovers.skip hzero⟩
  · obtain ⟨hpos, haddress, hstorage, hrest⟩ := hcovers.next hfits hzero
    rw [if_neg hzero, if_pos hstorage] at hstep
    cases hstep
    have hring : Ring.step (mTotalFrames * mBytesPerFrame) (State.ring mBytesPerFrame
        ⟨mStorage, r, w, writer, .memcpy numFrames framesToRead (p :: ps) destination⟩) .load =
      some (State.ring mBytesPerFrame ⟨mStorage, r, w, writer,
        .memcpy numFrames framesToRead (p.next :: ps) (destination ++ [mStorage p.offset.toNat])⟩, []) := by
      rw [haddress]
      exact Ring.step_load (by omega)
    have hlength : (destination ++ [mStorage p.offset.toNat]).length = destination.length + 1 := List.length_append
    refine .of_ring h hring ⟨rfl, rfl⟩ h.writer ⟨hbuffer, hframes, hlength.trans_le (by omega), ?_⟩ nofun
    rw [hlength]
    rw [Nat.sub_sub] at hrest
    exact hrest

end

theorem refines_stepWriter (hfits : Fits mBytesPerFrame mTotalFrames) (h : Inv mBytesPerFrame mTotalFrames s)
    (hcount : s.mWriteCounter + s.writer.pending < 2 ^ 64) {lag : Nat}
    (hstep : s.stepWriter mBytesPerFrame mTotalFrames lag = some (t, es)) :
    Refines mBytesPerFrame mTotalFrames s t es := by
  obtain ⟨mStorage, r, w, writer, reader⟩ := s
  obtain ⟨hle, hroom⟩ : r ≤ w ∧ w ≤ r + mTotalFrames := h.counters hfits
  have hreader := h.reader
  have hwriter := h.writer
  cases writer with
  | idle => cases hstep
  | getWriteCounter buffer numFrames =>
    cases hstep
    exact .of_silent h rfl ⟨hwriter, rfl⟩ hreader
  | getReadCounter buffer numFrames writeCounter =>
    obtain ⟨hbuffer, hcounter⟩ := hwriter
    obtain rfl : writeCounter = w := hcounter
    cases hstep
    have hfull := le_getFullFramesAvailable (Nat.sub_le r lag) hle hroom
    have hframes : min numFrames (mTotalFrames - getFullFramesAvailable mTotalFrames writeCounter (r - lag)) *
        mBytesPerFrame ≤ buffer.length := (Nat.mul_le_mul_right _ (Nat.min_le_left ..)).trans hbuffer
    have hfree : writeCounter +
        min numFrames (mTotalFrames - getFullFramesAvailable mTotalFrames writeCounter (r - lag)) ≤
        r + mTotalFrames := by omega
    refine .of_ring h (Ring.step_reserve ?_) ⟨rfl, rfl⟩ hframes hreader nofun
    rw [List.length_take_of_le hframes, ← Nat.add_mul, ← Nat.add_mul]
    exact Nat.mul_le_mul_right _ hfree
  | getWriteIndex buffer framesToWrite =>
    cases hstep
    have hfree : w + framesToWrite ≤ r + mTotalFrames := h.reserved_le hfits rfl (List.length_take_of_le hwriter)
    have hframes : framesToWrite ≤ mTotalFrames := by omega
    exact .of_silent h rfl ⟨hwriter, Nat.zero_le _, covers_parts hfits w hframes⟩ hreader
  | memcpy buffer framesToWrite parts copied =>
    cases parts with
    | nil =>
      cases hstep
      exact refines_wrote h hcount
    | cons p parts => exact refines_writePart hfits h hstep

theorem refines_stepReader (hfits : Fits mBytesPerFrame mTotalFrames) (h : Inv mBytesPerFrame mTotalFrames s)
    (hcount : s.mWriteCounter < 2 ^ 64) {lag : Nat}
    (hstep : s.stepReader mBytesPerFrame mTotalFrames lag = some (t, es)) :
    Refines mBytesPerFrame mTotalFrames s t es := by
  obtain ⟨mStorage, r, w, writer, reader⟩ := s
  obtain ⟨hle, hroom⟩ : r ≤ w ∧ w ≤ r + mTotalFrames := h.counters hfits
  have hreader := h.reader
  have hwriter := h.writer
  cases reader with
  | idle => cases hstep
  | getWriteCounter numFrames =>
    cases hstep
    exact .of_silent h rfl hwriter ⟨hreader, Nat.sub_le ..⟩
  | getReadCounter numFrames writeCounter =>
    obtain ⟨hbuffer, hcounter⟩ := hreader
    cases hstep
    have hfull : r + getFullFramesAvailable mTotalFrames writeCounter r ≤ w := getFullFramesAvailable_le hcounter hle
    have hthere : r + min numFrames (getFullFramesAvailable mTotalFrames writeCounter r) ≤ w := by omega
    refine .of_ring h (Ring.step_claim ?_) ⟨rfl, rfl⟩ hwriter ⟨hbuffer, Nat.min_le_left ..⟩ nofun
    rw [← Nat.add_mul]
    exact Nat.mul_le_mul_right _ hthere
  | getReadIndex numFrames framesToRead =>
    obtain ⟨hbuffer, hframes⟩ := hreader
    cases hstep
    have hthere : r + framesToRead ≤ w := h.claimed_le hfits rfl
    have hclaimed : framesToRead ≤ mTotalFrames := by omega
    exact .of_silent h rfl hwriter ⟨hbuffer, hframes, Nat.zero_le _, covers_parts hfits r hclaimed⟩
  | memcpy numFrames framesToRead parts destination =>
    cases parts with
    | nil =>
      cases hstep
      exact refines_read hfits h hcount
    | cons p parts => exact refines_readPart hfits h hstep

/-- How many frames have been written, and may still be by the call. -/
def State.claimed (s : State) : Nat := s.mWriteCounter + s.writer.pending

theorem claimed_stepWriter {lag : Nat} (hstep : s.stepWriter mBytesPerFrame mTotalFrames lag = some (t, es)) :
    t.claimed ≤ s.claimed := by
  obtain ⟨mStorage, r, w, writer, reader⟩ := s
  cases writer with
  | idle => cases hstep
  | getWriteCounter buffer numFrames =>
    cases hstep
    exact Nat.le_refl _
  | getReadCounter buffer numFrames writeCounter =>
    cases hstep
    exact Nat.add_le_add_left (Nat.min_le_left ..) w
  | getWriteIndex buffer framesToWrite =>
    cases hstep
    exact Nat.le_refl _
  | memcpy buffer framesToWrite parts copied =>
    cases parts with
    | nil =>
      cases hstep
      exact Nat.mod_le ..
    | cons p parts =>
      change State.writePart mBytesPerFrame mTotalFrames _ buffer framesToWrite p parts copied = some (t, es) at hstep
      unfold State.writePart at hstep
      split_ifs at hstep
      · cases hstep
        exact Nat.le_add_right ..
      · cases hstep
        exact Nat.le_refl _
      · obtain ⟨byte, -, heq⟩ := Option.map_eq_some_iff.1 hstep
        cases heq
        exact Nat.le_refl _

theorem stepReader_writer {lag : Nat} (hstep : s.stepReader mBytesPerFrame mTotalFrames lag = some (t, es)) :
    t.mWriteCounter = s.mWriteCounter ∧ t.writer = s.writer := by
  obtain ⟨mStorage, r, w, writer, reader⟩ := s
  cases reader with
  | idle => cases hstep
  | getWriteCounter numFrames =>
    cases hstep
    exact ⟨rfl, rfl⟩
  | getReadCounter numFrames writeCounter =>
    cases hstep
    exact ⟨rfl, rfl⟩
  | getReadIndex numFrames framesToRead =>
    cases hstep
    exact ⟨rfl, rfl⟩
  | memcpy numFrames framesToRead parts destination =>
    cases parts with
    | nil =>
      cases hstep
      exact ⟨rfl, rfl⟩
    | cons p parts =>
      change State.readPart mBytesPerFrame mTotalFrames _ numFrames framesToRead p parts destination =
        some (t, es) at hstep
      unfold State.readPart at hstep
      split_ifs at hstep
      · cases hstep
        exact ⟨rfl, rfl⟩
      · cases hstep
        exact ⟨rfl, rfl⟩
      · cases hstep
        exact ⟨rfl, rfl⟩

theorem refines_write (h : Inv mBytesPerFrame mTotalFrames s) {buffer : List UInt8} {numFrames : Int}
    (hstep : step mBytesPerFrame mTotalFrames s (.write buffer numFrames) = some (t, es)) :
    Refines mBytesPerFrame mTotalFrames s t es ∧ t.claimed ≤ s.claimed + numFrames.toNat := by
  obtain ⟨mStorage, r, w, writer, reader⟩ := s
  cases writer with
  | idle =>
    change (if numFrames ≤ 0 then some _ else if _ then some _ else none) = some (t, es) at hstep
    split_ifs at hstep with hnone hbuffer
    · cases hstep
      refine ⟨⟨h, .inl ⟨rfl, ?_, rfl⟩, List.forall_mem_singleton.2 ⟨Int.le_refl 0, ?_⟩⟩, Nat.le_add_right ..⟩
      · simp [Event.written]
      · simp
    · cases hstep
      have hnumFrames : (numFrames.toNat : Int) = numFrames := Int.toNat_of_nonneg (by omega)
      have hlength : numFrames.toNat * mBytesPerFrame ≤ buffer.length := by
        rw [← hnumFrames] at hbuffer
        exact_mod_cast hbuffer
      exact ⟨.of_silent h rfl hlength h.reader, Nat.le_refl _⟩
  | _ => cases hstep

theorem refines_readNow (h : Inv mBytesPerFrame mTotalFrames s) {numFrames : Int}
    (hstep : step mBytesPerFrame mTotalFrames s (.readNow numFrames) = some (t, es)) :
    Refines mBytesPerFrame mTotalFrames s t es ∧ t.claimed ≤ s.claimed := by
  obtain ⟨mStorage, r, w, writer, reader⟩ := s
  cases reader with
  | idle =>
    change (if numFrames ≤ 0 then some _ else if _ then some _ else none) = some (t, es) at hstep
    split_ifs at hstep with hnone hbuffer
    · cases hstep
      have hzeros : numFrames.toNat = 0 := by omega
      refine ⟨⟨h, .inl ⟨rfl, rfl, ?_⟩, List.forall_mem_singleton.2 ⟨Int.le_refl 0, Int.le_max_left .., ?_⟩⟩,
        Nat.le_refl _⟩
      · simp [Event.taken]
      · rw [Int.sub_zero, hzeros]
        simp
    · cases hstep
      have hnumFrames : (numFrames.toNat : Int) = numFrames := Int.toNat_of_nonneg (by omega)
      have hlength : numFrames.toNat * mBytesPerFrame < 2 ^ 31 := by
        rw [← hnumFrames] at hbuffer
        exact_mod_cast hbuffer
      exact ⟨.of_silent h rfl h.writer hlength, Nat.le_refl _⟩
  | _ => cases hstep

/-- As long as fewer than 2^64 frames are offered, the counters do not wrap. -/
theorem refines_step (hfits : Fits mBytesPerFrame mTotalFrames) (h : Inv mBytesPerFrame mTotalFrames s)
    (hcount : s.claimed + a.offered < 2 ^ 64) (hstep : step mBytesPerFrame mTotalFrames s a = some (t, es)) :
    Refines mBytesPerFrame mTotalFrames s t es ∧ t.claimed ≤ s.claimed + a.offered := by
  have hclaimed : s.claimed < 2 ^ 64 := (Nat.le_add_right ..).trans_lt hcount
  cases a with
  | write buffer numFrames => exact refines_write h hstep
  | readNow numFrames => exact refines_readNow h hstep
  | writer lag => exact ⟨refines_stepWriter hfits h hclaimed hstep, claimed_stepWriter hstep⟩
  | reader lag =>
    obtain ⟨hcounter, hwriter⟩ := stepReader_writer hstep
    refine ⟨refines_stepReader hfits h ((Nat.le_add_right ..).trans_lt hclaimed) hstep, ?_⟩
    rw [State.claimed, hcounter, hwriter]
    exact Nat.le_refl _

/-! ### Runs -/

def offered (as : List Action) : Nat := (as.map Action.offered).sum

/-- Every run of the two threads is one of a ring buffer. -/
theorem run_refines (hfits : Fits mBytesPerFrame mTotalFrames) (h : Inv mBytesPerFrame mTotalFrames s)
    (as : List Action) (hcount : s.claimed + offered as < 2 ^ 64) :
    let r := Step.run (step mBytesPerFrame mTotalFrames) s as
    Inv mBytesPerFrame mTotalFrames r.1 ∧ (∀ e ∈ r.2, e.Sound mBytesPerFrame) ∧
      ∃ as' es', Step.run (Ring.step (mTotalFrames * mBytesPerFrame)) (s.ring mBytesPerFrame) as' =
        (r.1.ring mBytesPerFrame, es') ∧ Event.InRing mBytesPerFrame r.2 es' := by
  induction as generalizing s with
  | nil => exact ⟨h, nofun, [], [], rfl, rfl, rfl⟩
  | cons a as ih =>
    have hsplit : offered (a :: as) = a.offered + offered as := by rw [offered, List.map_cons, List.sum_cons, offered]
    rw [hsplit] at hcount
    rcases hstep : step mBytesPerFrame mTotalFrames s a with _ | ⟨t, es⟩
    · rw [Step.run_cons_none hstep]
      exact ⟨h, nofun, [], [], rfl, rfl, rfl⟩
    · obtain ⟨⟨ht, hring, hsound⟩, hclaimed⟩ := refines_step hfits h (by omega) hstep
      obtain ⟨hend, hrest, as', es', hrun, hpublished, hreleased⟩ := ih ht (by omega)
      rw [Step.run_cons_some hstep]
      refine ⟨hend, List.forall_mem_append.2 ⟨hsound, hrest⟩, ?_⟩
      rcases hring with ⟨hsame, hpublished', hreleased'⟩ | ⟨a', es'', hstep', hpublished', hreleased'⟩
      · refine ⟨as', es', by rw [hsame, hrun], ?_, ?_⟩
        · rw [List.flatMap_append, ← hpublished', hpublished]
          rfl
        · rw [List.flatMap_append, ← hreleased', hreleased]
          rfl
      · refine ⟨a' :: as', es'' ++ es', by rw [Step.run_cons_some hstep', hrun], ?_, ?_⟩
        · rw [List.flatMap_append, List.flatMap_append, hpublished', hpublished]
        · rw [List.flatMap_append, List.flatMap_append, hreleased', hreleased]

variable (mBytesPerFrame mTotalFrames) in
/-- The bytes of the frames between the counters. -/
def State.stored (s : State) : List UInt8 := (s.ring mBytesPerFrame).contents (mTotalFrames * mBytesPerFrame)

/-- What has been read and what is left are what was there and what has been written. -/
theorem run_account (hfits : Fits mBytesPerFrame mTotalFrames) (h : Inv mBytesPerFrame mTotalFrames s)
    (as : List Action) (hcount : s.claimed + offered as < 2 ^ 64) :
    let r := Step.run (step mBytesPerFrame mTotalFrames) s as
    r.2.flatMap (Event.taken mBytesPerFrame) ++ r.1.stored mBytesPerFrame mTotalFrames =
      s.stored mBytesPerFrame mTotalFrames ++ r.2.flatMap (Event.written mBytesPerFrame) := by
  obtain ⟨-, -, as', es', hrun, hpublished, hreleased⟩ := run_refines hfits h as hcount
  have haccount := (Ring.released_append_contents h.ring as').2
  rw [hrun] at haccount
  intro r
  rw [← hpublished, ← hreleased]
  exact haccount

theorem inv_initial (mBytesPerFrame mTotalFrames : Nat) (mStorage : Nat → UInt8) :
    Inv mBytesPerFrame mTotalFrames (initial mStorage) where
  ring := by
    refine ⟨Nat.le_refl _, ?_, nofun, nofun⟩
    change 0 * mBytesPerFrame + 0 ≤ 0 * mBytesPerFrame + _
    omega
  writer := trivial
  reader := trivial

/-- The byte of the storage that a thread accesses next. -/
def Writer.next : Writer → Option Nat
  | memcpy _ _ parts _ => (parts.flatMap Part.addresses).head?
  | _ => none

def Reader.next : Reader → Option Nat
  | memcpy _ _ parts _ => (parts.flatMap Part.addresses).head?
  | _ => none

theorem Covers.head {ps : List Part} {position n c : Nat} (h : Covers mBytesPerFrame mTotalFrames ps position n)
    (hc : (ps.flatMap Part.addresses).head? = some c) : 0 < n ∧ position % (mTotalFrames * mBytesPerFrame) = c := by
  rw [h.addresses] at hc
  cases n with
  | zero => cases hc
  | succ n => exact ⟨Nat.succ_pos n, Option.some.inj hc⟩

/-- No byte is read while it is written. -/
theorem Inv.next_ne (h : Inv mBytesPerFrame mTotalFrames s) {c : Nat} (hwrite : s.writer.next = some c) :
    s.reader.next ≠ some c := by
  obtain ⟨mStorage, r, w, writer, reader⟩ := s
  intro hread
  cases writer with
  | memcpy buffer framesToWrite parts copied =>
    cases reader with
    | memcpy numFrames framesToRead parts' destination =>
      obtain ⟨hbuffer, -, hcovers⟩ := h.writer
      obtain ⟨-, -, -, hcovers'⟩ := h.reader
      obtain ⟨hpos, hstore⟩ := hcovers.head hwrite
      obtain ⟨hpos', hload⟩ := hcovers'.head hread
      have hlength : (buffer.take (framesToWrite * mBytesPerFrame)).length = framesToWrite * mBytesPerFrame :=
        List.length_take_of_le hbuffer
      refine h.ring.disjoint (c := c) ?_ ?_
      · exact (if_pos (by omega)).trans (congrArg some hstore)
      · exact (if_pos (by omega)).trans (congrArg some hload)
    | _ => cases hread
  | _ => cases hwrite

/-- A thread in a call can take its next step, in the storage. -/
theorem Inv.stepWriter_isSome (hfits : Fits mBytesPerFrame mTotalFrames) (h : Inv mBytesPerFrame mTotalFrames s)
    (hcall : s.writer ≠ .idle) (lag : Nat) :
    ∃ t es, s.stepWriter mBytesPerFrame mTotalFrames lag = some (t, es) := by
  obtain ⟨mStorage, r, w, writer, reader⟩ := s
  cases writer with
  | idle => exact absurd rfl hcall
  | memcpy buffer framesToWrite parts copied =>
    obtain ⟨hbuffer, hcopied, hcovers⟩ := h.writer
    cases parts with
    | nil => exact ⟨_, _, rfl⟩
    | cons p parts =>
      obtain ⟨hoffset, hsize⟩ := hcovers.sizes p (List.mem_cons_self ..)
      change ∃ t es, State.writePart mBytesPerFrame mTotalFrames _ buffer framesToWrite p parts copied = some (t, es)
      rw [State.writePart, if_neg (Int.not_lt.2 hsize)]
      by_cases hzero : p.numBytes = 0
      · exact ⟨_, _, if_pos hzero⟩
      · obtain ⟨hpos, -, hstorage, -⟩ := hcovers.next hfits hzero
        have hlt : copied < buffer.length := by omega
        rw [if_neg hzero, if_pos hstorage, List.getElem?_eq_getElem hlt]
        exact ⟨_, _, rfl⟩
  | _ => exact ⟨_, _, rfl⟩

theorem Inv.stepReader_isSome (hfits : Fits mBytesPerFrame mTotalFrames) (h : Inv mBytesPerFrame mTotalFrames s)
    (hcall : s.reader ≠ .idle) (lag : Nat) :
    ∃ t es, s.stepReader mBytesPerFrame mTotalFrames lag = some (t, es) := by
  obtain ⟨mStorage, r, w, writer, reader⟩ := s
  cases reader with
  | idle => exact absurd rfl hcall
  | memcpy numFrames framesToRead parts destination =>
    obtain ⟨-, -, -, hcovers⟩ := h.reader
    cases parts with
    | nil => exact ⟨_, _, rfl⟩
    | cons p parts =>
      obtain ⟨hoffset, hsize⟩ := hcovers.sizes p (List.mem_cons_self ..)
      change ∃ t es, State.readPart mBytesPerFrame mTotalFrames _ numFrames framesToRead p parts destination =
        some (t, es)
      rw [State.readPart, if_neg (Int.not_lt.2 hsize)]
      by_cases hzero : p.numBytes = 0
      · exact ⟨_, _, if_pos hzero⟩
      · obtain ⟨-, -, hstorage, -⟩ := hcovers.next hfits hzero
        exact ⟨_, _, (if_neg hzero).trans (if_pos hstorage)⟩
  | _ => exact ⟨_, _, rfl⟩

/-- What a FIFO between two threads is for, after any steps of them. -/
structure Safe (mBytesPerFrame mTotalFrames : Nat) (s : State) (es : List Event) : Prop where
  /-- What has been read is what has been written, in its order, up to what is still stored. -/
  order : es.flatMap (Event.taken mBytesPerFrame) ++ s.stored mBytesPerFrame mTotalFrames =
    es.flatMap (Event.written mBytesPerFrame)
  full : s.mReadCounter ≤ s.mWriteCounter ∧ s.mWriteCounter ≤ s.mReadCounter + mTotalFrames
  sound : ∀ e ∈ es, e.Sound mBytesPerFrame
  race : ∀ c, s.writer.next = some c → s.reader.next ≠ some c
  writes : ∀ lag, s.writer ≠ .idle → ∃ t es, s.stepWriter mBytesPerFrame mTotalFrames lag = some (t, es)
  reads : ∀ lag, s.reader ≠ .idle → ∃ t es, s.stepReader mBytesPerFrame mTotalFrames lag = some (t, es)

end SweetHome.FifoBuffer
