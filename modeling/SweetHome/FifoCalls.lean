import SweetHome.FifoBuffer

/-!
# The FIFO, a call at a time

Without the other thread a call of `write` or `readNow` returns, and does what it would do to a bounded queue of
frames. Calls one after the other are so the calls of that queue (`calls_refine`), as which the order of the audio
is proved.
-/

namespace SweetHome.FifoBuffer
open Audio

variable {mBytesPerFrame mTotalFrames : Nat} {s t : State}

/-! ### Calls without the other thread -/

/-- The parts of a copy and its bytes that are left. -/
def Writer.left (mBytesPerFrame : Nat) : Writer → Nat
  | memcpy _ framesToWrite parts copied => parts.length + (framesToWrite * mBytesPerFrame - copied)
  | _ => 0

def Reader.left (mBytesPerFrame : Nat) : Reader → Nat
  | memcpy _ framesToRead parts destination => parts.length + (framesToRead * mBytesPerFrame - destination.length)
  | _ => 0

/-- In a copy into the storage, with the rest of the state as it was. -/
def Writing (mBytesPerFrame mTotalFrames : Nat) (buffer : List UInt8) (framesToWrite r w : Nat) (reader : Reader)
    (s : State) : Prop :=
  Inv mBytesPerFrame mTotalFrames s ∧
    ∃ mStorage parts copied, s = ⟨mStorage, r, w, .memcpy buffer framesToWrite parts copied, reader⟩

def Reading (mBytesPerFrame mTotalFrames : Nat) (numFrames framesToRead r w : Nat) (writer : Writer)
    (s : State) : Prop :=
  Inv mBytesPerFrame mTotalFrames s ∧
    ∃ mStorage parts destination, s = ⟨mStorage, r, w, writer, .memcpy numFrames framesToRead parts destination⟩

/-- A copy into the storage ends, and leaves the reader alone. -/
theorem Writing.ends (hfits : Fits mBytesPerFrame mTotalFrames) {buffer : List UInt8} {framesToWrite r w : Nat}
    {reader : Reader} (hcount : w + framesToWrite < 2 ^ 64)
    (h : Writing mBytesPerFrame mTotalFrames buffer framesToWrite r w reader s) :
    ∃ n t es, Step.Leads (step mBytesPerFrame mTotalFrames) s (List.replicate n (.writer 0)) t es ∧
      es = [.wrote buffer framesToWrite] ∧ ∃ mStorage, t = ⟨mStorage, r, w + framesToWrite, .idle, reader⟩ := by
  refine Step.leads_replicate (fun s => s.writer.left mBytesPerFrame) (Action.writer 0) ?_ h
  rintro s ⟨hinv, mStorage, parts, copied, rfl⟩
  have hnext {t : State} {es : List Event} (hstep : step mBytesPerFrame mTotalFrames _ (.writer 0) = some (t, es)) :=
    (refines_stepWriter hfits hinv hcount hstep).inv
  obtain ⟨hbuffer, hcopied, hcovers⟩ := hinv.writer
  cases parts with
  | nil =>
    refine ⟨_, _, rfl, .inl ⟨rfl, mStorage, ?_⟩⟩
    rw [Nat.mod_eq_of_lt hcount]
  | cons p parts =>
    obtain ⟨hoffset, hsize⟩ := hcovers.sizes p (List.mem_cons_self ..)
    by_cases hzero : p.numBytes = 0
    · have hstep : step mBytesPerFrame mTotalFrames
          ⟨mStorage, r, w, .memcpy buffer framesToWrite (p :: parts) copied, reader⟩ (.writer 0) =
            some (⟨mStorage, r, w, .memcpy buffer framesToWrite parts copied, reader⟩, []) :=
        (if_neg (Int.not_lt.2 hsize)).trans (if_pos hzero)
      refine ⟨_, _, hstep, .inr ⟨rfl, ⟨hnext hstep, _, _, _, rfl⟩, ?_⟩⟩
      simp only [Writer.left, List.length_cons]
      omega
    · obtain ⟨hpos, -, hstorage, -⟩ := hcovers.next hfits hzero
      have hlt : copied < buffer.length := by omega
      have hstep : step mBytesPerFrame mTotalFrames
          ⟨mStorage, r, w, .memcpy buffer framesToWrite (p :: parts) copied, reader⟩ (.writer 0) =
            some (⟨Function.update mStorage p.offset.toNat buffer[copied], r, w,
              .memcpy buffer framesToWrite (p.next :: parts) (copied + 1), reader⟩, []) := by
        change State.writePart mBytesPerFrame mTotalFrames _ buffer framesToWrite p parts copied = _
        rw [State.writePart, if_neg (Int.not_lt.2 hsize), if_neg hzero, if_pos hstorage,
          List.getElem?_eq_getElem hlt, Option.map_some]
      refine ⟨_, _, hstep, .inr ⟨rfl, ⟨hnext hstep, _, _, _, rfl⟩, ?_⟩⟩
      simp only [Writer.left, List.length_cons]
      omega

/-- A copy out of the storage ends, and leaves the writer alone. -/
theorem Reading.ends (hfits : Fits mBytesPerFrame mTotalFrames) {numFrames framesToRead r w : Nat}
    {writer : Writer} (hcount : w < 2 ^ 64) (hclaimed : r + framesToRead ≤ w)
    (h : Reading mBytesPerFrame mTotalFrames numFrames framesToRead r w writer s) :
    ∃ n t es, Step.Leads (step mBytesPerFrame mTotalFrames) s (List.replicate n (.reader 0)) t es ∧
      (∃ buffer, es = [.read numFrames buffer framesToRead]) ∧
        ∃ mStorage, t = ⟨mStorage, r + framesToRead, w, writer, .idle⟩ := by
  refine Step.leads_replicate (fun s => s.reader.left mBytesPerFrame) (Action.reader 0) ?_ h
  rintro s ⟨hinv, mStorage, parts, destination, rfl⟩
  have hnext {t : State} {es : List Event} (hstep : step mBytesPerFrame mTotalFrames _ (.reader 0) = some (t, es)) :=
    (refines_stepReader hfits hinv hcount hstep).inv
  obtain ⟨-, -, hcopied, hcovers⟩ := hinv.reader
  cases parts with
  | nil =>
    refine ⟨_, _, rfl, .inl ⟨⟨_, rfl⟩, mStorage, ?_⟩⟩
    rw [Nat.mod_eq_of_lt (hclaimed.trans_lt hcount)]
  | cons p parts =>
    obtain ⟨hoffset, hsize⟩ := hcovers.sizes p (List.mem_cons_self ..)
    by_cases hzero : p.numBytes = 0
    · have hstep : step mBytesPerFrame mTotalFrames
          ⟨mStorage, r, w, writer, .memcpy numFrames framesToRead (p :: parts) destination⟩ (.reader 0) =
            some (⟨mStorage, r, w, writer, .memcpy numFrames framesToRead parts destination⟩, []) :=
        (if_neg (Int.not_lt.2 hsize)).trans (if_pos hzero)
      refine ⟨_, _, hstep, .inr ⟨rfl, ⟨hnext hstep, _, _, _, rfl⟩, ?_⟩⟩
      simp only [Reader.left, List.length_cons]
      omega
    · obtain ⟨hpos, -, hstorage, -⟩ := hcovers.next hfits hzero
      have hstep : step mBytesPerFrame mTotalFrames
          ⟨mStorage, r, w, writer, .memcpy numFrames framesToRead (p :: parts) destination⟩ (.reader 0) =
            some (⟨mStorage, r, w, writer,
              .memcpy numFrames framesToRead (p.next :: parts) (destination ++ [mStorage p.offset.toNat])⟩, []) :=
        (if_neg (Int.not_lt.2 hsize)).trans ((if_neg hzero).trans (if_pos hstorage))
      refine ⟨_, _, hstep, .inr ⟨rfl, ⟨hnext hstep, _, _, _, rfl⟩, ?_⟩⟩
      simp only [Reader.left, List.length_cons, List.length_append, List.length_nil]
      omega

/-- Between calls the storage holds the frames of a bounded queue. -/
structure Represents (mBytesPerFrame mTotalFrames : Nat) (s : State) (q : Fifo (List UInt8)) : Prop where
  inv : Inv mBytesPerFrame mTotalFrames s
  writer : s.writer = .idle
  reader : s.reader = .idle
  capacity : q.capacity = mTotalFrames
  readCounter : s.mReadCounter = q.readCounter
  writeCounter : s.mWriteCounter = q.writeCounter
  frames : ∀ f ∈ q.items, f.length = mBytesPerFrame
  stored : s.stored mBytesPerFrame mTotalFrames = q.items.flatten

section
variable {frames : List (List UInt8)}

theorem length_flatten_frames (h : ∀ f ∈ frames, f.length = mBytesPerFrame) :
    frames.flatten.length = frames.length * mBytesPerFrame := by
  induction frames with
  | nil => exact (Nat.zero_mul _).symm
  | cons f frames ih =>
    rw [List.flatten_cons, List.length_append, h f (List.mem_cons_self ..),
      ih fun f' hf' => h f' (List.mem_cons_of_mem _ hf'), List.length_cons, Nat.succ_mul, Nat.add_comm]

theorem take_flatten_frames (h : ∀ f ∈ frames, f.length = mBytesPerFrame) (k : Nat) (hk : k ≤ frames.length) :
    frames.flatten.take (k * mBytesPerFrame) = (frames.take k).flatten := by
  have hlength := length_flatten_frames fun f (hf : f ∈ frames.take k) => h f (List.mem_of_mem_take hf)
  rw [List.length_take_of_le hk] at hlength
  conv_lhs => rw [← List.take_append_drop k frames, List.flatten_append]
  exact List.take_left' hlength

theorem getFullFramesAvailable_eq {r w : Nat} (hle : r ≤ w) (hroom : w ≤ r + mTotalFrames) :
    getFullFramesAvailable mTotalFrames w r = w - r := by
  unfold getFullFramesAvailable
  split_ifs <;> omega

end

theorem offered_replicate {a : Action} (ha : a.offered = 0) (n : Nat) : offered (List.replicate n a) = 0 := by
  rw [offered, List.map_replicate, ha, List.sum_replicate, Nat.nsmul_eq_mul, Nat.mul_zero]

/-- A call of `write` without the other thread: it returns, having written what there is room for. -/
theorem run_write (hfits : Fits mBytesPerFrame mTotalFrames) (h : Inv mBytesPerFrame mTotalFrames s)
    (hwriter : s.writer = .idle) {buffer : List UInt8} {numFrames : Nat} (hpos : 0 < numFrames)
    (hbuffer : numFrames * mBytesPerFrame ≤ buffer.length) (hcount : s.mWriteCounter + numFrames < 2 ^ 64) :
    ∃ n mStorage framesToWrite, framesToWrite = min numFrames (mTotalFrames - (s.mWriteCounter - s.mReadCounter)) ∧
      Step.Leads (step mBytesPerFrame mTotalFrames) s (.write buffer numFrames :: List.replicate n (.writer 0))
        ⟨mStorage, s.mReadCounter, s.mWriteCounter + framesToWrite, .idle, s.reader⟩
        [.wrote buffer framesToWrite] := by
  obtain ⟨mStorage, r, w, writer, reader⟩ := s
  obtain rfl : writer = .idle := hwriter
  obtain ⟨hle, hroom⟩ : r ≤ w ∧ w ≤ r + mTotalFrames := h.counters hfits
  have hcall : step mBytesPerFrame mTotalFrames ⟨mStorage, r, w, .idle, reader⟩ (.write buffer numFrames) =
      some (⟨mStorage, r, w, .getWriteCounter buffer numFrames, reader⟩, []) :=
    (if_neg (by omega)).trans (if_pos (by exact_mod_cast hbuffer))
  have hfull := getFullFramesAvailable_eq hle hroom
  obtain ⟨framesToWrite, hmin⟩ : ∃ k, k = min numFrames (mTotalFrames - (w - r)) := ⟨_, rfl⟩
  -- the loads of the counters
  have hload₁ : step mBytesPerFrame mTotalFrames ⟨mStorage, r, w, .getWriteCounter buffer numFrames, reader⟩
      (.writer 0) = some (⟨mStorage, r, w, .getReadCounter buffer numFrames w, reader⟩, []) := rfl
  have hload₂ : step mBytesPerFrame mTotalFrames ⟨mStorage, r, w, .getReadCounter buffer numFrames w, reader⟩
      (.writer 0) = some (⟨mStorage, r, w, .getWriteIndex buffer framesToWrite, reader⟩, []) := by
    rw [hmin, ← hfull]
    rfl
  have hload₃ : step mBytesPerFrame mTotalFrames ⟨mStorage, r, w, .getWriteIndex buffer framesToWrite, reader⟩
      (.writer 0) = some (⟨mStorage, r, w, .memcpy buffer framesToWrite
        (parts mBytesPerFrame mTotalFrames (w % mTotalFrames) framesToWrite) 0, reader⟩, []) := rfl
  have hloads : (Step.run (step mBytesPerFrame mTotalFrames) ⟨mStorage, r, w, .idle, reader⟩
      [.write buffer numFrames, .writer 0, .writer 0, .writer 0]).1 = ⟨mStorage, r, w, .memcpy buffer framesToWrite
        (parts mBytesPerFrame mTotalFrames (w % mTotalFrames) framesToWrite) 0, reader⟩ := by
    rw [Step.run_cons_some hcall, Step.run_cons_some hload₁, Step.run_cons_some hload₂, Step.run_cons_some hload₃,
      Step.run_nil]
  have hinv := (run_refines hfits h [.write buffer numFrames, .writer 0, .writer 0, .writer 0] hcount).1
  rw [hloads] at hinv
  have hframes : framesToWrite ≤ numFrames := hmin ▸ Nat.min_le_left ..
  obtain ⟨n, t, es, hrun, rfl, mStorage', rfl⟩ :=
    Writing.ends hfits (lt_of_le_of_lt (Nat.add_le_add_left hframes w) hcount)
    ⟨hinv, _, _, _, rfl⟩
  exact ⟨n + 1 + 1 + 1, mStorage', framesToWrite, hmin,
    (((hrun.cons hload₃).cons hload₂).cons hload₁).cons hcall⟩

theorem run_readNow (hfits : Fits mBytesPerFrame mTotalFrames) (h : Inv mBytesPerFrame mTotalFrames s)
    (hreader : s.reader = .idle) {numFrames : Nat} (hpos : 0 < numFrames)
    (hbuffer : numFrames * mBytesPerFrame < 2 ^ 31) (hcount : s.claimed < 2 ^ 64) :
    ∃ n mStorage framesToRead buffer, framesToRead = min numFrames (s.mWriteCounter - s.mReadCounter) ∧
      Step.Leads (step mBytesPerFrame mTotalFrames) s (.readNow numFrames :: List.replicate n (.reader 0))
        ⟨mStorage, s.mReadCounter + framesToRead, s.mWriteCounter, s.writer, .idle⟩
        [.read numFrames buffer framesToRead] := by
  obtain ⟨mStorage, r, w, writer, reader⟩ := s
  obtain rfl : reader = .idle := hreader
  obtain ⟨hle, hroom⟩ : r ≤ w ∧ w ≤ r + mTotalFrames := h.counters hfits
  have hcall : step mBytesPerFrame mTotalFrames ⟨mStorage, r, w, writer, .idle⟩ (.readNow numFrames) =
      some (⟨mStorage, r, w, writer, .getWriteCounter numFrames⟩, []) :=
    (if_neg (by omega)).trans (if_pos (by exact_mod_cast hbuffer))
  have hfull := getFullFramesAvailable_eq hle hroom
  obtain ⟨framesToRead, hmin⟩ : ∃ k, k = min numFrames (w - r) := ⟨_, rfl⟩
  -- the loads of the counters
  have hload₁ : step mBytesPerFrame mTotalFrames ⟨mStorage, r, w, writer, .getWriteCounter numFrames⟩
      (.reader 0) = some (⟨mStorage, r, w, writer, .getReadCounter numFrames w⟩, []) := rfl
  have hload₂ : step mBytesPerFrame mTotalFrames ⟨mStorage, r, w, writer, .getReadCounter numFrames w⟩
      (.reader 0) = some (⟨mStorage, r, w, writer, .getReadIndex numFrames framesToRead⟩, []) := by
    rw [hmin, ← hfull]
    rfl
  have hload₃ : step mBytesPerFrame mTotalFrames ⟨mStorage, r, w, writer, .getReadIndex numFrames framesToRead⟩
      (.reader 0) = some (⟨mStorage, r, w, writer, .memcpy numFrames framesToRead
        (parts mBytesPerFrame mTotalFrames (r % mTotalFrames) framesToRead) []⟩, []) := rfl
  have hloads : (Step.run (step mBytesPerFrame mTotalFrames) ⟨mStorage, r, w, writer, .idle⟩
      [.readNow numFrames, .reader 0, .reader 0, .reader 0]).1 = ⟨mStorage, r, w, writer, .memcpy numFrames framesToRead
        (parts mBytesPerFrame mTotalFrames (r % mTotalFrames) framesToRead) []⟩ := by
    rw [Step.run_cons_some hcall, Step.run_cons_some hload₁, Step.run_cons_some hload₂, Step.run_cons_some hload₃,
      Step.run_nil]
  have hinv := (run_refines hfits h [.readNow numFrames, .reader 0, .reader 0, .reader 0] hcount).1
  rw [hloads] at hinv
  have hcounter : w < 2 ^ 64 := lt_of_le_of_lt (Nat.le_add_right ..) hcount
  obtain ⟨n, t, es, hrun, ⟨buffer, rfl⟩, mStorage', rfl⟩ := Reading.ends hfits hcounter
    (show r + framesToRead ≤ w by omega) ⟨hinv, _, _, _, rfl⟩
  exact ⟨n + 1 + 1 + 1, mStorage', framesToRead, buffer, hmin,
    (((hrun.cons hload₃).cons hload₂).cons hload₁).cons hcall⟩

/-! ### Against the bounded queue -/

variable {q : Fifo (List UInt8)}

theorem Represents.count (hq : Represents mBytesPerFrame mTotalFrames s q) :
    s.mWriteCounter - s.mReadCounter = q.items.length := by
  rw [hq.readCounter, hq.writeCounter, q.counters, Nat.add_sub_cancel_left]

theorem Represents.claimed (hq : Represents mBytesPerFrame mTotalFrames s q) : s.claimed = q.writeCounter := by
  rw [State.claimed, hq.writer, hq.writeCounter]
  rfl

/-- A call of `write` stores what the queue has room for. -/
theorem leads_write (hfits : Fits mBytesPerFrame mTotalFrames) (hq : Represents mBytesPerFrame mTotalFrames s q)
    {frames : List (List UInt8)} (hframes : ∀ f ∈ frames, f.length = mBytesPerFrame)
    (hcount : q.writeCounter + frames.length < 2 ^ 64) :
    ∃ n t, Step.Leads (step mBytesPerFrame mTotalFrames) s
      (.write frames.flatten frames.length :: List.replicate n (.writer 0)) t
        [.wrote frames.flatten (q.stored frames).length] ∧ t.writer = .idle ∧ t.reader = .idle ∧
          t.mReadCounter = s.mReadCounter ∧ t.mWriteCounter = s.mWriteCounter + (q.stored frames).length := by
  have hstored : (q.stored frames).length = min frames.length (mTotalFrames - (s.mWriteCounter - s.mReadCounter)) := by
    rw [Fifo.stored, List.length_take, hq.capacity, hq.count, Nat.min_comm]
  rcases Nat.eq_zero_or_pos frames.length with hzero | hpos
  · obtain rfl := List.length_eq_zero_iff.1 hzero
    refine ⟨0, s, ?_, hq.writer, hq.reader, rfl, by rw [hstored]; rfl⟩
    have hcall : step mBytesPerFrame mTotalFrames s (.write [] 0) = some (s, [.wrote [] 0]) := by
      simp only [step, hq.writer]
      rfl
    rw [hstored]
    exact (Step.leads_nil s).cons hcall
  · obtain ⟨n, mStorage, framesToWrite, hmin, hrun⟩ := run_write hfits hq.inv hq.writer hpos
      (length_flatten_frames hframes).ge (by rwa [hq.writeCounter])
    rw [← hstored] at hmin
    subst hmin
    exact ⟨n, _, hrun, rfl, hq.reader, rfl, rfl⟩

theorem exists_run_write (hfits : Fits mBytesPerFrame mTotalFrames) (hq : Represents mBytesPerFrame mTotalFrames s q)
    {frames : List (List UInt8)} (hframes : ∀ f ∈ frames, f.length = mBytesPerFrame)
    (hcount : q.writeCounter + frames.length < 2 ^ 64) :
    ∃ n t, Step.Leads (step mBytesPerFrame mTotalFrames) s
      (.write frames.flatten frames.length :: List.replicate n (.writer 0)) t
        [.wrote frames.flatten (q.stored frames).length] ∧
      Represents mBytesPerFrame mTotalFrames t (q.write frames) := by
  obtain ⟨n, t, hrun, hidle, hidle', hread, hwrite⟩ := leads_write hfits hq hframes hcount
  have hoffered :
      s.claimed + offered (.write frames.flatten frames.length :: List.replicate n (.writer 0)) < 2 ^ 64 := by
    rw [hq.claimed, offered, List.map_cons, List.sum_cons, ← offered, offered_replicate rfl]
    exact hcount
  have hinv := (run_refines hfits hq.inv _ hoffered).1
  have haccount := run_account hfits hq.inv _ hoffered
  rw [hrun.run] at hinv haccount
  -- the items follow from the account of the bytes
  refine ⟨n, t, hrun, hinv, hidle, hidle', hq.capacity, hread.trans hq.readCounter, ?_, ?_, ?_⟩
  · rw [hwrite, hq.writeCounter]
    rfl
  · intro f hf
    rcases List.mem_append.1 hf with hf | hf
    · exact hq.frames f hf
    · exact hframes f (List.mem_of_mem_take hf)
  · have hle : (q.stored frames).length ≤ frames.length := List.length_take_le' ..
    have haccount : t.stored mBytesPerFrame mTotalFrames = s.stored mBytesPerFrame mTotalFrames ++
        (frames.flatten.take ((q.stored frames).length * mBytesPerFrame) ++ []) := haccount
    have htake : frames.take (q.stored frames).length = q.stored frames := by
      rw [Fifo.stored, List.length_take]
      exact List.take_eq_take_min.symm
    rw [haccount, List.append_nil, take_flatten_frames hframes _ hle, htake, hq.stored, ← List.flatten_append]
    rfl

/-- A call of `readNow` takes what the queue has, into some buffer. -/
theorem leads_readNow (hfits : Fits mBytesPerFrame mTotalFrames) (hq : Represents mBytesPerFrame mTotalFrames s q)
    {numFrames : Nat} (hbuffer : numFrames * mBytesPerFrame < 2 ^ 31) (hcount : q.writeCounter < 2 ^ 64) :
    ∃ n t buffer, Step.Leads (step mBytesPerFrame mTotalFrames) s (.readNow numFrames :: List.replicate n (.reader 0)) t
        [.read numFrames buffer (q.taken numFrames).length] ∧ t.writer = .idle ∧ t.reader = .idle ∧
          t.mReadCounter = s.mReadCounter + (q.taken numFrames).length ∧ t.mWriteCounter = s.mWriteCounter := by
  have htaken : (q.taken numFrames).length = min numFrames (s.mWriteCounter - s.mReadCounter) := by
    rw [Fifo.taken, List.length_take, hq.count]
  rcases Nat.eq_zero_or_pos numFrames with rfl | hpos
  · have hcall : step mBytesPerFrame mTotalFrames s (.readNow 0) = some (s, [.read 0 [] 0]) := by
      simp only [step, hq.reader]
      rfl
    rw [htaken, Nat.zero_min]
    exact ⟨0, s, [], (Step.leads_nil s).cons hcall, hq.writer, hq.reader, rfl, rfl⟩
  · obtain ⟨n, mStorage, framesToRead, buffer, hmin, hrun⟩ := run_readNow hfits hq.inv hq.reader hpos hbuffer
      (by rwa [hq.claimed])
    rw [← htaken] at hmin
    subst hmin
    exact ⟨n, _, buffer, hrun, hq.writer, rfl, rfl, rfl⟩

theorem exists_run_readNow (hfits : Fits mBytesPerFrame mTotalFrames) (hq : Represents mBytesPerFrame mTotalFrames s q)
    {numFrames : Nat} (hbuffer : numFrames * mBytesPerFrame < 2 ^ 31) (hcount : q.writeCounter < 2 ^ 64) :
    ∃ n t, Step.Leads (step mBytesPerFrame mTotalFrames) s (.readNow numFrames :: List.replicate n (.reader 0)) t
        [.read numFrames (q.buffer (List.replicate mBytesPerFrame 0) numFrames).flatten (q.taken numFrames).length] ∧
      Represents mBytesPerFrame mTotalFrames t (q.readNow numFrames) := by
  obtain ⟨n, t, buffer, hrun, hidle, hidle', hread, hwrite⟩ := leads_readNow hfits hq hbuffer hcount
  have hoffered : s.claimed + offered (.readNow numFrames :: List.replicate n (.reader 0)) < 2 ^ 64 := by
    rw [hq.claimed, offered, List.map_cons, List.sum_cons, ← offered, offered_replicate rfl]
    exact hcount
  obtain ⟨hinv, hsound, -⟩ := run_refines hfits hq.inv _ hoffered
  have haccount := run_account hfits hq.inv _ hoffered
  rw [hrun.run] at hinv hsound haccount
  have haccount : buffer.take ((q.taken numFrames).length * mBytesPerFrame) ++ t.stored mBytesPerFrame mTotalFrames =
      (q.taken numFrames).flatten ++ (q.readNow numFrames).items.flatten := by
    rw [← List.flatten_append, q.taken_append_items, ← hq.stored]
    simpa [Event.taken, Event.written] using haccount
  have hflatten : (q.readNow numFrames).items.flatten.length = (q.readNow numFrames).items.length * mBytesPerFrame :=
    length_flatten_frames fun f hf => hq.frames f (List.mem_of_mem_drop hf)
  have hlength : (t.stored mBytesPerFrame mTotalFrames).length = (q.readNow numFrames).items.flatten.length := by
    have hleft : t.mWriteCounter - t.mReadCounter = (q.readNow numFrames).items.length := by
      have hitems := congrArg List.length (q.taken_append_items numFrames)
      rw [List.length_append, ← hq.count] at hitems
      omega
    rw [hflatten, ← hleft, Nat.sub_mul]
    exact Ring.length_contents
  obtain ⟨hbytes, hstored⟩ := List.append_inj' haccount hlength
  have hfilled : buffer = (q.buffer (List.replicate mBytesPerFrame 0) numFrames).flatten := by
    obtain ⟨-, -, hzeros⟩ := hsound _ (List.mem_singleton_self _)
    have hleft : ((numFrames : Int) - (q.taken numFrames).length).toNat = numFrames - (q.taken numFrames).length := by
      omega
    rw [Int.toNat_natCast, hbytes, hleft] at hzeros
    rw [hzeros, Fifo.buffer, List.flatten_append, List.flatten_replicate_replicate]
  refine ⟨n, t, hfilled ▸ hrun, hinv, hidle, hidle', hq.capacity, ?_, ?_, ?_, hstored⟩
  · rw [hread, hq.readCounter]
    rfl
  · rw [hwrite, hq.writeCounter]
    rfl
  · exact fun f hf => hq.frames f (List.mem_of_mem_drop hf)

/-- A call, by the frames of its buffer. -/
inductive Call where
  | write (frames : List (List UInt8))
  | readNow (numFrames : Nat)

/-- The calls on a bounded queue of frames. -/
def queueStep (mBytesPerFrame : Nat) : Step (Fifo (List UInt8)) Call Event
  | q, .write frames => some (q.write frames, [.wrote frames.flatten (q.stored frames).length])
  | q, .readNow numFrames => some (q.readNow numFrames,
    [.read numFrames (q.buffer (List.replicate mBytesPerFrame 0) numFrames).flatten (q.taken numFrames).length])

def Call.Valid (mBytesPerFrame : Nat) : Call → Prop
  | write frames => ∀ f ∈ frames, f.length = mBytesPerFrame
  | readNow numFrames => numFrames * mBytesPerFrame < 2 ^ 31

def Call.offered : Call → Nat
  | write frames => frames.length
  | readNow _ => 0

theorem exists_leads_calls (hfits : Fits mBytesPerFrame mTotalFrames) (hq : Represents mBytesPerFrame mTotalFrames s q)
    {calls : List Call} (hcalls : ∀ c ∈ calls, c.Valid mBytesPerFrame)
    (hcount : q.writeCounter + (calls.map Call.offered).sum < 2 ^ 64) :
    ∃ as t, Step.Leads (step mBytesPerFrame mTotalFrames) s as t (Step.run (queueStep mBytesPerFrame) q calls).2 ∧
      Represents mBytesPerFrame mTotalFrames t (Step.run (queueStep mBytesPerFrame) q calls).1 := by
  induction calls generalizing s q with
  | nil => exact ⟨[], s, Step.leads_nil s, hq⟩
  | cons c calls ih =>
    have hrest : ∀ c ∈ calls, c.Valid mBytesPerFrame := fun c hc => hcalls c (List.mem_cons_of_mem _ hc)
    have hvalid := hcalls c (List.mem_cons_self ..)
    rw [List.map_cons, List.sum_cons] at hcount
    cases c with
    | write frames =>
      have hcount : q.writeCounter + (frames.length + (calls.map Call.offered).sum) < 2 ^ 64 := hcount
      obtain ⟨n, t, hfirst, ht⟩ := exists_run_write hfits hq hvalid (by omega)
      have hstored : (q.stored frames).length ≤ frames.length := List.length_take_le' ..
      have hcounter : (q.write frames).writeCounter = q.writeCounter + (q.stored frames).length := rfl
      obtain ⟨as, t', hlast, ht'⟩ := ih ht hrest (by omega)
      exact ⟨_, t', hfirst.append hlast, ht'⟩
    | readNow numFrames =>
      have hcount : q.writeCounter + (0 + (calls.map Call.offered).sum) < 2 ^ 64 := hcount
      obtain ⟨n, t, hfirst, ht⟩ := exists_run_readNow hfits hq hvalid (by omega)
      have hcounter : (q.readNow numFrames).writeCounter = q.writeCounter := rfl
      obtain ⟨as, t', hlast, ht'⟩ := ih ht hrest (by omega)
      exact ⟨_, t', hfirst.append hlast, ht'⟩

theorem represents_initial (mBytesPerFrame mTotalFrames : Nat) (mStorage : Nat → UInt8) :
    Represents mBytesPerFrame mTotalFrames (initial mStorage) (.empty mTotalFrames) where
  inv := inv_initial mBytesPerFrame mTotalFrames mStorage
  writer := rfl
  reader := rfl
  capacity := rfl
  readCounter := rfl
  writeCounter := rfl
  frames := nofun
  stored := Ring.contents_self

end SweetHome.FifoBuffer
