import SweetHome.Lib.Deflate
import Mathlib.Data.List.TakeWhile
import Mathlib.Tactic.Linarith

/-!
# The compressor of the screenshots

`stbi_zlib_compress` of the image writer: hash chains over the data, lazy matching, the fixed Huffman codes, and
stored blocks where these are shorter. Whatever the chains offer, a token is only emitted for bytes that have been
compared, so that a decoder gets the data back (`decompress_stbiZlibCompress`); the stored blocks fit in the room
that the longer attempt has left, and up to half a GiB of data no room exceeds an `int` (`exists_stbiZlibCompress`).
-/

namespace SweetHome.ZlibCompress
open BitStream Deflate

/-! ### Stretchy buffers -/

/-- The items of a stretchy buffer and the room for them, which is none before the first push. -/
structure Sb (α : Type) where
  items : List α
  m : Nat
  length_le : items.length ≤ m

namespace Sb
variable {α : Type}

/-- `NULL` -/
def empty : Sb α := ⟨[], 0, Nat.le_refl 0⟩

def growf (a : Sb α) (increment : Nat) : Nat := if a.m = 0 then increment + 1 else 2 * a.m + increment

def push (a : Sb α) (v : α) : Sb α where
  items := a.items ++ [v]
  m := if a.m = 0 ∨ a.items.length + 1 ≥ a.m then a.growf 1 else a.m
  length_le := by
    have := a.length_le
    unfold growf
    rw [List.length_append, List.length_singleton]
    split_ifs <;> omega

/-- `sbn(a) = n`, for less than there is. -/
def truncate (a : Sb α) (n : Nat) : Sb α where
  items := a.items.take n
  m := a.m
  length_le := (List.length_take_le' n a.items).trans a.length_le

/-- `memmove` to the front of what is behind the first `n` items, and the new number. -/
def drop (a : Sb α) (n : Nat) : Sb α where
  items := a.items.drop n
  m := a.m
  length_le := (List.length_drop ▸ Nat.sub_le _ _).trans a.length_le

/-- The room and its bytes are computed as `int`. As the room only grows, the last one tells whether all were in
range. -/
def InRange (itemsize : Nat) (a : Sb α) : Prop := itemsize * a.m < 2 ^ 31

instance (itemsize : Nat) (a : Sb α) : Decidable (a.InRange itemsize) := inferInstanceAs (Decidable (_ < _))

/-- `memcpy` behind the items, and their new number; `none` where it leaves the room. -/
def memcpy (a : Sb α) (source : List α) : Option (Sb α) :=
  if h : a.items.length + source.length ≤ a.m then
    some ⟨a.items ++ source, a.m, by rw [List.length_append]; exact h⟩
  else none

variable (a : Sb α)

@[simp] theorem push_items (v : α) : (a.push v).items = a.items ++ [v] := rfl

theorem le_push_m (v : α) : a.m ≤ (a.push v).m := by
  simp only [push, growf]
  split_ifs <;> omega

/-- The room is doubled only when it is full. -/
theorem push_m_le {n : Nat} (v : α) (hm : a.m ≤ 2 * n + 1) (hn : a.items.length + 1 ≤ n) :
    (a.push v).m ≤ 2 * n + 1 := by
  simp only [push, growf]
  split_ifs <;> omega

theorem memcpy_items {a a' : Sb α} {source : List α} (h : a.memcpy source = some a') :
    a'.items = a.items ++ source := by
  unfold memcpy at h
  split at h
  · obtain rfl := Option.some.inj h
    rfl
  · cases h

/-- There is room for the copy, and as much as before. -/
theorem memcpy_of_le (source : List α) (h : a.items.length + source.length ≤ a.m) :
    ∃ a', a.memcpy source = some a' ∧ a'.m = a.m :=
  ⟨_, dif_pos h, rfl⟩

end Sb

/-! ### Bits -/

structure Writer where
  out : Sb UInt8
  /-- An `unsigned int`. -/
  bitbuf : Nat
  bitcount : Nat

def Writer.zlibFlushf (w : Writer) : Writer :=
  if w.bitcount ≥ 8 then
    Writer.zlibFlushf ⟨w.out.push (UInt8.ofNat w.bitbuf), w.bitbuf >>> 8, w.bitcount - 8⟩
  else w
termination_by w.bitcount

def Writer.zlibAdd (w : Writer) (code codebits : Nat) : Writer :=
  Writer.zlibFlushf ⟨w.out, (w.bitbuf ||| code <<< w.bitcount) % 2 ^ 32, w.bitcount + codebits⟩

def bitrevLoop : Nat → Nat × Nat → Nat × Nat
  | 0, s => s
  | codebits + 1, (res, code) => bitrevLoop codebits (res <<< 1 ||| code &&& 1, code >>> 1)

def zlibBitrev (code codebits : Nat) : Nat := (bitrevLoop codebits (0, code)).1

def Writer.zlibHuffa (w : Writer) (b c : Nat) : Writer := w.zlibAdd (zlibBitrev b c) c

def Writer.zlibHuff1 (w : Writer) (n : Nat) : Writer := w.zlibHuffa (0x30 + n) 8

def Writer.zlibHuff2 (w : Writer) (n : Nat) : Writer := w.zlibHuffa (0x190 + n - 144) 9

def Writer.zlibHuff3 (w : Writer) (n : Nat) : Writer := w.zlibHuffa (0 + n - 256) 7

def Writer.zlibHuff4 (w : Writer) (n : Nat) : Writer := w.zlibHuffa (0xc0 + n - 280) 8

def Writer.zlibHuff (w : Writer) (n : Nat) : Writer :=
  if n ≤ 143 then w.zlibHuff1 n else if n ≤ 255 then w.zlibHuff2 n
  else if n ≤ 279 then w.zlibHuff3 n else w.zlibHuff4 n

def Writer.zlibHuffb (w : Writer) (n : Nat) : Writer := if n ≤ 143 then w.zlibHuff1 n else w.zlibHuff2 n

/-- `while (bitcount) stbiw__zlib_add(0,1);` -/
def Writer.pad : Nat → Writer → Writer
  | 0, w => w
  | fuel + 1, w => if w.bitcount = 0 then w else Writer.pad fuel (w.zlibAdd 0 1)

/-! ### Matches -/

def ZHASH : Nat := 16384

def zhash (data : List UInt8) (i : Nat) : UInt32 :=
  let byte (k : Nat) := (data.getD (i + k) 0).toUInt32
  let hash := byte 0 + byte 1 <<< 8 + byte 2 <<< 16
  let hash := hash ^^^ hash <<< 3
  let hash := hash + hash >>> 5
  let hash := hash ^^^ hash <<< 4
  let hash := hash + hash >>> 17
  let hash := hash ^^^ hash <<< 25
  hash + hash >>> 6

def bucket (data : List UInt8) (i : Nat) : Nat := (zhash data i).toNat % ZHASH

/-- How many bytes at `a` and `b` are the same. -/
def zlibCountm (data : List UInt8) (a b limit : Nat) : Nat :=
  ((List.range (min limit 258)).takeWhile fun i => data.getD (a + i) 0 = data.getD (b + i) 0).length

/-- The search of a chain, for three bytes at least: the last of the longest in the window. -/
def bestMatch (data : List UInt8) (i : Nat) (hlist : List Nat) : Nat × Option Nat :=
  hlist.foldl (fun (best, bestloc) (loc : Nat) =>
    if (loc : Int) > i - 32768 then
      let d := zlibCountm data loc i (data.length - i)
      if d ≥ best then (d, some loc) else (best, bestloc)
    else (best, bestloc)) (3, none)

/-- When a chain is too long, the older half of it goes. -/
def insertLoc (quality : Nat) (hlist : Sb Nat) (i : Nat) : Sb Nat :=
  (if hlist.items.length = 2 * quality then hlist.drop quality else hlist).push i

def nextIsBetter (data : List UInt8) (i best : Nat) (hlist : List Nat) : Bool :=
  hlist.any fun (loc : Nat) => (loc : Int) > i - 32767 ∧ zlibCountm data loc (i + 1) (data.length - i - 1) > best

def lengthc : List Nat :=
  [3, 4, 5, 6, 7, 8, 9, 10, 11, 13, 15, 17, 19, 23, 27, 31, 35, 43, 51, 59, 67, 83, 99, 115, 131, 163, 195, 227,
    258, 259]

def lengtheb : List Nat :=
  [0, 0, 0, 0, 0, 0, 0, 0, 1, 1, 1, 1, 2, 2, 2, 2, 3, 3, 3, 3, 4, 4, 4, 4, 5, 5, 5, 5, 0]

def distc : List Nat :=
  [1, 2, 3, 4, 5, 7, 9, 13, 17, 25, 33, 49, 65, 97, 129, 193, 257, 385, 513, 769, 1025, 1537, 2049, 3073, 4097,
    6145, 8193, 12289, 16385, 24577, 32768]

def disteb : List Nat :=
  [0, 0, 0, 0, 1, 1, 2, 2, 3, 3, 4, 4, 5, 5, 6, 6, 7, 7, 8, 8, 9, 9, 10, 10, 11, 11, 12, 12, 13, 13]

/-- `for (j=0; v > starts[j+1]-1; ++j);` -/
def codeIndex : List Nat → Nat → Nat
  | _ :: next :: starts, v => if v > next - 1 then codeIndex (next :: starts) v + 1 else 0
  | _, _ => 0

def Writer.reference (w : Writer) (d best : Nat) : Writer :=
  let j := codeIndex lengthc best
  let w := w.zlibHuff (j + 257)
  let w := if lengtheb.getD j 0 ≠ 0 then w.zlibAdd (best - lengthc.getD j 0) (lengtheb.getD j 0) else w
  let j := codeIndex distc d
  let w := w.zlibAdd (zlibBitrev j 5) 5
  if disteb.getD j 0 ≠ 0 then w.zlibAdd (d - distc.getD j 0) (disteb.getD j 0) else w

structure State where
  i : Nat
  hashTable : Nat → Sb Nat
  writer : Writer

/-- The body of the loop over the data. -/
def State.match (data : List UInt8) (quality : Nat) (s : State) : State :=
  let h := bucket data s.i
  let (best, bestloc) := bestMatch data s.i (s.hashTable h).items
  let hashTable := Function.update s.hashTable h (insertLoc quality (s.hashTable h) s.i)
  let bestloc := bestloc.filter fun _ => !nextIsBetter data s.i best (hashTable (bucket data (s.i + 1))).items
  match bestloc with
  | some loc => ⟨s.i + best, hashTable, s.writer.reference (s.i - loc) best⟩
  | none => ⟨s.i + 1, hashTable, s.writer.zlibHuffb (data.getD s.i 0).toNat⟩

/-- `none` where the fuel runs out. -/
def State.loop (data : List UInt8) (quality : Nat) : Nat → State → Option State
  | 0, s => if s.i + 3 < data.length then none else some s
  | fuel + 1, s => if s.i + 3 < data.length then State.loop data quality fuel (s.match data quality) else some s

/-! ### The checksum -/

/-- The sums of a block, as `unsigned int`. -/
def adlerBlock (block : List UInt8) (s : Nat × Nat) : Nat × Nat :=
  let (s1, s2) := block.foldl (fun (s1, s2) b =>
    ((s1 + b.toNat) % 2 ^ 32, (s2 + (s1 + b.toNat) % 2 ^ 32) % 2 ^ 32)) s
  (s1 % 65521, s2 % 65521)

def adlerLoop : Nat → Nat → List UInt8 → Nat × Nat → Nat × Nat
  | 0, _, _, s => s
  | fuel + 1, blocklen, rest, s =>
    if rest = [] then s else adlerLoop fuel 5552 (rest.drop blocklen) (adlerBlock (rest.take blocklen) s)

def Sb.pushAdler (out : Sb UInt8) (data : List UInt8) : Sb UInt8 :=
  let (s1, s2) := adlerLoop (data.length / 5552 + 2) (data.length % 5552) data (1, 0)
  (((out.push (UInt8.ofNat (s2 >>> 8))).push (UInt8.ofNat s2)).push (UInt8.ofNat (s1 >>> 8))).push (UInt8.ofNat s1)

/-! ### The stream -/

/-- `BFINAL` with `BTYPE = 0`, `LEN` and `NLEN` -/
def Sb.pushBlockHeader (out : Sb UInt8) (final : UInt8) (blocklen : Nat) : Sb UInt8 :=
  let out := out.push final
  let out := out.push (UInt8.ofNat blocklen)
  let out := out.push (UInt8.ofNat (blocklen >>> 8))
  let out := out.push (~~~ UInt8.ofNat blocklen)
  out.push (~~~ UInt8.ofNat (blocklen >>> 8))

def storedBlocks : Nat → List UInt8 → Sb UInt8 → Option (Sb UInt8)
  | 0, _, out => some out
  | fuel + 1, rest, out =>
    if rest = [] then some out
    else
      let blocklen := min rest.length 32767
      let out := out.pushBlockHeader (if rest.length = blocklen then 1 else 0) blocklen
      (out.memcpy (rest.take blocklen)).bind (storedBlocks fuel (rest.drop blocklen))

/-- The loop over the data, with its chains of pointers. -/
def compressLoop (data : List UInt8) (quality : Nat) : Option State :=
  let out := (Sb.empty.push 0x78).push 0x5e
  let w : Writer := ⟨out, 0, 0⟩
  let w := w.zlibAdd 1 1
  let w := w.zlibAdd 1 2
  (State.loop data quality data.length ⟨0, fun _ => Sb.empty, w⟩).filter fun s =>
    ∀ h < ZHASH, (s.hashTable h).InRange 8

/-- The attempt with the fixed codes. -/
def fixedCodes (data : List UInt8) (s : State) : Sb UInt8 :=
  let w := (data.drop s.i).foldl (fun w b => w.zlibHuffb b.toNat) s.writer
  let w := w.zlibHuff 256
  (Writer.pad 8 w).out

def storeIfWorse (data : List UInt8) (out : Sb UInt8) : Option (Sb UInt8) :=
  if out.items.length > data.length + 2 + (data.length + 32766) / 32767 * 5 then
    storedBlocks data.length data (out.truncate 2)
  else some out

/-- `none` where the compressor leaves the room of a buffer, or the range of `int` with it. -/
def stbiZlibCompress (data : List UInt8) (quality : Int) : Option (List UInt8) := do
  let quality := if quality < 5 then 5 else quality.toNat
  let s ← compressLoop data quality
  let out ← storeIfWorse data (fixedCodes data s)
  let out := out.pushAdler data
  if out.InRange 1 then some out.items else none

/-! ### What a writer has written -/

namespace Writer
variable {w : Writer}

/-- The bits of the whole bytes and of the bit buffer. -/
def bits (w : Writer) : List Bool := ofBytes w.out.items ++ BitStream.bits w.bitcount w.bitbuf

/-- Between two writes the bit buffer is less than a byte, and holds nothing above its count. The room is that
of the bytes so far. -/
structure Settled (w : Writer) : Prop where
  bitcount_lt : w.bitcount < 8
  bitbuf_lt : w.bitbuf < 2 ^ w.bitcount
  room : w.out.m ≤ 2 * w.out.items.length + 1

theorem zlibFlushf_spec (h : w.bitbuf < 2 ^ w.bitcount) (hroom : w.out.m ≤ 2 * w.out.items.length + 1) :
    w.zlibFlushf.Settled ∧ w.zlibFlushf.bits = w.bits := by
  induction w using zlibFlushf.induct with
  | case1 w hge ih =>
    obtain ⟨n, hn⟩ := Nat.exists_eq_add_of_le hge
    have hrest : w.bitbuf >>> 8 < 2 ^ (w.bitcount - 8) := by
      rw [Nat.shiftRight_eq_div_pow, Nat.div_lt_iff_lt_mul (by decide), ← pow_add, Nat.sub_add_cancel hge]
      exact h
    have hlength : (w.out.push (UInt8.ofNat w.bitbuf)).items.length = w.out.items.length + 1 := by
      rw [Sb.push_items, List.length_append, List.length_singleton]
    have hpushed := w.out.push_m_le (n := w.out.items.length + 1) (UInt8.ofNat w.bitbuf) (by omega) le_rfl
    obtain ⟨hsettled, hbits⟩ := ih hrest (by simp only [hlength]; exact hpushed)
    rw [zlibFlushf, if_pos hge]
    refine ⟨hsettled, hbits.trans ?_⟩
    have hbyte : BitStream.bits 8 (UInt8.ofNat w.bitbuf).toNat = BitStream.bits 8 w.bitbuf := by
      rw [UInt8.toNat_ofNat', bits_mod]
    simp only [bits, Sb.push_items, ofBytes_append, ofBytes_cons, ofBytes_nil, List.append_nil, hbyte, hn,
      Nat.add_sub_cancel_left, Nat.shiftRight_eq_div_pow, bits_add 8 n, List.append_assoc]
  | case2 w hlt =>
    rw [zlibFlushf, if_neg hlt]
    exact ⟨⟨Nat.lt_of_not_le hlt, h, hroom⟩, rfl⟩

/-- What is added follows what is there. -/
theorem Settled.zlibAdd (hw : w.Settled) {code codebits : Nat} (hcode : code < 2 ^ codebits) (hbits : codebits ≤ 24) :
    (w.zlibAdd code codebits).Settled ∧ (w.zlibAdd code codebits).bits = w.bits ++ BitStream.bits codebits code := by
  have hlt : w.bitbuf + code * 2 ^ w.bitcount < 2 ^ (w.bitcount + codebits) := by
    have hmul : (code + 1) * 2 ^ w.bitcount ≤ 2 ^ codebits * 2 ^ w.bitcount := Nat.mul_le_mul_right _ hcode
    have hbitbuf := hw.bitbuf_lt
    rw [pow_add, Nat.mul_comm (2 ^ w.bitcount)]
    rw [Nat.add_mul, Nat.one_mul] at hmul
    omega
  -- less than 32 bits are used
  have hor : (w.bitbuf ||| code <<< w.bitcount) % 2 ^ 32 = w.bitbuf + code * 2 ^ w.bitcount := by
    have hle : 2 ^ (w.bitcount + codebits) ≤ 2 ^ 32 :=
      Nat.pow_le_pow_right (by decide) (by have := hw.bitcount_lt; omega)
    rw [Nat.or_comm, Nat.shiftLeft_eq, Nat.mul_comm, ← Nat.two_pow_add_eq_or_of_lt hw.bitbuf_lt, Nat.mul_comm,
      Nat.add_comm, Nat.mod_eq_of_lt (hlt.trans_le hle)]
  unfold Writer.zlibAdd
  rw [hor]
  obtain ⟨hsettled, heq⟩ := zlibFlushf_spec (w := ⟨w.out, w.bitbuf + code * 2 ^ w.bitcount, w.bitcount + codebits⟩) hlt
    hw.room
  refine ⟨hsettled, heq.trans ?_⟩
  rw [bits, bits, bits_append _ _ hw.bitbuf_lt, List.append_assoc]

theorem bitrevLoop_fst (codebits res code : Nat) :
    (bitrevLoop codebits (res, code)).1 = res * 2 ^ codebits + ofBits (msbBits codebits code) := by
  induction codebits generalizing res code with
  | zero => simp [bitrevLoop, msbBits, BitStream.bits, ofBits]
  | succ n ih =>
    have hor : res <<< 1 ||| code &&& 1 = res * 2 + code % 2 := by
      rw [Nat.and_one_is_mod, Nat.shiftLeft_eq, Nat.mul_comm, ← Nat.two_pow_add_eq_or_of_lt (Nat.mod_lt _ (by decide))]
    have hbit : ofBits [code % 2 == 1] = code % 2 := by
      rcases Nat.mod_two_eq_zero_or_one code with h | h <;> simp [ofBits, h]
    rw [bitrevLoop, ih, hor, msbBits, msbBits, BitStream.bits, List.reverse_cons, ofBits_append, hbit,
      List.length_reverse, length_bits, Nat.shiftRight_one, pow_succ]
    ring

theorem bits_zlibBitrev (code codebits : Nat) :
    BitStream.bits codebits (zlibBitrev code codebits) = msbBits codebits code := by
  have h := bits_ofBits (msbBits codebits code)
  rwa [length_msbBits, ← Nat.zero_add (ofBits _), ← Nat.zero_mul (2 ^ codebits), ← bitrevLoop_fst] at h

theorem zlibBitrev_lt (code codebits : Nat) : zlibBitrev code codebits < 2 ^ codebits := by
  have h := ofBits_lt (msbBits codebits code)
  rwa [length_msbBits, ← Nat.zero_add (ofBits _), ← Nat.zero_mul (2 ^ codebits), ← bitrevLoop_fst] at h

theorem Settled.zlibHuffa (hw : w.Settled) (b : Nat) {c : Nat} (hc : c ≤ 24) :
    (w.zlibHuffa b c).Settled ∧ (w.zlibHuffa b c).bits = w.bits ++ msbBits c b := by
  have h := hw.zlibAdd (zlibBitrev_lt b c) hc
  rwa [bits_zlibBitrev] at h

/-- The numbers in the source are those of the codes. -/
theorem Settled.zlibHuff (hw : w.Settled) {n : Nat} (hn : n < 288) :
    (w.zlibHuff n).Settled ∧ (w.zlibHuff n).bits = w.bits ++ codeword literalLengths n := by
  rw [codeword_literalLengths hn, Writer.zlibHuff, literalNumber]
  split_ifs with h143 h255 h279
  · exact hw.zlibHuffa _ (by decide)
  · exact hw.zlibHuffa _ (by decide)
  · rw [zlibHuff3, Nat.zero_add]
    exact hw.zlibHuffa _ (by decide)
  · exact hw.zlibHuffa _ (by decide)

theorem Settled.zlibHuffb (hw : w.Settled) (b : UInt8) :
    (w.zlibHuffb b.toNat).Settled ∧ (w.zlibHuffb b.toNat).bits = w.bits ++ codeword literalLengths b.toNat := by
  have hb : b.toNat < 256 := b.toNat_lt
  have h := hw.zlibHuff (hb.trans (by decide : 256 < 288))
  rwa [Writer.zlibHuff, if_pos (by omega : b.toNat ≤ 255)] at h

theorem Settled.bitcount_eq (hw : w.Settled) : w.bitcount = w.bits.length % 8 := by
  have := hw.bitcount_lt
  rw [bits, List.length_append, length_ofBytes, length_bits]
  omega

theorem Settled.pad (hw : w.Settled) {fuel : Nat} (hfuel : w.bitcount = 0 ∨ 8 ≤ fuel + w.bitcount) :
    (Writer.pad fuel w).out.m ≤ 2 * (Writer.pad fuel w).out.items.length + 1 ∧
      ∃ padding : List Bool, padding.length < 8 ∧ ofBytes (Writer.pad fuel w).out.items = w.bits ++ padding := by
  suffices h : (Writer.pad fuel w).out.m ≤ 2 * (Writer.pad fuel w).out.items.length + 1 ∧
      ∃ n, (w.bitcount = 0 → n = 0) ∧ n + w.bitcount ≤ 8 ∧
        ofBytes (Writer.pad fuel w).out.items = w.bits ++ List.replicate n false by
    obtain ⟨hroom, n, hzero, hle, heq⟩ := h
    exact ⟨hroom, List.replicate n false, by rw [List.length_replicate]; omega, heq⟩
  have hdone {w : Writer} (h : w.bitcount = 0) : ofBytes w.out.items = w.bits ++ List.replicate 0 false := by
    rw [bits, h]
    simp [BitStream.bits]
  induction fuel generalizing w with
  | zero =>
    have hzero : w.bitcount = 0 := hfuel.resolve_right (by have := hw.bitcount_lt; omega)
    exact ⟨hw.room, 0, fun _ => rfl, by omega, hdone hzero⟩
  | succ fuel ih =>
    rw [Writer.pad]
    split
    · rename_i hzero
      exact ⟨hw.room, 0, fun _ => rfl, by omega, hdone hzero⟩
    · rename_i hne
      obtain ⟨hsettled, hbits⟩ := hw.zlibAdd (show 0 < 2 ^ 1 by decide) (by decide)
      have hcount := hsettled.bitcount_eq
      rw [hbits, List.length_append, length_bits, Nat.add_mod, ← hw.bitcount_eq] at hcount
      have hlt := hw.bitcount_lt
      obtain ⟨hroom, n, hzero, hle, heq⟩ := ih hsettled (by omega)
      refine ⟨hroom, n + 1, fun h => absurd h hne, by omega, ?_⟩
      rw [heq, hbits, List.append_assoc, bits_zero, ← List.replicate_add, Nat.add_comm 1]

end Writer

/-! ### Codes of lengths and distances -/

/-- The search of a table finds the interval of a value. -/
theorem codeIndex_spec (starts : List Nat) (hpos : ∀ x ∈ starts, 0 < x) {v : Nat} (hfirst : starts.headD 0 ≤ v)
    (hlast : ∃ x ∈ starts, v < x) :
    ∃ start next, starts[codeIndex starts v]? = some start ∧ starts[codeIndex starts v + 1]? = some next ∧
      start ≤ v ∧ v < next := by
  induction starts, v using codeIndex.induct with
  | case1 start next starts v hlt ih =>
    have hnext : 0 < next := hpos next (by simp)
    obtain ⟨x, hx, hvx⟩ := hlast
    obtain ⟨start', next', hstart', hnext', hle, hlt'⟩ := ih (fun x hx => hpos x (List.mem_cons_of_mem _ hx))
      (by rw [List.headD_cons]; omega)
      ⟨x, by
        rcases List.mem_cons.1 hx with rfl | hx
        · exact absurd hvx (Nat.not_lt.2 hfirst)
        · exact hx, hvx⟩
    rw [codeIndex, if_pos hlt]
    exact ⟨start', next', by simpa using hstart', by simpa using hnext', hle, hlt'⟩
  | case2 start next starts v hle =>
    have hnext : 0 < next := hpos next (by simp)
    rw [codeIndex, if_neg hle]
    exact ⟨start, next, rfl, rfl, hfirst, by omega⟩
  | case3 starts v hshort =>
    obtain ⟨x, hx, hvx⟩ := hlast
    match starts with
    | [] => cases hx
    | [start] =>
      rw [List.mem_singleton] at hx
      subst hx
      exact absurd hvx (Nat.not_lt.2 hfirst)
    | start :: next :: starts => exact absurd rfl (hshort start next starts)

/-- The tables of the source are those of the format, and the extra bits reach up to the next code. -/
theorem lengthTables : ∀ j < 29, lengthCodes[j]? = some (lengthc.getD j 0, lengtheb.getD j 0) ∧
    lengthc.getD (j + 1) 0 ≤ lengthc.getD j 0 + 2 ^ lengtheb.getD j 0 := by decide

theorem distanceTables : ∀ j < 30, distanceCodes[j]? = some (distc.getD j 0, disteb.getD j 0) ∧
    distc.getD (j + 1) 0 ≤ distc.getD j 0 + 2 ^ disteb.getD j 0 := by decide

theorem extraBits_le : (∀ j < 29, lengtheb.getD j 0 ≤ 24) ∧ ∀ j < 30, disteb.getD j 0 ≤ 24 := by decide

theorem lengthCode {best : Nat} (h : 3 ≤ best) (h' : best ≤ 258) :
    codeIndex lengthc best < 29 ∧ lengthc.getD (codeIndex lengthc best) 0 ≤ best ∧
      best - lengthc.getD (codeIndex lengthc best) 0 < 2 ^ lengtheb.getD (codeIndex lengthc best) 0 := by
  obtain ⟨start, next, hstart, hnext, hle, hlt⟩ := codeIndex_spec lengthc (by decide) h
    ⟨259, by decide, by omega⟩
  have hj : codeIndex lengthc best + 1 < 30 := (List.getElem?_eq_some_iff.1 hnext).1
  have htable := (lengthTables _ (by omega : codeIndex lengthc best < 29)).2
  rw [List.getD_eq_getElem?_getD, hnext, List.getD_eq_getElem?_getD, hstart, Option.getD_some,
    Option.getD_some] at htable
  rw [List.getD_eq_getElem?_getD, hstart, Option.getD_some]
  exact ⟨by omega, hle, by omega⟩

theorem distCode {d : Nat} (h : 1 ≤ d) (h' : d < 32768) :
    codeIndex distc d < 30 ∧ distc.getD (codeIndex distc d) 0 ≤ d ∧
      d - distc.getD (codeIndex distc d) 0 < 2 ^ disteb.getD (codeIndex distc d) 0 := by
  obtain ⟨start, next, hstart, hnext, hle, hlt⟩ := codeIndex_spec distc (by decide) h
    ⟨32768, by decide, h'⟩
  have hj : codeIndex distc d + 1 < 31 := (List.getElem?_eq_some_iff.1 hnext).1
  have htable := (distanceTables _ (by omega : codeIndex distc d < 30)).2
  rw [List.getD_eq_getElem?_getD, hnext, List.getD_eq_getElem?_getD, hstart, Option.getD_some,
    Option.getD_some] at htable
  rw [List.getD_eq_getElem?_getD, hstart, Option.getD_some]
  exact ⟨by omega, hle, by omega⟩

/-! ### Matches -/

section
variable {data : List UInt8} {quality : Nat} {s : State}

theorem zlibCountm_le (data : List UInt8) (a b limit : Nat) : zlibCountm data a b limit ≤ min limit 258 := by
  unfold zlibCountm
  exact (List.takeWhile_prefix _).length_le.trans_eq List.length_range

theorem getD_eq_of_lt_zlibCountm {a b limit k : Nat} (hk : k < zlibCountm data a b limit) :
    data.getD (a + k) 0 = data.getD (b + k) 0 := by
  unfold zlibCountm at hk
  have hmem := List.mem_takeWhile_imp (List.getElem_mem hk)
  have hget := (List.takeWhile_prefix fun i => data.getD (a + i) 0 = data.getD (b + i) 0).getElem hk
  rw [List.getElem_range] at hget
  rw [hget] at hmem
  simpa using hmem

/-- What the search has found: bytes before, in the window, that are the same as those that follow. -/
structure Matches (data : List UInt8) (i loc best : Nat) : Prop where
  lt : loc < i
  window : i < loc + 32768
  three_le : 3 ≤ best
  le : best ≤ 258
  fits : i + best ≤ data.length
  same : ∀ k < best, data.getD (loc + k) 0 = data.getD (i + k) 0

theorem bestMatch_spec {i : Nat} (hi : i ≤ data.length) {hlist : List Nat} (hlist_lt : ∀ loc ∈ hlist, loc < i) :
    ∀ loc ∈ (bestMatch data i hlist).2, Matches data i loc (bestMatch data i hlist).1 := by
  suffices h : ∀ (hlist : List Nat) (best : Nat) (bestloc : Option Nat), (∀ loc ∈ hlist, loc < i) → 3 ≤ best →
      (∀ loc ∈ bestloc, Matches data i loc best) →
      let r := hlist.foldl (fun (best, bestloc) (loc : Nat) =>
        if (loc : Int) > i - 32768 then
          let d := zlibCountm data loc i (data.length - i)
          if d ≥ best then (d, some loc) else (best, bestloc)
        else (best, bestloc)) (best, bestloc)
      ∀ loc ∈ r.2, Matches data i loc r.1 from
    h hlist 3 none hlist_lt (Nat.le_refl 3) (by simp)
  intro hlist
  induction hlist with
  | nil => exact fun best bestloc _ _ h => h
  | cons loc hlist ih =>
    intro best bestloc hlt hbest h
    have hrest : ∀ loc ∈ hlist, loc < i := fun loc hloc => hlt loc (List.mem_cons_of_mem _ hloc)
    simp only [List.foldl_cons]
    split
    · rename_i hwindow
      split
      · rename_i hge
        have hle := zlibCountm_le data loc i (data.length - i)
        refine ih _ _ hrest (hbest.trans hge) ?_
        rintro _ ⟨rfl⟩
        exact ⟨hlt loc (List.mem_cons_self ..), by omega, hbest.trans hge, by omega, by omega,
          fun k hk => getD_eq_of_lt_zlibCountm hk⟩
      · exact ih _ _ hrest hbest h
    · exact ih _ _ hrest hbest h

theorem Matches.copy_take {i loc best : Nat} (h : Matches data i loc best) :
    copy (i - loc) best (data.take i) = some (data.take (i + best)) := by
  have hlt := h.lt
  have hfits := h.fits
  refine Deflate.copy_take (by omega) (by omega) hfits fun k hk => ?_
  have hsame := h.same k hk
  rw [List.getD_eq_getElem _ _ (by omega), List.getD_eq_getElem _ _ (by omega)] at hsame
  rw [show i - (i - loc) + k = loc + k by omega, List.getElem?_eq_getElem (by omega),
    List.getElem?_eq_getElem (by omega), hsame]

theorem Writer.Settled.reference {w : Writer} (hw : w.Settled) {i loc best : Nat} (h : Matches data i loc best) :
    (w.reference (i - loc) best).Settled ∧ ∃ b, Token.Encodes (.reference (i - loc) best) b ∧
      (w.reference (i - loc) best).bits = w.bits ++ b := by
  have hlt := h.lt
  have hwindow := h.window
  obtain ⟨hj, hstart, hextra⟩ := lengthCode h.three_le h.le
  obtain ⟨hj', hstart', hextra'⟩ := distCode (d := i - loc) (by omega) (by omega)
  have htable := (lengthTables _ hj).1
  have htable' := (distanceTables _ hj').1
  have hle := extraBits_le.1 _ hj
  have hle' := extraBits_le.2 _ hj'
  unfold Writer.reference
  dsimp only
  generalize codeIndex lengthc best = j at *
  generalize codeIndex distc (i - loc) = j' at *
  -- a code without extra bits writes the none that it has
  have hadd {w : Writer} (hw : w.Settled) {v n : Nat} (hv : v < 2 ^ n) (hn : n ≤ 24) :
      (if n ≠ 0 then w.zlibAdd v n else w).Settled ∧
        (if n ≠ 0 then w.zlibAdd v n else w).bits = w.bits ++ BitStream.bits n v := by
    rcases eq_or_ne n 0 with rfl | hne
    · simpa [BitStream.bits] using hw
    · simpa only [if_pos hne] using hw.zlibAdd hv hn
  obtain ⟨h₁, hbits₁⟩ := hw.zlibHuff (n := j + 257) (by omega)
  obtain ⟨h₂, hbits₂⟩ := hadd h₁ hextra hle
  obtain ⟨h₃, hbits₃⟩ := h₂.zlibAdd (zlibBitrev_lt j' 5) (by decide)
  obtain ⟨h₄, hbits₄⟩ := hadd h₃ hextra' hle'
  have hencodes := Token.Encodes.reference htable htable' hextra hextra'
  rw [Nat.add_sub_cancel' hstart, Nat.add_sub_cancel' hstart'] at hencodes
  refine ⟨h₄, _, hencodes, ?_⟩
  rw [hbits₄, hbits₃, hbits₂, hbits₁, bits_zlibBitrev, ← codeword_distanceLengths hj']
  simp only [List.append_assoc]

/-! ### The loop -/

/-- What has been written stands for the data that have been passed, and the chains lead into these. -/
structure Inv (data : List UInt8) (header : List Bool) (s : State) : Prop where
  le : s.i ≤ data.length
  chains : ∀ h, ∀ loc ∈ (s.hashTable h).items, loc < s.i
  settled : s.writer.Settled
  written : ∃ tokens b, EncodesAll tokens b ∧ tokens.foldlM Token.expand [] = some (data.take s.i) ∧
    s.writer.bits = header ++ b

theorem written_concat {header : List Bool} {w : Writer} {i j : Nat} {token : Token} {b : List Bool}
    (h : ∃ tokens b, EncodesAll tokens b ∧ tokens.foldlM Token.expand [] = some (data.take i) ∧
      w.bits = header ++ b) (hb : token.Encodes b) (htoken : token.expand (data.take i) = some (data.take j))
    {w' : Writer} (hw' : w'.bits = w.bits ++ b) :
    ∃ tokens b, EncodesAll tokens b ∧ tokens.foldlM Token.expand [] = some (data.take j) ∧
      w'.bits = header ++ b := by
  obtain ⟨tokens, b₀, hall, hexpand, hbits⟩ := h
  refine ⟨tokens ++ [token], b₀ ++ b, hall.concat hb, ?_, ?_⟩
  · rw [List.foldlM_append, hexpand]
    simpa using htoken
  · rw [hw', hbits, List.append_assoc]

theorem expand_literal {i : Nat} (hi : i < data.length) :
    (Token.literal (data.getD i 0)).expand (data.take i) = some (data.take (i + 1)) := by
  rw [Token.expand, List.getD_eq_getElem _ _ hi, List.take_append_getElem hi]

theorem mem_insertLoc {hlist : Sb Nat} {i loc : Nat} (h : loc ∈ (insertLoc quality hlist i).items) :
    loc ∈ hlist.items ∨ loc = i := by
  unfold insertLoc at h
  rw [Sb.push_items, List.mem_append, List.mem_singleton] at h
  refine h.imp_left fun h => ?_
  split at h
  · exact List.mem_of_mem_drop h
  · exact h

/-- A chain is never longer than twice the quality, and neither is its room than twice that. -/
def Short (quality : Nat) (hlist : Sb Nat) : Prop := hlist.items.length ≤ 2 * quality ∧ hlist.m ≤ 4 * quality + 1

theorem Short.insertLoc {hlist : Sb Nat} (h : Short quality hlist) (hquality : 0 < quality) (i : Nat) :
    Short quality (insertLoc quality hlist i) := by
  obtain ⟨hlength, hm⟩ := h
  unfold ZlibCompress.insertLoc
  have hpush {a : Sb Nat} (ha : a.items.length < 2 * quality) (ham : a.m ≤ 4 * quality + 1) :
      Short quality (a.push i) := by
    have hroom := a.push_m_le (n := 2 * quality) i (by omega) ha
    refine ⟨?_, by omega⟩
    rw [Sb.push_items, List.length_append, List.length_singleton]
    exact ha
  split
  · rename_i hfull
    refine hpush ?_ hm
    rw [Sb.drop, List.length_drop]
    omega
  · exact hpush (by omega) hm

theorem Inv.match {header : List Bool} (hs : Inv data header s) (hi : s.i < data.length) :
    Inv data header (s.match data quality) ∧ s.i < (s.match data quality).i := by
  have hbest := bestMatch_spec hs.le (hs.chains (bucket data s.i))
  have hchains {i : Nat} (hlt : s.i < i) (h : Nat) : ∀ loc ∈ (Function.update s.hashTable (bucket data s.i)
      (insertLoc quality (s.hashTable (bucket data s.i)) s.i) h).items, loc < i := by
    intro loc hloc
    rcases eq_or_ne h (bucket data s.i) with rfl | hne
    · rw [Function.update_self] at hloc
      rcases mem_insertLoc hloc with hold | rfl
      · exact (hs.chains _ loc hold).trans hlt
      · exact hlt
    · rw [Function.update_of_ne hne] at hloc
      exact (hs.chains _ loc hloc).trans hlt
  unfold State.match
  dsimp only
  split
  · rename_i loc hloc
    have hmatches := hbest loc (Option.filter_eq_some_iff.1 hloc).1
    have hthree := hmatches.three_le
    obtain ⟨hsettled, b, hb, hbits⟩ := hs.settled.reference hmatches
    have hlt : s.i < s.i + (bestMatch data s.i (s.hashTable (bucket data s.i)).items).1 := by omega
    exact ⟨⟨hmatches.fits, hchains hlt, hsettled, written_concat hs.written hb hmatches.copy_take hbits⟩, hlt⟩
  · obtain ⟨hsettled, hbits⟩ := hs.settled.zlibHuffb (data.getD s.i 0)
    have hlt := Nat.lt_succ_self s.i
    exact ⟨⟨hi, hchains hlt, hsettled, written_concat hs.written (.literal _) (expand_literal hi) hbits⟩, hlt⟩

theorem short_match (hquality : 0 < quality) (h : ∀ h, Short quality (s.hashTable h)) (k : Nat) :
    Short quality ((s.match data quality).hashTable k) := by
  have hupdate : (s.match data quality).hashTable =
      Function.update s.hashTable (bucket data s.i) (insertLoc quality (s.hashTable (bucket data s.i)) s.i) := by
    unfold State.match
    dsimp only
    split <;> rfl
  rw [hupdate]
  rcases eq_or_ne k (bucket data s.i) with rfl | hne
  · rw [Function.update_self]
    exact (h _).insertLoc hquality s.i
  · rw [Function.update_of_ne hne]
    exact h k

theorem Inv.loop {header : List Bool} (hs : Inv data header s) {fuel : Nat} {s' : State}
    (h : s.loop data quality fuel = some s') : Inv data header s' := by
  induction fuel generalizing s with
  | zero =>
    rw [State.loop] at h
    split at h
    · cases h
    · exact Option.some.inj h ▸ hs
  | succ fuel ih =>
    rw [State.loop] at h
    split at h
    · rename_i hlt
      exact ih (hs.match (by omega)).1 h
    · exact Option.some.inj h ▸ hs

/-- As each match goes on in the data, the fuel does not run out; and the chains stay short. -/
theorem Inv.exists_loop {header : List Bool} (hs : Inv data header s) (hquality : 0 < quality)
    (hshort : ∀ h, Short quality (s.hashTable h)) {fuel : Nat} (hfuel : data.length ≤ s.i + fuel) :
    ∃ s', s.loop data quality fuel = some s' ∧ ∀ h, Short quality (s'.hashTable h) := by
  induction fuel generalizing s with
  | zero => exact ⟨s, if_neg (by omega), hshort⟩
  | succ fuel ih =>
    rw [State.loop]
    split
    · rename_i hlt
      obtain ⟨hmatch, hless⟩ := hs.match (show s.i < data.length by omega)
      exact ih hmatch (short_match hquality hshort) (by omega)
    · exact ⟨s, rfl, hshort⟩

theorem written_drop {header : List Bool} {w : Writer} {i : Nat} (hw : w.Settled)
    (h : ∃ tokens b, EncodesAll tokens b ∧ tokens.foldlM Token.expand [] = some (data.take i) ∧ w.bits = header ++ b) :
    let w' := (data.drop i).foldl (fun w b => w.zlibHuffb b.toNat) w
    w'.Settled ∧
      ∃ tokens b, EncodesAll tokens b ∧ tokens.foldlM Token.expand [] = some data ∧ w'.bits = header ++ b := by
  induction hn : data.length - i generalizing i w with
  | zero =>
    have hle : data.length ≤ i := by omega
    rw [List.take_of_length_le hle] at h
    rw [List.drop_eq_nil_of_le hle]
    exact ⟨hw, h⟩
  | succ n ih =>
    have hi : i < data.length := by omega
    obtain ⟨hsettled, hbits⟩ := hw.zlibHuffb (data.getD i 0)
    rw [List.drop_eq_getElem_cons hi, List.foldl_cons, ← List.getD_eq_getElem (d := 0) _ hi]
    exact ih hsettled (written_concat h (.literal _) (expand_literal hi) hbits) (by omega)

end

/-! ### The checksum -/

/-- The sums without any limit. -/
def adlerSums (block : List UInt8) (s : Nat × Nat) : Nat × Nat :=
  block.foldl (fun (s1, s2) b => (s1 + b.toNat, s2 + (s1 + b.toNat))) s

/-- The sums of 5552 bytes fit in 32 bits: `2 s2` stays below what the last hypothesis bounds. -/
theorem adlerBlock_sums (block : List UInt8) (s1 s2 : Nat)
    (h : 2 * s2 + 2 * (block.length * s1) + 255 * (block.length * (block.length + 1)) < 2 * 2 ^ 32) (hs : s1 < 2 ^ 32) :
    block.foldl (fun (s1, s2) b => ((s1 + b.toNat) % 2 ^ 32, (s2 + (s1 + b.toNat) % 2 ^ 32) % 2 ^ 32)) (s1, s2) =
      adlerSums block (s1, s2) := by
  induction block generalizing s1 s2 with
  | nil => rfl
  | cons b block ih =>
    have hb : b.toNat ≤ 255 := Nat.le_of_lt_succ b.toNat_lt
    have hmul : (block.length + 1) * b.toNat ≤ (block.length + 1) * 255 := Nat.mul_le_mul_left _ hb
    rw [List.length_cons] at h
    have hrest : 2 * (s2 + (s1 + b.toNat)) + 2 * (block.length * (s1 + b.toNat)) +
        255 * (block.length * (block.length + 1)) < 2 * 2 ^ 32 := by
      linarith
    have hs1 : s1 + b.toNat < 2 ^ 32 := by
      have : 0 ≤ block.length * (s1 + b.toNat) := Nat.zero_le _
      omega
    have hs2 : s2 + (s1 + b.toNat) < 2 ^ 32 := by omega
    rw [List.foldl_cons, adlerSums, List.foldl_cons]
    simp only [Nat.mod_eq_of_lt hs1, Nat.mod_eq_of_lt hs2]
    exact ih _ _ hrest hs1

/-- Reducing the sums at the end is reducing them after each byte. -/
theorem adlerSums_mod (block : List UInt8) (s1 s2 : Nat) :
    block.foldl (fun (s1, s2) b => ((s1 + b.toNat) % 65521, (s2 + (s1 + b.toNat) % 65521) % 65521))
        (s1 % 65521, s2 % 65521) =
      ((adlerSums block (s1, s2)).1 % 65521, (adlerSums block (s1, s2)).2 % 65521) := by
  induction block generalizing s1 s2 with
  | nil => rfl
  | cons b block ih =>
    have hs1 : (s1 % 65521 + b.toNat) % 65521 = (s1 + b.toNat) % 65521 := Nat.mod_add_mod ..
    have hs2 : (s2 % 65521 + (s1 + b.toNat) % 65521) % 65521 = (s2 + (s1 + b.toNat)) % 65521 :=
      (Nat.add_mod ..).symm
    rw [List.foldl_cons, adlerSums, List.foldl_cons]
    simp only [hs1, hs2]
    exact ih _ _

/-- The sums of a checksum, reduced after each byte. -/
def adlerFold (bytes : List UInt8) (s : Nat × Nat) : Nat × Nat :=
  bytes.foldl (fun (s1, s2) b => ((s1 + b.toNat) % 65521, (s2 + (s1 + b.toNat) % 65521) % 65521)) s

def Reduced (s : Nat × Nat) : Prop := s.1 < 65521 ∧ s.2 < 65521

theorem adlerFold_append (bs cs : List UInt8) (s : Nat × Nat) :
    adlerFold (bs ++ cs) s = adlerFold cs (adlerFold bs s) := List.foldl_append

theorem adlerBlock_eq (block : List UInt8) {s : Nat × Nat} (hs : Reduced s) (hlength : block.length ≤ 5552) :
    adlerBlock block s = adlerFold block s ∧ Reduced (adlerBlock block s) := by
  obtain ⟨hs1, hs2⟩ := hs
  have hmul : block.length * s.1 ≤ 5552 * 65520 := Nat.mul_le_mul hlength (by omega)
  have hsquare : block.length * (block.length + 1) ≤ 5552 * 5553 := Nat.mul_le_mul hlength (by omega)
  have hsums := adlerBlock_sums block s.1 s.2 (by omega) (by omega)
  have hmod := adlerSums_mod block s.1 s.2
  rw [Nat.mod_eq_of_lt hs1, Nat.mod_eq_of_lt hs2] at hmod
  have heq : adlerBlock block s = ((adlerSums block s).1 % 65521, (adlerSums block s).2 % 65521) := by
    rw [adlerBlock, hsums]
  exact ⟨heq.trans hmod.symm, by rw [heq]; exact ⟨Nat.mod_lt _ (by decide), Nat.mod_lt _ (by decide)⟩⟩

theorem adlerLoop_eq (fuel blocklen : Nat) (rest : List UInt8) {s : Nat × Nat} (hs : Reduced s)
    (hblocklen : blocklen ≤ 5552) (hfuel : rest.length ≤ blocklen + 5552 * (fuel - 1)) (hpos : 0 < fuel) :
    adlerLoop fuel blocklen rest s = adlerFold rest s ∧ Reduced (adlerLoop fuel blocklen rest s) := by
  induction fuel generalizing blocklen rest s with
  | zero => exact absurd hpos (Nat.lt_irrefl 0)
  | succ fuel ih =>
    rw [adlerLoop]
    split
    · rename_i hnil
      rw [hnil]
      exact ⟨rfl, hs⟩
    · obtain ⟨hblock, hreduced⟩ := adlerBlock_eq (rest.take blocklen) hs
        ((List.length_take_le _ _).trans hblocklen)
      rcases Nat.eq_zero_or_pos fuel with rfl | hfuel'
      · have hall : rest.length ≤ blocklen := by omega
        rw [List.take_of_length_le hall] at hblock hreduced ⊢
        exact ⟨hblock, hreduced⟩
      · obtain ⟨hloop, hreduced'⟩ := ih 5552 (rest.drop blocklen) hreduced (Nat.le_refl _)
          (by rw [List.length_drop]; omega) hfuel'
        refine ⟨?_, hreduced'⟩
        rw [hloop, hblock, ← adlerFold_append, List.take_append_drop]

theorem Sb.pushAdler_m_le (out : Sb UInt8) (data : List UInt8) {n : Nat} (hm : out.m ≤ 2 * n + 1)
    (hn : out.items.length + 4 ≤ n) : (out.pushAdler data).m ≤ 2 * n + 1 := by
  unfold Sb.pushAdler
  dsimp only
  generalize adlerLoop _ _ data (1, 0) = sums
  have hlength (a : Sb UInt8) (v : UInt8) : (a.push v).items.length = a.items.length + 1 := by
    rw [Sb.push_items, List.length_append, List.length_singleton]
  iterate 3 refine Sb.push_m_le _ _ ?_ (by simp only [hlength]; omega)
  exact Sb.push_m_le _ _ hm (by omega)

/-- What is pushed is the checksum of the format: in the blocks of 5552 bytes no sum of an `unsigned int` wraps. -/
theorem pushAdler_spec (out : Sb UInt8) (data : List UInt8) :
    (out.pushAdler data).items.length = out.items.length + 4 ∧
      ∃ trailer : List UInt8, (out.pushAdler data).items = out.items ++ trailer ∧ trailer.length = 4 ∧
        bigEndian trailer = adler32 data := by
  obtain ⟨heq, hs1, hs2⟩ := adlerLoop_eq (data.length / 5552 + 2) (data.length % 5552) data (s := (1, 0))
    ⟨by decide, by decide⟩ (Nat.mod_lt _ (by decide)).le (by omega) (by omega)
  rw [Sb.pushAdler]
  refine ⟨by simp [Sb.push_items], _, by simp only [Sb.push_items, List.append_assoc]; rfl, rfl, ?_⟩
  have hadler : adler32 data = (adlerFold data (1, 0)).2 * 2 ^ 16 + (adlerFold data (1, 0)).1 := rfl
  rw [hadler, ← heq]
  generalize adlerLoop _ _ data (1, 0) = sums at hs1 hs2
  simp only [bigEndian, List.cons_append, List.nil_append, List.foldl_cons, List.foldl_nil,
    UInt8.toNat_ofNat', Nat.shiftRight_eq_div_pow]
  omega

/-! ### Stored blocks -/

theorem pushBlockHeader_items (out : Sb UInt8) (final : UInt8) (n : Nat) :
    (out.pushBlockHeader final n).items =
      out.items ++ [final, UInt8.ofNat n, UInt8.ofNat (n >>> 8), ~~~ UInt8.ofNat n, ~~~ UInt8.ofNat (n >>> 8)] := by
  simp only [Sb.pushBlockHeader, Sb.push_items, List.append_assoc, List.cons_append, List.nil_append]

theorem le_pushBlockHeader_m (out : Sb UInt8) (final : UInt8) (n : Nat) : out.m ≤ (out.pushBlockHeader final n).m :=
  (Sb.le_push_m ..).trans ((Sb.le_push_m ..).trans ((Sb.le_push_m ..).trans
    ((Sb.le_push_m ..).trans (Sb.le_push_m ..))))

theorem toNat_not (b : UInt8) : (~~~ b).toNat = 255 - b.toNat := UInt8.toNat_not b

/-- The header of a stored block: its length and the complement of it. -/
theorem ofBytes_blockHeader {n : Nat} (hn : n < 2 ^ 16) (final : UInt8) :
    ofBytes [final, UInt8.ofNat n, UInt8.ofNat (n >>> 8), ~~~ UInt8.ofNat n, ~~~ UInt8.ofNat (n >>> 8)] =
      BitStream.bits 8 final.toNat ++ (BitStream.bits 16 n ++ BitStream.bits 16 (2 ^ 16 - 1 - n)) := by
  have hlow : (UInt8.ofNat n).toNat = n % 2 ^ 8 := UInt8.toNat_ofNat'
  have hhigh : (UInt8.ofNat (n >>> 8)).toNat = n / 2 ^ 8 := by
    rw [UInt8.toNat_ofNat', Nat.shiftRight_eq_div_pow]
    omega
  have hlow' : (~~~ UInt8.ofNat n).toNat = (2 ^ 16 - 1 - n) % 2 ^ 8 := by
    rw [toNat_not, hlow]
    omega
  have hhigh' : (~~~ UInt8.ofNat (n >>> 8)).toNat = (2 ^ 16 - 1 - n) / 2 ^ 8 := by
    rw [toNat_not, hhigh]
    omega
  simp only [ofBytes_cons, ofBytes_nil, List.append_nil, hlow, hhigh, hlow', hhigh', bits_mod]
  rw [show (16 : Nat) = 8 + 8 from rfl, bits_add 8 8 n, bits_add 8 8 (2 ^ (8 + 8) - 1 - n)]
  simp only [List.append_assoc]

theorem pushBlockHeader_m_le (out : Sb UInt8) (final : UInt8) (blocklen : Nat) {n : Nat} (hm : out.m ≤ 2 * n + 1)
    (hn : out.items.length + 5 ≤ n) : (out.pushBlockHeader final blocklen).m ≤ 2 * n + 1 := by
  have hlength (a : Sb UInt8) (v : UInt8) : (a.push v).items.length = a.items.length + 1 := by
    rw [Sb.push_items, List.length_append, List.length_singleton]
  unfold Sb.pushBlockHeader
  iterate 4 refine Sb.push_m_le _ _ ?_ (by simp only [hlength]; omega)
  exact Sb.push_m_le _ _ hm (by omega)

/-- The stored blocks fit in a buffer with room for their size, and are of that size; the room that is enough for
it stays. -/
theorem storedBlocks_isSome {fuel n : Nat} {rest : List UInt8} (out : Sb UInt8) (hfuel : rest.length ≤ fuel)
    (hroom : out.items.length + rest.length + (rest.length + 32766) / 32767 * 5 ≤ out.m) (hm : out.m ≤ 2 * n + 1)
    (hn : out.items.length + rest.length + (rest.length + 32766) / 32767 * 5 ≤ n) :
    ∃ out', storedBlocks fuel rest out = some out' ∧
      out'.items.length = out.items.length + rest.length + (rest.length + 32766) / 32767 * 5 ∧ out'.m ≤ 2 * n + 1 := by
  induction fuel generalizing rest out with
  | zero =>
    obtain rfl := List.length_eq_zero_iff.1 (Nat.le_zero.1 hfuel)
    exact ⟨out, rfl, rfl, hm⟩
  | succ fuel ih =>
    rw [storedBlocks]
    split
    · rename_i hnil
      rw [hnil]
      exact ⟨out, rfl, rfl, hm⟩
    · rename_i hne
      have hpos := List.length_pos_iff.2 hne
      dsimp only
      generalize (if rest.length = min rest.length 32767 then (1 : UInt8) else 0) = final
      have hle := le_pushBlockHeader_m out final (min rest.length 32767)
      have hm' := pushBlockHeader_m_le out final (min rest.length 32767) hm (by omega)
      have hheader := congrArg List.length (pushBlockHeader_items out final (min rest.length 32767))
      have htake : (rest.take (min rest.length 32767)).length = min rest.length 32767 := by
        rw [List.length_take]
        omega
      rw [List.length_append] at hheader
      change _ = out.items.length + 5 at hheader
      obtain ⟨copied, hcopied, hcopied_m⟩ := (out.pushBlockHeader final (min rest.length 32767)).memcpy_of_le
        (rest.take (min rest.length 32767)) (by rw [hheader, htake]; omega)
      have hitems := congrArg List.length (Sb.memcpy_items hcopied)
      rw [List.length_append, hheader, htake] at hitems
      have hdrop : (rest.drop (min rest.length 32767)).length = rest.length - min rest.length 32767 :=
        List.length_drop
      obtain ⟨out', hout', hsize, hlast⟩ := @ih (rest.drop (min rest.length 32767)) copied (by omega) (by omega)
        (by omega) (by omega)
      refine ⟨out', by rw [hcopied, Option.bind_some, hout'], ?_, hlast⟩
      omega

theorem storedBlocks_nil (fuel : Nat) (out : Sb UInt8) : storedBlocks fuel [] out = some out := by
  cases fuel with
  | zero => rfl
  | succ fuel => rw [storedBlocks, if_pos rfl]

/-- A decoder of stored blocks gets their bytes. -/
theorem storedBlocks_inflate {fuel : Nat} {rest : List UInt8} {out out' : Sb UInt8} (hne : rest ≠ [])
    (hfuel : rest.length ≤ fuel) (h : storedBlocks fuel rest out = some out') :
    ∃ b, ofBytes out'.items = ofBytes out.items ++ b ∧ rest.length ≤ b.length ∧
      ∀ (n : Nat) (inflated : List UInt8) (s : List Bool), 8 ∣ s.length → rest.length ≤ n →
        inflate n inflated (b ++ s) = some (inflated ++ rest, s) := by
  induction fuel generalizing rest out with
  | zero => exact absurd (List.length_eq_zero_iff.1 (Nat.le_zero.1 hfuel)) hne
  | succ fuel ih =>
    have hpos := List.length_pos_iff.2 hne
    rw [storedBlocks, if_neg hne] at h
    obtain ⟨copied, hcopied, hrest⟩ := Option.bind_eq_some_iff.1 h
    have htake : (rest.take (min rest.length 32767)).length = min rest.length 32767 := by
      rw [List.length_take]
      omega
    have hblock : (rest.take (min rest.length 32767)).length < 2 ^ 16 := by omega
    have hitems := congrArg ofBytes (Sb.memcpy_items hcopied)
    rw [pushBlockHeader_items, ofBytes_append, ofBytes_append, ofBytes_blockHeader (by omega), ← htake,
      List.append_assoc, List.append_assoc, List.append_assoc] at hitems
    have hstored (final : UInt8) (hfinal : final.toNat < 2) {s : List Bool} (hs : 8 ∣ s.length) :=
      inflate_stored hfinal hblock hs
    by_cases hlast : rest.length = min rest.length 32767
    · -- the final block
      have hdrop : rest.drop (min rest.length 32767) = [] := by
        rw [← hlast, List.drop_length]
      have hall : rest.take (min rest.length 32767) = rest := by
        rw [← hlast, List.take_length]
      rw [hdrop, storedBlocks_nil, Option.some.injEq] at hrest
      subst hrest
      rw [htake, if_pos hlast] at hitems
      refine ⟨_, hitems, ?_, fun n inflated s hs hn => ?_⟩
      · simp only [List.length_append, length_bits, length_ofBytes]
        omega
      · obtain ⟨m, rfl⟩ := Nat.exists_eq_succ_of_ne_zero (by omega : n ≠ 0)
        have hfinal := hstored 1 (by decide) hs m inflated
        rw [if_pos (by rfl), htake, hall] at hfinal
        simpa only [List.append_assoc, hall] using hfinal
    · have hdropped : rest.drop (min rest.length 32767) ≠ [] := by
        rw [← List.length_pos_iff, List.length_drop]
        omega
      obtain ⟨b, hb, hlength, hinflate⟩ := ih hdropped (by rw [List.length_drop]; omega) hrest
      rw [htake, if_neg hlast] at hitems
      rw [hitems, List.append_assoc] at hb
      refine ⟨_, hb, ?_, fun n inflated s hs hn => ?_⟩
      · rw [List.length_drop] at hlength
        simp only [List.length_append, length_bits, length_ofBytes, htake]
        omega
      · obtain ⟨m, rfl⟩ := Nat.exists_eq_succ_of_ne_zero (by omega : n ≠ 0)
        have hbs : 8 ∣ (b ++ s).length := by
          have hbytes := congrArg List.length hb
          simp only [List.length_append, length_bits, length_ofBytes] at hbytes
          rw [List.length_append]
          omega
        have hnext := hstored 0 (by decide) hbs m inflated
        rw [if_neg (by decide), hinflate m _ s hs (by rw [List.length_drop]; omega), htake, List.append_assoc,
          List.take_append_drop] at hnext
        simpa only [List.append_assoc] using hnext

/-! ### The stream -/

variable {data : List UInt8} {quality : Nat}

/-- The start of the writer, with the header of the stream and of the block. -/
theorem settled_start (data : List UInt8) (w : Writer)
    (hw : w = (Writer.zlibAdd ⟨(Sb.empty.push 0x78).push 0x5e, 0, 0⟩ 1 1).zlibAdd 1 2) :
    Inv data w.bits ⟨0, fun _ => Sb.empty, w⟩ ∧
      w.bits = ofBytes [0x78, 0x5e] ++ (BitStream.bits 1 1 ++ BitStream.bits 2 1) := by
  have h₀ : Writer.Settled ⟨(Sb.empty.push 0x78).push 0x5e, 0, 0⟩ := ⟨by decide, by decide, by decide⟩
  obtain ⟨h₁, hbits₁⟩ := h₀.zlibAdd (show 1 < 2 ^ 1 by decide) (by decide)
  obtain ⟨h₂, hbits₂⟩ := h₁.zlibAdd (show 1 < 2 ^ 2 by decide) (by decide)
  rw [← hw] at h₂ hbits₂
  refine ⟨⟨Nat.zero_le _, by simp [Sb.empty], h₂, [], [], .nil, by simp, (List.append_nil _).symm⟩, ?_⟩
  rw [hbits₂, hbits₁]
  simp only [Writer.bits, BitStream.bits, List.append_nil, List.append_assoc]
  rfl

/-- What the loop has left is the header and the bits of tokens for the data it has passed. -/
structure Passed (data : List UInt8) (s : State) : Prop where
  settled : s.writer.Settled
  written : ∃ tokens b, EncodesAll tokens b ∧ tokens.foldlM Token.expand [] = some (data.take s.i) ∧
    s.writer.bits = ofBytes [0x78, 0x5e] ++ (BitStream.bits 1 1 ++ BitStream.bits 2 1) ++ b

theorem passed_compressLoop {s : State} (h : compressLoop data quality = some s) : Passed data s := by
  obtain ⟨hloop, -⟩ := Option.filter_eq_some_iff.1 h
  obtain ⟨hstart, hbits⟩ := settled_start data _ rfl
  have hinv := hstart.loop hloop
  rw [hbits] at hinv
  exact ⟨hinv.settled, hinv.written⟩

theorem exists_compressLoop (data : List UInt8) (quality : Nat) (hpos : 0 < quality) (hle : quality ≤ 2 ^ 25) :
    ∃ s, compressLoop data quality = some s := by
  obtain ⟨s, hs, hshort⟩ := (settled_start data _ rfl).1.exists_loop hpos
    (fun _ => ⟨Nat.zero_le _, Nat.zero_le _⟩) (Nat.le_add_left _ _)
  refine ⟨s, Option.filter_eq_some_iff.2 ⟨hs, decide_eq_true fun h _ => ?_⟩⟩
  have hm := (hshort h).2
  rw [Sb.InRange]
  omega

variable {s : State}

/-- The attempt with the fixed codes is the header, the bits of tokens for the data, and less than a byte of
padding. -/
theorem Passed.fixedCodes (h : Passed data s) :
    (fixedCodes data s).m ≤ 2 * (fixedCodes data s).items.length + 1 ∧
    ∃ tokens b padding, EncodesAll tokens b ∧ tokens.foldlM Token.expand [] = some data ∧ padding.length < 8 ∧
      ofBytes (ZlibCompress.fixedCodes data s).items = ofBytes [0x78, 0x5e] ++ (BitStream.bits 1 1 ++
        (BitStream.bits 2 1 ++ (b ++ (codeword literalLengths 256 ++ padding)))) := by
  obtain ⟨hsettled, tokens, b, hall, hexpand, hbits⟩ := written_drop h.settled h.written
  obtain ⟨h₁, hbits₁⟩ := hsettled.zlibHuff (show 256 < 288 by decide)
  obtain ⟨hroom, padding, hpadding, hitems⟩ := h₁.pad (.inr (by omega : 8 ≤ 8 + _))
  refine ⟨hroom, tokens, b, padding, hall, hexpand, hpadding, ?_⟩
  rw [ZlibCompress.fixedCodes, hitems, hbits₁, hbits]
  simp only [List.append_assoc]

/-- At most 31 bits for three bytes, and some at either end. -/
theorem Passed.length_fixedCodes_le (h : Passed data s) :
    24 * (ZlibCompress.fixedCodes data s).items.length ≤ 31 * data.length + 102 := by
  obtain ⟨-, tokens, b, padding, hall, hexpand, hpadding, hitems⟩ := h.fixedCodes
  have hsize := size_le_of_encodesAll hall hexpand
  have hlength := congrArg List.length hitems
  have hend : (codeword literalLengths 256).length ≤ 8 := length_codeword_literal (by decide)
  simp only [List.length_append, length_ofBytes, length_bits, List.length_cons, List.length_nil] at hlength hsize
  omega

theorem Passed.header (h : Passed data s) :
    2 ≤ (ZlibCompress.fixedCodes data s).items.length ∧
      (ZlibCompress.fixedCodes data s).items.take 2 = [0x78, 0x5e] := by
  obtain ⟨-, tokens, b, padding, -, -, -, h⟩ := h.fixedCodes
  generalize (ZlibCompress.fixedCodes data s).items = items at h
  have hlength := congrArg List.length h
  simp only [List.length_append, length_ofBytes, List.length_cons, List.length_nil] at hlength
  match items with
  | [] =>
    rw [List.length_nil] at hlength
    omega
  | [c] =>
    rw [List.length_singleton] at hlength
    omega
  | c :: c' :: items =>
    refine ⟨by simp, ?_⟩
    rw [ofBytes_cons, ofBytes_cons, ofBytes_cons, ofBytes_cons, ofBytes_nil, List.append_nil, List.append_assoc] at h
    obtain ⟨hc, h⟩ := List.append_inj h (by simp)
    obtain ⟨hc', -⟩ := List.append_inj h (by simp)
    have hbyte {c c' : UInt8} (h : BitStream.bits 8 c.toNat = BitStream.bits 8 c'.toNat) : c = c' :=
      UInt8.toNat_inj.1 (bits_inj c.toNat_lt c'.toNat_lt h)
    rw [hbyte hc, hbyte hc']
    rfl

/-- The stored blocks fit in the room that the longer attempt has left. -/
theorem Passed.storeIfWorse (h : Passed data s) :
    ∃ out, storeIfWorse data (ZlibCompress.fixedCodes data s) = some out ∧
      out.items.length ≤ data.length + 2 + (data.length + 32766) / 32767 * 5 ∧
      out.items.length ≤ (ZlibCompress.fixedCodes data s).items.length ∧
      out.m ≤ 2 * (ZlibCompress.fixedCodes data s).items.length + 1 := by
  have hm := h.fixedCodes.1
  have htwo := h.header.1
  unfold ZlibCompress.storeIfWorse
  generalize ZlibCompress.fixedCodes data s = out at hm htwo
  split
  · rename_i hlonger
    have hlength : (out.truncate 2).items.length = 2 := List.length_take_of_le htwo
    have hroom : (out.truncate 2).m = out.m := rfl
    have hle := out.length_le
    obtain ⟨stored, hstored, hsize, hstored_m⟩ := storedBlocks_isSome (out.truncate 2) (Nat.le_refl data.length)
      (by omega) (n := out.items.length) hm (by omega)
    exact ⟨stored, hstored, by omega, by omega, hstored_m⟩
  · exact ⟨out, rfl, by omega, le_rfl, hm⟩

/-- Neither the room nor an `int` is exceeded by half a GiB of data, and the stream is no longer than one of stored
blocks. -/
theorem exists_stbiZlibCompress {quality : Int} (hdata : data.length ≤ 2 ^ 29) (hquality : quality ≤ 2 ^ 25) :
    ∃ bytes, stbiZlibCompress data quality = some bytes ∧
      bytes.length ≤ data.length + 2 + (data.length + 32766) / 32767 * 5 + 4 := by
  unfold stbiZlibCompress
  obtain ⟨s, hs⟩ := exists_compressLoop data (if quality < 5 then 5 else quality.toNat)
    (by split_ifs <;> omega) (by split_ifs <;> omega)
  have hpassed := passed_compressLoop hs
  have hsize := hpassed.length_fixedCodes_le
  obtain ⟨out, hout, hstored, hle, hm⟩ := hpassed.storeIfWorse
  have hadler := (pushAdler_spec out data).1
  have hroom := out.pushAdler_m_le data (n := (ZlibCompress.fixedCodes data s).items.length + 4) (by omega) (by omega)
  simp only [hs, hout, Option.bind_eq_bind, Option.bind_some]
  refine ⟨_, if_pos ?_, by omega⟩
  rw [Sb.InRange]
  omega

/-- The compressor puts out a zlib stream of the data. -/
theorem decompress_of_stbiZlibCompress {quality : Int} {bytes : List UInt8} (hne : data ≠ [])
    (hbytes : stbiZlibCompress data quality = some bytes) : decompress bytes = some data := by
  unfold stbiZlibCompress at hbytes
  obtain ⟨s, hs, hbytes⟩ := Option.bind_eq_some_iff.1 hbytes
  obtain ⟨out, hout, hbytes⟩ := Option.bind_eq_some_iff.1 hbytes
  have hpassed := passed_compressLoop hs
  obtain ⟨-, trailer, htrailer, hlength, hchecksum⟩ := pushAdler_spec out data
  obtain rfl : (out.pushAdler data).items = bytes := by
    dsimp only at hbytes
    split at hbytes
    · exact Option.some.inj hbytes
    · cases hbytes
  rw [htrailer]
  have hheader : (0x78 : UInt8).toNat % 16 = 8 ∧ (0x78 : UInt8).toNat / 16 ≤ 7 ∧
      ((0x78 : UInt8).toNat * 256 + (0x5e : UInt8).toNat) % 31 = 0 ∧ (0x5e : UInt8).toNat / 32 % 2 = 0 := by decide
  unfold storeIfWorse at hout
  split at hout
  · -- stored blocks
    obtain ⟨b, hb, hblocks, hinflate⟩ := storedBlocks_inflate hne (Nat.le_refl _) hout
    have hitems : ((fixedCodes data s).truncate 2).items = [0x78, 0x5e] := hpassed.header.2
    rw [hitems] at hb
    refine decompress_eq b [] hheader ?_ (fun fuel hfuel => ?_) (by decide) hlength hchecksum
    · rw [ofBytes_append, hb, List.append_assoc, List.nil_append]
    · rw [List.nil_append]
      have htrailer8 : 8 ∣ (ofBytes trailer).length := by
        rw [length_ofBytes]
        exact Nat.dvd_mul_right 8 _
      rw [hinflate fuel [] _ htrailer8 (by omega), List.nil_append]
  · -- the fixed codes
    obtain rfl := Option.some.inj hout
    obtain ⟨-, tokens, b, padding, hall, hexpand, hpadding, hitems⟩ := hpassed.fixedCodes
    refine decompress_eq (BitStream.bits 1 1 ++ (BitStream.bits 2 1 ++ (b ++ codeword literalLengths 256))) padding
      hheader ?_ (fun fuel hfuel => ?_) hpadding hlength hchecksum
    · rw [ofBytes_append, hitems]
      simp only [List.append_assoc]
    · simp only [List.length_append, length_bits] at hfuel
      obtain ⟨fuel, rfl⟩ := Nat.exists_eq_succ_of_ne_zero (by omega : fuel ≠ 0)
      simpa only [List.append_assoc] using inflate_fixed (s := padding ++ ofBytes trailer) hall hexpand fuel

/-- The compressor leaves neither the room of its buffers nor the range of `int`, and a decoder gets the data back. -/
theorem decompress_stbiZlibCompress (data : List UInt8) (quality : Int) (hne : data ≠ [])
    (hdata : data.length ≤ 2 ^ 29) (hquality : quality ≤ 2 ^ 25) :
    ∃ bytes, stbiZlibCompress data quality = some bytes ∧
      bytes.length ≤ data.length + 2 + (data.length + 32766) / 32767 * 5 + 4 ∧ decompress bytes = some data := by
  obtain ⟨bytes, hbytes, hlength⟩ := exists_stbiZlibCompress hdata hquality
  exact ⟨bytes, hbytes, hlength, decompress_of_stbiZlibCompress hne hbytes⟩

theorem decompress_stbiZlibCompress_byte : ∃ bytes, stbiZlibCompress [200] 8 = some bytes ∧
    bytes.length ≤ 1 + 2 + (1 + 32766) / 32767 * 5 + 4 ∧ decompress bytes = some [200] :=
  decompress_stbiZlibCompress [200] 8 (by decide) (by decide) (by decide)

end SweetHome.ZlibCompress
