import SweetHome.Lib.BitStream

/-!
# Compressed data

A decoder of the deflate format with its stored blocks and its fixed Huffman codes, and of the zlib stream around
it with its checksum. The codes are built from their lengths by the rule of the format. For an encoder it is
enough to emit tokens that expand to the data and bits that encode the tokens (`inflate_fixed`), or its blocks as
they are (`inflate_stored`); `copy_take` is the law of a back reference to bytes that have been compared.
-/

namespace SweetHome.Deflate
open BitStream

/-! ### The fixed codes -/

/-- The smallest code of each length. -/
def firstCode (lengths : List Nat) : Nat → Nat
  | 0 => 0
  | n + 1 => (firstCode lengths n + if n = 0 then 0 else lengths.count n) * 2

/-- The codes of one length are consecutive, in the order of the symbols. -/
def canonicalCode (lengths : List Nat) (symbol : Nat) : Nat :=
  firstCode lengths (lengths.getD symbol 0) + (lengths.take symbol).count (lengths.getD symbol 0)

def literalLengths : List Nat :=
  List.replicate 144 8 ++ List.replicate 112 9 ++ List.replicate 24 7 ++ List.replicate 8 8

def distanceLengths : List Nat := List.replicate 30 5

def codeword (lengths : List Nat) (symbol : Nat) : List Bool :=
  msbBits (lengths.getD symbol 0) (canonicalCode lengths symbol)

/-- The lengths and the numbers of the codes of literals and lengths. -/
def literalNumber (symbol : Nat) : Nat × Nat :=
  if symbol ≤ 143 then (8, 0x30 + symbol) else if symbol ≤ 255 then (9, 0x190 + symbol - 144)
  else if symbol ≤ 279 then (7, symbol - 256) else (8, 0xc0 + symbol - 280)

theorem canonicalCode_literalLengths : ∀ symbol < 288,
    (literalLengths.getD symbol 0, canonicalCode literalLengths symbol) = literalNumber symbol := by
  decide +kernel

theorem canonicalCode_distanceLengths : ∀ symbol < 30,
    (distanceLengths.getD symbol 0, canonicalCode distanceLengths symbol) = (5, symbol) := by
  decide +kernel

theorem codeword_literalLengths {symbol : Nat} (h : symbol < 288) :
    codeword literalLengths symbol = msbBits (literalNumber symbol).1 (literalNumber symbol).2 := by
  rw [← canonicalCode_literalLengths symbol h, codeword]

theorem codeword_distanceLengths {symbol : Nat} (h : symbol < 30) :
    codeword distanceLengths symbol = msbBits 5 symbol := by
  have hnumber := Prod.mk.inj (canonicalCode_distanceLengths symbol h)
  rw [codeword, hnumber.1, hnumber.2]

theorem literalNumber_lt {symbol : Nat} (h : symbol < 288) :
    (literalNumber symbol).2 < 2 ^ (literalNumber symbol).1 := by
  unfold literalNumber
  split_ifs <;> simp only <;> omega

theorem literal_prefixFree : ∀ a ∈ List.range 288, ∀ b ∈ List.range 288,
    codeword literalLengths a <+: codeword literalLengths b → a = b := by
  intro a ha b hb h
  rw [List.mem_range] at ha hb
  rw [codeword_literalLengths ha, codeword_literalLengths hb,
    msbBits_prefix_iff (literalNumber_lt ha) (literalNumber_lt hb)] at h
  obtain ⟨hlength, hnumber⟩ := h
  unfold literalNumber at hlength hnumber
  split_ifs at hlength hnumber <;> simp at hlength hnumber <;> omega

theorem distance_prefixFree : ∀ a ∈ List.range 30, ∀ b ∈ List.range 30,
    codeword distanceLengths a <+: codeword distanceLengths b → a = b := by
  intro a ha b hb h
  rw [List.mem_range] at ha hb
  rw [codeword_distanceLengths ha, codeword_distanceLengths hb,
    msbBits_prefix_iff (by omega) (by omega)] at h
  simpa using h.2

def literalCode : PrefixCode := ⟨List.range 288, codeword literalLengths, literal_prefixFree⟩

def distanceCode : PrefixCode := ⟨List.range 30, codeword distanceLengths, distance_prefixFree⟩

/-- The first length of each of the codes from 257 on, and the number of its extra bits. -/
def lengthCodes : List (Nat × Nat) :=
  [(3, 0), (4, 0), (5, 0), (6, 0), (7, 0), (8, 0), (9, 0), (10, 0), (11, 1), (13, 1), (15, 1), (17, 1), (19, 2),
    (23, 2), (27, 2), (31, 2), (35, 3), (43, 3), (51, 3), (59, 3), (67, 4), (83, 4), (99, 4), (115, 4), (131, 5),
    (163, 5), (195, 5), (227, 5), (258, 0)]

def distanceCodes : List (Nat × Nat) :=
  [(1, 0), (2, 0), (3, 0), (4, 0), (5, 1), (7, 1), (9, 2), (13, 2), (17, 3), (25, 3), (33, 4), (49, 4), (65, 5),
    (97, 5), (129, 6), (193, 6), (257, 7), (385, 7), (513, 8), (769, 8), (1025, 9), (1537, 9), (2049, 10),
    (3073, 10), (4097, 11), (6145, 11), (8193, 12), (12289, 12), (16385, 13), (24577, 13)]

/-! ### The decoder -/

/-- Appends `n` bytes, each a copy of the one at the distance before it. -/
def copy (distance : Nat) : Nat → List UInt8 → Option (List UInt8)
  | 0, out => some out
  | n + 1, out => do
    let b ← if distance ≤ out.length then out[out.length - distance]? else none
    copy distance n (out ++ [b])

/-- The symbols of a block up to its end. -/
def inflateCodes : Nat → List UInt8 → List Bool → Option (List UInt8 × List Bool)
  | 0, _, _ => none
  | fuel + 1, out, s => do
    let (symbol, s) ← literalCode.decode s
    if symbol < 256 then inflateCodes fuel (out ++ [UInt8.ofNat symbol]) s
    else if symbol = 256 then some (out, s)
    else
      let (length, extra) ← lengthCodes[symbol - 257]?
      let (lengthRest, s) ← readBits extra s
      let (symbol, s) ← distanceCode.decode s
      let (distance, extra) ← distanceCodes[symbol]?
      let (distanceRest, s) ← readBits extra s
      let out ← copy (distance + distanceRest) (length + lengthRest) out
      inflateCodes fuel out s

def inflateStored (out : List UInt8) (s : List Bool) : Option (List UInt8 × List Bool) := do
  let (len, s) ← readBits 16 (align s)
  let (nlen, s) ← readBits 16 s
  if len + nlen = 2 ^ 16 - 1 then
    let (bytes, s) ← readBytes len s
    some (out ++ bytes, s)
  else none

/-- The blocks up to the final one. There are none with codes of their own. -/
def inflate : Nat → List UInt8 → List Bool → Option (List UInt8 × List Bool)
  | 0, _, _ => none
  | fuel + 1, out, s => do
    let (final, s) ← readBits 1 s
    let (type, s) ← readBits 2 s
    let (out, s) ←
      match type with
      | 0 => inflateStored out s
      | 1 => inflateCodes s.length out s
      | _ => none
    if final = 1 then some (out, s) else inflate fuel out s

def adler32 (bytes : List UInt8) : Nat :=
  let (s1, s2) := bytes.foldl (fun (s1, s2) b =>
    ((s1 + b.toNat) % 65521, (s2 + (s1 + b.toNat) % 65521) % 65521)) (1, 0)
  s2 * 2 ^ 16 + s1

def bigEndian (bytes : List UInt8) : Nat := bytes.foldl (fun n b => n * 256 + b.toNat) 0

/-- A zlib stream: the header without a dictionary, the blocks, the checksum. -/
def decompress (bytes : List UInt8) : Option (List UInt8) := do
  let (cmf, s) ← readBits 8 (ofBytes bytes)
  let (flg, s) ← readBits 8 s
  if cmf % 16 = 8 ∧ cmf / 16 ≤ 7 ∧ (cmf * 256 + flg) % 31 = 0 ∧ flg / 32 % 2 = 0 then
    let (out, s) ← inflate s.length [] s
    let (checksum, s) ← readBytes 4 (align s)
    if bigEndian checksum = adler32 out ∧ s = [] then some out else none
  else none

/-! ### Tokens -/

inductive Token where
  | literal (b : UInt8)
  | reference (distance length : Nat)
deriving DecidableEq

def Token.expand (out : List UInt8) : Token → Option (List UInt8)
  | .literal b => some (out ++ [b])
  | .reference distance length => copy distance length out

inductive Token.Encodes : Token → List Bool → Prop
  | literal (b : UInt8) : Encodes (.literal b) (codeword literalLengths b.toNat)
  | reference {i j length distance extra extra' rest rest' : Nat} (hlength : lengthCodes[i]? = some (length, extra))
      (hdistance : distanceCodes[j]? = some (distance, extra')) (hrest : rest < 2 ^ extra)
      (hrest' : rest' < 2 ^ extra') :
      Encodes (.reference (distance + rest') (length + rest))
        (codeword literalLengths (i + 257) ++ (bits extra rest ++
          (codeword distanceLengths j ++ bits extra' rest')))

variable {s : List Bool} {out out' : List UInt8}

theorem literalCode_symbols : literalCode.symbols = List.range 288 := by rw [literalCode]

theorem distanceCode_symbols : distanceCode.symbols = List.range 30 := by rw [distanceCode]

theorem literalCode_codeword : literalCode.codeword = codeword literalLengths := by rw [literalCode]

theorem distanceCode_codeword : distanceCode.codeword = codeword distanceLengths := by rw [distanceCode]

theorem literal_decode {symbol : Nat} (h : symbol < 288) :
    literalCode.decode (codeword literalLengths symbol ++ s) = some (symbol, s) := by
  have hmem : symbol ∈ literalCode.symbols := by
    rw [literalCode_symbols, List.mem_range]
    exact h
  have hdecode := literalCode.decode_append (s := s) hmem
  rwa [literalCode_codeword] at hdecode

theorem distance_decode {symbol : Nat} (h : symbol < 30) :
    distanceCode.decode (codeword distanceLengths symbol ++ s) = some (symbol, s) := by
  have hmem : symbol ∈ distanceCode.symbols := by
    rw [distanceCode_symbols, List.mem_range]
    exact h
  have hdecode := distanceCode.decode_append (s := s) hmem
  rwa [distanceCode_codeword] at hdecode

theorem inflateCodes_token {token : Token} {b : List Bool} (hb : token.Encodes b) (h : token.expand out = some out')
    (fuel : Nat) : inflateCodes (fuel + 1) out (b ++ s) = inflateCodes fuel out' s := by
  cases hb with
  | literal b =>
    obtain rfl := Option.some.inj h
    have hsymbol : b.toNat < 256 := b.toNat_lt
    rw [inflateCodes, literal_decode (hsymbol.trans (by decide))]
    simp [hsymbol]
  | @reference i j length distance extra extra' rest rest' hlength hdistance hrest hrest' =>
    have hi : i < 29 := (List.getElem?_eq_some_iff.1 hlength).1
    have hj : j < 30 := (List.getElem?_eq_some_iff.1 hdistance).1
    rw [List.append_assoc, List.append_assoc, List.append_assoc, inflateCodes,
      literal_decode (by omega : i + 257 < 288)]
    have h256 : ¬ i + 257 < 256 := by omega
    have hlength' : lengthCodes[i + 257 - 257]? = some (length, extra) := by rwa [Nat.add_sub_cancel]
    have hexpand : copy (distance + rest') (length + rest) out = some out' := h
    simp [h256, hlength, readBits_append hrest, distance_decode hj, hdistance, readBits_append hrest', hexpand]

theorem inflateCodes_end (fuel : Nat) :
    inflateCodes (fuel + 1) out (codeword literalLengths 256 ++ s) = some (out, s) := by
  rw [inflateCodes, literal_decode (by decide)]
  simp

/-- The bits of tokens, one after the other. -/
inductive EncodesAll : List Token → List Bool → Prop
  | nil : EncodesAll [] []
  | concat {tokens token b b'} (h : EncodesAll tokens b) (hb : Token.Encodes token b') :
      EncodesAll (tokens ++ [token]) (b ++ b')

theorem inflateCodes_tokens {tokens : List Token} {b : List Bool} (hb : EncodesAll tokens b)
    (h : tokens.foldlM Token.expand out = some out') (fuel : Nat) :
    inflateCodes (tokens.length + fuel) out (b ++ s) = inflateCodes fuel out' s := by
  induction hb generalizing out' fuel s with
  | nil =>
    obtain rfl := Option.some.inj h
    rw [List.nil_append, List.length_nil, Nat.zero_add]
  | @concat tokens token b b' _ hb' ih =>
    rw [List.foldlM_append] at h
    obtain ⟨out₁, h₁, h₂⟩ := Option.bind_eq_some_iff.1 h
    have htoken : token.expand out₁ = some out' := by simpa using h₂
    rw [List.length_append, List.length_singleton, Nat.add_assoc, List.append_assoc, ih h₁, Nat.add_comm 1,
      inflateCodes_token hb' htoken]

theorem encodes_length_pos {token : Token} {b : List Bool} (h : token.Encodes b) : 0 < b.length := by
  have hcode {symbol : Nat} (hsymbol : symbol < 288) : 0 < (codeword literalLengths symbol).length := by
    rw [codeword_literalLengths hsymbol, length_msbBits]
    unfold literalNumber
    split_ifs <;> exact Nat.succ_pos _
  cases h with
  | literal b => exact hcode (b.toNat_lt.trans (by decide))
  | @reference i j length distance extra extra' rest rest' hlength =>
    have hi : i < 29 := (List.getElem?_eq_some_iff.1 hlength).1
    rw [List.length_append]
    exact Nat.add_pos_left (hcode (by omega)) _

theorem length_le_of_encodesAll {tokens : List Token} {b : List Bool} (h : EncodesAll tokens b) :
    tokens.length ≤ b.length := by
  induction h with
  | nil => rfl
  | concat _ hb ih =>
    have := encodes_length_pos hb
    simp only [List.length_append, List.length_singleton]
    omega

/-! ### The size of the tokens -/

theorem length_copy {distance n : Nat} (h : copy distance n out = some out') : out'.length = out.length + n := by
  induction n generalizing out with
  | zero =>
    obtain rfl := Option.some.inj h
    rfl
  | succ n ih =>
    rw [copy] at h
    split at h
    · obtain ⟨b, -, h⟩ := Option.bind_eq_some_iff.1 h
      rw [ih h, List.length_append, List.length_singleton, Nat.add_assoc, Nat.add_comm 1]
    · cases h

theorem lengthCodes_bounds : ∀ code ∈ lengthCodes, 3 ≤ code.1 ∧ code.2 ≤ 5 := by decide

theorem distanceCodes_bound : ∀ code ∈ distanceCodes, code.2 ≤ 13 := by decide

theorem length_codeword_literal {symbol : Nat} (h : symbol < 288) :
    (codeword literalLengths symbol).length ≤ if symbol < 256 then 9 else 8 := by
  rw [codeword_literalLengths h, length_msbBits, literalNumber]
  split_ifs <;> omega

/-- A token takes at most 31 bits for three bytes, as does a reference to three bytes far back. -/
theorem length_le_of_encodes {token : Token} {b : List Bool} (hb : token.Encodes b)
    (h : token.expand out = some out') : 3 * b.length + 31 * out.length ≤ 31 * out'.length := by
  cases hb with
  | literal b =>
    obtain rfl := Option.some.inj h
    have hb : b.toNat < 256 := b.toNat_lt
    have hcode := length_codeword_literal (hb.trans (by decide : 256 < 288))
    rw [if_pos hb] at hcode
    rw [List.length_append, List.length_singleton]
    omega
  | @reference i j length distance extra extra' rest rest' hlength hdistance =>
    have hi : i < 29 := (List.getElem?_eq_some_iff.1 hlength).1
    have hj : j < 30 := (List.getElem?_eq_some_iff.1 hdistance).1
    have hcopied := length_copy (show copy _ _ out = some out' from h)
    obtain ⟨hthree, hextra⟩ := lengthCodes_bounds _ (List.mem_of_getElem? hlength)
    have hextra' := distanceCodes_bound _ (List.mem_of_getElem? hdistance)
    have hcode := length_codeword_literal (show i + 257 < 288 by omega)
    rw [if_neg (by omega)] at hcode
    simp only [List.length_append, length_bits, codeword_distanceLengths hj, length_msbBits]
    simp only at hthree hextra hextra'
    omega

theorem size_le_of_encodesAll {tokens : List Token} {b : List Bool} (hb : EncodesAll tokens b)
    (h : tokens.foldlM Token.expand out = some out') : 3 * b.length + 31 * out.length ≤ 31 * out'.length := by
  induction hb generalizing out' with
  | nil =>
    obtain rfl := Option.some.inj h
    simp
  | @concat tokens token b b' _ hb' ih =>
    rw [List.foldlM_append] at h
    obtain ⟨out₁, h₁, h₂⟩ := Option.bind_eq_some_iff.1 h
    have htoken : token.expand out₁ = some out' := by simpa using h₂
    have hfirst := ih h₁
    have hlast := length_le_of_encodes hb' htoken
    rw [List.length_append]
    omega

/-! ### Blocks -/

/-- A final block with the fixed codes. -/
theorem inflate_fixed {tokens : List Token} {b : List Bool} (hb : EncodesAll tokens b)
    (h : tokens.foldlM Token.expand out = some out') (fuel : Nat) :
    inflate (fuel + 1) out (bits 1 1 ++ (bits 2 1 ++ (b ++ (codeword literalLengths 256 ++ s)))) = some (out', s) := by
  have hfuel := length_le_of_encodesAll hb
  have hend : (codeword literalLengths 256).length = 7 := by
    rw [codeword_literalLengths (by decide), length_msbBits]
    rfl
  obtain ⟨rest, hrest⟩ : ∃ rest, (b ++ (codeword literalLengths 256 ++ s)).length = tokens.length + (rest + 1) := by
    refine ⟨(b ++ (codeword literalLengths 256 ++ s)).length - tokens.length - 1, ?_⟩
    simp only [List.length_append, hend]
    omega
  have hcodes : inflateCodes (b ++ (codeword literalLengths 256 ++ s)).length out
      (b ++ (codeword literalLengths 256 ++ s)) = some (out', s) := by
    rw [hrest, inflateCodes_tokens hb h, inflateCodes_end]
  rw [inflate, readBits_append (by decide)]
  simp only [Option.bind_eq_bind, Option.bind_some]
  rw [readBits_append (by decide)]
  simp only [Option.bind_some, hcodes, if_true]

/-- A stored block at a byte boundary. -/
theorem inflate_stored {final : Nat} (hfinal : final < 2) {block : List UInt8} (hlength : block.length < 2 ^ 16)
    (hs : 8 ∣ s.length) (fuel : Nat) (out : List UInt8) :
    inflate (fuel + 1) out (bits 8 final ++ (bits 16 block.length ++ (bits 16 (2 ^ 16 - 1 - block.length) ++
        (ofBytes block ++ s)))) =
      if final = 1 then some (out ++ block, s) else inflate fuel (out ++ block) s := by
  have hheader : bits 8 final = bits 1 final ++ (bits 2 0 ++ List.replicate 5 false) := by
    rw [show (8 : Nat) = 1 + 7 from rfl, bits_add, show (7 : Nat) = 2 + 5 from rfl,
      show final / 2 ^ 1 = 0 by omega, bits_add, Nat.zero_div, bits_zero 5]
  have haligned : align (List.replicate 5 false ++ (bits 16 block.length ++ (bits 16 (2 ^ 16 - 1 - block.length) ++
      (ofBytes block ++ s)))) =
      bits 16 block.length ++ (bits 16 (2 ^ 16 - 1 - block.length) ++ (ofBytes block ++ s)) := by
    refine align_append (by simp) ?_
    simp only [List.length_append, length_bits, length_ofBytes]
    omega
  have hstored : inflateStored out (List.replicate 5 false ++ (bits 16 block.length ++
      (bits 16 (2 ^ 16 - 1 - block.length) ++ (ofBytes block ++ s)))) = some (out ++ block, s) := by
    rw [inflateStored, haligned, readBits_append hlength]
    simp only [Option.bind_eq_bind, Option.bind_some]
    rw [readBits_append (by omega)]
    have hsum : block.length + (2 ^ 16 - 1 - block.length) = 2 ^ 16 - 1 := by omega
    simp only [Option.bind_some, if_pos hsum, readBytes_append]
  rw [inflate, hheader, List.append_assoc, List.append_assoc, readBits_append (by omega)]
  simp only [Option.bind_eq_bind, Option.bind_some]
  rw [readBits_append (by decide)]
  simp only [Option.bind_some, hstored]

theorem decompress_eq {cmf flg : UInt8} (body padding : List Bool) {trailer bytes data : List UInt8}
    (hheader : cmf.toNat % 16 = 8 ∧ cmf.toNat / 16 ≤ 7 ∧ (cmf.toNat * 256 + flg.toNat) % 31 = 0 ∧
      flg.toNat / 32 % 2 = 0)
    (hbytes : ofBytes bytes = ofBytes [cmf, flg] ++ (body ++ (padding ++ ofBytes trailer)))
    (hbody : ∀ fuel, body.length ≤ fuel →
      inflate fuel [] (body ++ (padding ++ ofBytes trailer)) = some (data, padding ++ ofBytes trailer))
    (hpadding : padding.length < 8) (htrailer : trailer.length = 4) (hchecksum : bigEndian trailer = adler32 data) :
    decompress bytes = some data := by
  have hinflate := hbody (body ++ (padding ++ ofBytes trailer)).length (by rw [List.length_append]; omega)
  have haligned : align (padding ++ ofBytes trailer) = ofBytes trailer :=
    align_append hpadding (by rw [length_ofBytes]; exact Nat.dvd_mul_right 8 _)
  have htake : readBytes 4 (ofBytes trailer) = some (trailer, []) := by
    rw [← htrailer, ← List.append_nil (ofBytes trailer), readBytes_append]
  rw [decompress, hbytes, ofBytes_cons, ofBytes_cons, ofBytes_nil, List.append_nil, List.append_assoc,
    readBits_append cmf.toNat_lt]
  simp only [Option.bind_eq_bind, Option.bind_some]
  rw [readBits_append flg.toNat_lt]
  simp only [Option.bind_some, if_pos hheader, hinflate, haligned, htake, hchecksum, true_and, if_true]

/-! ### Back references -/

/-- A reference to bytes that are equal to those that follow extends a prefix of the data. -/
theorem copy_take {data : List UInt8} {distance i n : Nat} (hpos : 0 < distance) (hdistance : distance ≤ i)
    (hn : i + n ≤ data.length) (h : ∀ k < n, data[i - distance + k]? = data[i + k]?) :
    copy distance n (data.take i) = some (data.take (i + n)) := by
  induction n generalizing i with
  | zero => rfl
  | succ n ih =>
    have hi : i < data.length := by omega
    have hlength : (data.take i).length = i := by rw [List.length_take]; omega
    have hfirst := h 0 (Nat.succ_pos n)
    rw [Nat.add_zero, Nat.add_zero, List.getElem?_eq_getElem hi] at hfirst
    have hget : (data.take i)[i - distance]? = some data[i] := by
      rw [List.getElem?_take_of_lt (by omega), hfirst]
    have hrest := ih (i := i + 1) (by omega) (by omega) fun k hk => by
      have hk' := h (k + 1) (by omega)
      rw [show i + 1 - distance + k = i - distance + (k + 1) by omega,
        show i + 1 + k = i + (k + 1) by omega, hk']
    have hconcat : data.take i ++ [data[i]] = data.take (i + 1) := List.take_append_getElem hi
    rw [copy, hlength, if_pos hdistance, hget, Option.bind_eq_bind, Option.bind_some]
    simp only [hconcat, hrest]
    congr 2
    omega

end SweetHome.Deflate
