import SweetHome.Lib.Deflate

/-!
# Pictures in files

A decoder of the PNG format for pictures of one byte a channel: the signature, chunks with their checksums, the
compressed rows and the five filters. `defilter_filter` is the round trip of a filter, `defilterRows_filterRows` of
all rows with any filter for each, and `decode_eq` what a writer has to put out.
-/

namespace SweetHome.Png
open Deflate

/-! ### Checksums -/

/-- One bit of the division by the polynomial, from the least significant one. -/
def crcStep (c : BitVec 32) : BitVec 32 := if c.getLsbD 0 then c >>> 1 ^^^ 0xedb88320#32 else c >>> 1

def crcSteps : Nat → BitVec 32 → BitVec 32
  | 0, c => c
  | n + 1, c => crcSteps n (crcStep c)

def crcByte (c : BitVec 32) (b : UInt8) : BitVec 32 := crcSteps 8 (c ^^^ b.toBitVec.setWidth 32)

def crc32 (bytes : List UInt8) : BitVec 32 := ~~~ bytes.foldl crcByte (~~~ 0#32)

theorem crcStep_xor (c d : BitVec 32) : crcStep (c ^^^ d) = crcStep c ^^^ crcStep d := by
  unfold crcStep
  rw [BitVec.getLsbD_xor, BitVec.ushiftRight_xor_distrib]
  cases c.getLsbD 0 <;> cases d.getLsbD 0 <;> simp only [Bool.xor_false, Bool.false_xor, Bool.xor_self,
    Bool.false_eq_true, if_true, if_false]
  · exact BitVec.xor_assoc ..
  · rw [BitVec.xor_assoc, BitVec.xor_assoc, BitVec.xor_comm (d >>> 1)]
  · rw [BitVec.xor_assoc, BitVec.xor_comm (0xedb88320#32), BitVec.xor_assoc, BitVec.xor_self, BitVec.xor_zero]

theorem crcSteps_xor (n : Nat) (c d : BitVec 32) : crcSteps n (c ^^^ d) = crcSteps n c ^^^ crcSteps n d := by
  induction n generalizing c d with
  | zero => rfl
  | succ n ih => rw [crcSteps, crcSteps, crcSteps, crcStep_xor, ih]

/-- Bits that are shifted out as zeros do not reach the polynomial. -/
theorem crcSteps_of_low {n : Nat} {c : BitVec 32} (h : ∀ i < n, c.getLsbD i = false) : crcSteps n c = c >>> n := by
  induction n generalizing c with
  | zero => exact (BitVec.ushiftRight_zero c).symm
  | succ n ih =>
    have hlow : c.getLsbD 0 = false := h 0 (Nat.succ_pos n)
    have hstep : crcStep c = c >>> 1 := by
      unfold crcStep
      rw [hlow]
      rfl
    rw [crcSteps, hstep, ih, ← BitVec.shiftRight_add, Nat.add_comm]
    intro i hi
    rw [BitVec.getLsbD_ushiftRight, Nat.add_comm]
    exact h (i + 1) (by omega)

/-! ### Filters -/

def paeth (a b c : UInt8) : UInt8 :=
  let p : Int := a.toNat + b.toNat - c.toNat
  let pa := |p - a.toNat|
  let pb := |p - b.toNat|
  let pc := |p - c.toNat|
  if pa ≤ pb ∧ pa ≤ pc then a else if pb ≤ pc then b else c

/-- What a filter predicts from the byte to the left, the one above and the one above that to the left. -/
def predict (type : Nat) (a b c : UInt8) : Option UInt8 :=
  match type with
  | 0 => some 0
  | 1 => some a
  | 2 => some b
  | 3 => some (UInt8.ofNat ((a.toNat + b.toNat) / 2))
  | 4 => some (paeth a b c)
  | _ => none

/-- The byte of the pixel to the left, of `bpp` bytes each. -/
def left (bpp : Nat) (row : List UInt8) (x : Nat) : UInt8 := if x < bpp then 0 else row.getD (x - bpp) 0

/-- The next byte of a row, from those before it. -/
def defilterByte (type bpp : Nat) (prior row : List UInt8) (f : UInt8) : Option (List UInt8) :=
  (predict type (left bpp row row.length) (prior.getD row.length 0) (left bpp prior row.length)).map
    fun predicted => row ++ [f + predicted]

def defilter (type bpp : Nat) (prior line : List UInt8) : Option (List UInt8) :=
  line.foldlM (defilterByte type bpp prior) []

def filterByte (type bpp : Nat) (prior row : List UInt8) (x : Nat) : UInt8 :=
  row.getD x 0 - (predict type (left bpp row x) (prior.getD x 0) (left bpp prior x)).getD 0

def filter (type bpp : Nat) (prior row : List UInt8) : List UInt8 :=
  (List.range row.length).map (filterByte type bpp prior row)

theorem predict_isSome {type : Nat} (h : type < 5) (a b c : UInt8) : ∃ p, predict type a b c = some p := by
  match type, h with
  | 0, _ | 1, _ | 2, _ | 3, _ | 4, _ => exact ⟨_, rfl⟩

theorem left_take {bpp : Nat} (hbpp : 0 < bpp) (row : List UInt8) (x : Nat) :
    left bpp (row.take x) x = left bpp row x := by
  unfold left
  split
  · rfl
  · rw [List.getD_eq_getElem?_getD, List.getD_eq_getElem?_getD, List.getElem?_take_of_lt (by omega)]

theorem defilter_filter {type bpp : Nat} (htype : type < 5) (hbpp : 0 < bpp) (prior row : List UInt8) :
    defilter type bpp prior (filter type bpp prior row) = some row := by
  suffices h : ∀ n ≤ row.length, ((List.range n).map (filterByte type bpp prior row)).foldlM
      (defilterByte type bpp prior) [] = some (row.take n) by
    have hall := h row.length (Nat.le_refl _)
    rwa [List.take_length] at hall
  intro n hn
  induction n with
  | zero => rfl
  | succ n ih =>
    rw [List.range_succ, List.map_append, List.foldlM_append, ih (by omega)]
    have hlength : (row.take n).length = n := List.length_take_of_le (by omega)
    obtain ⟨p, hp⟩ := predict_isSome htype (left bpp row n) (prior.getD n 0) (left bpp prior n)
    have hbyte : filterByte type bpp prior row n + p = row.getD n 0 := by
      rw [filterByte, hp, Option.getD_some, UInt8.sub_add_cancel]
    have hnext : row.take n ++ [row.getD n 0] = row.take (n + 1) := by
      rw [List.getD_eq_getElem _ _ (by omega), List.take_append_getElem (by omega)]
    simp only [Option.bind_eq_bind, Option.bind_some, List.map_cons, List.map_nil, List.foldlM_cons,
      List.foldlM_nil, defilterByte, hlength, left_take hbpp, hp, Option.map_some,
      hbyte, hnext]
    rfl

/-! ### Rows -/

def takeBytes (n : Nat) (s : List UInt8) : Option (List UInt8 × List UInt8) :=
  if n ≤ s.length then some (s.take n, s.drop n) else none

/-- The rows of a picture, each of `n` bytes behind the byte of its filter. -/
def defilterRows (bpp n : Nat) : Nat → List UInt8 → List UInt8 → Option (List (List UInt8))
  | 0, _, s => if s = [] then some [] else none
  | height + 1, prior, s => do
    let (type, s) ← takeBytes 1 s
    let (line, s) ← takeBytes n s
    let row ← defilter (type.headD 0).toNat bpp prior line
    let rows ← defilterRows bpp n height row s
    some (row :: rows)

/-- Rows behind the bytes of their filters. -/
def filterRows (bpp : Nat) : List UInt8 → List (Nat × List UInt8) → List UInt8
  | _, [] => []
  | prior, (type, row) :: rows => UInt8.ofNat type :: filter type bpp prior row ++ filterRows bpp row rows

variable {s : List UInt8}

theorem takeBytes_append (bytes : List UInt8) : takeBytes bytes.length (bytes ++ s) = some (bytes, s) := by
  rw [takeBytes, if_pos (by rw [List.length_append]; omega), List.take_left, List.drop_left]

theorem length_filter (type bpp : Nat) (prior row : List UInt8) : (filter type bpp prior row).length = row.length := by
  rw [filter, List.length_map, List.length_range]

theorem defilterRows_filterRows {bpp n : Nat} (hbpp : 0 < bpp) (prior : List UInt8) {rows : List (Nat × List UInt8)}
    (htypes : ∀ row ∈ rows, row.1 < 5) (hlengths : ∀ row ∈ rows, row.2.length = n) :
    defilterRows bpp n rows.length prior (filterRows bpp prior rows) = some (rows.map (·.2)) := by
  induction rows generalizing prior with
  | nil => rfl
  | cons row rows ih =>
    obtain ⟨type, row⟩ := row
    have htype : type < 5 := htypes _ (List.mem_cons_self ..)
    have hlength : (filter type bpp prior row).length = n :=
      (length_filter ..).trans (hlengths _ (List.mem_cons_self ..))
    have hline := takeBytes_append (s := filterRows bpp row rows) (filter type bpp prior row)
    rw [hlength] at hline
    have hfirst : takeBytes 1 (filterRows bpp prior ((type, row) :: rows)) =
        some ([UInt8.ofNat type], filter type bpp prior row ++ filterRows bpp row rows) :=
      takeBytes_append [UInt8.ofNat type]
    have hbyte : (UInt8.ofNat type).toNat = type := UInt8.toNat_ofNat_of_lt' (htype.trans (by decide))
    rw [List.length_cons, defilterRows, hfirst]
    simp only [Option.bind_eq_bind, Option.bind_some, hline, List.headD_cons, hbyte, defilter_filter htype hbpp,
      ih row (fun r hr => htypes r (List.mem_cons_of_mem _ hr)) (fun r hr => hlengths r (List.mem_cons_of_mem _ hr)),
      List.map_cons]

theorem filterRows_concat (bpp : Nat) (prior : List UInt8) (rows : List (Nat × List UInt8)) (type : Nat)
    (row : List UInt8) : filterRows bpp prior (rows ++ [(type, row)]) = filterRows bpp prior rows ++
      UInt8.ofNat type :: filter type bpp ((rows.map (·.2)).getLast?.getD prior) row := by
  induction rows generalizing prior with
  | nil => simp [filterRows]
  | cons first rows ih =>
    obtain ⟨type', row'⟩ := first
    rw [List.cons_append, filterRows, ih, filterRows, List.map_cons, List.getLast?_cons, Option.getD_some,
      List.append_assoc]

/-! ### Files -/

structure Image where
  width : Nat
  height : Nat
  colourType : Nat
  /-- From the top, with the bytes of the pixels from the left. -/
  rows : List (List UInt8)
deriving DecidableEq

def signature : List UInt8 := [137, 80, 78, 71, 13, 10, 26, 10]

def IHDR : List UInt8 := [73, 72, 68, 82]

def IDAT : List UInt8 := [73, 68, 65, 84]

def IEND : List UInt8 := [73, 69, 78, 68]

/-- A number of four bytes, the most significant one first. -/
def fourBytes (n : Nat) : List UInt8 :=
  [UInt8.ofNat (n / 2 ^ 24), UInt8.ofNat (n / 2 ^ 16), UInt8.ofNat (n / 2 ^ 8), UInt8.ofNat n]

def chunk (type data : List UInt8) : List UInt8 :=
  fourBytes data.length ++ type ++ data ++ fourBytes (crc32 (type ++ data)).toNat

def readChunk (s : List UInt8) : Option ((List UInt8 × List UInt8) × List UInt8) := do
  let (length, s) ← takeBytes 4 s
  let (type, s) ← takeBytes 4 s
  let (data, s) ← takeBytes (bigEndian length) s
  let (crc, s) ← takeBytes 4 s
  if bigEndian crc = (crc32 (type ++ data)).toNat then some ((type, data), s) else none

/-- The data of the chunks up to the end. -/
def readData : Nat → List UInt8 → Option (List UInt8)
  | 0, _ => none
  | fuel + 1, s => do
    let ((type, data), s) ← readChunk s
    if type = IEND then if s = [] then some [] else none
    else
      let rest ← readData fuel s
      some (if type = IDAT then data ++ rest else rest)

/-- The channels of a colour type, without palettes. -/
def channels : Nat → Option Nat
  | 0 => some 1
  | 2 => some 3
  | 4 => some 2
  | 6 => some 4
  | _ => none

def decode (file : List UInt8) : Option Image := do
  let (start, s) ← takeBytes 8 file
  let ((type, header), s) ← readChunk s
  if start = signature ∧ type = IHDR ∧ header.length = 13 ∧ header.getD 8 0 = 8 ∧
      header.drop 10 = [0, 0, 0] then
    let width := bigEndian (header.take 4)
    let height := bigEndian ((header.drop 4).take 4)
    let colourType := (header.getD 9 0).toNat
    let bpp ← channels colourType
    let compressed ← readData s.length s
    let filtered ← decompress compressed
    let rows ← defilterRows bpp (width * bpp) height (List.replicate (width * bpp) 0) filtered
    some ⟨width, height, colourType, rows⟩
  else none

theorem length_fourBytes (n : Nat) : (fourBytes n).length = 4 := rfl

theorem length_chunk (type data : List UInt8) : (chunk type data).length = type.length + data.length + 8 := by
  simp only [chunk, List.length_append, length_fourBytes]
  omega

theorem bigEndian_fourBytes {n : Nat} (h : n < 2 ^ 32) : bigEndian (fourBytes n) = n := by
  simp only [bigEndian, fourBytes, List.foldl_cons, List.foldl_nil, UInt8.toNat_ofNat']
  omega

theorem readChunk_chunk {type data : List UInt8} (htype : type.length = 4) (hdata : data.length < 2 ^ 32) :
    readChunk (chunk type data ++ s) = some ((type, data), s) := by
  have htake₁ := takeBytes_append (s := type ++ (data ++ (fourBytes (crc32 (type ++ data)).toNat ++ s)))
    (fourBytes data.length)
  have htake₂ := takeBytes_append (s := data ++ (fourBytes (crc32 (type ++ data)).toNat ++ s)) type
  have htake₃ := takeBytes_append (s := fourBytes (crc32 (type ++ data)).toNat ++ s) data
  have htake₄ := takeBytes_append (s := s) (fourBytes (crc32 (type ++ data)).toNat)
  rw [length_fourBytes] at htake₁ htake₄
  rw [htype] at htake₂
  rw [readChunk, chunk]
  simp only [List.append_assoc, Option.bind_eq_bind, Option.bind_some, htake₁, htake₂, htake₃, htake₄,
    bigEndian_fourBytes hdata, bigEndian_fourBytes (BitVec.isLt _), if_true]

theorem readData_end (fuel : Nat) : readData (fuel + 1) (chunk IEND []) = some [] := by
  have hchunk : readChunk (chunk IEND [] ++ []) = some ((IEND, []), []) := readChunk_chunk rfl (by decide)
  rw [List.append_nil] at hchunk
  rw [readData, hchunk]
  rfl

/-- The fields of a header of one byte a channel. -/
def header (width height colourType : Nat) : List UInt8 :=
  fourBytes width ++ fourBytes height ++ [8, UInt8.ofNat colourType, 0, 0, 0]

theorem decode_eq {width height colourType bpp : Nat} {compressed filtered : List UInt8} {rows : List (List UInt8)}
    (hwidth : width < 2 ^ 32) (hheight : height < 2 ^ 32) (hcolour : colourType < 2 ^ 8)
    (hbpp : channels colourType = some bpp) (hlength : compressed.length < 2 ^ 32)
    (hdecompress : decompress compressed = some filtered)
    (hrows : defilterRows bpp (width * bpp) height (List.replicate (width * bpp) 0) filtered = some rows) :
    decode (signature ++ chunk IHDR (header width height colourType) ++ chunk IDAT compressed ++ chunk IEND []) =
      some ⟨width, height, colourType, rows⟩ := by
  have hstart := takeBytes_append (s := chunk IHDR (header width height colourType) ++ (chunk IDAT compressed ++
    chunk IEND [])) signature
  have hheader : readChunk (chunk IHDR (header width height colourType) ++ (chunk IDAT compressed ++ chunk IEND [])) =
      some ((IHDR, header width height colourType), chunk IDAT compressed ++ chunk IEND []) :=
    readChunk_chunk rfl (show 13 < 2 ^ 32 by decide)
  have hdata : readData (chunk IDAT compressed ++ chunk IEND []).length (chunk IDAT compressed ++ chunk IEND []) =
      some compressed := by
    obtain ⟨fuel, hfuel⟩ : ∃ fuel, (chunk IDAT compressed ++ chunk IEND []).length = fuel + 1 + 1 := by
      refine ⟨(chunk IDAT compressed ++ chunk IEND []).length - 2, ?_⟩
      simp only [chunk, List.length_append, length_fourBytes]
      omega
    rw [hfuel, readData, readChunk_chunk rfl hlength]
    simp only [Option.bind_eq_bind, Option.bind_some, readData_end, List.append_nil, if_true]
    rfl
  have hfields : (header width height colourType).length = 13 ∧ (header width height colourType).getD 8 0 = 8 ∧
      (header width height colourType).drop 10 = [0, 0, 0] := ⟨rfl, rfl, rfl⟩
  have hwidth' : bigEndian ((header width height colourType).take 4) = width := bigEndian_fourBytes hwidth
  have hheight' : bigEndian (((header width height colourType).drop 4).take 4) = height := bigEndian_fourBytes hheight
  have hcolour' : ((header width height colourType).getD 9 0).toNat = colourType :=
    UInt8.toNat_ofNat_of_lt' hcolour
  rw [List.append_assoc, List.append_assoc, decode]
  change (takeBytes signature.length _).bind _ = _
  rw [hstart, Option.bind_some]
  simp only [hheader, Option.bind_eq_bind, Option.bind_some, hfields, hwidth', hheight', hcolour', hbpp, hdata,
    hdecompress, hrows, and_self, if_true]

end SweetHome.Png
