import SweetHome.Lib.Png
import SweetHome.Screenshot
import SweetHome.ZlibCompress

/-!
# The pictures of the screenshots

`stbi_write_png_to_mem` of the image writer and its use for a screenshot. Each row is filtered with the filter whose
bytes are the smallest; the first row has nothing above it, which is what `firstmap` is for. A decoder of the format
gets the rows back whatever filters have been chosen (`decode_stbiWritePngToMem`), so that what Java is handed is the
screen, upright (`decode_screenshotPng`).
-/

namespace SweetHome.PngWriter
open Deflate Screenshot ZlibCompress

/-! ### Checksums -/

def crcTable : List Nat :=
  [0x00000000, 0x77073096, 0xee0e612c, 0x990951ba, 0x076dc419, 0x706af48f, 0xe963a535, 0x9e6495a3,
   0x0edb8832, 0x79dcb8a4, 0xe0d5e91e, 0x97d2d988, 0x09b64c2b, 0x7eb17cbd, 0xe7b82d07, 0x90bf1d91,
   0x1db71064, 0x6ab020f2, 0xf3b97148, 0x84be41de, 0x1adad47d, 0x6ddde4eb, 0xf4d4b551, 0x83d385c7,
   0x136c9856, 0x646ba8c0, 0xfd62f97a, 0x8a65c9ec, 0x14015c4f, 0x63066cd9, 0xfa0f3d63, 0x8d080df5,
   0x3b6e20c8, 0x4c69105e, 0xd56041e4, 0xa2677172, 0x3c03e4d1, 0x4b04d447, 0xd20d85fd, 0xa50ab56b,
   0x35b5a8fa, 0x42b2986c, 0xdbbbc9d6, 0xacbcf940, 0x32d86ce3, 0x45df5c75, 0xdcd60dcf, 0xabd13d59,
   0x26d930ac, 0x51de003a, 0xc8d75180, 0xbfd06116, 0x21b4f4b5, 0x56b3c423, 0xcfba9599, 0xb8bda50f,
   0x2802b89e, 0x5f058808, 0xc60cd9b2, 0xb10be924, 0x2f6f7c87, 0x58684c11, 0xc1611dab, 0xb6662d3d,
   0x76dc4190, 0x01db7106, 0x98d220bc, 0xefd5102a, 0x71b18589, 0x06b6b51f, 0x9fbfe4a5, 0xe8b8d433,
   0x7807c9a2, 0x0f00f934, 0x9609a88e, 0xe10e9818, 0x7f6a0dbb, 0x086d3d2d, 0x91646c97, 0xe6635c01,
   0x6b6b51f4, 0x1c6c6162, 0x856530d8, 0xf262004e, 0x6c0695ed, 0x1b01a57b, 0x8208f4c1, 0xf50fc457,
   0x65b0d9c6, 0x12b7e950, 0x8bbeb8ea, 0xfcb9887c, 0x62dd1ddf, 0x15da2d49, 0x8cd37cf3, 0xfbd44c65,
   0x4db26158, 0x3ab551ce, 0xa3bc0074, 0xd4bb30e2, 0x4adfa541, 0x3dd895d7, 0xa4d1c46d, 0xd3d6f4fb,
   0x4369e96a, 0x346ed9fc, 0xad678846, 0xda60b8d0, 0x44042d73, 0x33031de5, 0xaa0a4c5f, 0xdd0d7cc9,
   0x5005713c, 0x270241aa, 0xbe0b1010, 0xc90c2086, 0x5768b525, 0x206f85b3, 0xb966d409, 0xce61e49f,
   0x5edef90e, 0x29d9c998, 0xb0d09822, 0xc7d7a8b4, 0x59b33d17, 0x2eb40d81, 0xb7bd5c3b, 0xc0ba6cad,
   0xedb88320, 0x9abfb3b6, 0x03b6e20c, 0x74b1d29a, 0xead54739, 0x9dd277af, 0x04db2615, 0x73dc1683,
   0xe3630b12, 0x94643b84, 0x0d6d6a3e, 0x7a6a5aa8, 0xe40ecf0b, 0x9309ff9d, 0x0a00ae27, 0x7d079eb1,
   0xf00f9344, 0x8708a3d2, 0x1e01f268, 0x6906c2fe, 0xf762575d, 0x806567cb, 0x196c3671, 0x6e6b06e7,
   0xfed41b76, 0x89d32be0, 0x10da7a5a, 0x67dd4acc, 0xf9b9df6f, 0x8ebeeff9, 0x17b7be43, 0x60b08ed5,
   0xd6d6a3e8, 0xa1d1937e, 0x38d8c2c4, 0x4fdff252, 0xd1bb67f1, 0xa6bc5767, 0x3fb506dd, 0x48b2364b,
   0xd80d2bda, 0xaf0a1b4c, 0x36034af6, 0x41047a60, 0xdf60efc3, 0xa867df55, 0x316e8eef, 0x4669be79,
   0xcb61b38c, 0xbc66831a, 0x256fd2a0, 0x5268e236, 0xcc0c7795, 0xbb0b4703, 0x220216b9, 0x5505262f,
   0xc5ba3bbe, 0xb2bd0b28, 0x2bb45a92, 0x5cb36a04, 0xc2d7ffa7, 0xb5d0cf31, 0x2cd99e8b, 0x5bdeae1d,
   0x9b64c2b0, 0xec63f226, 0x756aa39c, 0x026d930a, 0x9c0906a9, 0xeb0e363f, 0x72076785, 0x05005713,
   0x95bf4a82, 0xe2b87a14, 0x7bb12bae, 0x0cb61b38, 0x92d28e9b, 0xe5d5be0d, 0x7cdcefb7, 0x0bdbdf21,
   0x86d3d2d4, 0xf1d4e242, 0x68ddb3f8, 0x1fda836e, 0x81be16cd, 0xf6b9265b, 0x6fb077e1, 0x18b74777,
   0x88085ae6, 0xff0f6a70, 0x66063bca, 0x11010b5c, 0x8f659eff, 0xf862ae69, 0x616bffd3, 0x166ccf45,
   0xa00ae278, 0xd70dd2ee, 0x4e048354, 0x3903b3c2, 0xa7672661, 0xd06016f7, 0x4969474d, 0x3e6e77db,
   0xaed16a4a, 0xd9d65adc, 0x40df0b66, 0x37d83bf0, 0xa9bcae53, 0xdebb9ec5, 0x47b2cf7f, 0x30b5ffe9,
   0xbdbdf21c, 0xcabac28a, 0x53b39330, 0x24b4a3a6, 0xbad03605, 0xcdd70693, 0x54de5729, 0x23d967bf,
   0xb3667a2e, 0xc4614ab8, 0x5d681b02, 0x2a6f2b94, 0xb40bbe37, 0xc30c8ea1, 0x5a05df1b, 0x2d02ef8d]

def crc32 (buffer : List UInt8) : BitVec 32 :=
  ~~~ buffer.foldl (fun crc b =>
    crc >>> 8 ^^^ BitVec.ofNat 32 (crcTable.getD (b.toBitVec.setWidth 32 ^^^ (crc &&& 0xff#32)).toNat 0)) (~~~ 0#32)

theorem crcTable_eq : ∀ n < 256, BitVec.ofNat 32 (crcTable.getD n 0) = Png.crcSteps 8 (BitVec.ofNat 32 n) := by
  decide +kernel

/-- A byte at a time by the table is a bit at a time by the polynomial. -/
theorem crcTable_byte (crc : BitVec 32) (b : UInt8) :
    crc >>> 8 ^^^ BitVec.ofNat 32 (crcTable.getD (b.toBitVec.setWidth 32 ^^^ (crc &&& 0xff#32)).toNat 0) =
      Png.crcByte crc b := by
  have hmask (i : Nat) : (0xff#32).getLsbD i = decide (i < 8) := by
    by_cases hi : i < 32
    · have hall : ∀ i < 32, (0xff#32).getLsbD i = decide (i < 8) := by decide
      exact hall i hi
    · rw [BitVec.getLsbD_of_ge _ _ (Nat.not_lt.1 hi)]
      simp only [Bool.false_eq, decide_eq_false_iff_not]
      omega
  have hindex : (b.toBitVec.setWidth 32 ^^^ (crc &&& 0xff#32)).toNat < 256 := by
    rw [BitVec.toNat_xor, BitVec.toNat_and, BitVec.toNat_setWidth]
    refine Nat.xor_lt_two_pow (n := 8) ((Nat.mod_le _ _).trans_lt b.toBitVec.isLt) ?_
    exact Nat.lt_of_le_of_lt Nat.and_le_right (by decide)
  have hhigh : Png.crcSteps 8 (crc &&& ~~~ 0xff#32) = crc >>> 8 := by
    rw [Png.crcSteps_of_low]
    · ext i hi
      simp only [BitVec.getElem_ushiftRight, BitVec.getLsbD_and, BitVec.getLsbD_not, hmask]
      by_cases h : 8 + i < 32
      · simp [h]
      · simp [h, BitVec.getLsbD_of_ge crc _ (Nat.not_lt.1 h)]
    · intro i hi
      simp only [BitVec.getLsbD_and, BitVec.getLsbD_not, hmask, hi, decide_true, Bool.not_true, Bool.and_false]
  have hsplit : crc ^^^ b.toBitVec.setWidth 32 =
      b.toBitVec.setWidth 32 ^^^ (crc &&& 0xff#32) ^^^ (crc &&& ~~~ 0xff#32) := by
    ext i hi
    simp only [BitVec.getElem_xor, BitVec.getElem_and, BitVec.getElem_not]
    cases crc[i] <;> cases (b.toBitVec.setWidth 32)[i] <;> cases (0xff#32)[i] <;> rfl
  rw [crcTable_eq _ hindex, BitVec.ofNat_toNat, BitVec.setWidth_eq, Png.crcByte, hsplit,
    Png.crcSteps_xor 8 (b.toBitVec.setWidth 32 ^^^ (crc &&& 0xff#32)), hhigh, BitVec.xor_comm]

theorem crc32_eq (buffer : List UInt8) : crc32 buffer = Png.crc32 buffer := by
  simp only [crc32, Png.crc32, crcTable_byte]

/-! ### Rows -/

def paeth (a b c : Int) : UInt8 :=
  let p := a + b - c
  let pa := |p - a|
  let pb := |p - b|
  let pc := |p - c|
  if pa ≤ pb ∧ pa ≤ pc then UInt8.ofInt a else if pb ≤ pc then UInt8.ofInt b else UInt8.ofInt c

def mapping : List Nat := [0, 1, 2, 3, 4]

/-- The filters of a row with nothing above it. -/
def firstmap : List Nat := [0, 1, 0, 5, 6]

/-- A byte of the first pixel. -/
def firstByte (type : Nat) (z above : UInt8) : UInt8 :=
  match type with
  | 1 => z
  | 2 => z - above
  | 3 => z - above >>> 1
  | 4 => z - paeth 0 above.toNat 0
  | _ => z

/-- A byte of the other pixels. -/
def nextByte (type : Nat) (z left above aboveLeft : UInt8) : UInt8 :=
  match type with
  | 1 => z - left
  | 2 => z - above
  | 3 => z - UInt8.ofNat ((left.toNat + above.toNat) >>> 1)
  | 4 => z - paeth left.toNat above.toNat aboveLeft.toNat
  | 5 => z - left >>> 1
  | _ => z - paeth left.toNat 0 0

/-- Where a row starts. -/
def rowStart (flip : Bool) (stride height y : Nat) : Nat := stride * (if flip then height - 1 - y else y)

/-- `signed_stride` is negative when the rows are flipped. -/
def encodePngLine (flip : Bool) (pixels : Memory) (stride width height y n filterType : Nat) : List UInt8 :=
  let type := (if y ≠ 0 then mapping else firstmap).getD filterType 0
  let z := rowStart flip stride height y
  let above (i : Nat) := pixels (if flip then z + i + stride else z + i - stride)
  if type = 0 then (List.range (width * n)).map fun i => pixels (z + i)
  else
    (List.range n).map (fun i => firstByte type (pixels (z + i)) (above i)) ++
      (List.range' n (width * n - n)).map fun i =>
        nextByte type (pixels (z + i)) (pixels (z + i - n)) (above i) (above (i - n))

/-- The bytes of a row, and those of the row before it. -/
def pixelRow (flip : Bool) (pixels : Memory) (stride width height n y : Nat) : List UInt8 :=
  (List.range (width * n)).map fun i => pixels (rowStart flip stride height y + i)

def priorRow (flip : Bool) (pixels : Memory) (stride width height n : Nat) : Nat → List UInt8
  | 0 => List.replicate (width * n) 0
  | y + 1 => pixelRow flip pixels stride width height n y

theorem paeth_eq (a b c : UInt8) : paeth a.toNat b.toNat c.toNat = Png.paeth a b c := by
  have hbyte (a : UInt8) : UInt8.ofInt a.toNat = a := by
    have hmod : ((a.toNat : Int) % 2 ^ 8).toNat = a.toNat := by
      have := a.toNat_lt
      omega
    rw [UInt8.ofInt, hmod, UInt8.ofNat_toNat]
  simp only [paeth, Png.paeth, hbyte]

theorem half_eq (a : UInt8) : a >>> 1 = UInt8.ofNat (a.toNat / 2) := by
  rw [← UInt8.toNat_inj, UInt8.toNat_shiftRight, UInt8.toNat_ofNat', Nat.shiftRight_eq_div_pow]
  have := a.toNat_lt
  change a.toNat / 2 = _
  omega

variable {type : Nat}

theorem firstByte_mapping (htype : type < 5) (z above : UInt8) :
    firstByte (mapping.getD type 0) z above = z - (Png.predict type 0 above 0).getD 0 := by
  have hpaeth := paeth_eq 0 above 0
  match type, htype with
  | 0, _ => exact (UInt8.sub_zero z).symm
  | 1, _ => exact (UInt8.sub_zero z).symm
  | 2, _ => rfl
  | 3, _ =>
    change z - above >>> 1 = z - UInt8.ofNat ((0 + above.toNat) / 2)
    rw [half_eq, Nat.zero_add]
  | 4, _ => exact congrArg (z - ·) hpaeth

theorem firstByte_firstmap (htype : type < 5) (z above : UInt8) :
    firstByte (firstmap.getD type 0) z above = z - (Png.predict type 0 0 0).getD 0 := by
  match type, htype with
  | 0, _ | 1, _ | 2, _ | 3, _ | 4, _ => exact (UInt8.sub_zero z).symm

theorem nextByte_mapping (htype : type < 5) (hne : mapping.getD type 0 ≠ 0) (z left above aboveLeft : UInt8) :
    nextByte (mapping.getD type 0) z left above aboveLeft = z - (Png.predict type left above aboveLeft).getD 0 := by
  match type, htype with
  | 0, _ => exact absurd rfl hne
  | 1, _ | 2, _ => rfl
  | 3, _ => exact congrArg (fun n => z - UInt8.ofNat n) (Nat.shiftRight_one _)
  | 4, _ => exact congrArg (z - ·) (paeth_eq left above aboveLeft)

/-- The filters that remain for the first row are those of a row of zeros above it. -/
theorem nextByte_firstmap (htype : type < 5) (hne : firstmap.getD type 0 ≠ 0) (z left above aboveLeft : UInt8) :
    nextByte (firstmap.getD type 0) z left above aboveLeft = z - (Png.predict type left 0 0).getD 0 := by
  match type, htype with
  | 0, _ | 2, _ => exact absurd rfl hne
  | 1, _ => rfl
  | 3, _ => exact congrArg (z - ·) (half_eq left)
  | 4, _ => exact congrArg (z - ·) (paeth_eq left 0 0)

theorem eq_of_mapping (htype : type < 5) (h : mapping.getD type 0 = 0) : type = 0 := by
  match type, htype with
  | 0, _ => rfl
  | 1, _ | 2, _ | 3, _ | 4, _ => cases h

theorem eq_of_firstmap (htype : type < 5) (h : firstmap.getD type 0 = 0) : type = 0 ∨ type = 2 := by
  match type, htype with
  | 0, _ => exact .inl rfl
  | 2, _ => exact .inr rfl
  | 1, _ | 3, _ | 4, _ => cases h

variable {flip : Bool} {pixels : Memory} {stride width height n y : Nat}

theorem length_pixelRow : (pixelRow flip pixels stride width height n y).length = width * n := by
  rw [pixelRow, List.length_map, List.length_range]

theorem pixelRow_getD {i : Nat} (hi : i < width * n) :
    (pixelRow flip pixels stride width height n y).getD i 0 = pixels (rowStart flip stride height y + i) := by
  rw [List.getD_eq_getElem _ _ (by rwa [length_pixelRow])]
  simp [pixelRow]

/-- The row above starts `signed_stride` before. -/
theorem above_eq (hy : y + 1 < height) (i : Nat) :
    (if flip then rowStart flip stride height (y + 1) + i + stride
      else rowStart flip stride height (y + 1) + i - stride) =
      rowStart flip stride height y + i := by
  cases flip
  · simp only [rowStart, Bool.false_eq_true, if_false, Nat.mul_succ]
    omega
  · obtain ⟨k, rfl⟩ := Nat.exists_eq_add_of_lt hy
    have h₁ : y + 1 + k + 1 - 1 - (y + 1) = k := by omega
    have h₂ : y + 1 + k + 1 - 1 - y = k + 1 := by omega
    simp only [rowStart, if_true, h₁, h₂, Nat.mul_succ]
    omega

theorem left_eq {i : Nat} (hi : i < width * n) :
    Png.left n (pixelRow flip pixels stride width height n y) i =
      if i < n then 0 else pixels (rowStart flip stride height y + i - n) := by
  unfold Png.left
  split
  · rfl
  · rename_i hge
    rw [pixelRow_getD (by omega), ← Nat.add_sub_assoc (by omega)]

/-- A line is that of the bytes of its first pixel and of those with a pixel to their left. -/
theorem map_first_append_rest {k : Nat} (hn : n ≤ k) {first rest whole : Nat → UInt8}
    (hfirst : ∀ i < n, first i = whole i) (hrest : ∀ i < k, n ≤ i → rest i = whole i) :
    (List.range n).map first ++ (List.range' n (k - n)).map rest = (List.range k).map whole := by
  have hrange : List.range k = List.range n ++ List.range' n (k - n) := by
    rw [List.range_eq_range', List.range_eq_range']
    conv_lhs => rw [← Nat.add_sub_cancel' hn, ← List.range'_append_1, Nat.zero_add]
  rw [hrange, List.map_append]
  congr 1
  · exact List.map_congr_left fun i hi => hfirst i (List.mem_range.1 hi)
  · refine List.map_congr_left fun i hi => ?_
    have hi := List.mem_range'_1.1 hi
    exact hrest i (by omega) hi.1

/-- The first line is filtered as if it were below a row of zeros. -/
theorem encodePngLine_zero (htype : type < 5) (hn : n ≤ width * n) :
    encodePngLine flip pixels stride width height 0 n type =
      Png.filter type n (priorRow flip pixels stride width height n 0)
        (pixelRow flip pixels stride width height n 0) := by
  have hzero (i : Nat) : (priorRow flip pixels stride width height n 0).getD i 0 = 0 := by
    rw [priorRow, List.getD_eq_getElem?_getD, List.getElem?_replicate]
    split <;> rfl
  have hprior (i : Nat) : Png.left n (priorRow flip pixels stride width height n 0) i = 0 := by
    unfold Png.left
    split
    · rfl
    · exact hzero _
  have hbyte {i : Nat} (hi : i < width * n) : Png.filterByte type n (priorRow flip pixels stride width height n 0)
      (pixelRow flip pixels stride width height n 0) i = pixels (rowStart flip stride height 0 + i) -
        (Png.predict type (if i < n then 0 else pixels (rowStart flip stride height 0 + i - n)) 0 0).getD 0 := by
    rw [Png.filterByte, pixelRow_getD hi, hzero, hprior, left_eq hi]
  unfold encodePngLine Png.filter
  rw [length_pixelRow]
  simp only [ne_eq, not_true_eq_false, if_false]
  split
  · rename_i hmap
    refine List.map_congr_left fun i hi => ?_
    rw [hbyte (List.mem_range.1 hi)]
    rcases eq_of_firstmap htype hmap with rfl | rfl
    · exact (UInt8.sub_zero _).symm
    · exact (UInt8.sub_zero _).symm
  · rename_i hmap
    refine map_first_append_rest hn (fun i hi => ?_) fun i hlt hi => ?_
    · rw [hbyte (hi.trans_le hn), if_pos hi, firstByte_firstmap htype]
    · rw [hbyte hlt, if_neg (Nat.not_lt.2 hi), nextByte_firstmap htype hmap]

theorem encodePngLine_succ (htype : type < 5) (hn : n ≤ width * n) (hy : y + 1 < height) :
    encodePngLine flip pixels stride width height (y + 1) n type =
      Png.filter type n (priorRow flip pixels stride width height n (y + 1))
        (pixelRow flip pixels stride width height n (y + 1)) := by
  have hprior {i : Nat} (hi : i < width * n) : Png.left n (priorRow flip pixels stride width height n (y + 1)) i =
      if i < n then 0 else pixels (rowStart flip stride height y + i - n) := left_eq hi
  have habove {i : Nat} (hi : i < width * n) : (priorRow flip pixels stride width height n (y + 1)).getD i 0 =
      pixels (rowStart flip stride height y + i) := pixelRow_getD hi
  have hbyte {i : Nat} (hi : i < width * n) : Png.filterByte type n
      (priorRow flip pixels stride width height n (y + 1)) (pixelRow flip pixels stride width height n (y + 1)) i =
        pixels (rowStart flip stride height (y + 1) + i) -
          (Png.predict type (if i < n then 0 else pixels (rowStart flip stride height (y + 1) + i - n))
            (pixels (rowStart flip stride height y + i))
            (if i < n then 0 else pixels (rowStart flip stride height y + i - n))).getD 0 := by
    rw [Png.filterByte, pixelRow_getD hi, habove hi, hprior hi, left_eq hi]
  unfold encodePngLine Png.filter
  rw [length_pixelRow]
  simp only [ne_eq, Nat.succ_ne_zero, not_false_eq_true, if_true, above_eq hy]
  split
  · rename_i hmap
    refine List.map_congr_left fun i hi => ?_
    obtain rfl := eq_of_mapping htype hmap
    rw [hbyte (List.mem_range.1 hi)]
    exact (UInt8.sub_zero _).symm
  · rename_i hmap
    refine map_first_append_rest hn (fun i hi => ?_) fun i hlt hi => ?_
    · rw [hbyte (hi.trans_le hn), if_pos hi, if_pos hi, firstByte_mapping htype]
    · rw [hbyte hlt, if_neg (Nat.not_lt.2 hi), if_neg (Nat.not_lt.2 hi), nextByte_mapping htype hmap,
        ← Nat.add_sub_assoc hi]

/-- A line is filtered as the format says. -/
theorem encodePngLine_eq (htype : type < 5) (hwidth : 0 < width) (hy : y < height) :
    encodePngLine flip pixels stride width height y n type =
      Png.filter type n (priorRow flip pixels stride width height n y)
        (pixelRow flip pixels stride width height n y) := by
  have hn : n ≤ width * n := Nat.le_mul_of_pos_left n hwidth
  cases y with
  | zero => exact encodePngLine_zero htype hn
  | succ y => exact encodePngLine_succ htype hn hy

/-! ### Choosing filters -/

/-- `abs((signed char) b)` -/
def magnitude (b : UInt8) : Nat := if b < 128 then b.toNat else 256 - b.toNat

/-- An estimate of the entropy of a line; the less, the better. -/
def estimate (line : List UInt8) : Option Nat := line.foldlM (fun est b => int (est + magnitude b)) 0

/-- The best filter so far and its estimate. -/
def tryFilter (encode : Nat → List UInt8) (filterType : Nat) (best : Nat × Nat) : Option (Nat × Nat) := do
  let est ← estimate (encode filterType)
  some (if est < best.2 then (filterType, est) else best)

def bestFilter (encode : Nat → List UInt8) : Option Nat :=
  (forLoop? 5 (tryFilter encode) (0, 0x7fffffff)).map (·.1)

/-- The globals of the writer. -/
structure Settings where
  compressionLevel : Int
  forceFilter : Int
  flipVertically : Bool

def Settings.initial : Settings := ⟨8, -1, false⟩

variable (settings : Settings)

def Settings.filterType (encode : Nat → List UInt8) : Option Nat :=
  let forceFilter := if settings.forceFilter ≥ 5 then -1 else settings.forceFilter
  if forceFilter > -1 then some forceFilter.toNat else bestFilter encode

def Settings.filterLine (pixels : Memory) (strideBytes x y n j : Nat) (filt : List UInt8) : Option (List UInt8) := do
  let _ ← int (rowStart settings.flipVertically strideBytes y j)
  let encode := encodePngLine settings.flipVertically pixels strideBytes x y j n
  let filterType ← settings.filterType encode
  some (filt ++ UInt8.ofNat filterType :: encode filterType)

/-- `filt`, with the byte of its filter before each row. -/
def Settings.filteredRows (pixels : Memory) (strideBytes x y n : Nat) : Option (List UInt8) :=
  forLoop? y (settings.filterLine pixels strideBytes x y n) []

def ctype : List Int := [-1, 0, 4, 2, 6]

def wp32 (o : List UInt8) (v : Nat) : List UInt8 :=
  o ++ [UInt8.ofNat (v >>> 24), UInt8.ofNat (v >>> 16), UInt8.ofNat (v >>> 8), UInt8.ofNat v]

def wptag (o : List UInt8) (s : String) : List UInt8 := o ++ s.toList.map fun c => UInt8.ofNat c.toNat

/-- The checksum of the last `len + 4` bytes. -/
def wpcrc (o : List UInt8) (len : Nat) : List UInt8 := wp32 o (crc32 (o.drop (o.length - len - 4))).toNat

def sig : List UInt8 := [137, 80, 78, 71, 13, 10, 26, 10]

def Settings.stbiWritePngToMem (pixels : Memory) (strideBytes x y n : Nat) : Option (List UInt8) := do
  let lineBytes ← int (x * n + 1)
  let strideBytes := if strideBytes = 0 then x * n else strideBytes
  let _ ← int (lineBytes * y)
  let filt ← settings.filteredRows pixels strideBytes x y n
  let zlib ← stbiZlibCompress filt settings.compressionLevel
  let outLen ← int (8 + 12 + 13 + 12 + zlib.length + 12)
  let o := sig
  let o := wp32 o 13
  let o := wptag o "IHDR"
  let o := wp32 o x
  let o := wp32 o y
  let o := o ++ [8, UInt8.ofInt (ctype.getD n 0), 0, 0, 0]
  let o := wpcrc o 13
  let o := wp32 o zlib.length
  let o := wptag o "IDAT"
  let o := o ++ zlib
  let o := wpcrc o zlib.length
  let o := wp32 o 0
  let o := wptag o "IEND"
  let o := wpcrc o 0
  -- the assertion at the end
  if o.length = outLen then some o else none

/-! ### What is chosen -/

theorem magnitude_le (b : UInt8) : magnitude b ≤ 128 := by
  unfold magnitude
  split
  · rename_i hlt
    exact (UInt8.lt_iff_toNat_lt.1 hlt).le
  · rename_i hge
    have := UInt8.le_iff_toNat_le.1 (UInt8.not_lt.1 hge)
    change 128 ≤ b.toNat at this
    omega

/-- The estimates of rows of less than 2^24 bytes stay in an `int`. -/
theorem estimate_isSome {line : List UInt8} (h : line.length < 2 ^ 24) :
    ∃ est, estimate line = some est ∧ est < 0x7fffffff := by
  suffices hfold : ∀ est, est + 128 * line.length < 0x7fffffff →
      ∃ est', line.foldlM (fun est b => int (est + magnitude b)) est = some est' ∧ est' < 0x7fffffff from
    hfold 0 (by omega)
  intro est hest
  clear h
  induction line generalizing est with
  | nil => exact ⟨est, rfl, hest⟩
  | cons b line ih =>
    have hb := magnitude_le b
    rw [List.length_cons] at hest
    rw [List.foldlM_cons, int_of_lt (by omega)]
    exact ih (est + magnitude b) (by omega)

/-- The best of the first `k` filters. -/
def Best (est : Nat → Nat) (k : Nat) (best : Nat × Nat) : Prop :=
  if k = 0 then best.2 = 0x7fffffff else best.1 < k ∧ best.2 = est best.1 ∧ ∀ type < k, est best.1 ≤ est type

theorem Best.tryFilter {encode : Nat → List UInt8} {est : Nat → Nat} {k : Nat} {best : Nat × Nat}
    (h : Best est k best) (hest : estimate (encode k) = some (est k)) (hmax : est k < 0x7fffffff) :
    ∃ best', tryFilter encode k best = some best' ∧ Best est (k + 1) best' := by
  refine ⟨_, by rw [PngWriter.tryFilter, hest]; rfl, ?_⟩
  rw [Best, if_neg (Nat.succ_ne_zero k)]
  unfold Best at h
  split at h
  · rename_i hzero
    rw [hzero] at hmax ⊢
    rw [h, if_pos hmax]
    exact ⟨Nat.zero_lt_one, rfl, fun type htype => by rw [Nat.lt_one_iff.1 htype]⟩
  · obtain ⟨hlt, hval, hle⟩ := h
    split
    · rename_i hless
      refine ⟨Nat.lt_succ_self k, rfl, fun type htype => ?_⟩
      rcases Nat.lt_succ_iff_lt_or_eq.1 htype with hlt | rfl
      · exact hless.le.trans (hval.le.trans (hle type hlt))
      · exact Nat.le_refl _
    · rename_i hless
      refine ⟨Nat.lt_succ_of_lt hlt, hval, fun type htype => ?_⟩
      rcases Nat.lt_succ_iff_lt_or_eq.1 htype with hlt | rfl
      · exact hle type hlt
      · exact hval.symm.le.trans (Nat.not_lt.1 hless)

theorem bestFilter_spec {encode : Nat → List UInt8} {est : Nat → Nat}
    (h : ∀ type < 5, estimate (encode type) = some (est type) ∧ est type < 0x7fffffff) :
    ∃ best, bestFilter encode = some best ∧ best < 5 ∧ ∀ type < 5, est best ≤ est type := by
  obtain ⟨best, hloop, hbest⟩ := forLoop?_inv (P := Best est) (s := (0, 0x7fffffff)) (by rfl)
    fun k best hk hinv => hinv.tryFilter (h k hk).1 (h k hk).2
  obtain ⟨hlt, -, hle⟩ := hbest
  exact ⟨best.1, by rw [bestFilter, hloop]; rfl, hlt, hle⟩

theorem Settings.filterType_isSome {encode : Nat → List UInt8} (h : ∀ type < 5, (encode type).length < 2 ^ 24) :
    ∃ type, settings.filterType encode = some type ∧ type < 5 := by
  unfold Settings.filterType
  dsimp only
  by_cases hforced : (if settings.forceFilter ≥ 5 then -1 else settings.forceFilter) > -1
  · rw [if_pos hforced]
    refine ⟨_, rfl, ?_⟩
    split at hforced <;> split <;> omega
  · choose! est hest using fun type htype => estimate_isSome (h type htype)
    obtain ⟨best, hbest, hlt, -⟩ := bestFilter_spec hest
    exact ⟨best, by rw [if_neg hforced, hbest], hlt⟩

variable {settings}

/-- What has been filtered of a picture: its first `k` rows, each with some filter. -/
def Filtered (settings : Settings) (pixels : Memory) (stride x y n k : Nat) (filt : List UInt8) : Prop :=
  ∃ rows : List (Nat × List UInt8), (∀ row ∈ rows, row.1 < 5) ∧
    rows.map (·.2) = (List.range k).map (pixelRow settings.flipVertically pixels stride x y n) ∧
    filt = Png.filterRows n (List.replicate (x * n) 0) rows

theorem Filtered.filterLine {x k : Nat} {filt : List UInt8} (h : Filtered settings pixels stride x y n k filt)
    (hk : k < y) (hx : 0 < x) (hline : x * n < 2 ^ 24) (hstride : stride * (y - 1) < 2 ^ 31) :
    ∃ filt', settings.filterLine pixels stride x y n k filt = some filt' ∧
      Filtered settings pixels stride x y n (k + 1) filt' := by
  obtain ⟨rows, htypes, hpixels, rfl⟩ := h
  have hencode {type : Nat} (htype : type < 5) : encodePngLine settings.flipVertically pixels stride x y k n type =
      Png.filter type n (priorRow settings.flipVertically pixels stride x y n k)
        (pixelRow settings.flipVertically pixels stride x y n k) := encodePngLine_eq htype hx hk
  have hlength (type : Nat) (htype : type < 5) :
      (encodePngLine settings.flipVertically pixels stride x y k n type).length < 2 ^ 24 := by
    rw [hencode htype, Png.length_filter, length_pixelRow]
    exact hline
  obtain ⟨type, htype, hlt⟩ := settings.filterType_isSome hlength
  have hstart : rowStart settings.flipVertically stride y k < 2 ^ 31 := by
    refine (Nat.mul_le_mul_left stride ?_).trans_lt hstride
    split <;> omega
  have hprior : (rows.map (·.2)).getLast?.getD (List.replicate (x * n) 0) =
      priorRow settings.flipVertically pixels stride x y n k := by
    rw [hpixels]
    cases k with
    | zero => rfl
    | succ k =>
      rw [List.range_succ, List.map_append, List.map_singleton, List.getLast?_concat]
      rfl
  have hfilt : settings.filterLine pixels stride x y n k (Png.filterRows n (List.replicate (x * n) 0) rows) =
      some (Png.filterRows n (List.replicate (x * n) 0) rows ++
        UInt8.ofNat type :: encodePngLine settings.flipVertically pixels stride x y k n type) := by
    rw [Settings.filterLine, int_of_lt hstart]
    simp only [htype, Option.bind_eq_bind, Option.bind_some]
  refine ⟨_, hfilt, rows ++ [(type, pixelRow settings.flipVertically pixels stride x y n k)],
    fun row hrow => ?_, ?_, ?_⟩
  · rcases List.mem_append.1 hrow with hrow | hrow
    · exact htypes row hrow
    · rw [List.mem_singleton.1 hrow]
      exact hlt
  · rw [List.map_append, hpixels, List.range_succ, List.map_append]
    rfl
  · rw [Png.filterRows_concat, hprior, hencode hlt]

theorem filteredRows_spec (settings : Settings) (pixels : Memory) {x : Nat} (hx : 0 < x) (hline : x * n < 2 ^ 24)
    (hstride : stride * (y - 1) < 2 ^ 31) :
    ∃ filt, settings.filteredRows pixels stride x y n = some filt ∧ Filtered settings pixels stride x y n y filt :=
  forLoop?_inv (P := Filtered settings pixels stride x y n) ⟨[], by simp, rfl, rfl⟩
    fun _ _ hk h => h.filterLine hk hx hline hstride

/-! ### Files -/

theorem wp32_eq (o : List UInt8) (v : Nat) : wp32 o v = o ++ Png.fourBytes v := by
  simp only [wp32, Png.fourBytes, Nat.shiftRight_eq_div_pow]

/-- A chunk is what the format says if its data has been put out behind its tag. -/
theorem wpcrc_eq (o tag data : List UInt8) (htag : tag.length = 4) :
    wpcrc (o ++ Png.fourBytes data.length ++ tag ++ data) data.length = o ++ Png.chunk tag data := by
  have hdrop : (o ++ Png.fourBytes data.length ++ tag ++ data).length - data.length - 4 =
      (o ++ Png.fourBytes data.length).length := by
    simp only [List.length_append, htag]
    omega
  rw [wpcrc, wp32_eq, crc32_eq, hdrop, List.append_assoc _ tag, List.drop_left, Png.chunk]
  simp only [List.append_assoc]

/-- The colour types of the format for one to four channels. -/
def colourType (n : Nat) : Nat := (ctype.getD n 0).toNat

theorem colourType_spec (hn : 1 ≤ n) (hn' : n ≤ 4) : Png.channels (colourType n) = some n ∧ colourType n < 2 ^ 8 ∧
    UInt8.ofInt (ctype.getD n 0) = UInt8.ofNat (colourType n) := by
  match n, hn, hn' with
  | 1, _, _ | 2, _, _ | 3, _, _ | 4, _, _ => exact ⟨rfl, by decide, rfl⟩

theorem length_filterRows (bpp : Nat) (prior : List UInt8) {rows : List (Nat × List UInt8)} {n : Nat}
    (h : ∀ row ∈ rows, row.2.length = n) : (Png.filterRows bpp prior rows).length = rows.length * (n + 1) := by
  induction rows generalizing prior with
  | nil => exact (Nat.zero_mul _).symm
  | cons row rows ih =>
    obtain ⟨type, row⟩ := row
    have hrow : row.length = n := h _ (List.mem_cons_self ..)
    rw [Png.filterRows, List.length_append, List.length_cons, Png.length_filter, hrow,
      ih row fun r hr => h r (List.mem_cons_of_mem _ hr), List.length_cons, Nat.succ_mul, Nat.add_comm]

theorem stbiWritePngToMem_eq {settings : Settings} {strideBytes x : Nat} {filt zlib : List UInt8} (hn : 1 ≤ n)
    (hn' : n ≤ 4) (hline : x * n + 1 < 2 ^ 31) (hsize : (x * n + 1) * y < 2 ^ 31) (hzlen : zlib.length + 57 < 2 ^ 31)
    (hfilt : settings.filteredRows pixels (if strideBytes = 0 then x * n else strideBytes) x y n = some filt)
    (hzlib : stbiZlibCompress filt settings.compressionLevel = some zlib) :
    settings.stbiWritePngToMem pixels strideBytes x y n =
      some (Png.signature ++ Png.chunk Png.IHDR (Png.header x y (colourType n)) ++ Png.chunk Png.IDAT zlib ++
        Png.chunk Png.IEND []) := by
  obtain ⟨-, -, hbyte⟩ := colourType_spec hn hn'
  have hheader : wpcrc (wptag (sig ++ Png.fourBytes 13) "IHDR" ++ Png.fourBytes x ++ Png.fourBytes y ++
      [8, UInt8.ofNat (colourType n), 0, 0, 0]) 13 = sig ++ Png.chunk Png.IHDR (Png.header x y (colourType n)) := by
    rw [List.append_assoc, List.append_assoc, ← List.append_assoc (Png.fourBytes x)]
    exact wpcrc_eq sig Png.IHDR (Png.header x y (colourType n)) rfl
  have hdata (o : List UInt8) : wpcrc (wptag (o ++ Png.fourBytes zlib.length) "IDAT" ++ zlib) zlib.length =
      o ++ Png.chunk Png.IDAT zlib := wpcrc_eq o Png.IDAT zlib rfl
  have hend (o : List UInt8) : wpcrc (wptag (o ++ Png.fourBytes 0) "IEND") 0 = o ++ Png.chunk Png.IEND [] := by
    have hchunk := wpcrc_eq o Png.IEND [] rfl
    rwa [List.append_nil] at hchunk
  have hout : 8 + 12 + 13 + 12 + zlib.length + 12 < 2 ^ 31 := by omega
  rw [Settings.stbiWritePngToMem, int_of_lt hline]
  simp only [Option.bind_eq_bind, Option.bind_some, int_of_lt hsize, hfilt, hzlib, int_of_lt hout, wp32_eq, hbyte,
    hheader, hdata, hend]
  refine if_pos ?_
  have hfields : (Png.header x y (colourType n)).length = 13 := rfl
  simp only [List.length_append, Png.length_chunk, hfields, sig, Png.IHDR, Png.IDAT, Png.IEND, List.length_cons,
    List.length_nil]
  omega

/-- A picture of the writer has one to four channels, its rows are less than 16 MiB wide and not stored backwards,
and its filtered rows are at most half a GiB, so that nothing exceeds an `int`, the rooms of the compressor included. -/
structure Fits (stride x y n : Nat) : Prop where
  channels : 1 ≤ n ∧ n ≤ 4
  width : 0 < x
  height : 0 < y
  line : x * n < 2 ^ 24
  offset : stride * (y - 1) < 2 ^ 31
  size : (x * n + 1) * y ≤ 2 ^ 29

/-- What a decoder gets of the pixels. -/
def image (settings : Settings) (pixels : Memory) (stride x y n : Nat) : Png.Image :=
  ⟨x, y, colourType n, (List.range y).map (pixelRow settings.flipVertically pixels stride x y n)⟩

theorem Filtered.rows {settings : Settings} {x : Nat} {filt : List UInt8}
    (h : Filtered settings pixels stride x y n y filt) (hn : 1 ≤ n) :
    filt.length = (x * n + 1) * y ∧ Png.defilterRows n (x * n) y (List.replicate (x * n) 0) filt =
      some ((List.range y).map (pixelRow settings.flipVertically pixels stride x y n)) := by
  obtain ⟨rows, htypes, hpixels, rfl⟩ := h
  have hcount := congrArg List.length hpixels
  rw [List.length_map, List.length_map, List.length_range] at hcount
  have hlengths : ∀ row ∈ rows, row.2.length = x * n := by
    intro row hrow
    have hmem : row.2 ∈ rows.map (·.2) := List.mem_map_of_mem hrow
    rw [hpixels] at hmem
    obtain ⟨j, -, hj⟩ := List.mem_map.1 hmem
    rw [← hj, length_pixelRow]
  constructor
  · rw [length_filterRows _ _ hlengths, hcount, Nat.mul_comm]
  · rw [← hpixels, ← hcount]
    exact Png.defilterRows_filterRows hn _ htypes hlengths

theorem exists_stbiWritePngToMem (settings : Settings) (hlevel : settings.compressionLevel ≤ 2 ^ 25)
    (pixels : Memory) {strideBytes x : Nat} (h : Fits (if strideBytes = 0 then x * n else strideBytes) x y n) :
    ∃ file, settings.stbiWritePngToMem pixels strideBytes x y n = some file ∧
      Png.decode file = some (image settings pixels (if strideBytes = 0 then x * n else strideBytes) x y n) := by
  obtain ⟨hn, hn'⟩ := h.channels
  have hline := h.line
  have hsize := h.size
  have hwidth : x ≤ x * n := Nat.le_mul_of_pos_right x hn
  have hheight : y ≤ (x * n + 1) * y := Nat.le_mul_of_pos_left y (Nat.succ_pos _)
  obtain ⟨filt, hfilt, hfiltered⟩ := filteredRows_spec settings pixels h.width hline h.offset
  obtain ⟨hlength, hdefilter⟩ := hfiltered.rows hn
  obtain ⟨zlib, hzlib, hzlen⟩ := exists_stbiZlibCompress (by omega : filt.length ≤ 2 ^ 29) hlevel
  have hne : filt ≠ [] := by
    rw [← List.length_pos_iff, hlength]
    exact Nat.mul_pos (Nat.succ_pos _) h.height
  rw [hlength] at hzlen
  obtain ⟨hchannels, hcolour, -⟩ := colourType_spec hn hn'
  exact ⟨_, stbiWritePngToMem_eq hn hn' (by omega) (by omega) (by omega) hfilt hzlib,
    Png.decode_eq (by omega) (by omega) hcolour hchannels (by omega) (decompress_of_stbiZlibCompress hne hzlib)
      hdefilter⟩

/-- A decoder gets the pixels of every picture back, whatever the filters and the level of compression. -/
theorem decode_stbiWritePngToMem (settings : Settings) (hlevel : settings.compressionLevel ≤ 2 ^ 25)
    (pixels : Memory) (strideBytes x y n : Nat) (h : Fits (if strideBytes = 0 then x * n else strideBytes) x y n) :
    ∃ file, settings.stbiWritePngToMem pixels strideBytes x y n = some file ∧
      Png.decode file = some (image settings pixels (if strideBytes = 0 then x * n else strideBytes) x y n) :=
  exists_stbiWritePngToMem settings hlevel pixels h

/-- A pixel of two channels. -/
theorem decode_stbiWritePngToMem_pixel :
    ∃ file, Settings.initial.stbiWritePngToMem (fun _ => 7) 0 1 1 2 = some file ∧
      Png.decode file = some (image Settings.initial (fun _ => 7) 2 1 1 2) :=
  decode_stbiWritePngToMem Settings.initial (by decide) (fun _ => 7) 0 1 1 2
    ⟨by decide, by decide, by decide, by decide, by decide, by decide⟩

/-! ### Screenshots -/

/-- What Java is handed. -/
def screenshotPng (framebuffer : Framebuffer) (surfaceWidth surfaceHeight : Nat) : Option (List UInt8) := do
  let pixels ← captureScreenshot256x240 framebuffer surfaceWidth surfaceHeight
  Settings.initial.stbiWritePngToMem pixels (surfaceWidth * 4) surfaceWidth surfaceHeight 4

/-- The rows of the screen from the top, with the red, green, blue and alpha of each pixel. -/
def screen (framebuffer : Framebuffer) (width height : Nat) : Png.Image where
  width := width
  height := height
  colourType := 6
  rows := (List.range height).map fun y => (List.range (width * 4)).map (framebuffer (height - 1 - y))

theorem captureScreenshot256x240_shows {framebuffer : Framebuffer} (hlit : Lit framebuffer width height)
    (hstride : width * 4 < 2 ^ 31) (hsize : width * height * 4 < 2 ^ 31) :
    ∃ pixels, captureScreenshot256x240 framebuffer width height = some pixels ∧
      Screenshot.Shows framebuffer width height pixels := by
  refine ⟨_, (captureScreenshot256x240_eq hlit hsize).trans (flipVertical_eq _ hstride hsize), fun y hy x hx => ?_⟩
  rw [flip_row _ _ _ hx, opposite_of_lt hy, glReadPixels_row _ _ (by omega) hx]

/-- A screen that is not black comes back upright from the file. -/
theorem decode_screenshotPng (framebuffer : Framebuffer) (width height : Nat) (hlit : Lit framebuffer width height)
    (hwidth : width < 2 ^ 22) (hsize : (width * 4 + 1) * height ≤ 2 ^ 29) :
    ∃ file, screenshotPng framebuffer width height = some file ∧
      Png.decode file = some (screen framebuffer width height) := by
  obtain ⟨x, hx, y, hy, -⟩ := id hlit
  have hbytes : width * height * 4 ≤ (width * 4 + 1) * height := by
    rw [Nat.mul_right_comm]
    exact Nat.mul_le_mul_right height (Nat.le_succ _)
  have hoffset : width * 4 * (height - 1) ≤ (width * 4 + 1) * height :=
    Nat.mul_le_mul (Nat.le_succ _) (Nat.sub_le _ _)
  obtain ⟨pixels, hpixels, hshows⟩ := captureScreenshot256x240_shows hlit (by omega) (by omega)
  have hstride : (if width * 4 = 0 then width * 4 else width * 4) = width * 4 := ite_self _
  have hfits : Fits (if width * 4 = 0 then width * 4 else width * 4) width height 4 := by
    rw [hstride]
    exact ⟨by decide, by omega, by omega, by omega, by omega, hsize⟩
  obtain ⟨file, hfile, hdecode⟩ := exists_stbiWritePngToMem Settings.initial (by decide) pixels hfits
  refine ⟨file, by rw [screenshotPng, hpixels]; exact hfile, hdecode.trans ?_⟩
  rw [hstride]
  refine congrArg (fun rows => some (Png.Image.mk width height 6 rows)) (List.map_congr_left fun j hj => ?_)
  refine List.map_congr_left fun i hi => ?_
  exact hshows j (List.mem_range.1 hj) i (List.mem_range.1 hi)

/-- A white pixel. -/
theorem decode_screenshotPng_white : ∃ file, screenshotPng (fun _ _ => 255) 1 1 = some file ∧
    Png.decode file = some (screen (fun _ _ => 255) 1 1) :=
  decode_screenshotPng (fun _ _ => 255) 1 1 ⟨0, by decide, 0, by decide, .inl (by decide)⟩ (by decide) (by decide)

end SweetHome.PngWriter
