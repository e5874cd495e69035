import Mathlib.Data.List.Basic
import Mathlib.Data.Nat.Bitwise
import Mathlib.Tactic.Ring

/-!
# Bit streams

Numbers as the bits that a stream carries of them, from the least significant one on, the readers that take
them off again, and prefix codes. A reader is a partial function from the bits to a value and the bits that are
left; what is put in front of a stream is what its reader takes (`readBits_append`, `readBytes_append`,
`PrefixCode.decode_append`).
-/

namespace SweetHome.BitStream

/-- The `n` low bits of a number, from the least significant one. -/
def bits : Nat → Nat → List Bool
  | 0, _ => []
  | n + 1, v => (v % 2 == 1) :: bits n (v / 2)

def ofBits : List Bool → Nat
  | [] => 0
  | b :: s => b.toNat + 2 * ofBits s

/-- The `n` low bits of a number, from the most significant of them. -/
def msbBits (n v : Nat) : List Bool := (bits n v).reverse

/-- The bits of the bytes, one byte after the other. -/
def ofBytes (bytes : List UInt8) : List Bool := bytes.flatMap fun b => bits 8 b.toNat

@[simp] theorem length_bits (n v : Nat) : (bits n v).length = n := by
  induction n generalizing v with
  | zero => rfl
  | succ n ih => rw [bits, List.length_cons, ih]

@[simp] theorem length_msbBits (n v : Nat) : (msbBits n v).length = n := by
  rw [msbBits, List.length_reverse, length_bits]

theorem ofBits_bits (n v : Nat) : ofBits (bits n v) = v % 2 ^ n := by
  induction n generalizing v with
  | zero => simp [bits, ofBits, Nat.mod_one]
  | succ n ih =>
    rw [bits, ofBits, ih, pow_succ', Nat.mod_mul]
    rcases Nat.mod_two_eq_zero_or_one v with h | h <;> simp [h]

/-- The bits above the first `n` are those of the quotient. -/
theorem bits_add (n m v : Nat) : bits (n + m) v = bits n v ++ bits m (v / 2 ^ n) := by
  induction n generalizing v with
  | zero => simp [bits]
  | succ n ih => rw [Nat.succ_add, bits, bits, ih, Nat.div_div_eq_div_mul, ← pow_succ', List.cons_append]

theorem bits_mod (n v : Nat) : bits n (v % 2 ^ n) = bits n v := by
  induction n generalizing v with
  | zero => rfl
  | succ n ih =>
    rw [bits, bits, pow_succ', Nat.mod_mul_right_mod, Nat.mod_mul_right_div_self, ih]

/-- What is added above the first `n` bits follows them. -/
theorem bits_append {n a : Nat} (m b : Nat) (ha : a < 2 ^ n) : bits (n + m) (a + b * 2 ^ n) = bits n a ++ bits m b := by
  have hlow : bits n (a + b * 2 ^ n) = bits n a := by
    rw [← bits_mod, Nat.add_mul_mod_self_right, bits_mod]
  have hhigh : (a + b * 2 ^ n) / 2 ^ n = b := by
    rw [Nat.add_mul_div_right _ _ (Nat.two_pow_pos n), Nat.div_eq_of_lt ha, Nat.zero_add]
  rw [bits_add, hlow, hhigh]

theorem bits_zero (n : Nat) : bits n 0 = List.replicate n false := by
  induction n with
  | zero => rfl
  | succ n ih => rw [bits, Nat.zero_div, ih]; rfl

theorem bits_inj {n v w : Nat} (hv : v < 2 ^ n) (hw : w < 2 ^ n) (h : bits n v = bits n w) : v = w := by
  have hvalue := congrArg ofBits h
  rwa [ofBits_bits, ofBits_bits, Nat.mod_eq_of_lt hv, Nat.mod_eq_of_lt hw] at hvalue

theorem ofBits_append (s t : List Bool) : ofBits (s ++ t) = ofBits s + ofBits t * 2 ^ s.length := by
  induction s with
  | nil => simp [ofBits]
  | cons b s ih => rw [List.cons_append, ofBits, ofBits, ih, List.length_cons, pow_succ]; ring

theorem bits_ofBits (s : List Bool) : bits s.length (ofBits s) = s := by
  induction s with
  | nil => rfl
  | cons b s ih =>
    have hlow : ((b.toNat + 2 * ofBits s) % 2 == 1) = b := by
      cases b <;> simp
    have hhigh : (b.toNat + 2 * ofBits s) / 2 = ofBits s := by
      have := b.toNat_lt
      omega
    rw [List.length_cons, bits, ofBits, hlow, hhigh, ih]

theorem ofBits_lt (s : List Bool) : ofBits s < 2 ^ s.length := by
  induction s with
  | nil => exact Nat.one_pos
  | cons b s ih =>
    have := b.toNat_lt
    rw [ofBits, List.length_cons, pow_succ]
    omega

@[simp] theorem ofBytes_nil : ofBytes [] = [] := rfl

@[simp] theorem ofBytes_cons (b : UInt8) (bytes : List UInt8) :
    ofBytes (b :: bytes) = bits 8 b.toNat ++ ofBytes bytes := rfl

@[simp] theorem ofBytes_append (bs cs : List UInt8) : ofBytes (bs ++ cs) = ofBytes bs ++ ofBytes cs :=
  List.flatMap_append

@[simp] theorem length_ofBytes (bytes : List UInt8) : (ofBytes bytes).length = 8 * bytes.length := by
  induction bytes with
  | nil => rfl
  | cons b bytes ih => rw [ofBytes_cons, List.length_append, length_bits, ih, List.length_cons]; omega

/-! ### Readers -/

def readBits (n : Nat) (s : List Bool) : Option (Nat × List Bool) :=
  if n ≤ s.length then some (ofBits (s.take n), s.drop n) else none

def readBytes : Nat → List Bool → Option (List UInt8 × List Bool)
  | 0, s => some ([], s)
  | n + 1, s => do
    let (b, s) ← readBits 8 s
    let (bytes, s) ← readBytes n s
    some (UInt8.ofNat b :: bytes, s)

/-- Skips what is left of a byte, in a stream of whole bytes. -/
def align (s : List Bool) : List Bool := s.drop (s.length % 8)

variable {s : List Bool}

theorem readBits_append {n v : Nat} (h : v < 2 ^ n) : readBits n (bits n v ++ s) = some (v, s) := by
  have htake : (bits n v ++ s).take n = bits n v := List.take_left' (length_bits n v)
  have hdrop : (bits n v ++ s).drop n = s := List.drop_left' (length_bits n v)
  rw [readBits, if_pos (by rw [List.length_append, length_bits]; omega), htake, hdrop, ofBits_bits,
    Nat.mod_eq_of_lt h]

theorem readBytes_append (bytes : List UInt8) :
    readBytes bytes.length (ofBytes bytes ++ s) = some (bytes, s) := by
  induction bytes with
  | nil => rfl
  | cons b bytes ih =>
    have hb : readBits 8 (bits 8 b.toNat ++ (ofBytes bytes ++ s)) = some (b.toNat, ofBytes bytes ++ s) :=
      readBits_append b.toNat_lt
    simp [readBytes, hb, ih]

/-- Bits that fill up a byte are skipped. -/
theorem align_append {padding : List Bool} (hpadding : padding.length < 8) (h : 8 ∣ s.length) :
    align (padding ++ s) = s := by
  have hrest : (padding ++ s).length % 8 = padding.length := by
    rw [List.length_append]
    omega
  rw [align, hrest, List.drop_left]

/-! ### Prefix codes -/

/-- A code in which no codeword continues another. -/
structure PrefixCode where
  symbols : List Nat
  codeword : Nat → List Bool
  prefixFree : ∀ a ∈ symbols, ∀ b ∈ symbols, codeword a <+: codeword b → a = b

namespace PrefixCode
variable (c : PrefixCode)

def decode (s : List Bool) : Option (Nat × List Bool) :=
  (c.symbols.find? fun a => (c.codeword a).isPrefixOf s).map fun a => (a, s.drop (c.codeword a).length)

theorem decode_append {a : Nat} (ha : a ∈ c.symbols) : c.decode (c.codeword a ++ s) = some (a, s) := by
  have hfound : (c.symbols.find? fun a' => (c.codeword a').isPrefixOf (c.codeword a ++ s)) = some a := by
    rcases hfind : c.symbols.find? fun a' => (c.codeword a').isPrefixOf (c.codeword a ++ s) with _ | b
    · have hnone := List.find?_eq_none.1 hfind a ha
      simp at hnone
    · have hprefix : c.codeword b <+: c.codeword a ++ s := by simpa using List.find?_some hfind
      -- of two prefixes of one list the shorter is a prefix of the other
      rcases List.prefix_or_prefix_of_prefix hprefix (List.prefix_append _ _) with h | h
      · rw [c.prefixFree b (List.mem_of_find?_eq_some hfind) a ha h]
      · rw [c.prefixFree a ha b (List.mem_of_find?_eq_some hfind) h]
  rw [decode, hfound, Option.map_some, List.drop_left]

end PrefixCode

/-- A codeword continues another exactly if its number starts with the other's. -/
theorem msbBits_prefix_iff {n m v w : Nat} (hv : v < 2 ^ n) (hw : w < 2 ^ m) :
    msbBits n v <+: msbBits m w ↔ n ≤ m ∧ v = w / 2 ^ (m - n) := by
  constructor
  · intro h
    have hle : n ≤ m := by simpa using h.length_le
    refine ⟨hle, ?_⟩
    obtain ⟨k, rfl⟩ := Nat.exists_eq_add_of_le hle
    rw [Nat.add_sub_cancel_left]
    have hsplit : msbBits (n + k) w = msbBits n (w / 2 ^ k) ++ msbBits k w := by
      rw [msbBits, Nat.add_comm, bits_add, List.reverse_append]
      rfl
    have hsame : msbBits n v = msbBits n (w / 2 ^ k) := by
      rw [hsplit] at h
      exact (List.prefix_of_prefix_length_le h (List.prefix_append _ _) (by simp)).eq_of_length (by simp)
    refine bits_inj hv ?_ (List.reverse_injective hsame)
    rw [Nat.div_lt_iff_lt_mul (Nat.two_pow_pos k), ← pow_add]
    exact hw
  · rintro ⟨hle, rfl⟩
    obtain ⟨k, rfl⟩ := Nat.exists_eq_add_of_le hle
    rw [Nat.add_sub_cancel_left, msbBits, msbBits, Nat.add_comm, bits_add, List.reverse_append]
    exact List.prefix_append _ _

end SweetHome.BitStream
