import SweetHome.Serialization

/-!
# The save RAM

`LibretroDroid::unserializeSRAM` tells whether it has copied; the JNI function below `GLRetroView` drops that
and answers true, where its sibling for states hands the result on. `serializeSRAM` copies from the pointer of
the core without a look at it.
-/

namespace SweetHome.Sram
open Rewind (Bytes)

/-- What the core answers for `RETRO_MEMORY_SAVE_RAM`. -/
structure SaveRam where
  /-- `retro_get_memory_size` -/
  size : Nat
  /-- What `retro_get_memory_data` points to; null is `none`. -/
  data : Option Bytes
  length_data : ∀ bytes, data = some bytes → bytes.length = size

/-- The bytes of the save RAM; behind a null pointer there are none. -/
def SaveRam.contents (ram : SaveRam) : Bytes := ram.data.getD []

/-- The save RAM of the same session at another time. -/
def SaveRam.SameSession (ram later : SaveRam) : Prop :=
  later.size = ram.size ∧ (later.data = none ↔ ram.data = none)

inductive Outcome (α : Type) where
  | returned (result : α)
  /-- A `RetroException` with `ERROR_SERIALIZATION`. -/
  | threw
  /-- A null pointer is read, or a negative array length aborts the process. -/
  | crashed
deriving DecidableEq

/-- The bytes that `memcpy` reads; `none` where it reads behind a null pointer. -/
def memcpy (source : Option Bytes) (size : Nat) : Option Bytes :=
  if size = 0 then some [] else source.map (List.take size)

/-! ### The two calls -/

def SaveRam.write (ram : SaveRam) (data : Bytes) (h : data.length ≤ ram.size) : SaveRam where
  size := ram.size
  data := ram.data.map fun sramState => data ++ sramState.drop data.length
  length_data := by
    intro bytes hbytes
    obtain ⟨sramState, hsome, rfl⟩ := Option.map_eq_some_iff.1 hbytes
    rw [List.length_append, List.length_drop, ram.length_data _ hsome]
    omega

/-- `LibretroDroid::unserializeSRAM` -/
def unserializeSRAM (ram : SaveRam) (data : Bytes) : SaveRam × Bool :=
  if ram.data = none then (ram, false)
  else if h : data.length > ram.size then (ram, false)
  else (ram.write data (Nat.not_lt.1 h), true)

/-- `LibretroDroid::serializeSRAM`, where `new` throws if there is no memory for the copy. -/
def serializeSRAM (ram : SaveRam) (allocates : Bool) : Outcome (Bytes × Nat) :=
  if allocates then
    match memcpy ram.data ram.size with
    | none => .crashed
    | some data => .returned (data, ram.size)
  else .threw

/-- `GLRetroView.unserializeSRAM` -/
def javaUnserializeSRAM (ram : SaveRam) (sram : Bytes) : SaveRam × Outcome Bool :=
  -- the result of the native call is dropped
  ((unserializeSRAM ram sram).1, .returned true)

/-- `GLRetroView.serializeSRAM`; the array is made with a `jsize`. -/
def javaSerializeSRAM (ram : SaveRam) (allocates : Bool) : Outcome Bytes :=
  match serializeSRAM ram allocates with
  | .returned (data, size) =>
    if Audio.toInt32 size < 0 then .crashed else .returned (data.take (Audio.toInt32 size).toNat)
  | .threw => .threw
  | .crashed => .crashed

/-! ### The law, and when it holds -/

/-- The array is in the save RAM, and what is behind it is as it was. -/
def Restored (ram after : SaveRam) (sram : Bytes) : Prop :=
  after.contents.take sram.length = sram ∧ after.contents.drop sram.length = ram.contents.drop sram.length

structure TellsTruth (ram : SaveRam) (sram : Bytes) : Prop where
  accepted : (javaUnserializeSRAM ram sram).2 = .returned true ↔ Restored ram (javaUnserializeSRAM ram sram).1 sram
  rejected : (javaUnserializeSRAM ram sram).2 = .returned false → (javaUnserializeSRAM ram sram).1 = ram
  /-- What is taken can be put back, whatever has been written since. -/
  roundTrip : ∀ allocates, javaSerializeSRAM ram allocates = .threw ∨
    ∃ saved, javaSerializeSRAM ram allocates = .returned saved ∧
      ∀ later, ram.SameSession later → javaUnserializeSRAM later saved = (ram, .returned true)
  untouched : ram.data = none ∨ ram.size = 0 →
    (∀ allocates, javaSerializeSRAM ram allocates ≠ .crashed) ∧ (javaUnserializeSRAM ram sram).1 = ram

/-- The array fits, a null pointer comes with no size, and the size is a `jsize`. -/
structure Fits (ram : SaveRam) (sram : Bytes) : Prop where
  array : sram = [] ∨ ram.data ≠ none ∧ sram.length ≤ ram.size
  null : ram.data = none → ram.size = 0
  size : ram.size < 2 ^ 31

section
variable {ram later : SaveRam} {sram : Bytes}

theorem SaveRam.ext_contents (h : ram.SameSession later) (hcontents : later.contents = ram.contents) :
    later = ram := by
  obtain ⟨size, data, _⟩ := ram
  obtain ⟨size', data', _⟩ := later
  obtain ⟨hsize, hdata⟩ := h
  obtain rfl : size' = size := hsize
  have hdata' : data' = data := by
    rcases data with _ | bytes
    · exact hdata.2 rfl
    · rcases data' with _ | bytes'
      · cases hdata.1 rfl
      · exact congrArg some hcontents
  obtain rfl := hdata'
  rfl

theorem contents_of_null (h : ram.data = none) : ram.contents = [] := by rw [SaveRam.contents, h]; rfl

theorem length_contents (h : ram.data ≠ none) : ram.contents.length = ram.size := by
  obtain ⟨bytes, hbytes⟩ := Option.ne_none_iff_exists'.1 h
  rw [SaveRam.contents, hbytes]
  exact ram.length_data bytes hbytes

theorem javaUnserializeSRAM_null (h : ram.data = none) : (javaUnserializeSRAM ram sram).1 = ram := by
  rw [javaUnserializeSRAM, unserializeSRAM, if_pos h]

theorem javaUnserializeSRAM_longer (h : ram.size < sram.length) : (javaUnserializeSRAM ram sram).1 = ram := by
  rw [javaUnserializeSRAM, unserializeSRAM]
  by_cases hdata : ram.data = none
  · rw [if_pos hdata]
  · rw [if_neg hdata, dif_pos h]

theorem javaUnserializeSRAM_fitting (hdata : ram.data ≠ none) (h : sram.length ≤ ram.size) :
    (javaUnserializeSRAM ram sram).1 = ram.write sram h := by
  rw [javaUnserializeSRAM, unserializeSRAM, if_neg hdata, dif_neg (Nat.not_lt.2 h)]

theorem contents_write (hdata : ram.data ≠ none) (h : sram.length ≤ ram.size) :
    (ram.write sram h).contents = sram ++ ram.contents.drop sram.length := by
  obtain ⟨bytes, hbytes⟩ := Option.ne_none_iff_exists'.1 hdata
  simp [SaveRam.contents, SaveRam.write, hbytes]

theorem sameSession_write (h : sram.length ≤ ram.size) : ram.SameSession (ram.write sram h) :=
  ⟨rfl, Option.map_eq_none_iff⟩

/-- The array is in the save RAM afterwards if it fits, and otherwise only if there is nothing in it. -/
theorem restored_iff : Restored ram (javaUnserializeSRAM ram sram).1 sram ↔
    sram = [] ∨ ram.data ≠ none ∧ sram.length ≤ ram.size := by
  by_cases hdata : ram.data = none
  · rw [javaUnserializeSRAM_null hdata, Restored, contents_of_null hdata]
    simp [hdata, eq_comm]
  · rcases Nat.lt_or_ge ram.size sram.length with hlonger | hfits
    · rw [javaUnserializeSRAM_longer hlonger]
      refine iff_of_false ?_ ?_
      · rintro ⟨htake, -⟩
        have hlength := congrArg List.length htake
        rw [List.length_take, length_contents hdata] at hlength
        omega
      · rintro (rfl | ⟨-, hle⟩)
        · cases hlonger
        · omega
    · rw [javaUnserializeSRAM_fitting hdata hfits, Restored, contents_write hdata hfits]
      simp [hdata, hfits]

/-! ### What is taken -/

theorem memcpy_eq_none_iff : memcpy ram.data ram.size = none ↔ ram.data = none ∧ ram.size ≠ 0 := by
  unfold memcpy
  split <;> simp_all

theorem memcpy_of_fits (h : ram.data = none → ram.size = 0) : memcpy ram.data ram.size = some ram.contents := by
  unfold memcpy
  split
  · rename_i hsize
    rcases hdata : ram.data with _ | bytes
    · rw [contents_of_null hdata]
    · have hlength := ram.length_data bytes hdata
      rw [hsize, List.length_eq_zero_iff] at hlength
      rw [SaveRam.contents, hdata, hlength]
      rfl
  · rename_i hsize
    obtain ⟨bytes, hbytes⟩ := Option.ne_none_iff_exists'.1 (mt h hsize)
    rw [SaveRam.contents, hbytes, Option.map_some, ← ram.length_data bytes hbytes, List.take_length]
    rfl

theorem toInt32_lt (size : Nat) : Audio.toInt32 size < 2 ^ 31 := by
  unfold Audio.toInt32; split <;> omega

theorem toInt32_of_lt {size : Nat} (h : size < 2 ^ 31) : Audio.toInt32 size = size := by
  unfold Audio.toInt32; split <;> omega

/-- Either the copy or the array cannot be made, or the array is made of the first bytes. -/
theorem javaSerializeSRAM_true (ram : SaveRam) : javaSerializeSRAM ram true =
    if ram.data = none ∧ ram.size ≠ 0 ∨ Audio.toInt32 ram.size < 0 then .crashed
    else .returned (ram.contents.take (Audio.toInt32 ram.size).toNat) := by
  unfold javaSerializeSRAM serializeSRAM
  rw [if_pos rfl]
  by_cases hnull : ram.data = none ∧ ram.size ≠ 0
  · rw [memcpy_eq_none_iff.2 hnull, if_pos (.inl hnull)]
  · rw [memcpy_of_fits (by tauto)]
    simp only [hnull, false_or]

theorem javaSerializeSRAM_of_fits (hnull : ram.data = none → ram.size = 0) (hsize : ram.size < 2 ^ 31) :
    javaSerializeSRAM ram true = .returned ram.contents := by
  have hlength : ram.contents.length ≤ ram.size := by
    by_cases hdata : ram.data = none
    · rw [contents_of_null hdata]; exact Nat.zero_le _
    · exact (length_contents hdata).le
  have hmade : ¬ ((ram.data = none ∧ ram.size ≠ 0) ∨ (ram.size : Int) < 0) := by
    rintro (⟨hdata, hne⟩ | hneg)
    · exact hne (hnull hdata)
    · omega
  rw [javaSerializeSRAM_true, toInt32_of_lt hsize, if_neg hmade, Int.toNat_natCast,
    List.take_of_length_le hlength]

theorem javaUnserializeSRAM_contents (hlater : ram.SameSession later) :
    javaUnserializeSRAM later ram.contents = (ram, .returned true) := by
  refine Prod.ext ?_ rfl
  by_cases hram : ram.data = none
  · have hnull := hlater.2.2 hram
    rw [javaUnserializeSRAM_null hnull]
    exact SaveRam.ext_contents hlater ((contents_of_null hnull).trans (contents_of_null hram).symm)
  · have hdata := mt hlater.2.1 hram
    have hlength := length_contents hram
    have hlength' := length_contents hdata
    have hsize := hlater.1
    have hfits : ram.contents.length ≤ later.size := by omega
    rw [javaUnserializeSRAM_fitting hdata hfits]
    refine SaveRam.ext_contents ⟨hsize, (sameSession_write hfits).2.trans hlater.2⟩ ?_
    rw [contents_write hdata hfits, List.drop_eq_nil_of_le (by omega), List.append_nil]

/-- An array that is too short does not put back what has been changed behind it. -/
theorem exists_not_restored (hdata : ram.data ≠ none) {saved : Bytes} (hsaved : saved.length < ram.size) :
    ∃ later, ram.SameSession later ∧ (javaUnserializeSRAM later saved).1 ≠ ram := by
  have hlength := length_contents hdata
  obtain ⟨later, hlater⟩ : ∃ later : SaveRam, later = ⟨ram.size, some (ram.contents.map (· + 1)), by
      rintro _ ⟨⟩; rw [List.length_map, hlength]⟩ := ⟨_, rfl⟩
  have hsome : later.data ≠ none := by rw [hlater]; exact Option.some_ne_none _
  have hsize : later.size = ram.size := by rw [hlater]
  have hcontents : later.contents = ram.contents.map (· + 1) := by rw [hlater]; rfl
  refine ⟨later, ⟨hsize, iff_of_false hsome hdata⟩, ?_⟩
  rw [javaUnserializeSRAM_fitting hsome (by omega)]
  intro heq
  have hafter := congrArg SaveRam.contents heq
  rw [contents_write hsome (by omega), hcontents] at hafter
  have hdrop := congrArg (List.drop saved.length) hafter
  rw [List.drop_left, ← List.map_drop] at hdrop
  rcases hrest : ram.contents.drop saved.length with _ | ⟨byte, rest⟩
  · have hle := List.drop_eq_nil_iff.1 hrest
    omega
  · rw [hrest] at hdrop
    have hbyte : (byte + 1).toNat = byte.toNat := congrArg UInt8.toNat (List.cons.inj hdrop).1
    rw [UInt8.toNat_add, show (1 : UInt8).toNat = 1 from rfl] at hbyte
    have hlt := byte.toNat_lt
    omega

/-- What is taken comes back whole from a pointer that has what the core says, if its size is a `jsize`. -/
theorem roundTrip_iff :
    (∀ allocates, javaSerializeSRAM ram allocates = .threw ∨
      ∃ saved, javaSerializeSRAM ram allocates = .returned saved ∧
        ∀ later, ram.SameSession later → javaUnserializeSRAM later saved = (ram, .returned true)) ↔
      (ram.data = none → ram.size = 0) ∧ ram.size < 2 ^ 31 := by
  constructor
  · intro h
    obtain ⟨saved, hsaved, hrestores⟩ : ∃ saved, javaSerializeSRAM ram true = .returned saved ∧
        ∀ later, ram.SameSession later → javaUnserializeSRAM later saved = (ram, .returned true) := by
      refine (h true).resolve_left ?_
      rw [javaSerializeSRAM_true]
      split <;> nofun
    rw [javaSerializeSRAM_true] at hsaved
    split at hsaved
    · cases hsaved
    · rename_i hmade
      obtain ⟨hread, hnonneg⟩ := not_or.1 hmade
      obtain rfl := Outcome.returned.inj hsaved
      have hnull : ram.data = none → ram.size = 0 := by tauto
      refine ⟨hnull, ?_⟩
      by_contra hsize
      have hlt := toInt32_lt ram.size
      have hdata : ram.data ≠ none := fun hdata => by have hzero := hnull hdata; omega
      have hshort : (ram.contents.take (Audio.toInt32 ram.size).toNat).length < ram.size := by
        rw [List.length_take]; omega
      obtain ⟨later, hlater, hne⟩ := exists_not_restored hdata hshort
      exact hne (congrArg Prod.fst (hrestores later hlater))
  · rintro ⟨hnull, hsize⟩ (_ | _)
    · exact .inl rfl
    · exact .inr ⟨_, javaSerializeSRAM_of_fits hnull hsize, fun later => javaUnserializeSRAM_contents⟩

theorem javaUnserializeSRAM_untouched (h : ram.data = none ∨ ram.size = 0) :
    (javaUnserializeSRAM ram sram).1 = ram := by
  by_cases hdata : ram.data = none
  · exact javaUnserializeSRAM_null hdata
  · have hsize := h.resolve_left hdata
    rcases sram with _ | ⟨byte, sram⟩
    · rw [javaUnserializeSRAM_fitting hdata (Nat.zero_le _)]
      refine SaveRam.ext_contents (sameSession_write _) ?_
      rw [contents_write hdata, List.nil_append]
      rfl
    · exact javaUnserializeSRAM_longer (by rw [hsize]; exact Nat.succ_pos _)

end

/-- The calls tell the truth exactly if the array fits, a null pointer comes with no size, and the size is one
of a Java array. -/
theorem tellsTruth_iff (ram : SaveRam) (sram : Bytes) : TellsTruth ram sram ↔ Fits ram sram := by
  constructor
  · rintro ⟨haccepted, -, hroundTrip, -⟩
    obtain ⟨hnull, hsize⟩ := roundTrip_iff.1 hroundTrip
    exact ⟨restored_iff.1 (haccepted.1 rfl), hnull, hsize⟩
  · rintro ⟨harray, hnull, hsize⟩
    refine ⟨iff_of_true rfl (restored_iff.2 harray), nofun, roundTrip_iff.2 ⟨hnull, hsize⟩, fun hnone => ?_⟩
    refine ⟨?_, javaUnserializeSRAM_untouched hnone⟩
    rintro (_ | _)
    · nofun
    · rw [javaSerializeSRAM_of_fits hnull hsize]; nofun

def twoBytes : SaveRam := ⟨2, some [1, 2], by rintro _ ⟨⟩; rfl⟩

/-- Three bytes for a save RAM of two are not copied, and the answer is true. -/
theorem not_tellsTruth_longer : ¬ TellsTruth twoBytes [7, 8, 9] := by
  rintro ⟨haccepted, -, -, -⟩
  have hrestored := (haccepted.1 rfl).1
  revert hrestored
  decide

end SweetHome.Sram
