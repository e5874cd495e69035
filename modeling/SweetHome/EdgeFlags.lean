import SweetHome.Lib.Glsl
import SweetHome.Lib.Round
import Mathlib.Data.Rat.Floor
import Mathlib.Tactic.FieldSimp
import Mathlib.Tactic.NormNum

/-!
# The flags of an edge

The pass that weighs edges packs two booleans and four weights into a texel, and the pass that upscales unpacks
them. Between the two lies a texture of eight bits: the digits count in steps of `1 / 256`, the texture in steps of
`1 / 255`, and the bias that is added before unpacking covers the difference everywhere but in the middle, at
`128 / 256`.
-/

namespace SweetHome
namespace EdgeFlags
open Glsl

def epsilon : ℚ := 0.02

/-- `float(b)` -/
def ofBool (b : Bool) : ℚ := if b then 1 else 0

def quickPackBools2 (values : Vec2 Bool) : ℚ := (values.map ofBool).dot ⟨0.5, 0.25⟩

def quickPackFloats2 (values : Vec2 ℚ) : ℚ :=
  (values.map fun v => (⌊v * 12 + 0.5⌋ : ℚ)).dot ⟨0.0625, 0.00390625⟩

def quickUnpackFloats2 (value : ℚ) : Vec2 ℚ :=
  let current := value * 16
  let x : ℚ := ⌊current⌋
  let current := (current - x) * 16
  let y : ℚ := ⌊current⌋
  ⟨x / 12, y / 12⟩

def quickUnpackBools2 (value : ℚ) : Vec2 Bool :=
  let current := value * 2
  let x : ℚ := ⌊current⌋
  let current := (current - x) * 2
  let y : ℚ := ⌊current⌋
  ⟨x > 0.5, y > 0.5⟩

/-- What both passes that weigh edges end with. -/
def packedFlags (triangle flip : Bool) (weights : Vec4 ℚ) : Vec4 ℚ where
  x := quickPackBools2 ⟨triangle, flip⟩
  y := quickPackFloats2 weights.xy
  z := quickPackFloats2 weights.zw
  w := 1

/-- The edges of a pixel whose diagonal runs the other way. -/
def turned (pattern : Int) (edges : Vec4 ℚ) : Vec4 ℚ :=
  if pattern = 3 then ⟨-edges.x, edges.w, -edges.z, edges.y⟩ else edges

/-- `edges * 0.5 + vec(0.5)` -/
def centred (edges : Vec4 ℚ) : Vec4 ℚ := edges.map fun e => e * 0.5 + 0.5

structure Flags where
  flip : Bool
  triangle : Bool
  edgeWeight : Vec4 ℚ
  bounds : edgeWeight.All fun e => epsilon ≤ e ∧ e ≤ 1 - epsilon

/-- The weights of `parseFlags` before it clamps them. -/
def unpackedWeights (flagsPixel : Vec3 ℚ) : Vec4 ℚ :=
  let xy := quickUnpackFloats2 (flagsPixel.y + 0.001953125)
  let zw := quickUnpackFloats2 (flagsPixel.z + 0.001953125)
  ⟨xy.x, xy.y, zw.x, zw.y⟩

theorem clamp_epsilon (e : ℚ) :
    epsilon ≤ clamp e epsilon (1 - epsilon) ∧ clamp e epsilon (1 - epsilon) ≤ 1 - epsilon :=
  ⟨le_clamp (by norm_num [epsilon]), clamp_le⟩

def parseFlags (flagsPixel : Vec3 ℚ) : Flags where
  edgeWeight := (unpackedWeights flagsPixel).map fun e => clamp e epsilon (1 - epsilon)
  triangle := (quickUnpackBools2 (flagsPixel.x + 0.125)).x
  flip := (quickUnpackBools2 (flagsPixel.x + 0.125)).y
  bounds := ⟨clamp_epsilon _, clamp_epsilon _, clamp_epsilon _, clamp_epsilon _⟩

/-! ### The texture between the passes -/

/-- To the nearest level of a channel; a half goes either way. -/
structure Rounding where
  round : ℚ → Int
  abs_sub_le : ∀ x, |x - round x| ≤ 1 / 2

/-- What is read from a channel of `GL_RGBA8` that `x` was written to. -/
def Rounding.stored (r : Rounding) (x : ℚ) : ℚ := r.round (255 * x) / 255

/-- The texel of `createFramebuffer` that a pass has written. -/
def Rounding.texel (r : Rounding) (color : Vec4 ℚ) : Vec4 ℚ := color.map r.stored

/-! ### What is to survive -/

structure Weights where
  value : Vec4 ℚ
  bounds : value.All fun e => 0 ≤ e ∧ e ≤ 1

/-- Halves go up. -/
def nearestTwelfth (e : ℚ) : ℚ := ⌊12 * e + 1 / 2⌋ / 12

/-- What is unpacked from a texel is what was packed. -/
structure Survives (r : Rounding) (triangle flip : Bool) (w : Vec4 ℚ) : Prop where
  weights : unpackedWeights (r.texel (packedFlags triangle flip w)).xyz = w.map nearestTwelfth
  booleans : (parseFlags (r.texel (packedFlags triangle flip w)).xyz).triangle = triangle ∧
    (parseFlags (r.texel (packedFlags triangle flip w)).xyz).flip = flip

/-- The pair that is packed at the middle of the steps. -/
def Middle (pair : Vec2 ℚ) : Prop := nearestTwelfth pair.x = 8 / 12 ∧ nearestTwelfth pair.y = 0

/-! ### Packing and unpacking -/

def digit (e : ℚ) : Int := ⌊e * 12 + 0.5⌋

theorem nearestTwelfth_eq (e : ℚ) : nearestTwelfth e = digit e / 12 := by
  rw [nearestTwelfth, digit, mul_comm, show (0.5 : ℚ) = 1 / 2 by norm_num]

theorem digit_bounds {e : ℚ} (he : 0 ≤ e ∧ e ≤ 1) : 0 ≤ digit e ∧ digit e ≤ 12 := by
  obtain ⟨hlower, hupper⟩ := he
  constructor
  · exact Int.floor_nonneg.2 (by norm_num; linarith)
  · exact Int.lt_add_one_iff.1 (Int.floor_lt.2 (by norm_num; linarith))

theorem quickPackFloats2_eq (pair : Vec2 ℚ) :
    quickPackFloats2 pair = ((16 * digit pair.x + digit pair.y : Int) : ℚ) / 256 := by
  simp only [quickPackFloats2, Vec2.dot, Vec2.map, digit]
  push_cast
  ring

theorem quickUnpackFloats2_eq (value : ℚ) : quickUnpackFloats2 value =
    ⟨((⌊value * 16 * 16⌋ / 16 : Int) : ℚ) / 12, ((⌊value * 16 * 16⌋ % 16 : Int) : ℚ) / 12⟩ := by
  have hfirst := floor_first_digit (b := 16) (by norm_num) value
  have hsecond := floor_second_digit (b := 16) (by norm_num) value
  push_cast at hfirst hsecond
  simp only [quickUnpackFloats2]
  rw [hsecond, hfirst]

/-- Two digits do not carry into each other. -/
theorem unpack_pack {pair : Vec2 ℚ} (hy : 0 ≤ digit pair.y ∧ digit pair.y ≤ 12) :
    quickUnpackFloats2 (quickPackFloats2 pair) = pair.map fun e => (digit e : ℚ) / 12 := by
  have hfloor : ∀ n : Int, ⌊(n : ℚ) / 256 * 16 * 16⌋ = n := by
    intro n
    rw [show (n : ℚ) / 256 * 16 * 16 = n by ring, Int.floor_intCast]
  rw [quickPackFloats2_eq, quickUnpackFloats2_eq, hfloor, Vec2.map]
  congr <;> omega

theorem quickUnpackBools2_eq (value : ℚ) : quickUnpackBools2 value =
    ⟨1 ≤ ⌊value * 2 * 2⌋ / 2, 1 ≤ ⌊value * 2 * 2⌋ % 2⟩ := by
  have hfirst := floor_first_digit (b := 2) (by norm_num) value
  have hsecond := floor_second_digit (b := 2) (by norm_num) value
  have hhalf : ∀ k : Int, (k : ℚ) > 0.5 ↔ 1 ≤ k := by
    intro k
    constructor
    · intro h
      have hpos : (0 : ℚ) < k := lt_trans (by norm_num) h
      exact_mod_cast hpos
    · intro h
      have hone : (1 : ℚ) ≤ k := by exact_mod_cast h
      exact lt_of_lt_of_le (by norm_num) hone
  push_cast at hfirst hsecond
  simp only [quickUnpackBools2, hhalf]
  rw [hsecond, hfirst]

/-! ### Through the texture -/

variable (r : Rounding)

theorem stored_eq (n : Int) :
    ∃ m : Int, r.stored (n / 256) = m / 255 ∧ 256 * m ≤ 255 * n + 128 ∧ 255 * n ≤ 256 * m + 128 := by
  obtain ⟨hlower, hupper⟩ := abs_le.1 (r.abs_sub_le (255 * (n / 256)))
  refine ⟨r.round (255 * (n / 256)), rfl, ?_, ?_⟩
  · have hcast : (256 : ℚ) * r.round (255 * (n / 256)) ≤ 255 * n + 128 := by linarith
    exact_mod_cast hcast
  · have hcast : (255 : ℚ) * n ≤ 256 * r.round (255 * (n / 256)) + 128 := by linarith
    exact_mod_cast hcast

theorem floor_level (m : Int) : ⌊((m : ℚ) / 255 + 0.001953125) * 16 * 16⌋ = (512 * m + 255) / 510 := by
  have hscaled : ((m : ℚ) / 255 + 0.001953125) * 16 * 16 = ((512 * m + 255 : Int) : ℚ) / (510 : ℕ) := by
    push_cast
    ring
  rw [hscaled, Int.floor_div_natCast, Int.floor_intCast]
  rfl

/-- A number of steps is read back, but for the middle one. -/
theorem floor_stored_iff {n : Int} (hn : 0 ≤ n) (hn' : n < 256) :
    ⌊(r.stored (n / 256) + 0.001953125) * 16 * 16⌋ = n ↔ n ≠ 128 := by
  obtain ⟨m, hm, hlower, hupper⟩ := stored_eq r n
  -- at 128 both levels are as near, and from neither of them does the bias lead back
  have hlevel : m = n ∨ m = n - 1 := by omega
  rw [hm, floor_level]
  rcases hlevel with rfl | rfl <;> omega

theorem floor_stored_quarter (n : Int) : ⌊(r.stored (n / 4) + 0.125) * 2 * 2⌋ = n := by
  obtain ⟨hlower, hupper⟩ := abs_le.1 (r.abs_sub_le (255 * (n / 4)))
  unfold Rounding.stored
  rw [Int.floor_eq_iff]
  constructor <;> linarith

theorem quickPackBools2_eq (triangle flip : Bool) : quickPackBools2 ⟨triangle, flip⟩ =
    (((if triangle then 2 else 0) + if flip then 1 else 0 : Int) : ℚ) / 4 := by
  cases triangle <;> cases flip <;> norm_num [quickPackBools2, Vec2.dot, Vec2.map, ofBool]

theorem unpack_bools (triangle flip : Bool) :
    quickUnpackBools2 (r.stored (quickPackBools2 ⟨triangle, flip⟩) + 0.125) = ⟨triangle, flip⟩ := by
  rw [quickPackBools2_eq, quickUnpackBools2_eq, floor_stored_quarter]
  cases triangle <;> cases flip <;> rfl

theorem unpack_floats_iff {pair : Vec2 ℚ} (hpair : pair.All fun e => 0 ≤ e ∧ e ≤ 1) :
    quickUnpackFloats2 (r.stored (quickPackFloats2 pair) + 0.001953125) = pair.map nearestTwelfth ↔
      ¬ Middle pair := by
  obtain ⟨hx, hx'⟩ := digit_bounds hpair.1
  obtain ⟨hy, hy'⟩ := digit_bounds hpair.2
  have hiff := floor_stored_iff r (n := 16 * digit pair.x + digit pair.y) (by omega) (by omega)
  have htwelfth : ∀ j k : Int, (j : ℚ) / 12 = k / 12 ↔ j = k := by
    intro j k
    rw [div_left_inj' (by norm_num)]
    exact Int.cast_inj
  have hmiddle : Middle pair ↔ digit pair.x = 8 ∧ digit pair.y = 0 := by
    have hnum := htwelfth (digit pair.x) 8
    have hzero := htwelfth (digit pair.y) 0
    push_cast at hnum hzero
    rw [Middle, nearestTwelfth_eq, nearestTwelfth_eq, hnum, ← hzero, zero_div]
  rw [quickPackFloats2_eq, quickUnpackFloats2_eq, hmiddle]
  simp only [Vec2.map, Vec2.mk.injEq, nearestTwelfth_eq, htwelfth]
  omega

/-- Flags survive the texture exactly if neither of their pairs of weights is packed at the middle of its steps. -/
theorem flags_survive_iff (triangle flip : Bool) (w : Weights) :
    Survives r triangle flip w.value ↔ ¬ Middle w.value.xy ∧ ¬ Middle w.value.zw := by
  rw [← unpack_floats_iff r w.bounds.xy, ← unpack_floats_iff r w.bounds.zw]
  have hbools := unpack_bools r triangle flip
  constructor
  · intro hsurvives
    have hweights := hsurvives.weights
    simp only [unpackedWeights, Vec4.map, Vec4.mk.injEq] at hweights
    obtain ⟨hx, hy, hz, hw⟩ := hweights
    exact ⟨Vec2.ext hx hy, Vec2.ext hz hw⟩
  · rintro ⟨hxy, hzw⟩
    refine ⟨?_, congrArg Vec2.x hbools, congrArg Vec2.y hbools⟩
    exact Vec4.ext (congrArg Vec2.x hxy) (congrArg Vec2.y hxy) (congrArg Vec2.x hzw) (congrArg Vec2.y hzw)

def nearestLevel : Rounding := ⟨lround, abs_sub_lround⟩

def twoThirds : Weights := ⟨⟨2 / 3, 0, 0, 0⟩, by norm_num, by norm_num, by norm_num, by norm_num⟩

/-- The second of the weights comes back as a twelfth. -/
theorem not_survives_twoThirds : ¬ Survives nearestLevel true false twoThirds.value := by
  rintro ⟨hweights, -⟩
  revert hweights
  decide +kernel

end EdgeFlags
end SweetHome
