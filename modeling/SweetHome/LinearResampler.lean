import SweetHome.Audio
import Mathlib.Data.Rat.Floor
import Mathlib.LinearAlgebra.AffineSpace.AffineMap
import Mathlib.Tactic.FieldSimp
import Mathlib.Tactic.Linarith
import Mathlib.Tactic.Positivity

/-!
# The linear resampler

In exact arithmetic, `outputTime * inputFrames` is the position of the output frame among the input frames, and
each sample that is written interpolates the two samples around it (`resample_interpolates`). With no input
frames, the neighbour on the right is one before the first (`reads_inside_iff`).
-/

namespace SweetHome.LinearResampler
open Audio

section
variable {K : Type} [Field K] [LinearOrder K] [FloorRing K]

/-- `std::modf`: the fractional and the integral part, both with the sign of the argument. -/
def modf (x : K) : K × Int := (x - truncate x, truncate x)

structure State (K : Type) [Field K] where
  outputTime : K := 0
  sink : List Int16 := []
  /-- The indices of the source that were read. -/
  reads : List Int := []

variable (source : Int → Int16) (inputFrames : Int)

def floorFrame (position : K) : Int := (modf position).2

def ceilFrame (position : K) : Int := min (floorFrame position + 1) (inputFrames - 1)

/-- The indices of a channel that are read for a position, and the sample that is written: the conversion of a
`double` to an `int16_t`. -/
def mix (position : K) (channel : Int) : List Int × Int16 :=
  let ceilIndex := ceilFrame inputFrames position * 2 + channel
  let floorIndex := floorFrame position * 2 + channel
  let floatingPart := (modf position).1
  ([ceilIndex, floorIndex], Int16.ofInt (truncate
    ((source ceilIndex).toInt * floatingPart + (source floorIndex).toInt * (1 - floatingPart) : K)))

/-- A round of the loop. -/
def State.next (outputTimeStep : K) (s : State K) : State K :=
  let left := mix source inputFrames (s.outputTime * inputFrames) 0
  let right := mix source inputFrames (s.outputTime * inputFrames) 1
  { outputTime := s.outputTime + outputTimeStep
    sink := s.sink ++ [left.2, right.2]
    reads := s.reads ++ (left.1 ++ right.1) }

/-- `while (sinkFrames > 0)` -/
def loop (outputTimeStep : K) : Nat → State K → State K
  | 0, s => s
  | sinkFrames + 1, s => loop outputTimeStep sinkFrames (s.next source inputFrames outputTimeStep)

def resample (sinkFrames : Nat) : State K := loop source inputFrames (1 / sinkFrames) sinkFrames {}

/-! ### What is interpolated -/

/-- The frames around a position; beyond the end there is the last. -/
def neighbours (position : K) : Int × Int := (⌊position⌋, min (⌊position⌋ + 1) (inputFrames - 1))

/-- The samples of a channel, linearly interpolated at a position. -/
def interpolate (channel : Int) (position : K) : K :=
  AffineMap.lineMap ((source ((neighbours inputFrames position).1 * 2 + channel)).toInt : K)
    ((source ((neighbours inputFrames position).2 * 2 + channel)).toInt : K) (Int.fract position)

/-! ### The loop -/

variable {source inputFrames}

theorem loop_eq (outputTimeStep : K) (n : Nat) (s : State K) :
    loop source inputFrames outputTimeStep n s =
      { outputTime := s.outputTime + n * outputTimeStep
        sink := s.sink ++ (List.range n).flatMap fun k : Nat =>
          (State.next source inputFrames outputTimeStep { outputTime := s.outputTime + k * outputTimeStep }).sink
        reads := s.reads ++ (List.range n).flatMap fun k : Nat =>
          (State.next source inputFrames outputTimeStep { outputTime := s.outputTime + k * outputTimeStep }).reads
      } := by
  induction n generalizing s with
  | zero => simp [loop]
  | succ n ih =>
    have htime : ∀ k : Nat, s.outputTime + outputTimeStep + k * outputTimeStep =
        s.outputTime + (k + 1 : Nat) * outputTimeStep := by
      intro k
      push_cast
      ring
    rw [loop, ih, List.range_succ_eq_map, List.flatMap_cons, List.flatMap_cons, List.flatMap_map, List.flatMap_map]
    simp [State.next, htime]

/-- The position of an output frame among the input frames. -/
def position (inputFrames : Int) (sinkFrames k : Nat) : K := k * (1 / sinkFrames) * inputFrames

theorem position_eq (inputFrames : Int) (sinkFrames k : Nat) :
    (position inputFrames sinkFrames k : K) = k * inputFrames / sinkFrames := by
  rw [position]
  ring

theorem position_self {n : Nat} (hn : 0 < n) (k : Nat) : (position n n k : K) = (k : Int) := by
  have hne : (n : K) ≠ 0 := Nat.cast_ne_zero.2 hn.ne'
  rw [position_eq]
  push_cast
  field_simp

theorem sink_resample (sinkFrames : Nat) :
    (resample source inputFrames sinkFrames : State K).sink = (List.range sinkFrames).flatMap fun k =>
      [(mix source inputFrames (position inputFrames sinkFrames k : K) 0).2,
        (mix source inputFrames (position inputFrames sinkFrames k : K) 1).2] := by
  rw [resample, loop_eq]
  simp [State.next, position]

theorem reads_resample (sinkFrames : Nat) :
    (resample source inputFrames sinkFrames : State K).reads = (List.range sinkFrames).flatMap fun k =>
      (mix source inputFrames (position inputFrames sinkFrames k : K) 0).1 ++
        (mix source inputFrames (position inputFrames sinkFrames k : K) 1).1 := by
  rw [resample, loop_eq]
  simp [State.next, position]

theorem length_sink_resample (sinkFrames : Nat) :
    (resample source inputFrames sinkFrames : State K).sink.length = 2 * sinkFrames := by
  rw [sink_resample, List.length_flatMap]
  simp [Nat.mul_comm]

/-! ### A sample -/

theorem truncate_of_nonneg {x : K} (h : 0 ≤ x) : truncate x = ⌊x⌋ := if_pos h

theorem modf_of_nonneg {x : K} (h : 0 ≤ x) : modf x = (Int.fract x, ⌊x⌋) := by
  rw [modf, truncate_of_nonneg h, Int.fract]

variable [IsStrictOrderedRing K]

theorem truncate_bounds {x : K} {a b : Int} (ha : a ≤ x) (hb : x ≤ b) : a ≤ truncate x ∧ truncate x ≤ b := by
  unfold truncate
  split
  · exact ⟨Int.le_floor.2 ha, Int.cast_le.1 ((Int.floor_le x).trans hb)⟩
  · exact ⟨Int.cast_le.1 (ha.trans (Int.le_ceil x)), Int.ceil_le.2 hb⟩

theorem lineMap_bounds (a b : Int) {f : K} (hf : 0 ≤ f) (hf' : f ≤ 1) :
    (min a b : Int) ≤ AffineMap.lineMap (a : K) (b : K) f ∧
      AffineMap.lineMap (a : K) (b : K) f ≤ (max a b : Int) := by
  rw [AffineMap.lineMap_apply_ring]
  have hmin : ((min a b : Int) : K) ≤ a ∧ ((min a b : Int) : K) ≤ b :=
    ⟨Int.cast_le.2 (min_le_left a b), Int.cast_le.2 (min_le_right a b)⟩
  have hmax : (a : K) ≤ (max a b : Int) ∧ (b : K) ≤ (max a b : Int) :=
    ⟨Int.cast_le.2 (le_max_left a b), Int.cast_le.2 (le_max_right a b)⟩
  constructor
  · nlinarith
  · nlinarith

/-- The integer that an interpolated sample is cut off to is between its neighbours. -/
theorem interpolate_bounds (channel : Int) (x : K) :
    min (source ((neighbours inputFrames x).1 * 2 + channel)).toInt
        (source ((neighbours inputFrames x).2 * 2 + channel)).toInt ≤
      truncate (interpolate source inputFrames channel x) ∧
    truncate (interpolate source inputFrames channel x) ≤
      max (source ((neighbours inputFrames x).1 * 2 + channel)).toInt
        (source ((neighbours inputFrames x).2 * 2 + channel)).toInt := by
  obtain ⟨hmin, hmax⟩ := lineMap_bounds (source ((neighbours inputFrames x).1 * 2 + channel)).toInt
    (source ((neighbours inputFrames x).2 * 2 + channel)).toInt (Int.fract_nonneg x) (Int.fract_lt_one x).le
  exact truncate_bounds hmin hmax

/-- A sample is what is interpolated at its position, and always fits. -/
theorem toInt_mix {x : K} (h : 0 ≤ x) (channel : Int) :
    (mix source inputFrames x channel).2.toInt = truncate (interpolate source inputFrames channel x) := by
  have hmix : ((source (ceilFrame inputFrames x * 2 + channel)).toInt * (modf x).1 +
      (source (floorFrame x * 2 + channel)).toInt * (1 - (modf x).1) : K) =
        interpolate source inputFrames channel x := by
    rw [interpolate, AffineMap.lineMap_apply_ring, ceilFrame, floorFrame, modf_of_nonneg h, neighbours]
    dsimp only
    ring
  obtain ⟨hmin, hmax⟩ : min _ _ ≤ truncate (interpolate source inputFrames channel x) ∧
      truncate (interpolate source inputFrames channel x) ≤ max _ _ := interpolate_bounds channel x
  rw [mix, hmix]
  refine Int16.toInt_ofInt_of_le ?_ ?_
  · exact le_trans (le_min (Int16.le_toInt _) (Int16.le_toInt _)) hmin
  · exact lt_of_le_of_lt hmax (max_lt (Int16.toInt_lt _) (Int16.toInt_lt _))

/-! ### The positions -/

theorem position_nonneg {inputFrames : Int} (h : 0 ≤ inputFrames) (sinkFrames k : Nat) :
    (0 : K) ≤ position inputFrames sinkFrames k := by
  have hcast : (0 : K) ≤ inputFrames := Int.cast_nonneg h
  rw [position]
  positivity

theorem position_lt {inputFrames : Int} (h : 0 < inputFrames) {sinkFrames k : Nat} (hk : k < sinkFrames) :
    (position inputFrames sinkFrames k : K) < inputFrames := by
  have hsink : (0 : K) < sinkFrames := Nat.cast_pos.2 (by omega)
  have hcast : (0 : K) < inputFrames := Int.cast_pos.2 h
  rw [position_eq, div_lt_iff₀ hsink, mul_comm]
  exact mul_lt_mul_of_pos_left (Nat.cast_lt.2 hk) hcast

theorem interpolate_intCast (channel i : Int) :
    interpolate source inputFrames channel (i : K) = (source (i * 2 + channel)).toInt := by
  rw [interpolate, Int.fract_intCast, AffineMap.lineMap_apply_zero, neighbours, Int.floor_intCast]

theorem toInt_sink_resample (hinput : 0 ≤ inputFrames) (sinkFrames : Nat) :
    (resample source inputFrames sinkFrames : State K).sink.map Int16.toInt =
      (List.range sinkFrames).flatMap fun k : Nat =>
        [truncate (interpolate source inputFrames 0 (k * inputFrames / sinkFrames : K)),
          truncate (interpolate source inputFrames 1 (k * inputFrames / sinkFrames : K))] := by
  rw [sink_resample, List.map_flatMap]
  refine List.flatMap_congr fun k _ => ?_
  have hpos := position_nonneg (K := K) hinput sinkFrames k
  rw [List.map_cons, List.map_cons, List.map_nil, toInt_mix hpos, toInt_mix hpos, position_eq]

theorem truncate_intCast (i : Int) : truncate (i : K) = i := by
  obtain ⟨hle, hge⟩ := truncate_bounds (x := (i : K)) le_rfl le_rfl
  omega

theorem flatMap_range_pairs {α : Type} (f : Int → α) (n : Nat) :
    ((List.range n).flatMap fun k : Nat => [f ((k : Int) * 2 + 0), f ((k : Int) * 2 + 1)]) =
      (List.range (2 * n)).map fun i : Nat => f i := by
  induction n with
  | zero => rfl
  | succ n ih =>
    rw [List.range_succ, List.flatMap_append, ih, Nat.mul_succ, List.range_add, List.map_append]
    simp [List.range_succ, mul_comm]

/-- As many frames as there are come out as they are. -/
theorem resample_self (source : Int → Int16) {n : Nat} (hn : 0 < n) :
    (resample source n n : State K).sink = (List.range (2 * n)).map fun i : Nat => source i := by
  refine (List.map_inj_right fun _ _ => Int16.toInt_inj.1).1 ?_
  rw [toInt_sink_resample (Int.natCast_nonneg n), ← flatMap_range_pairs, List.map_flatMap]
  refine List.flatMap_congr fun k _ => ?_
  rw [← position_eq, position_self hn, interpolate_intCast, interpolate_intCast, truncate_intCast, truncate_intCast,
    List.map_cons, List.map_cons, List.map_nil]

theorem resample_interpolates (source : Int → Int16) (inputFrames sinkFrames : ℕ+) :
    (resample source inputFrames sinkFrames : State K).sink.map Int16.toInt =
      ((List.range sinkFrames).flatMap fun k : Nat =>
        [truncate (interpolate source inputFrames 0 (k * (inputFrames : Int) / (sinkFrames : Nat) : K)),
          truncate (interpolate source inputFrames 1 (k * (inputFrames : Int) / (sinkFrames : Nat) : K))]) ∧
    (∀ (x : K) (channel : Int),
      let (left, right) := neighbours inputFrames x
      min (source (left * 2 + channel)).toInt (source (right * 2 + channel)).toInt ≤
          truncate (interpolate source inputFrames channel x) ∧
        truncate (interpolate source inputFrames channel x) ≤
          max (source (left * 2 + channel)).toInt (source (right * 2 + channel)).toInt) ∧
    (inputFrames = sinkFrames →
      (resample source inputFrames sinkFrames : State K).sink =
        (List.range (2 * sinkFrames)).map fun i : Nat => source i) := by
  refine ⟨toInt_sink_resample (by omega) sinkFrames, fun x channel => interpolate_bounds channel x, ?_⟩
  rintro rfl
  exact resample_self source inputFrames.pos

/-- Two frames are played as two. -/
theorem resample_two_two : (resample (fun i => Int16.ofInt (7 * i)) 2 2 : State ℚ).sink = [0, 7, 14, 21] := by
  have h := (resample_interpolates (K := ℚ) (fun i => Int16.ofInt (7 * i)) 2 2).2.2 rfl
  exact h.trans rfl

/-! ### The indices that are read -/

theorem floor_position {inputFrames : Int} (h : 0 < inputFrames) {sinkFrames k : Nat} (hk : k < sinkFrames) :
    0 ≤ floorFrame (position inputFrames sinkFrames k : K) ∧
      floorFrame (position inputFrames sinkFrames k : K) < inputFrames := by
  have hpos := position_nonneg (K := K) h.le sinkFrames k
  rw [floorFrame, modf_of_nonneg hpos]
  exact ⟨Int.floor_nonneg.2 hpos, Int.floor_lt.2 (position_lt h hk)⟩

/-- The loop stays among the frames that there are, and with none goes before the first. -/
theorem reads_inside_iff (inputFrames : Int) (sinkFrames : Nat) :
    (∀ i ∈ (resample source inputFrames sinkFrames : State K).reads, 0 ≤ i ∧ i ≤ 2 * inputFrames - 1) ↔
      sinkFrames = 0 ∨ 1 ≤ inputFrames := by
  rw [reads_resample]
  simp only [List.mem_flatMap, List.mem_range, List.mem_append, mix, List.mem_cons, List.not_mem_nil, or_false]
  constructor
  · intro h
    rcases Nat.eq_zero_or_pos sinkFrames with hzero | hpos
    · exact .inl hzero
    · obtain ⟨hlow, hhigh⟩ := h _ ⟨0, hpos, .inl (.inl rfl)⟩
      exact .inr (by omega)
  · rintro (rfl | hinput) i ⟨k, hk, hi⟩
    · omega
    · have hpos : 0 < inputFrames := by omega
      obtain ⟨hlow, hhigh⟩ := floor_position (K := K) hpos hk
      have hceil := min_le_right (floorFrame (position inputFrames sinkFrames k : K) + 1) (inputFrames - 1)
      have hceil' : 0 ≤ ceilFrame inputFrames (position inputFrames sinkFrames k : K) :=
        le_min (by omega) (by omega)
      rw [ceilFrame] at hceil' hi
      omega

end

end SweetHome.LinearResampler
