import SweetHome.Touch

/-!
# The bounds of the ambient background

The shader of the background is given the box around the foreground as bounds in texture coordinates. They are
computed as if the background were not rotated, while its vertices are. So they bound what the foreground covers
if there is no rotation, and of a rotated layout only where the foreground's box is its own image under the
rotation (`leavesOut_iff`). In exact arithmetic.
-/

namespace SweetHome.AmbientBackground
open Rendering Box Letterbox Touch

section
variable {K : Type} [Field K] [LinearOrder K]

/-- The buffers that only the ambient mode uses. -/
structure AmbientLayout (K : Type) extends VideoLayout K where
  backgroundVertices : List K
  /-- From the minimum of x and of y to the maximum. -/
  relativeForegroundBounds : List K

variable (m : MathFunctions K)

namespace AmbientLayout

def updateBackgroundVertices (l : AmbientLayout K) : AmbientLayout K :=
  let cosTheta := m.cos (-l.rotation)
  let sinTheta := m.sin (-l.rotation)
  let rotatedQuad (u v : K) : List K := [u * cosTheta - v * sinTheta, u * sinTheta + v * cosTheta]
  let left : K := -(1 : Nat)
  let right : K := (1 : Nat)
  let first : K := if l.bottomLeftOrigin then -(1 : Nat) else (1 : Nat)
  let second : K := if l.bottomLeftOrigin then (1 : Nat) else -(1 : Nat)
  { l with
    backgroundVertices := rotatedQuad left first ++ rotatedQuad left second ++ rotatedQuad right first ++
      rotatedQuad right first ++ rotatedQuad left second ++ rotatedQuad right second }

/-- What a y coordinate is multiplied by. -/
def sign (l : VideoLayout K) : K := if l.bottomLeftOrigin then (1 : Nat) else -(1 : Nat)

/-- The loop leaves out the first vertex. -/
def updateRelativeForegroundBounds (l : AmbientLayout K) : AmbientLayout K :=
  let b := bounds (fun y => sign l.toVideoLayout * y) (l.foregroundVertices.drop 2)
  { l with
    relativeForegroundBounds := [(b.xMin + (1 : Nat)) / (2 : Nat), (b.yMin + (1 : Nat)) / (2 : Nat),
      (b.xMax + (1 : Nat)) / (2 : Nat), (b.yMax + (1 : Nat)) / (2 : Nat)] }

def updateBuffers (l : AmbientLayout K) : AmbientLayout K :=
  let l := { l with toVideoLayout := l.updateForegroundVertices m }
  (l.updateBackgroundVertices m).updateRelativeForegroundBounds

/-- An update of a field, with all the buffers. -/
def apply (l : AmbientLayout K) (update : Update K) : AmbientLayout K :=
  updateBuffers m { l with toVideoLayout := update.apply m l.toVideoLayout }

def make (bottomLeftOrigin : Bool) (rotation : K) (viewportRect : Rect K) : AmbientLayout K :=
  updateBuffers m
    { toVideoLayout := VideoLayout.make m bottomLeftOrigin rotation viewportRect
      backgroundVertices := []
      relativeForegroundBounds := [] }

end AmbientLayout

open AmbientLayout

/-- A layout after some updates. -/
def updatedAmbient (bottomLeftOrigin : Bool) (rotation : K) (viewportRect : Rect K) (updates : List (Update K)) :
    AmbientLayout K :=
  updates.foldl (apply m) (make m bottomLeftOrigin rotation viewportRect)

/-- The bounds, as a rectangle in texture coordinates. -/
def boundsSet (l : AmbientLayout K) : Set (K × K) :=
  match l.relativeForegroundBounds with
  | [xMin, yMin, xMax, yMax] => Set.Icc (xMin, yMin) (xMax, yMax)
  | _ => ∅

/-- The bounds are where the background is behind the box around the foreground. -/
def LeavesOut (l : AmbientLayout K) : Prop :=
  ∀ b, IsHull b (points l.foregroundVertices) → Set.preimage (quadMap (points l.backgroundVertices)) b = boundsSet l

/-! ### The buffers -/

theorem toVideoLayout_updatedAmbient (bottomLeftOrigin : Bool) (rotation : K) (viewportRect : Rect K)
    (updates : List (Update K)) :
    (updatedAmbient m bottomLeftOrigin rotation viewportRect updates).toVideoLayout =
      updated m bottomLeftOrigin rotation viewportRect updates := by
  rw [updatedAmbient, updated]
  induction updates using List.reverseRecOn with
  | nil => rfl
  | append_singleton updates update ih =>
    rw [List.foldl_concat, List.foldl_concat, ← ih]
    cases update <;> rfl

theorem updateBuffers_congr {l l' : AmbientLayout K}
    (h : l.updateForegroundVertices m = l'.updateForegroundVertices m) : updateBuffers m l = updateBuffers m l' := by
  unfold updateBuffers
  rw [h]
  rfl

theorem updateBuffers_twice (l : AmbientLayout K) : updateBuffers m (updateBuffers m l) = updateBuffers m l := by
  have hlayout : (updateBuffers m l).toVideoLayout = l.updateForegroundVertices m := rfl
  apply updateBuffers_congr
  rw [hlayout]
  rfl

theorem updateBuffers_updatedAmbient (bottomLeftOrigin : Bool) (rotation : K) (viewportRect : Rect K)
    (updates : List (Update K)) :
    updateBuffers m (updatedAmbient m bottomLeftOrigin rotation viewportRect updates) =
      updatedAmbient m bottomLeftOrigin rotation viewportRect updates := by
  rw [updatedAmbient]
  cases updates using List.reverseRecOn with
  | nil => exact updateBuffers_twice m _
  | append_singleton updates update =>
    rw [List.foldl_concat]
    exact updateBuffers_twice m _

variable {m} {l : AmbientLayout K}

theorem toVideoLayout_current (hl : updateBuffers m l = l) :
    l.toVideoLayout.updateForegroundVertices m = l.toVideoLayout :=
  congrArg toVideoLayout hl

theorem relativeForegroundBounds_current (hl : updateBuffers m l = l) :
    (updateRelativeForegroundBounds l).relativeForegroundBounds = l.relativeForegroundBounds := by
  have hbounds := congrArg relativeForegroundBounds hl
  simp only [updateBuffers, updateRelativeForegroundBounds, updateBackgroundVertices,
    toVideoLayout_current hl] at hbounds
  exact hbounds

/-- The vertex of the background for a corner of the square from -1 to 1. -/
def rotatedCorner (m : MathFunctions K) (l : VideoLayout K) (u v : K) : K × K :=
  (u * m.cos (-l.rotation) - v * m.sin (-l.rotation), u * m.sin (-l.rotation) + v * m.cos (-l.rotation))

omit [LinearOrder K] in
theorem points_updateBackgroundVertices (m : MathFunctions K) (l : AmbientLayout K) :
    points (updateBackgroundVertices m l).backgroundVertices =
      [rotatedCorner m l.toVideoLayout (-(1 : Nat)) (firstV l.toVideoLayout),
        rotatedCorner m l.toVideoLayout (-(1 : Nat)) (secondV l.toVideoLayout),
        rotatedCorner m l.toVideoLayout (1 : Nat) (firstV l.toVideoLayout),
        rotatedCorner m l.toVideoLayout (1 : Nat) (firstV l.toVideoLayout),
        rotatedCorner m l.toVideoLayout (-(1 : Nat)) (secondV l.toVideoLayout),
        rotatedCorner m l.toVideoLayout (1 : Nat) (secondV l.toVideoLayout)] := rfl

omit [LinearOrder K] in
theorem firstV_secondV (l : VideoLayout K) : firstV l = -sign l ∧ secondV l = sign l := by
  unfold firstV secondV sign
  split <;> simp

theorem points_backgroundVertices (hl : updateBuffers m l = l) :
    points l.backgroundVertices = corners 0 (m.cos (-l.rotation), m.sin (-l.rotation))
      (sign l.toVideoLayout • (-m.sin (-l.rotation), m.cos (-l.rotation))) := by
  have hbackground : (updateBackgroundVertices m l).backgroundVertices = l.backgroundVertices := by
    have hbackground := congrArg backgroundVertices hl
    simp only [updateBuffers, toVideoLayout_current hl] at hbackground
    exact hbackground
  obtain ⟨hfirst, hsecond⟩ := firstV_secondV l.toVideoLayout
  rw [← hbackground, points_updateBackgroundVertices, hfirst, hsecond, Nat.cast_one]
  simp only [corners, rotatedCorner, List.cons.injEq, Prod.ext_iff, Prod.fst_add, Prod.snd_add, Prod.fst_sub,
    Prod.snd_sub, Prod.smul_fst, Prod.smul_snd, Prod.fst_zero, Prod.snd_zero, smul_eq_mul, and_true]
  refine ⟨⟨?_, ?_⟩, ⟨?_, ?_⟩, ⟨?_, ?_⟩, ⟨?_, ?_⟩, ⟨?_, ?_⟩, ?_, ?_⟩ <;> ring

/-! ### The bounds -/

omit [Field K] [LinearOrder K] in
theorem points_drop : ∀ vertices : List K, points (vertices.drop 2) = (points vertices).tail
  | [] => rfl
  | [_] => rfl
  | _ :: _ :: _ => rfl

end

section
open AmbientLayout
variable {K : Type} [Field K] [LinearOrder K] [IsStrictOrderedRing K] {m : MathFunctions K} {k : Fin 4}

omit [LinearOrder K] [IsStrictOrderedRing K] in
theorem sign_cases (l : VideoLayout K) : sign l = 1 ∨ sign l = -1 := by
  unfold sign
  split
  · exact .inl Nat.cast_one
  · exact .inr (by rw [Nat.cast_one])

theorem abs_sign (l : VideoLayout K) : |sign l| = 1 := by
  rcases sign_cases l with h | h <;> simp [h]

omit [IsStrictOrderedRing K] in
theorem second_eq (l : VideoLayout K) : second m l = sign l • up m l := by
  unfold second sign
  split <;> simp

/-- The first vertex makes no difference to the box around an image that is turned by quarters. -/
theorem relativeBounds_eq {l : VideoLayout K} (hm : Exact m) (h : Visible l)
    (hl : l.updateForegroundVertices m = l) (hk : Turned m l k) :
    bounds (fun y => sign l * y) (l.foregroundVertices.drop 2) =
      ⟨(centre l).1 - (scale l).1, (centre l).1 + (scale l).1, sign l * (centre l).2 - (scale l).2,
        sign l * (centre l).2 + (scale l).2⟩ := by
  have hhull := isHull_corners ((centre l).1, sign l * (centre l).2) ((right m l).1, sign l * (right m l).2)
    ((second m l).1, sign l * (second m l).2)
  obtain ⟨hright, hup⟩ := right_up_turned hm h hk
  have hrectangle : sign l * (right m l).2 = 0 ∧ (second m l).1 = 0 ∨
      (right m l).1 = 0 ∧ sign l * (second m l).2 = 0 := by
    rw [second_eq, hright, hup]
    rcases quarterTurns_cases (K := K) k with ⟨-, hzero⟩ | ⟨hzero, -⟩
    · simp [hzero]
    · simp [hzero]
  have htail := IsHull.tail_corners hhull hrectangle
  rw [← map_flip_corners fun y => rfl, ← points_current hl, ← List.map_tail, ← points_drop] at htail
  obtain ⟨hx, hy⟩ := extent_eq hm h
  rw [bounds_of_isHull ?_ htail]
  · simp [ofBox, around, abs_mul, abs_sign, hx, hy]
  · rw [points_drop, points_current hl]
    exact List.cons_ne_nil _ _

/-! ### The rectangle behind the foreground -/

/-- Texture coordinates, from -1 to 1. -/
def spread (t : K × K) : K × K := ((2 : Nat) * t.1 - 1, (2 : Nat) * t.2 - 1)

theorem spread_surjective : Function.Surjective (spread : K × K → K × K) := by
  intro p
  refine ⟨((p.1 + 1) / 2, (p.2 + 1) / 2), ?_⟩
  ext
  · simp [spread]
    field_simp
    ring
  · simp [spread]
    field_simp
    ring

theorem boundsSet_eq {l : AmbientLayout K} (hm : Exact m) (h : Visible l.toVideoLayout) (hl : updateBuffers m l = l)
    (hk : Turned m l.toVideoLayout k) :
    boundsSet l = Set.preimage spread (around ((centre l.toVideoLayout).1,
      sign l.toVideoLayout * (centre l.toVideoLayout).2) (scale l.toVideoLayout)
        ⟨h.scale_pos.1.le, h.scale_pos.2.le⟩) := by
  ext t
  rw [boundsSet, ← relativeForegroundBounds_current hl, updateRelativeForegroundBounds,
    relativeBounds_eq hm h (toVideoLayout_current hl) hk]
  change t ∈ Set.Icc (_, _) (_, _) ↔ t ∈ Set.preimage spread _
  rw [Set.mem_Icc, Prod.le_def, Prod.le_def, Set.mem_preimage, SetLike.mem_coe, mem_around, abs_le, abs_le]
  simp only [spread, Nat.cast_ofNat, Nat.cast_one]
  constructor
  · rintro ⟨⟨hleft, htop⟩, hright, hbottom⟩
    exact ⟨⟨by linarith, by linarith⟩, by linarith, by linarith⟩
  · rintro ⟨⟨hleft, hright⟩, htop, hbottom⟩
    exact ⟨⟨by linarith, by linarith⟩, by linarith, by linarith⟩

theorem shows_backgroundVertices {l : AmbientLayout K} (hl : updateBuffers m l = l) {t p : K × K} :
    Shows ((points l.backgroundVertices).zip square) t p ↔
      (0 ≤ t ∧ t ≤ 1) ∧ p = quadMap (points l.backgroundVertices) t := by
  rw [points_backgroundVertices hl, shows_corners_iff, quadMap_corners]

/-- The extent of the box around the foreground, in the directions of the texture coordinates. -/
def turnedScale (k : Fin 4) (l : VideoLayout K) : K × K :=
  (|(quarterTurns k).1| * (scale l).1 + |(quarterTurns k).2| * (scale l).2,
    |(quarterTurns k).2| * (scale l).1 + |(quarterTurns k).1| * (scale l).2)

/-- Its centre. -/
def turnedCentre (k : Fin 4) (l : VideoLayout K) : K × K :=
  ((quarterTurns k).1 * (centre l).1 + (quarterTurns k).2 * (centre l).2,
    sign l * ((quarterTurns k).1 * (centre l).2 - (quarterTurns k).2 * (centre l).1))

theorem turnedScale_nonneg {l : VideoLayout K} (h : Visible l) : 0 ≤ turnedScale k l := by
  obtain ⟨hx, hy⟩ := h.scale_pos
  constructor
  · simp only [turnedScale]
    positivity
  · simp only [turnedScale]
    positivity

theorem abs_unit_mul_sub {c : K} (hc : |c| = 1) (x y : K) : |c * x - y| = |x - c * y| := by
  have hsq : c * c = 1 := by rw [← abs_mul_abs_self, hc, one_mul]
  have hfactor : c * x - y = c * (x - c * y) := by
    rw [mul_sub, ← mul_assoc, hsq, one_mul]
  rw [hfactor, abs_mul, hc, one_mul]

omit [LinearOrder K] [IsStrictOrderedRing K] in
theorem onto_turned (c s σ : K) (t : K × K) :
    onto 0 (c, s) (σ • (-s, c)) t =
      (c * (spread t).1 + -(σ * s) * (spread t).2, s * (spread t).1 + σ * c * (spread t).2) := by
  ext
  · simp [onto, spread]
    ring
  · simp [onto, spread]
    ring

theorem preimage_eq {l : AmbientLayout K} (h : Visible l.toVideoLayout) (hl : updateBuffers m l = l)
    (hk : Turned m l.toVideoLayout k) :
    Set.preimage (quadMap (points l.backgroundVertices))
        (around (centre l.toVideoLayout) (scale l.toVideoLayout) ⟨h.scale_pos.1.le, h.scale_pos.2.le⟩) =
      Set.preimage spread (around (turnedCentre k l.toVideoLayout) (turnedScale k l.toVideoLayout)
        (turnedScale_nonneg h)) := by
  obtain ⟨hcos, hsin⟩ := Prod.ext_iff.1 hk
  dsimp only at hcos hsin
  have hsign := abs_sign l.toVideoLayout
  ext t
  rw [points_backgroundVertices hl, hcos, hsin, Set.mem_preimage, Set.mem_preimage, quadMap_corners, onto_turned,
    SetLike.mem_coe, SetLike.mem_coe, mem_around, mem_around, turnedCentre, turnedScale]
  rcases quarterTurns_cases (K := K) k with ⟨hone, hzero⟩ | ⟨hzero, hone⟩
  · have hvertical : |sign l.toVideoLayout * (quarterTurns k).1| = 1 := by rw [abs_mul, hsign, hone, one_mul]
    have hy := abs_unit_mul_sub hvertical (spread t).2 (centre l.toVideoLayout).2
    simp only [mul_assoc] at hy
    simp [hone, hzero, abs_unit_mul_sub hone, hy, mul_assoc]
  · have hhorizontal : |-(sign l.toVideoLayout * (quarterTurns k).2)| = 1 := by
      rw [abs_neg, abs_mul, hsign, hone, one_mul]
    have hx := abs_unit_mul_sub hhorizontal (spread t).2 (centre l.toVideoLayout).1
    simp only [neg_mul, mul_assoc] at hx
    simp [hone, hzero, abs_unit_mul_sub hone, hx, mul_assoc, and_comm]

/-! ### When the bounds are right -/

/-- The image is not turned, or it is in the middle of the screen and has its sides where they were. -/
def Symmetric (k : Fin 4) (l : VideoLayout K) : Prop :=
  k.val = 0 ∨ ((2 : Nat) * l.viewportRect.x + l.viewportRect.width = 1 ∧
    (2 : Nat) * l.viewportRect.y + l.viewportRect.height = 1) ∧
      (k.val = 2 ∨ l.aspectRatio = l.screenWidth / l.screenHeight)

theorem centre_eq_zero_iff {l : VideoLayout K} :
    ((centre l).1 = 0 ↔ (2 : Nat) * l.viewportRect.x + l.viewportRect.width = 1) ∧
      ((centre l).2 = 0 ↔ (2 : Nat) * l.viewportRect.y + l.viewportRect.height = 1) := by
  simp only [centre, Nat.cast_ofNat]
  constructor
  · constructor <;> intro heq <;> linarith
  · constructor <;> intro heq <;> linarith

/-- The box around the foreground is as wide as high in the coordinates of the vertices if the image is to the
screen. -/
theorem scale_eq_iff {l : VideoLayout K} (h : Visible l) :
    (scale l).1 = (scale l).2 ↔ l.aspectRatio = l.screenWidth / l.screenHeight := by
  have hw : (0 : K) < l.screenWidth := Nat.cast_pos.2 h.screenWidth
  have hh : (0 : K) < l.screenHeight := Nat.cast_pos.2 h.screenHeight
  obtain ⟨hx, hy⟩ := h.scale_pos
  have hratio := (scale_fits h).1
  simp only [sizeInPixels, Nat.cast_ofNat] at hratio
  rw [eq_div_iff hh.ne']
  constructor
  · intro heq
    rw [heq] at hratio
    have hcancel : (scale l).2 * (l.screenWidth : K) = (scale l).2 * (l.aspectRatio * l.screenHeight) := by linarith
    exact (mul_left_cancel₀ hy.ne' hcancel).symm
  · intro heq
    have hcancel : (scale l).1 * (l.screenWidth : K) = (scale l).2 * l.screenWidth := by
      rw [← heq] at hratio ⊢
      linarith
    exact mul_right_cancel₀ hw.ne' hcancel

theorem turnedCentre_eq_iff (k : Fin 4) (l : VideoLayout K) :
    turnedCentre k l = ((centre l).1, sign l * (centre l).2) ↔ k.val = 0 ∨ (centre l).1 = 0 ∧ (centre l).2 = 0 := by
  have hsign : sign l ≠ 0 := by
    rcases sign_cases l with h | h <;> simp [h]
  rw [turnedCentre, Prod.mk.injEq, mul_right_inj' hsign]
  by_cases hk : k.val = 0
  · obtain rfl : k = 0 := Fin.ext hk
    simp [quarterTurns]
  · rw [or_iff_right hk]
    constructor
    · rintro ⟨hx, hy⟩
      fin_cases k
      · exact absurd rfl hk
      all_goals
        simp only [quarterTurns, zero_mul, one_mul, neg_mul, zero_add, add_zero, zero_sub, sub_zero, neg_neg] at hx hy
        exact ⟨by linarith, by linarith⟩
    · rintro ⟨hx, hy⟩
      simp [hx, hy]

theorem turnedScale_eq_iff (k : Fin 4) (l : VideoLayout K) :
    turnedScale k l = scale l ↔ k.val = 0 ∨ k.val = 2 ∨ (scale l).1 = (scale l).2 := by
  have hsides : ((scale l).2, (scale l).1) = scale l ↔ (scale l).1 = (scale l).2 := by
    rw [Prod.ext_iff]
    exact ⟨fun heq => heq.2, fun heq => ⟨heq.symm, heq⟩⟩
  fin_cases k <;> simp [turnedScale, quarterTurns, hsides]

/-- With the centre and the sides of its box unchanged, the image is where the bounds say. -/
theorem turned_iff {l : VideoLayout K} (h : Visible l) :
    (turnedCentre k l = ((centre l).1, sign l * (centre l).2) ∧ turnedScale k l = scale l) ↔ Symmetric k l := by
  rw [turnedCentre_eq_iff, turnedScale_eq_iff, ← or_and_left, centre_eq_zero_iff.1, centre_eq_zero_iff.2,
    scale_eq_iff h, Symmetric]

theorem leavesOut_current_iff {l : AmbientLayout K} (hm : Exact m) (h : Visible l.toVideoLayout)
    (hl : updateBuffers m l = l) (hk : Turned m l.toVideoLayout k) : LeavesOut l ↔ Symmetric k l.toVideoLayout := by
  have hhull := isHull_corners (centre l.toVideoLayout) (right m l.toVideoLayout) (second m l.toVideoLayout)
  obtain ⟨hx, hy⟩ := extent_eq hm h
  simp only [hx, hy, Prod.mk.eta] at hhull
  rw [← points_current (toVideoLayout_current hl)] at hhull
  have hleaves : LeavesOut l ↔ Set.preimage (quadMap (points l.backgroundVertices))
      (around (centre l.toVideoLayout) (scale l.toVideoLayout) ⟨h.scale_pos.1.le, h.scale_pos.2.le⟩) =
        boundsSet l := by
    constructor
    · intro hall
      exact hall _ hhull
    · intro heq b hb
      rw [hb.unique hhull]
      exact heq
  rw [hleaves, preimage_eq h hl hk, boundsSet_eq hm h hl hk, (Set.preimage_injective.2 spread_surjective).eq_iff,
    SetLike.coe_set_eq, around_inj, turned_iff h]

/-- After any updates, the bounds leave out the picture exactly if it is where it would be without the rotation. -/
theorem leavesOut_iff (hm : Exact m) (bottomLeftOrigin : Bool) (rotation : K) (viewportRect : Rect K)
    (updates : List (Update K)) (h : Visible (updated m bottomLeftOrigin rotation viewportRect updates))
    (hk : Turned m (updated m bottomLeftOrigin rotation viewportRect updates) k) :
    LeavesOut (updatedAmbient m bottomLeftOrigin rotation viewportRect updates) ↔
      Symmetric k (updated m bottomLeftOrigin rotation viewportRect updates) := by
  have hlayout := toVideoLayout_updatedAmbient m bottomLeftOrigin rotation viewportRect updates
  rw [← hlayout] at h hk ⊢
  exact leavesOut_current_iff hm h (updateBuffers_updatedAmbient ..) hk

end

/-! ### A picture on its side -/

/-- A picture of 4:3, turned by a quarter, on a screen of 16:9. -/
def side : AmbientLayout ℚ :=
  updatedAmbient cmath false (-1) ⟨0, 0, 1, 1⟩ [.updateScreenSize 16 9, .updateAspectRatio (4 / 3)]

theorem visible_side : Visible side.toVideoLayout where
  screenWidth := by decide
  screenHeight := by decide
  width := one_pos
  height := one_pos
  aspectRatio := show (0 : ℚ) < 4 / 3 by norm_num

/-- On a screen of its own ratio, the bounds are right. -/
theorem leavesOut_turned : LeavesOut (updatedAmbient cmath false (-1) ⟨0, 0, 1, 1⟩ [.updateScreenSize 1 1]) := by
  have hcentred : ((2 : Nat) : ℚ) * 0 + 1 = 1 := by norm_num
  have hratio : ((1 : Nat) : ℚ) = (1 : Nat) / (1 : Nat) := by norm_num
  exact (leavesOut_iff (k := 1) exact_cmath false (-1) ⟨0, 0, 1, 1⟩ [.updateScreenSize 1 1] visible_turned
    turned_turned).2 (.inr ⟨⟨hcentred, hcentred⟩, .inr hratio⟩)

/-- On another, they are those of a picture that stands upright. -/
theorem not_leavesOut_side : ¬ LeavesOut side := by
  have hturned : Turned cmath side.toVideoLayout 1 := rfl
  rw [leavesOut_current_iff exact_cmath visible_side (updateBuffers_updatedAmbient ..) hturned]
  rintro (hk | ⟨-, hk | hratio⟩)
  · exact absurd hk (by decide)
  · exact absurd hk (by decide)
  · have hratio : (4 / 3 : ℚ) = (16 : Nat) / (9 : Nat) := hratio
    norm_num at hratio

end SweetHome.AmbientBackground
