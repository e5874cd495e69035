import SweetHome.Input
import SweetHome.Letterbox
import SweetHome.Lib.Triangles
import Mathlib.Tactic.FinCases

/-!
# Touches

A touch is placed in the box around the foreground, whichever way the image lies in there. So what the core is told
is the point of the image under the finger as long as the image is not rotated; of a rotated image it is only in
the middle (`hits_iff`). In exact arithmetic.
-/

namespace SweetHome.Touch
open Rendering Box Letterbox Input

section
variable {K : Type} [Field K] [LinearOrder K]

/-! ### The loop over the vertices -/

/-- The vertices lie between the limits of a `float`, which the source starts from. -/
structure Bounds (K : Type) where
  xMin : K
  xMax : K
  yMin : K
  yMax : K

def Bounds.add (b : Bounds K) (x y : K) : Bounds K where
  xMin := min b.xMin x
  xMax := max b.xMax x
  yMin := min b.yMin y
  yMax := max b.yMax y

/-- A loop that takes the y coordinates through `flip`. -/
def bounds (flip : K → K) (vertices : List K) : Bounds K :=
  match points vertices with
  | p :: ps => ps.foldl (fun b q => b.add q.1 (flip q.2)) ⟨p.1, p.1, flip p.2, flip p.2⟩
  | [] => ⟨0, 0, 0, 0⟩

def ofBox (b : Box K) : Bounds K := ⟨b.fst.1, b.snd.1, b.fst.2, b.snd.2⟩

omit [Field K] in
theorem foldl_add (flip : K → K) (ps : List (K × K)) (b : Box K) :
    ps.foldl (fun b q => b.add q.1 (flip q.2)) (ofBox b) =
      ofBox ((ps.map fun q => (q.1, flip q.2)).foldl (fun (b : Box K) q => b ⊔ .pure q) b) := by
  induction ps generalizing b with
  | nil => rfl
  | cons p ps ih => exact ih (b ⊔ .pure (p.1, flip p.2))

theorem bounds_of_isHull {flip : K → K} {vertices : List K} {b : Box K} (hne : points vertices ≠ [])
    (hb : IsHull b ((points vertices).map fun p => (p.1, flip p.2))) : bounds flip vertices = ofBox b := by
  unfold bounds
  rcases hpoints : points vertices with _ | ⟨p, ps⟩
  · exact absurd hpoints hne
  · rw [hpoints, List.map_cons] at hb
    rw [hb.unique (isHull_hull _ _)]
    exact foldl_add flip ps (.pure (p.1, flip p.2))

/-! ### A touch -/

/-- The y axis of a touch points down. -/
def getRelativePosition (l : VideoLayout K) (touchX touchY : K) : K × K :=
  let b := bounds (fun y => -y) l.foregroundVertices
  if touchX < b.xMin ∨ b.xMax < touchX ∨ touchY < b.yMin ∨ b.yMax < touchY then (-(10 : Nat), -(10 : Nat))
  else ((touchX - b.xMin) / (b.xMax - b.xMin), (touchY - b.yMin) / (b.yMax - b.yMin))

/-- `GLRetroView.normalizeTouchCoordinates`, for a view of that size. -/
def normalizeTouchCoordinates (width height : Nat) (x y : K) : K × K :=
  let clamp (x : K) := min (max x (-1)) 1
  (clamp ((2 : Nat) * x / width - 1), clamp ((2 : Nat) * y / height - 1))

variable [FloorRing K]

def onTouchEvent (l : VideoLayout K) (pads : Pads K) (xAxis yAxis : K) : Pads K :=
  let (x, y) := getRelativePosition l xAxis yAxis
  onMotionEvent pads 0 MOTION_SOURCE_POINTER x y

def RETRO_DEVICE_ID_POINTER_X : UInt32 := 0
def RETRO_DEVICE_ID_POINTER_Y : UInt32 := 1
def RETRO_DEVICE_ID_POINTER_PRESSED : UInt32 := 2

/-- The point of the texture for a point of the image. The first row of a texture with a bottom left origin is the
bottom of the image. -/
def texturePoint (l : VideoLayout K) (u v : K) : K × K := (u, if l.bottomLeftOrigin then 1 - v else v)

/-- The foreground shows a point of the image at a position on the screen. -/
def Displays (l : VideoLayout K) (u v : K) (p : K × K) : Prop :=
  Shows ((points l.foregroundVertices).zip square) (texturePoint l u v) p

/-- A touch there is reported as a press on that point. -/
def Hits (l : VideoLayout K) (pads : Pads K) (u v : K) (p : K × K) : Prop :=
  let pads := onTouchEvent l pads p.1 (-p.2)
  getInputState pads 0 RETRO_DEVICE_POINTER 0 RETRO_DEVICE_ID_POINTER_PRESSED = 1 ∧
    getInputState pads 0 RETRO_DEVICE_POINTER 0 RETRO_DEVICE_ID_POINTER_X =
      Audio.truncate (((2 : Nat) * u - 1) * MAX_RANGE_MOTION) ∧
    getInputState pads 0 RETRO_DEVICE_POINTER 0 RETRO_DEVICE_ID_POINTER_Y =
      Audio.truncate (((2 : Nat) * v - 1) * MAX_RANGE_MOTION)

/-! ### Quarter turns -/

/-- The cosine and the sine of some quarter turns. -/
def quarterTurns : Fin 4 → K × K
  | 0 => (1, 0)
  | 1 => (0, 1)
  | 2 => (-1, 0)
  | 3 => (0, -1)

/-- A layout is rotated by `k` quarter turns. -/
def Turned (m : MathFunctions K) (l : VideoLayout K) (k : Fin 4) : Prop :=
  (m.cos (-l.rotation), m.sin (-l.rotation)) = quarterTurns k

/-- What is reported for a point of the image, both from -1 to 1: a rotation that is not undone. -/
def reported (k : Fin 4) (x y : K) : K × K :=
  ((quarterTurns k).1 * x + (quarterTurns k).2 * y, (quarterTurns k).1 * y - (quarterTurns k).2 * x)

end

section
variable {K : Type} [Field K] [LinearOrder K] [IsStrictOrderedRing K] {m : MathFunctions K} {l : VideoLayout K}

/-! ### The box around the foreground -/

omit [LinearOrder K] [IsStrictOrderedRing K] in
theorem map_flip_corners {flip : K → K} {sign : K} (hflip : ∀ y, flip y = sign * y) (c a b : K × K) :
    (corners c a b).map (fun p => (p.1, flip p.2)) =
      corners (c.1, sign * c.2) (a.1, sign * a.2) (b.1, sign * b.2) := by
  simp [corners, hflip, mul_add, mul_sub]

omit [IsStrictOrderedRing K] in
theorem points_current (hl : l.updateForegroundVertices m = l) :
    points l.foregroundVertices = corners (centre l) (right m l) (second m l) := by
  conv_lhs => rw [← hl]
  exact points_foregroundVertices m l

theorem bounds_foreground (hm : Exact m) (h : Visible l) (hl : l.updateForegroundVertices m = l) {flip : K → K}
    {sign : K} (hflip : ∀ y, flip y = sign * y) (hsign : |sign| = 1) :
    bounds flip l.foregroundVertices = ⟨(centre l).1 - (scale l).1, (centre l).1 + (scale l).1,
      sign * (centre l).2 - (scale l).2, sign * (centre l).2 + (scale l).2⟩ := by
  have hhull := isHull_corners ((centre l).1, sign * (centre l).2) ((right m l).1, sign * (right m l).2)
    ((second m l).1, sign * (second m l).2)
  rw [← map_flip_corners hflip, ← points_current hl] at hhull
  obtain ⟨hx, hy⟩ := extent_eq hm h
  rw [bounds_of_isHull (by simp [points_current hl, corners]) hhull]
  simp [ofBox, around, abs_mul, hsign, hx, hy]

/-! ### Where a point is displayed -/

/-- The position that the foreground shows a point of the image at. -/
def position (m : MathFunctions K) (l : VideoLayout K) (u v : K) : K × K :=
  centre l + ((2 : Nat) * u - 1) • right m l - ((2 : Nat) * v - 1) • up m l

omit [IsStrictOrderedRing K] in
theorem onto_texturePoint (u v : K) :
    onto (centre l) (right m l) (second m l) (texturePoint l u v) = position m l u v := by
  unfold onto texturePoint second position
  split
  · have hflip : (2 : Nat) * (1 - v) - 1 = -((2 : Nat) * v - 1) := by
      push_cast
      ring
    dsimp only
    rw [hflip, neg_smul, ← sub_eq_add_neg]
  · rw [smul_neg, ← sub_eq_add_neg]

theorem texturePoint_mem {u v : K} :
    (0 ≤ texturePoint l u v ∧ texturePoint l u v ≤ 1) ↔ (0 ≤ u ∧ u ≤ 1) ∧ (0 ≤ v ∧ v ≤ 1) := by
  rw [texturePoint, Prod.le_def, Prod.le_def]
  split
  · simp
    tauto
  · simp
    tauto

theorem displays_iff (hl : l.updateForegroundVertices m = l) {u v : K} {p : K × K} :
    Displays l u v p ↔ ((0 ≤ u ∧ u ≤ 1) ∧ (0 ≤ v ∧ v ≤ 1)) ∧ p = position m l u v := by
  rw [Displays, points_current hl, shows_corners_iff, texturePoint_mem, onto_texturePoint]

theorem quarterTurns_cases (k : Fin 4) :
    |(quarterTurns k : K × K).1| = 1 ∧ (quarterTurns k : K × K).2 = 0 ∨
      (quarterTurns k : K × K).1 = 0 ∧ |(quarterTurns k : K × K).2| = 1 := by
  fin_cases k <;> simp [quarterTurns]

theorem normalizeTouchCoordinates_toPixels (h : Visible l) {p : K × K} (hx : |p.1| ≤ 1) (hy : |p.2| ≤ 1) :
    normalizeTouchCoordinates l.screenWidth l.screenHeight (toPixels l p).1 (toPixels l p).2 = (p.1, -p.2) := by
  have hw : (l.screenWidth : K) ≠ 0 := Nat.cast_ne_zero.2 h.screenWidth.ne'
  have hh : (l.screenHeight : K) ≠ 0 := Nat.cast_ne_zero.2 h.screenHeight.ne'
  have hpixelX : (2 : Nat) * (toPixels l p).1 / l.screenWidth - 1 = p.1 := by
    simp only [toPixels]
    push_cast
    field_simp
    ring
  have hpixelY : (2 : Nat) * (toPixels l p).2 / l.screenHeight - 1 = -p.2 := by
    simp only [toPixels]
    push_cast
    field_simp
    ring
  obtain ⟨hx₁, hx₂⟩ := abs_le.1 hx
  obtain ⟨hy₁, hy₂⟩ := abs_le.1 hy
  rw [normalizeTouchCoordinates, hpixelX, hpixelY]
  simp only [max_eq_left hx₁, min_eq_left hx₂, max_eq_left (neg_le_neg hy₂), min_eq_left (neg_le.1 hy₁)]

omit [LinearOrder K] [IsStrictOrderedRing K] in
theorem quarterTurns_circle (k : Fin 4) : (quarterTurns k : K × K).1 ^ 2 + (quarterTurns k : K × K).2 ^ 2 = 1 := by
  fin_cases k <;> simp [quarterTurns]

/-- A rotation by quarter turns exchanges the sides, and its factors their lengths. -/
theorem right_up_turned (hm : Exact m) (h : Visible l) {k : Fin 4} (hk : Turned m l k) :
    right m l = ((quarterTurns k).1 * (scale l).1, (quarterTurns k).2 * (scale l).2) ∧
      up m l = (-((quarterTurns k).2 * (scale l).1), (quarterTurns k).1 * (scale l).2) := by
  obtain ⟨hx, hy⟩ := h.scale_pos
  obtain ⟨hcos, hsin⟩ := Prod.ext_iff.1 hk
  dsimp only at hcos hsin
  rw [right, up, factor, hm.fabs, hm.fabs, hcos, hsin]
  rcases quarterTurns_cases (K := K) k with ⟨hone, hzero⟩ | ⟨hzero, hone⟩
  · simp [hone, hzero, hx.ne', hy.ne', mul_comm]
  · simp [hone, hzero]
    constructor <;> field_simp

theorem position_turned (hm : Exact m) (h : Visible l) {k : Fin 4} (hk : Turned m l k) (u v : K) :
    position m l u v = ((centre l).1 + (reported k (2 * u - 1) (2 * v - 1)).1 * (scale l).1,
      (centre l).2 - (reported k (2 * u - 1) (2 * v - 1)).2 * (scale l).2) := by
  obtain ⟨hright, hup⟩ := right_up_turned hm h hk
  rw [position, hright, hup, reported]
  ext <;> simp <;> ring

theorem abs_reported_le {k : Fin 4} {x y : K} (hx : |x| ≤ 1) (hy : |y| ≤ 1) :
    |(reported k x y).1| ≤ 1 ∧ |(reported k x y).2| ≤ 1 := by
  unfold reported
  rcases quarterTurns_cases (K := K) k with ⟨hone, hzero⟩ | ⟨hzero, hone⟩
  · simp [hzero, abs_mul, hone, hx, hy]
  · simp [hzero, abs_mul, hone, hx, hy]

/-! ### What is reported -/

omit [IsStrictOrderedRing K] in
theorem relative_eq {c s : K} (z : K) (hs : 0 < s) : (c + z * s - (c - s)) / (c + s - (c - s)) = (1 + z) / 2 := by
  have hposition : c + z * s - (c - s) = (1 + z) * s := by ring
  have hside : c + s - (c - s) = 2 * s := by ring
  rw [hposition, hside, mul_div_mul_right _ _ hs.ne']

theorem getRelativePosition_eq (hm : Exact m) (h : Visible l) (hl : l.updateForegroundVertices m = l) {x y : K}
    (hx : |x| ≤ 1) (hy : |y| ≤ 1) :
    getRelativePosition l ((centre l).1 + x * (scale l).1) (-((centre l).2 - y * (scale l).2)) =
      ((1 + x) / 2, (1 + y) / 2) := by
  obtain ⟨hw, hh⟩ := h.scale_pos
  obtain ⟨hx₁, hx₂⟩ := abs_le.1 hx
  obtain ⟨hy₁, hy₂⟩ := abs_le.1 hy
  have hflip (y : K) : -y = -1 * y := (neg_one_mul y).symm
  have hbounds := bounds_foreground hm h hl hflip (by simp)
  have hinside (z s : K) (hs : 0 < s) (hz₁ : -1 ≤ z) (hz₂ : z ≤ 1) : -s ≤ z * s ∧ z * s ≤ s :=
    ⟨by nlinarith, by nlinarith⟩
  obtain ⟨hleft, hright⟩ := hinside x _ hw hx₁ hx₂
  obtain ⟨htop, hbottom⟩ := hinside y _ hh hy₁ hy₂
  have hdown : -((centre l).2 - y * (scale l).2) = -1 * (centre l).2 + y * (scale l).2 := by ring
  rw [getRelativePosition, hbounds, hdown]
  dsimp only
  rw [if_neg, relative_eq x hw, relative_eq y hh]
  simp only [not_or, not_lt]
  exact ⟨by linarith, by linarith, by linarith, by linarith⟩

variable [FloorRing K]

theorem truncate_neg (x : K) : Audio.truncate (-x) = -Audio.truncate x := by
  unfold Audio.truncate
  rcases lt_trichotomy x 0 with hneg | rfl | hpos
  · rw [if_pos (by linarith), if_neg (not_le.2 hneg), Int.floor_neg]
  · simp
  · rw [if_neg (by linarith), if_pos hpos.le, Int.ceil_neg]

theorem truncate_eq_zero_iff {x : K} : Audio.truncate x = 0 ↔ |x| < 1 := by
  unfold Audio.truncate
  split
  · rename_i hnonneg
    rw [Int.floor_eq_zero_iff, abs_of_nonneg hnonneg]
    exact ⟨fun h => h.2, fun h => ⟨hnonneg, h⟩⟩
  · rename_i hneg
    have hlt := not_le.1 hneg
    rw [Int.ceil_eq_zero_iff, abs_of_neg hlt]
    exact ⟨fun h => by linarith [h.1], fun h => ⟨by linarith, hlt.le⟩⟩

theorem getInputState_onTouchEvent (hm : Exact m) (h : Visible l) (hl : l.updateForegroundVertices m = l)
    (pads : Pads K) {x y : K} (hx : |x| ≤ 1) (hy : |y| ≤ 1) :
    let pads := onTouchEvent l pads ((centre l).1 + x * (scale l).1) (-((centre l).2 - y * (scale l).2))
    getInputState pads 0 RETRO_DEVICE_POINTER 0 RETRO_DEVICE_ID_POINTER_PRESSED = 1 ∧
      getInputState pads 0 RETRO_DEVICE_POINTER 0 RETRO_DEVICE_ID_POINTER_X =
        Audio.truncate (x * MAX_RANGE_MOTION) ∧
      getInputState pads 0 RETRO_DEVICE_POINTER 0 RETRO_DEVICE_ID_POINTER_Y =
        Audio.truncate (y * MAX_RANGE_MOTION) := by
  obtain ⟨hx₁, hx₂⟩ := abs_le.1 hx
  obtain ⟨hy₁, hy₂⟩ := abs_le.1 hy
  have haxis (z : K) : ((2 : Nat) : K) * ((1 + z) / 2 - 1 / (2 : Nat)) * MAX_RANGE_MOTION = z * MAX_RANGE_MOTION := by
    push_cast
    ring
  have hpad : onTouchEvent l pads ((centre l).1 + x * (scale l).1) (-((centre l).2 - y * (scale l).2)) =
      Function.update pads 0
        { pads 0 with pointerScreenXAxis := (1 + x) / 2, pointerScreenYAxis := (1 + y) / 2 } := by
    rw [onTouchEvent, getRelativePosition_eq hm h hl hx hy]
    rfl
  have hpressed : 0 ≤ (1 + x) / 2 ∧ 0 ≤ (1 + y) / 2 := ⟨by linarith, by linarith⟩
  have hstate (pad : GamePadState K) (id : UInt32) :
      getInputState (Function.update pads 0 pad) 0 RETRO_DEVICE_POINTER 0 id = pointerState pad 0 id.toNat :=
    congrArg (fun pad => pointerState pad 0 id.toNat) (Function.update_self (f := pads) 0 pad)
  intro pads'
  simp only [pads', hpad, hstate]
  refine ⟨if_pos hpressed, ?_, ?_⟩
  · exact congrArg Audio.truncate (haxis x)
  · exact congrArg Audio.truncate (haxis y)

theorem hits_iff_reported (hm : Exact m) (h : Visible l) (hl : l.updateForegroundVertices m = l) {k : Fin 4}
    (hk : Turned m l k) (pads : Pads K) {u v : K} {p : K × K} (hp : Displays l u v p) :
    Hits l pads u v p ↔
      Audio.truncate ((reported k (2 * u - 1) (2 * v - 1)).1 * MAX_RANGE_MOTION) =
          Audio.truncate ((2 * u - 1) * MAX_RANGE_MOTION) ∧
        Audio.truncate ((reported k (2 * u - 1) (2 * v - 1)).2 * MAX_RANGE_MOTION) =
          Audio.truncate ((2 * v - 1) * MAX_RANGE_MOTION) := by
  obtain ⟨⟨⟨hu₁, hu₂⟩, hv₁, hv₂⟩, rfl⟩ := (displays_iff hl).1 hp
  obtain ⟨hx, hy⟩ := abs_reported_le (k := k) (x := 2 * u - 1) (y := 2 * v - 1)
    (abs_le.2 ⟨by linarith, by linarith⟩) (abs_le.2 ⟨by linarith, by linarith⟩)
  obtain ⟨hpressed, hstate⟩ := getInputState_onTouchEvent hm h hl pads hx hy
  rw [Hits, position_turned hm h hk, Nat.cast_ofNat]
  dsimp only
  rw [hpressed, hstate.1, hstate.2, and_iff_right rfl]

/-- A rotation leaves the integers as they are only if there is none, or they are 0. -/
theorem truncate_reported_iff (k : Fin 4) (x y c : K) :
    (Audio.truncate ((reported k x y).1 * c) = Audio.truncate (x * c) ∧
        Audio.truncate ((reported k x y).2 * c) = Audio.truncate (y * c)) ↔
      k = 0 ∨ |x * c| < 1 ∧ |y * c| < 1 := by
  rw [← truncate_eq_zero_iff, ← truncate_eq_zero_iff]
  fin_cases k <;> simp [reported, quarterTurns, truncate_neg] <;> omega

/-- Of an image that is rotated by quarter turns, the touches in the middle are reported as they are. -/
theorem hits_iff (hm : Exact m) (bottomLeftOrigin : Bool) (rotation : K) (viewportRect : Rect K)
    (updates : List (Update K)) (h : Visible (updated m bottomLeftOrigin rotation viewportRect updates)) {k : Fin 4}
    (hk : Turned m (updated m bottomLeftOrigin rotation viewportRect updates) k) (pads : Pads K) {u v : K}
    {p : K × K} (hp : Displays (updated m bottomLeftOrigin rotation viewportRect updates) u v p) :
    Hits (updated m bottomLeftOrigin rotation viewportRect updates) pads u v p ↔
      k = 0 ∨ |(2 * u - 1) * MAX_RANGE_MOTION| < 1 ∧ |(2 * v - 1) * MAX_RANGE_MOTION| < 1 := by
  have hl := current_updated m bottomLeftOrigin rotation viewportRect updates
  rw [hits_iff_reported hm h hl hk pads hp, truncate_reported_iff]

end

/-! ### On a turned screen -/

/-- The functions of `cmath` for angles in quarter turns, at whole ones. -/
def cmath : MathFunctions ℚ where
  cos x := (quarterTurns (Fin.ofNat 4 (⌊x⌋ % 4).toNat)).1
  sin x := (quarterTurns (Fin.ofNat 4 (⌊x⌋ % 4).toNat)).2
  fabs x := |x|

theorem exact_cmath : Exact cmath where
  circle _ := quarterTurns_circle _
  fabs _ := rfl

/-- The whole screen, rotated by a quarter turn. -/
def turned : VideoLayout ℚ := updated cmath false (-1) ⟨0, 0, 1, 1⟩ [.updateScreenSize 1 1]

theorem current_turned : turned.updateForegroundVertices cmath = turned := current_updated ..

theorem visible_turned : Visible turned where
  screenWidth := one_pos
  screenHeight := one_pos
  width := one_pos
  height := one_pos
  aspectRatio := one_pos

theorem turned_turned : Turned cmath turned 1 := rfl

theorem displays_turned {u v : ℚ} (hu : 0 ≤ u ∧ u ≤ 1) (hv : 0 ≤ v ∧ v ≤ 1) :
    Displays turned u v (position cmath turned u v) :=
  (displays_iff current_turned).2 ⟨⟨hu, hv⟩, rfl⟩

/-- The middle of the image stays where it is. -/
theorem hits_middle : Hits turned Input.pads (1 / 2) (1 / 2) (position cmath turned (1 / 2) (1 / 2)) :=
  (hits_iff exact_cmath _ _ _ _ visible_turned turned_turned Input.pads
    (displays_turned (by norm_num) (by norm_num))).2 (.inr (by norm_num))

/-- Its top left corner is reported as another. -/
theorem misses_corner : ∃ p, Displays turned 0 0 p ∧ ¬ Hits turned Input.pads 0 0 p := by
  refine ⟨_, displays_turned (by norm_num) (by norm_num), fun h => ?_⟩
  rw [hits_iff_reported exact_cmath visible_turned current_turned turned_turned Input.pads
    (displays_turned (by norm_num) (by norm_num)), truncate_reported_iff] at h
  norm_num [MAX_RANGE_MOTION] at h

end SweetHome.Touch
