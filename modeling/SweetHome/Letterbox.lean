import SweetHome.Lib.Box
import SweetHome.Rendering
import Mathlib.Algebra.Module.Prod

/-!
# The foreground on the screen

In exact arithmetic, the foreground is a parallelogram around the centre of the viewport, and the factors of its
rotation undo what the rotation does to its extent: the box around it has the half sides `scale` for any cosine and
sine (`extent_eq`). In pixels it is the letterbox of the aspect ratio in the viewport, whatever the updates that
led there (`letterboxed`).
-/

namespace SweetHome.Letterbox
open Rendering Box

section
variable {K : Type} [Field K] [LinearOrder K]

/-- All that is used of the functions of `cmath`. -/
structure Exact (m : MathFunctions K) : Prop where
  circle : ∀ x, m.cos x ^ 2 + m.sin x ^ 2 = 1
  fabs : ∀ x, m.fabs x = |x|

inductive Update (K : Type) where
  | updateAspectRatio (aspectRatio : K)
  | updateScreenSize (width height : Nat)
  | updateViewportSize (viewport : Rect K)
  | updateRotation (rotation : K)

variable (m : MathFunctions K)

def Update.apply (l : VideoLayout K) : Update K → VideoLayout K
  | .updateAspectRatio aspectRatio => l.updateAspectRatio m aspectRatio
  | .updateScreenSize width height => l.updateScreenSize m width height
  | .updateViewportSize viewport => l.updateViewportSize m viewport
  | .updateRotation rotation => l.updateRotation m rotation

/-- A layout after some updates. -/
def updated (bottomLeftOrigin : Bool) (rotation : K) (viewportRect : Rect K) (updates : List (Update K)) :
    VideoLayout K :=
  updates.foldl (Update.apply m) (VideoLayout.make m bottomLeftOrigin rotation viewportRect)

/-- The vertices are those of the other fields. -/
def Current (l : VideoLayout K) : Prop := l.updateForegroundVertices m = l

theorem current_updated (bottomLeftOrigin : Bool) (rotation : K) (viewportRect : Rect K) (updates : List (Update K)) :
    Current m (updated m bottomLeftOrigin rotation viewportRect updates) := by
  rw [updated]
  cases updates using List.reverseRecOn with
  | nil => rfl
  | append_singleton updates update =>
    rw [List.foldl_concat]
    cases update <;> rfl

/-! ### The vertices -/

/-- The vertices of an array of coordinates. -/
def points : List K → List (K × K)
  | x :: y :: vertices => (x, y) :: points vertices
  | _ => []

variable (l : VideoLayout K)

def screenAspect : K := l.screenWidth * l.viewportRect.width / (l.screenHeight * l.viewportRect.height)

def scale : K × K :=
  (if l.aspectRatio > screenAspect l then l.viewportRect.width
    else l.viewportRect.width * (l.aspectRatio / screenAspect l),
  if l.aspectRatio > screenAspect l then l.viewportRect.height * (screenAspect l / l.aspectRatio)
    else l.viewportRect.height)

/-- The y axis of the vertices points up, and that of the viewport down. -/
def centre : K × K :=
  (l.viewportRect.x * (2 : Nat) - (1 - l.viewportRect.width),
    -(l.viewportRect.y * (2 : Nat) - (1 - l.viewportRect.height)))

def factor : K × K :=
  ((scale l).1 / ((scale l).1 * m.fabs (m.cos (-l.rotation)) + (scale l).2 * m.fabs (m.sin (-l.rotation))),
    (scale l).2 / ((scale l).1 * m.fabs (m.sin (-l.rotation)) + (scale l).2 * m.fabs (m.cos (-l.rotation))))

/-- From the centre to the right edge of the image. -/
def right : K × K :=
  ((scale l).1 * m.cos (-l.rotation) * (factor m l).1, (scale l).1 * m.sin (-l.rotation) * (factor m l).2)

/-- From the centre to the edge that would be above without the rotation. -/
def up : K × K :=
  (-((scale l).2 * m.sin (-l.rotation) * (factor m l).1), (scale l).2 * m.cos (-l.rotation) * (factor m l).2)

/-- From the centre to the edge that the second texture coordinate is 1 at. -/
def second : K × K := if l.bottomLeftOrigin then up m l else -up m l

/-- The vertex of the image for a corner of the square from -1 to 1. -/
def rotatedQuad (u v : K) : K × K :=
  ((u * (scale l).1 * m.cos (-l.rotation) - v * (scale l).2 * m.sin (-l.rotation)) * (factor m l).1 +
      (l.viewportRect.x * (2 : Nat) - ((1 : Nat) - l.viewportRect.width)),
    (u * (scale l).1 * m.sin (-l.rotation) + v * (scale l).2 * m.cos (-l.rotation)) * (factor m l).2 -
      (l.viewportRect.y * (2 : Nat) - ((1 : Nat) - l.viewportRect.height)))

theorem rotatedQuad_eq (u v : K) : rotatedQuad m l u v = centre l + u • right m l + v • up m l := by
  ext
  · simp only [rotatedQuad, centre, right, up, Prod.fst_add, Prod.smul_fst, smul_eq_mul]
    push_cast
    ring
  · simp only [rotatedQuad, centre, right, up, Prod.snd_add, Prod.smul_snd, smul_eq_mul]
    push_cast
    ring

/-- Where the first corner of each side of the square is. -/
def firstV : K := if l.bottomLeftOrigin then -(1 : Nat) else (1 : Nat)

def secondV : K := if l.bottomLeftOrigin then (1 : Nat) else -(1 : Nat)

theorem points_eq_rotatedQuad :
    points (l.updateForegroundVertices m).foregroundVertices =
      [rotatedQuad m l (-(1 : Nat)) (firstV l), rotatedQuad m l (-(1 : Nat)) (secondV l),
        rotatedQuad m l (1 : Nat) (firstV l), rotatedQuad m l (1 : Nat) (firstV l),
        rotatedQuad m l (-(1 : Nat)) (secondV l), rotatedQuad m l (1 : Nat) (secondV l)] := rfl

theorem points_foregroundVertices :
    points (l.updateForegroundVertices m).foregroundVertices = corners (centre l) (right m l) (second m l) := by
  rw [points_eq_rotatedQuad]
  cases horigin : l.bottomLeftOrigin <;>
    simp [rotatedQuad_eq, corners, firstV, secondV, second, horigin, ← sub_eq_add_neg]

theorem abs_second [IsOrderedAddMonoid K] : |(second m l).1| = |(up m l).1| ∧ |(second m l).2| = |(up m l).2| := by
  unfold second
  split <;> simp

/-! ### Pixels -/

/-- From the coordinates of the vertices to pixels, from the top left of the screen. -/
def toPixels (p : K × K) : K × K :=
  ((p.1 + 1) / (2 : Nat) * l.screenWidth, (1 - p.2) / (2 : Nat) * l.screenHeight)

/-- The length of a vector in pixels. -/
def sizeInPixels (e : K × K) : K × K :=
  (e.1 / (2 : Nat) * l.screenWidth, e.2 / (2 : Nat) * l.screenHeight)

omit [LinearOrder K] in
theorem map_toPixels_corners (c a b : K × K) :
    (corners c a b).map (toPixels l) = corners (toPixels l c)
      ((sizeInPixels l a).1, -(sizeInPixels l a).2) ((sizeInPixels l b).1, -(sizeInPixels l b).2) := by
  simp only [corners, List.map_cons, List.map_nil, toPixels, sizeInPixels, List.cons.injEq, Prod.ext_iff, Prod.fst_add,
    Prod.snd_add, Prod.fst_sub, Prod.snd_sub, and_true]
  refine ⟨⟨?_, ?_⟩, ⟨?_, ?_⟩, ⟨?_, ?_⟩, ⟨?_, ?_⟩, ⟨?_, ?_⟩, ?_, ?_⟩ <;> ring

end

section
variable {K : Type} [Field K] [LinearOrder K] [IsStrictOrderedRing K] {m : MathFunctions K} {l : VideoLayout K}

/-- There is a screen, and the viewport and the image are not empty. -/
structure Visible (l : VideoLayout K) : Prop where
  screenWidth : 0 < l.screenWidth
  screenHeight : 0 < l.screenHeight
  width : 0 < l.viewportRect.width
  height : 0 < l.viewportRect.height
  aspectRatio : 0 < l.aspectRatio

theorem Visible.screenAspect_pos (h : Visible l) : 0 < screenAspect l := by
  have hw : (0 : K) < l.screenWidth := Nat.cast_pos.2 h.screenWidth
  have hh : (0 : K) < l.screenHeight := Nat.cast_pos.2 h.screenHeight
  have hwidth := h.width
  have hheight := h.height
  rw [screenAspect]
  positivity

theorem Visible.scale_pos (h : Visible l) : 0 < (scale l).1 ∧ 0 < (scale l).2 := by
  have hscreen := h.screenAspect_pos
  have haspect := h.aspectRatio
  have hwidth := h.width
  have hheight := h.height
  unfold scale
  constructor <;> dsimp only <;> split <;> positivity

theorem abs_factor {a b c s : K} (ha : 0 < a) (hb : 0 < b) (hcircle : c ^ 2 + s ^ 2 = 1) :
    |a * c * (a / (a * |c| + b * |s|))| + |b * s * (a / (a * |c| + b * |s|))| = a := by
  have hpos : 0 < a * |c| + b * |s| := by
    rcases eq_or_ne c 0 with rfl | hc
    · have hs : s ≠ 0 := by
        rintro rfl
        simp at hcircle
      have := abs_pos.2 hs
      positivity
    · have := abs_pos.2 hc
      positivity
  have hfactor : 0 < a / (a * |c| + b * |s|) := div_pos ha hpos
  rw [abs_mul, abs_mul, abs_mul, abs_mul, abs_of_pos ha, abs_of_pos hb, abs_of_pos hfactor, ← add_mul]
  field_simp

theorem extent_eq (hm : Exact m) (h : Visible l) :
    |(right m l).1| + |(second m l).1| = (scale l).1 ∧ |(right m l).2| + |(second m l).2| = (scale l).2 := by
  obtain ⟨hx, hy⟩ := h.scale_pos
  have hcircle := hm.circle (-l.rotation)
  rw [(abs_second m l).1, (abs_second m l).2, right, up, factor, hm.fabs, hm.fabs]
  constructor
  · rw [abs_neg]
    exact abs_factor hx hy hcircle
  · have hfactor := abs_factor hy hx hcircle
    rw [add_comm ((scale l).2 * |m.cos (-l.rotation)|), add_comm] at hfactor
    exact hfactor

/-- The rectangle of the viewport, in pixels. -/
def viewportBox (l : VideoLayout K) (h : Visible l) : Box K where
  toProd := ((l.viewportRect.x * l.screenWidth, l.viewportRect.y * l.screenHeight),
    ((l.viewportRect.x + l.viewportRect.width) * l.screenWidth,
      (l.viewportRect.y + l.viewportRect.height) * l.screenHeight))
  fst_le_snd := by
    have hwidth := h.width
    have hheight := h.height
    constructor
    · exact mul_le_mul_of_nonneg_right (by linarith) (Nat.cast_nonneg _)
    · exact mul_le_mul_of_nonneg_right (by linarith) (Nat.cast_nonneg _)

theorem sizeInPixels_nonneg {e : K × K} (he : 0 ≤ e) : 0 ≤ sizeInPixels l e := by
  have h₁ : 0 ≤ e.1 := he.1
  have h₂ : 0 ≤ e.2 := he.2
  constructor
  · simp only [sizeInPixels]
    positivity
  · simp only [sizeInPixels]
    positivity

theorem viewportBox_eq (h : Visible l) :
    viewportBox l h = around (toPixels l (centre l)) (sizeInPixels l (l.viewportRect.width, l.viewportRect.height))
      (sizeInPixels_nonneg ⟨h.width.le, h.height.le⟩) := by
  refine NonemptyInterval.ext (Prod.ext (Prod.ext ?_ ?_) (Prod.ext ?_ ?_)) <;>
    simp only [viewportBox, around, toPixels, sizeInPixels, centre, Prod.fst_sub, Prod.snd_sub, Prod.fst_add,
      Prod.snd_add] <;> ring

theorem isHull_foreground (hm : Exact m) (h : Visible l) :
    IsHull (around (toPixels l (centre l)) (sizeInPixels l (scale l))
        (sizeInPixels_nonneg ⟨h.scale_pos.1.le, h.scale_pos.2.le⟩))
      ((points (l.updateForegroundVertices m).foregroundVertices).map (toPixels l)) := by
  rw [points_foregroundVertices, map_toPixels_corners]
  have hhull := isHull_corners (toPixels l (centre l))
    ((sizeInPixels l (right m l)).1, -(sizeInPixels l (right m l)).2)
    ((sizeInPixels l (second m l)).1, -(sizeInPixels l (second m l)).2)
  obtain ⟨hx, hy⟩ := extent_eq hm h
  have hw : (0 : K) ≤ l.screenWidth := Nat.cast_nonneg _
  have hh : (0 : K) ≤ l.screenHeight := Nat.cast_nonneg _
  have hextent : (|(sizeInPixels l (right m l)).1| + |(sizeInPixels l (second m l)).1|,
      |-(sizeInPixels l (right m l)).2| + |-(sizeInPixels l (second m l)).2|) = sizeInPixels l (scale l) := by
    simp only [sizeInPixels, abs_neg, abs_mul, abs_div, abs_of_nonneg hw, abs_of_nonneg hh, Nat.abs_cast, ← hx, ← hy]
    ext <;> ring
  simp only [hextent] at hhull
  exact hhull

/-- The foreground fills the viewport in one direction, and in the other what the aspect ratio leaves. -/
theorem scale_fits (h : Visible l) :
    (sizeInPixels l (scale l)).1 = l.aspectRatio * (sizeInPixels l (scale l)).2 ∧
      scale l ≤ (l.viewportRect.width, l.viewportRect.height) ∧
      ((scale l).1 = l.viewportRect.width ∨ (scale l).2 = l.viewportRect.height) := by
  have hw : (0 : K) < l.screenWidth := Nat.cast_pos.2 h.screenWidth
  have hh : (0 : K) < l.screenHeight := Nat.cast_pos.2 h.screenHeight
  have hscreen := h.screenAspect_pos
  have haspect := h.aspectRatio
  have hwidth := h.width
  have hheight := h.height
  unfold scale sizeInPixels
  dsimp only
  split
  · rename_i hgt
    refine ⟨?_, ⟨le_rfl, ?_⟩, .inl rfl⟩
    · rw [screenAspect]
      field_simp
    · exact mul_le_of_le_one_right hheight.le ((div_le_one haspect).2 (le_of_lt hgt))
  · rename_i hle
    refine ⟨?_, ⟨?_, le_rfl⟩, .inr rfl⟩
    · rw [screenAspect]
      field_simp
    · exact mul_le_of_le_one_right hwidth.le ((div_le_one hscreen).2 (not_lt.1 hle))

/-- After any updates, the box around the foreground is the letterbox of the aspect ratio in the viewport, of which
there is no other. -/
theorem letterboxed (hm : Exact m) (bottomLeftOrigin : Bool) (rotation : K) (viewportRect : Rect K)
    (updates : List (Update K)) (h : Visible (updated m bottomLeftOrigin rotation viewportRect updates)) :
    let l := updated m bottomLeftOrigin rotation viewportRect updates
    ∃ b, IsHull b ((points l.foregroundVertices).map (toPixels l)) ∧
      IsLetterbox l.aspectRatio (viewportBox l h) b ∧ ∀ d, IsLetterbox l.aspectRatio (viewportBox l h) d → d = b := by
  intro l
  have hcurrent : l.updateForegroundVertices m = l := current_updated m bottomLeftOrigin rotation viewportRect updates
  have hhull := isHull_foreground hm h
  rw [hcurrent] at hhull
  obtain ⟨hratio, hle, htouch⟩ := scale_fits h
  have hw : (0 : K) < l.screenWidth := Nat.cast_pos.2 h.screenWidth
  have hh : (0 : K) < l.screenHeight := Nat.cast_pos.2 h.screenHeight
  obtain ⟨hx, hy⟩ := h.scale_pos
  suffices hletterbox : IsLetterbox l.aspectRatio (viewportBox l h) _ from
    ⟨_, hhull, hletterbox, fun d hd => hd.unique hletterbox⟩
  rw [viewportBox_eq]
  refine isLetterbox_of_centred h.aspectRatio ?_ hratio ?_ ?_
  · simp only [sizeInPixels]
    positivity
  · have h₁ : (scale l).1 ≤ l.viewportRect.width := hle.1
    have h₂ : (scale l).2 ≤ l.viewportRect.height := hle.2
    constructor
    · simp only [sizeInPixels]
      gcongr
    · simp only [sizeInPixels]
      gcongr
  · rcases htouch with hside | hside
    · exact .inl (by rw [sizeInPixels, hside]; rfl)
    · exact .inr (by rw [sizeInPixels, hside]; rfl)

/-- The functions at an angle of 0. -/
def upright : MathFunctions ℚ := ⟨fun _ => 1, fun _ => 0, abs⟩

theorem exact_upright : Exact upright := ⟨fun _ => by norm_num [upright], fun _ => rfl⟩

theorem visible_upright :
    Visible (updated upright false 0 ⟨0, 0, 1, 1⟩ [.updateScreenSize 1920 1080, .updateAspectRatio (4 / 3)]) where
  screenWidth := by decide
  screenHeight := by decide
  width := by decide
  height := by decide
  aspectRatio := show (0 : ℚ) < 4 / 3 by norm_num

/-- A picture of 4:3 on a screen of 16:9. -/
theorem letterboxed_upright :
    let l := updated upright false 0 ⟨0, 0, 1, 1⟩ [.updateScreenSize 1920 1080, .updateAspectRatio (4 / 3)]
    ∃ b, IsHull b ((points l.foregroundVertices).map (toPixels l)) ∧
      IsLetterbox (4 / 3) (viewportBox l visible_upright) b ∧
        ∀ d, IsLetterbox (4 / 3) (viewportBox l visible_upright) d → d = b :=
  letterboxed exact_upright _ _ _ _ visible_upright

end

end SweetHome.Letterbox
