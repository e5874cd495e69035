import SweetHome.Touch
import SweetHome.Lib.Run
import Mathlib.Data.PNat.Notation

/-!
# Touch gestures

Whether the pointer is pressed is not kept, but read off its position: a position outside the picture is taken to a
negative one. A gesture that ends is sent as such a position, but one that is cancelled is not sent at all, so the
pointer stays pressed. It is also pressed by a finger that has left the view, from where it is taken back to the
border (`released_iff`). In exact arithmetic.
-/

namespace SweetHome.TouchGestures
open Step Rendering Letterbox Input Touch

section
variable {K : Type} [Field K] [LinearOrder K]

/-- The layout of a video on the screen, after its updates. Cores rotate the image by quarter turns. -/
structure Layout (m : MathFunctions K) where
  layout : VideoLayout K
  current : Current m layout
  visible : Visible layout
  turned : ∃ k, Turned m layout k

/-- A view that can be touched. -/
structure View where
  width : ℕ+
  height : ℕ+

inductive MotionAction where
  | down
  | up
  | move
  | cancel
  | pointerDown
  | pointerUp
deriving DecidableEq, Repr

/-- The position is that of the first pointer, in pixels of the view. -/
structure MotionEvent (K : Type) where
  actionMasked : MotionAction
  x : K
  y : K

/-- The position of an event, from -1 to 1 in the view. The y axis points down. -/
def MotionEvent.position (event : MotionEvent K) (view : View) : K × K :=
  ((2 : Nat) * event.x / (view.width : Nat) - 1, (2 : Nat) * event.y / (view.height : Nat) - 1)

def TOUCH_EVENT_OUTSIDE : K × K := (-(10 : Nat), (10 : Nat))

/-- The position that `GLRetroView.onTouchEvent` passes on. -/
def touchPosition (view : View) (event : MotionEvent K) : Option (K × K) :=
  match event.actionMasked with
  | .down | .move => some (normalizeTouchCoordinates view.width view.height event.x event.y)
  | .up => some TOUCH_EVENT_OUTSIDE
  | .cancel | .pointerDown | .pointerUp => none

/-! ### The picture -/

variable {m : MathFunctions K}

/-- The picture covers a position of a touch. -/
def Layout.Covers (l : Layout m) (p : K × K) : Prop := ∃ u v, Displays l.layout u v (p.1, -p.2)

/-- The picture is displayed there: it covers the position, which is in the view. -/
def Layout.ShowsAt (l : Layout m) (p : K × K) : Prop := (|p.1| ≤ 1 ∧ |p.2| ≤ 1) ∧ l.Covers p

/-! ### Steps -/

variable [FloorRing K]

/-- The last position of a gesture, and what was on the screen at that time. -/
structure Finger (m : MathFunctions K) where
  video : Option (Layout m)
  position : K × K

def Finger.Inside (f : Finger m) : Prop := ∃ l, f.video = some l ∧ l.ShowsAt f.position

structure State (m : MathFunctions K) where
  input : Pads K := pads
  video : Option (Layout m) := none
  /-- That of the gesture in progress. -/
  finger : Option (Finger m) := none

inductive Action (m : MathFunctions K) where
  | onTouchEvent (view : View) (event : MotionEvent K)
  /-- Another video, or an update of its layout. -/
  | layout (l : Layout m)

def State.onTouchEvent (view : View) (event : MotionEvent K) (s : State m) : State m :=
  match touchPosition view event, s.video with
  | some p, some l => { s with input := Touch.onTouchEvent l.layout s.input p.1 p.2 }
  | _, _ => s

def State.follow (view : View) (event : MotionEvent K) (s : State m) : State m :=
  match event.actionMasked with
  | .down | .move => { s with finger := some ⟨s.video, event.position view⟩ }
  | .pointerDown | .pointerUp => s
  | .up | .cancel => { s with finger := none }

/-- A gesture begins with a press of the first finger, and there is one at a time. -/
def step : Step (State m) (Action m) Empty
  | s, .onTouchEvent view event =>
    if (event.actionMasked == .down) = s.finger.isNone then some ((s.onTouchEvent view event).follow view event, [])
    else none
  | s, .layout l => some ({ s with video := some l }, [])

/-! ### The law, and when it holds -/

/-- What the core reads. -/
def pressed (input : Pads K) : Int :=
  getInputState input 0 RETRO_DEVICE_POINTER 0 RETRO_DEVICE_ID_POINTER_PRESSED

def Touched (s : State m) : Prop := ∃ f, s.finger = some f ∧ f.Inside

/-- The pointer is pressed only by a finger on the picture. -/
def NotStuck (_ : State m) (_ : Action m) (t : State m) (_ : List Empty) : Prop := pressed t.input = 1 → Touched t

/-- No gesture is cancelled with the finger on the picture, and none leaves the view where the picture covers its
border. A release is outside the picture, unless that is many times the size of the view. -/
def Released (s : State m) (a : Action m) (_ : State m) (_ : List Empty) : Prop :=
  match a with
  | .onTouchEvent view event =>
    match event.actionMasked with
    | .down | .move => (|(event.position view).1| ≤ 1 ∧ |(event.position view).2| ≤ 1) ∨ ∀ l, s.video = some l →
        ¬ l.Covers (normalizeTouchCoordinates view.width view.height event.x event.y)
    | .up => ∀ l, s.video = some l → ¬ l.Covers TOUCH_EVENT_OUTSIDE
    | .cancel => ¬ Touched s
    | .pointerDown | .pointerUp => True
  | .layout _ => True

/-- The pointer is pressed by a finger on the picture, and before there is a video it is not. -/
structure Inv (s : State m) : Prop where
  pressed : pressed s.input = 1 ↔ Touched s
  dark : s.video = none → TouchGestures.pressed s.input ≠ 1

theorem pressed_eq (input : Pads K) :
    pressed input = if 0 ≤ (input 0).pointerScreenXAxis ∧ 0 ≤ (input 0).pointerScreenYAxis then 1 else 0 := rfl

theorem onTouchEvent_axes (l : VideoLayout K) (input : Pads K) (x y : K) :
    ((Touch.onTouchEvent l input x y 0).pointerScreenXAxis, (Touch.onTouchEvent l input x y 0).pointerScreenYAxis) =
      getRelativePosition l x y := by
  rfl

variable {s t : State m} {a : Action m} {es : List Empty}

omit [FloorRing K] in
theorem follow_input (view : View) (event : MotionEvent K) (s : State m) :
    (s.follow view event).input = s.input ∧ (s.follow view event).video = s.video := by
  unfold State.follow
  split <;> exact ⟨rfl, rfl⟩

theorem onTouchEvent_frame (view : View) (event : MotionEvent K) (s : State m) :
    (s.onTouchEvent view event).finger = s.finger ∧ (s.onTouchEvent view event).video = s.video := by
  unfold State.onTouchEvent
  split <;> exact ⟨rfl, rfl⟩

theorem step_onTouchEvent {view : View} {event : MotionEvent K} (h : step s (.onTouchEvent view event) = some (t, es)) :
    t = (s.onTouchEvent view event).follow view event := by
  rw [step] at h
  split at h
  · exact (Prod.mk.inj (Option.some.inj h)).1.symm
  · cases h

theorem step_video (h : step s a = some (t, es)) (ht : t.video = none) : ∃ view event, a = .onTouchEvent view event ∧
    s.video = none ∧ t.input = s.input := by
  cases a with
  | layout l =>
    obtain ⟨rfl, -⟩ := Prod.mk.inj (Option.some.inj h)
    cases ht
  | onTouchEvent view event =>
    rw [step_onTouchEvent h, (follow_input ..).2, (onTouchEvent_frame ..).2] at ht
    refine ⟨view, event, rfl, ht, ?_⟩
    rw [step_onTouchEvent h, (follow_input ..).1, State.onTouchEvent, ht]
    split <;> simp_all

theorem touched_step {view : View} {event : MotionEvent K} (h : step s (.onTouchEvent view event) = some (t, es)) :
    Touched t ↔
      match event.actionMasked with
      | .down | .move => ∃ l, s.video = some l ∧ l.ShowsAt (event.position view)
      | .pointerDown | .pointerUp => Touched s
      | .up | .cancel => False := by
  obtain ⟨hfinger, hvideo⟩ := onTouchEvent_frame view event s
  rw [step_onTouchEvent h, Touched, State.follow]
  cases event.actionMasked <;> simp [Touched, Finger.Inside, hfinger, hvideo]

end

section
variable {K : Type} [Field K] [LinearOrder K] [IsStrictOrderedRing K] {m : MathFunctions K}

theorem reported_surjective (k : Fin 4) {x y : K} (hx : |x| ≤ 1) (hy : |y| ≤ 1) :
    ∃ a b, |a| ≤ 1 ∧ |b| ≤ 1 ∧ reported k a b = (x, y) := by
  have hcircle := quarterTurns_circle (K := K) k
  refine ⟨(quarterTurns k).1 * x - (quarterTurns k).2 * y, (quarterTurns k).1 * y + (quarterTurns k).2 * x,
    ?_, ?_, ?_⟩
  · rcases quarterTurns_cases (K := K) k with ⟨hone, hzero⟩ | ⟨hzero, hone⟩
    · simpa [hzero, abs_mul, hone] using hx
    · simpa [hzero, abs_mul, hone] using hy
  · rcases quarterTurns_cases (K := K) k with ⟨hone, hzero⟩ | ⟨hzero, hone⟩
    · simpa [hzero, abs_mul, hone] using hy
    · simpa [hzero, abs_mul, hone] using hx
  · unfold reported
    ext
    · linear_combination x * hcircle
    · linear_combination y * hcircle

/-- Where the picture is displayed, a position is placed at the point of the image that it shows. -/
theorem getRelativePosition_displays (hm : Exact m) (l : Layout m) {k : Fin 4} (hk : Turned m l.layout k) {u v : K}
    {p : K × K} (h : Displays l.layout u v (p.1, -p.2)) :
    getRelativePosition l.layout p.1 p.2 = ((1 + (reported k (2 * u - 1) (2 * v - 1)).1) / 2,
      (1 + (reported k (2 * u - 1) (2 * v - 1)).2) / 2) := by
  obtain ⟨⟨⟨hu₁, hu₂⟩, hv₁, hv₂⟩, hp⟩ := (displays_iff l.current).1 h
  obtain ⟨hx, hy⟩ := abs_reported_le (k := k) (x := 2 * u - 1) (y := 2 * v - 1)
    (abs_le.2 ⟨by linarith, by linarith⟩) (abs_le.2 ⟨by linarith, by linarith⟩)
  rw [position_turned hm l.visible hk, Prod.mk.injEq] at hp
  rw [← getRelativePosition_eq hm l.visible l.current hx hy, ← hp.1, ← hp.2, neg_neg]

/-- A position that the picture does not cover is outside the box around it. -/
theorem getRelativePosition_outside (hm : Exact m) (l : Layout m) {p : K × K} (h : ¬ l.Covers p) :
    getRelativePosition l.layout p.1 p.2 = ((-(10 : Nat), -(10 : Nat)) : K × K) := by
  obtain ⟨hw, hh⟩ := l.visible.scale_pos
  obtain ⟨k, hk⟩ := l.turned
  have hflip (y : K) : -y = -1 * y := (neg_one_mul y).symm
  rw [getRelativePosition, bounds_foreground hm l.visible l.current hflip (by simp), if_pos]
  dsimp only
  by_contra hinside
  simp only [not_or, not_lt] at hinside
  obtain ⟨hx₁, hx₂, hy₁, hy₂⟩ := hinside
  obtain ⟨a, b, ha, hb, hreported⟩ := reported_surjective k
    (x := (p.1 - (centre l.layout).1) / (scale l.layout).1) (y := (p.2 + (centre l.layout).2) / (scale l.layout).2)
    (by rw [abs_div, abs_of_pos hw, div_le_one hw, abs_le]; exact ⟨by linarith, by linarith⟩)
    (by rw [abs_div, abs_of_pos hh, div_le_one hh, abs_le]; exact ⟨by linarith, by linarith⟩)
  obtain ⟨ha₁, ha₂⟩ := abs_le.1 ha
  obtain ⟨hb₁, hb₂⟩ := abs_le.1 hb
  refine h ⟨(1 + a) / 2, (1 + b) / 2, (displays_iff l.current).2
    ⟨⟨⟨by linarith, by linarith⟩, by linarith, by linarith⟩, ?_⟩⟩
  have hsides (z : K) : 2 * ((1 + z) / 2) - 1 = z := by ring
  rw [position_turned hm l.visible hk, hsides, hsides, hreported]
  ext
  · field_simp
    ring
  · field_simp
    ring

theorem normalizeTouchCoordinates_eq {view : View} {event : MotionEvent K}
    (h : |(event.position view).1| ≤ 1 ∧ |(event.position view).2| ≤ 1) :
    normalizeTouchCoordinates view.width view.height event.x event.y = event.position view := by
  have hclamp (x : K) (hx : |x| ≤ 1) : min (max x (-1)) 1 = x := by
    rw [max_eq_left (abs_le.1 hx).1, min_eq_left (abs_le.1 hx).2]
  exact Prod.ext (hclamp _ h.1) (hclamp _ h.2)

/-- A touch on the picture is passed on as one, and the only others are those that are taken back into the view. -/
theorem covered_iff (video : Option (Layout m)) (view : View) (event : MotionEvent K) :
    ((∃ l, video = some l ∧ l.Covers (normalizeTouchCoordinates view.width view.height event.x event.y)) →
        ∃ l, video = some l ∧ l.ShowsAt (event.position view)) ↔
      (|(event.position view).1| ≤ 1 ∧ |(event.position view).2| ≤ 1) ∨ ∀ l, video = some l →
        ¬ l.Covers (normalizeTouchCoordinates view.width view.height event.x event.y) := by
  constructor
  · intro h
    refine or_iff_not_imp_right.2 fun hcovered => ?_
    simp only [not_forall, not_not, exists_prop] at hcovered
    obtain ⟨-, -, hview, -⟩ := h hcovered
    exact hview
  · rintro (hview | hnone) ⟨l, hl, hcovers⟩
    · exact ⟨l, hl, hview, normalizeTouchCoordinates_eq hview ▸ hcovers⟩
    · exact absurd hcovers (hnone l hl)

theorem covered_of_shown {video : Option (Layout m)} {view : View} {event : MotionEvent K}
    (h : ∃ l, video = some l ∧ l.ShowsAt (event.position view)) :
    ∃ l, video = some l ∧ l.Covers (normalizeTouchCoordinates view.width view.height event.x event.y) := by
  obtain ⟨l, hl, hview, hcovers⟩ := h
  exact ⟨l, hl, (normalizeTouchCoordinates_eq hview).symm ▸ hcovers⟩

variable [FloorRing K] {s t : State m} {a : Action m} {es : List Empty}

/-- A position presses the pointer exactly where the picture covers it. -/
theorem pressed_onTouchEvent (hm : Exact m) (l : Layout m) (input : Pads K) (p : K × K) :
    pressed (Touch.onTouchEvent l.layout input p.1 p.2) = 1 ↔ l.Covers p := by
  have haxes := onTouchEvent_axes l.layout input p.1 p.2
  rw [pressed_eq]
  by_cases hcovers : l.Covers p
  · obtain ⟨u, v, hdisplays⟩ := hcovers
    obtain ⟨⟨⟨hu₁, hu₂⟩, hv₁, hv₂⟩, -⟩ := (displays_iff l.current).1 hdisplays
    obtain ⟨k, hk⟩ := l.turned
    obtain ⟨hx, hy⟩ := abs_reported_le (k := k) (x := 2 * u - 1) (y := 2 * v - 1)
      (abs_le.2 ⟨by linarith, by linarith⟩) (abs_le.2 ⟨by linarith, by linarith⟩)
    rw [getRelativePosition_displays hm l hk hdisplays, Prod.mk.injEq] at haxes
    have hnonneg : 0 ≤ (Touch.onTouchEvent l.layout input p.1 p.2 0).pointerScreenXAxis ∧
        0 ≤ (Touch.onTouchEvent l.layout input p.1 p.2 0).pointerScreenYAxis := by
      rw [haxes.1, haxes.2]
      exact ⟨by linarith [(abs_le.1 hx).1], by linarith [(abs_le.1 hy).1]⟩
    rw [if_pos hnonneg]
    exact iff_of_true rfl ⟨u, v, hdisplays⟩
  · rw [getRelativePosition_outside hm l hcovers, Prod.mk.injEq] at haxes
    rw [if_neg fun h => by rw [haxes.1] at h; exact absurd h.1 (by norm_num)]
    exact iff_of_false (by decide) hcovers

theorem inv_start : Inv ({} : State m) where
  pressed := by
    refine iff_of_false ?_ (fun ⟨_, hfinger, _⟩ => nomatch hfinger)
    rw [pressed_eq, if_neg fun h => absurd h.1 (by simp [pads])]
    decide
  dark _ := by
    rw [pressed_eq, if_neg fun h => absurd h.1 (by simp [pads])]
    decide

theorem pressed_passed (hm : Exact m) (hs : Inv s) {view : View} {event : MotionEvent K} {p : K × K}
    (hp : touchPosition view event = some p) :
    pressed (s.onTouchEvent view event).input = 1 ↔ ∃ l, s.video = some l ∧ l.Covers p := by
  rw [State.onTouchEvent, hp]
  rcases hvideo : s.video with _ | l
  · exact iff_of_false (hs.dark hvideo) nofun
  · simp [pressed_onTouchEvent hm]

theorem pressed_step (hm : Exact m) (hs : Inv s) {view : View} {event : MotionEvent K}
    (h : step s (.onTouchEvent view event) = some (t, es)) :
    pressed t.input = 1 ↔
      match touchPosition view event with
      | some p => ∃ l, s.video = some l ∧ l.Covers p
      | none => Touched s := by
  rw [step_onTouchEvent h, (follow_input ..).1]
  rcases hp : touchPosition view event with _ | p
  · rw [State.onTouchEvent, hp]
    exact hs.pressed
  · exact pressed_passed hm hs hp

/-- After each step from such a state, the law holds exactly if the condition does, and a finger on the picture
presses the pointer. -/
theorem notStuck_step (hm : Exact m) (hs : Inv s) (h : step s a = some (t, es)) :
    (NotStuck s a t es ↔ Released s a t es) ∧ (Touched t → pressed t.input = 1) := by
  cases a with
  | layout l =>
    obtain ⟨rfl, -⟩ := Prod.mk.inj (Option.some.inj h)
    exact ⟨iff_of_true hs.pressed.1 trivial, hs.pressed.2⟩
  | onTouchEvent view event =>
    rw [NotStuck, Released, pressed_step hm hs h, touched_step h, touchPosition]
    rcases event with ⟨actionMasked, x, y⟩
    cases actionMasked with
    | pointerDown => exact ⟨iff_of_true id trivial, id⟩
    | pointerUp => exact ⟨iff_of_true id trivial, id⟩
    | up => simp
    | cancel => simp
    | down => exact ⟨covered_iff .., covered_of_shown⟩
    | move => exact ⟨covered_iff .., covered_of_shown⟩

theorem inv_step (hm : Exact m) (hs : Inv s) (h : step s a = some (t, es)) (hreleased : Released s a t es) :
    Inv t where
  pressed := ⟨(notStuck_step hm hs h).1.2 hreleased, (notStuck_step hm hs h).2⟩
  dark ht := by
    obtain ⟨-, -, -, hdark, hinput⟩ := step_video h ht
    rw [hinput]
    exact hs.dark hdark

/-- In every run, the pointer is pressed only by a finger on the picture exactly if no gesture is cancelled with the
finger there, and none leaves the view where the picture covers its border. -/
theorem released_iff (hm : Exact m) (as : List (Action m)) :
    Along step NotStuck {} as ↔ Along step Released {} as :=
  along_iff (fun hs h => (notStuck_step hm hs h).1) (inv_step hm) inv_start as

end

/-! ### A touch of the middle -/

/-- The whole screen, as `turned`. -/
def screen : Layout cmath := ⟨turned, current_turned, visible_turned, 1, turned_turned⟩

def touch (actionMasked : MotionAction) : Action cmath := .onTouchEvent ⟨1, 1⟩ ⟨actionMasked, 1 / 2, 1 / 2⟩

theorem covers_outside : ¬ screen.Covers TOUCH_EVENT_OUTSIDE :=
  (pressed_onTouchEvent exact_cmath screen pads TOUCH_EVENT_OUTSIDE).not.1 (by decide +kernel)

/-- A tap. -/
theorem notStuck_tap : Along step NotStuck ({} : State cmath) [.layout screen, touch .down, touch .up] := by
  refine (released_iff exact_cmath _).2 ((along_cons_some rfl).2 ⟨trivial, ?_⟩)
  refine (along_cons_some rfl).2 ⟨.inl ⟨by decide +kernel, by decide +kernel⟩, ?_⟩
  refine (along_cons_some rfl).2 ⟨?_, trivial⟩
  rintro l ⟨⟩
  exact covers_outside

/-- A gesture that is cancelled. -/
theorem not_released_cancel :
    ¬ Along step NotStuck ({} : State cmath) [.layout screen, touch .down, touch .cancel] := by
  intro h
  have hdown := ((along_cons_some rfl).1 h).2
  have hcancel := ((along_cons_some rfl).1 hdown).2
  obtain ⟨_, hfinger, -⟩ := ((along_cons_some rfl).1 hcancel).1 (by decide +kernel)
  cases hfinger

end SweetHome.TouchGestures
