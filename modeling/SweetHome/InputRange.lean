import SweetHome.TouchGestures

/-!
# The range of what is read

The position of a pointer is kept with 0 and 1 for the edges of the picture, and is scaled to the range of the core
when it is read. But -1 and -10 are kept in the same fields, for a pointer that has not been used and one outside of
the picture, and are scaled as well. So the coordinates of the pointer are in the range exactly if they are those of
a touch of the picture, or of a motion from its top left to its bottom right (`inRange_iff`). In exact arithmetic.
-/

namespace SweetHome.InputRange
open Step Rendering Letterbox Input Touch
open TouchGestures (Layout View MotionEvent touchPosition TOUCH_EVENT_OUTSIDE)

section
variable {K : Type} [Field K] [LinearOrder K]

/-! ### What is converted to `int16_t` -/

def analogValue (pad : GamePadState K) (index id : Nat) : K :=
  match index, id with
  | 0, 0 => pad.joypadLeftXAxis * MAX_RANGE_MOTION
  | 0, 1 => pad.joypadLeftYAxis * MAX_RANGE_MOTION
  | 1, 0 => pad.joypadRightXAxis * MAX_RANGE_MOTION
  | 1, 1 => pad.joypadRightYAxis * MAX_RANGE_MOTION
  | _, _ => 0

/-- A position of the pointer, scaled. -/
def pointerCoordinate (axis : K) : K := (2 : Nat) * (axis - 1 / (2 : Nat)) * MAX_RANGE_MOTION

def pointerValue (pad : GamePadState K) (index id : Nat) : K :=
  if 0 < index then 0
  else
    match id with
    | 0 => pointerCoordinate pad.pointerScreenXAxis
    | 1 => pointerCoordinate pad.pointerScreenYAxis
    | 2 => if 0 ≤ pad.pointerScreenXAxis ∧ 0 ≤ pad.pointerScreenYAxis then 1 else 0
    | _ => 0

/-- What `getInputState` computes for the analog sticks and the pointer. -/
def value (pads : Pads K) (port device index : Nat) (id : UInt32) : K :=
  if h : port < 4 then
    if device = RETRO_DEVICE_ANALOG then analogValue (pads ⟨port, h⟩) index id.toNat
    else if device = RETRO_DEVICE_POINTER then pointerValue (pads ⟨port, h⟩) index id.toNat
    else 0
  else 0

/-! ### Steps -/

/-- A motion event with its axes between -1 and 1. -/
structure Motion (K : Type) [Field K] [LinearOrder K] where
  port : Fin 4
  motionSource : Int
  xAxis : K
  yAxis : K
  abs_xAxis_le : |xAxis| ≤ 1
  abs_yAxis_le : |yAxis| ≤ 1

/-- What has set the position of a pointer. -/
inductive Source (m : MathFunctions K) where
  | start
  | motion (xAxis yAxis : K)
  /-- A touch of that position, and the one that was passed on to the layout. -/
  | touch (l : Layout m) (position passed : K × K)

variable {m : MathFunctions K}

structure State (m : MathFunctions K) where
  input : Pads K := pads
  video : Option (Layout m) := none
  /-- What has set the pointers last. -/
  source : Fin 4 → Source m := fun _ => .start

inductive Action (m : MathFunctions K) where
  | onMotionEvent (motion : Motion K)
  | onTouchEvent (view : View) (event : MotionEvent K)
  /-- Another video, or an update of its layout. -/
  | layout (l : Layout m)
  | getInputState (port device index : Nat) (id : UInt32)

/-- A release has no position of its own. -/
def touched (view : View) (event : MotionEvent K) : K × K :=
  if event.actionMasked = .up then TOUCH_EVENT_OUTSIDE else event.position view

variable [FloorRing K]

def State.onMotionEvent (motion : Motion K) (s : State m) : State m :=
  { s with
    input := Input.onMotionEvent s.input motion.port motion.motionSource motion.xAxis motion.yAxis
    source := if motion.motionSource = MOTION_SOURCE_POINTER
      then Function.update s.source motion.port (.motion motion.xAxis motion.yAxis) else s.source }

def State.onTouchEvent (view : View) (event : MotionEvent K) (s : State m) : State m :=
  match touchPosition view event, s.video with
  | some p, some l =>
    { s with
      input := Touch.onTouchEvent l.layout s.input p.1 p.2
      source := fun port => if port.val = 0 then .touch l (touched view event) p else s.source port }
  | _, _ => s

def step : Step (State m) (Action m) Int
  | s, .onMotionEvent motion => some (s.onMotionEvent motion, [])
  | s, .onTouchEvent view event => some (s.onTouchEvent view event, [])
  | s, .layout l => some ({ s with video := some l }, [])
  | s, .getInputState port device index id => some (s, [Input.getInputState s.input port device index id])

/-! ### The law, and when it holds -/

/-- It asks for a coordinate of a pointer. -/
def Asks (pad : Fin 4) (port device index : Nat) (id : UInt32) : Prop :=
  port = pad ∧ device = RETRO_DEVICE_POINTER ∧ index = 0 ∧
    (id = RETRO_DEVICE_ID_POINTER_X ∨ id = RETRO_DEVICE_ID_POINTER_Y)

/-- A touch outside the picture. -/
def Source.Outside : Source m → Prop
  | .touch l position _ => ¬ l.ShowsAt position
  | .start | .motion .. => False

/-- The coordinates of a point of the edge. -/
def AtEdge (x y : K) : Prop :=
  (|x| ≤ MAX_RANGE_MOTION ∧ |y| ≤ MAX_RANGE_MOTION) ∧ (|x| = MAX_RANGE_MOTION ∨ |y| = MAX_RANGE_MOTION)

/-- What the core is told of the sticks and the pointer is a value in the range, cut off to an integer. -/
def InRange (s : State m) (a : Action m) (_ : State m) (es : List Int) : Prop :=
  match a with
  | .getInputState port device index id =>
    (device = RETRO_DEVICE_ANALOG ∨ device = RETRO_DEVICE_POINTER →
      es = [Audio.truncate (value s.input port device index id)]) ∧
    |value s.input port device index id| ≤ MAX_RANGE_MOTION ∧ ∀ pad, Asks pad port device index id →
      (s.source pad).Outside →
        AtEdge (pointerCoordinate (s.input pad).pointerScreenXAxis) (pointerCoordinate (s.input pad).pointerScreenYAxis)
  | .onMotionEvent _ | .onTouchEvent .. | .layout _ => True

/-- A touch of the border of the picture. -/
def OnBorder (l : Layout m) (p : K × K) : Prop :=
  ∃ u v, Displays l.layout u v (p.1, -p.2) ∧ ((u = 0 ∨ u = 1) ∨ v = 0 ∨ v = 1)

/-- A touch of the picture, one from outside of the view that is taken to the border of the picture, or a motion
that is not to the left of the picture or above it. -/
def Source.OnPicture (id : UInt32) : Source m → Prop
  | .start => False
  | .motion xAxis yAxis => 0 ≤ if id = RETRO_DEVICE_ID_POINTER_X then xAxis else yAxis
  | .touch l position passed => l.ShowsAt position ∨ OnBorder l passed

/-- The coordinates of a pointer are read only after such an event. -/
def ReadOnPicture (s : State m) (a : Action m) (_ : State m) (_ : List Int) : Prop :=
  match a with
  | .getInputState port device index id =>
    ∀ pad, Asks pad port device index id → (s.source pad).OnPicture id
  | .onMotionEvent _ | .onTouchEvent .. | .layout _ => True

structure Bounded (pad : GamePadState K) : Prop where
  leftX : |pad.joypadLeftXAxis| ≤ 1
  leftY : |pad.joypadLeftYAxis| ≤ 1
  rightX : |pad.joypadRightXAxis| ≤ 1
  rightY : |pad.joypadRightYAxis| ≤ 1

def pointerAxes (pad : GamePadState K) : K × K := (pad.pointerScreenXAxis, pad.pointerScreenYAxis)

/-- Where a pointer has been set. -/
def Source.Sets (axes : K × K) : Source m → Prop
  | .start => axes = (-1, -1)
  | .motion xAxis yAxis => (|xAxis| ≤ 1 ∧ |yAxis| ≤ 1) ∧ axes = (xAxis, yAxis)
  | .touch l position passed =>
    (l.ShowsAt position → passed = position) ∧ axes = getRelativePosition l.layout passed.1 passed.2

structure Inv (s : State m) : Prop where
  bounded : ∀ port, Bounded (s.input port)
  sets : ∀ port, (s.source port).Sets (pointerAxes (s.input port))

/-! ### What the events keep -/

theorem bounded_onMotionEvent {input : Pads K} (h : ∀ port, Bounded (input port)) (port : Fin 4) {motionSource : Int}
    {xAxis yAxis : K} (hpointer : motionSource = MOTION_SOURCE_POINTER ∨ |xAxis| ≤ 1 ∧ |yAxis| ≤ 1) (port' : Fin 4) :
    Bounded (Input.onMotionEvent input port motionSource xAxis yAxis port') := by
  have hport := h port
  have hupdate {pad : GamePadState K} (hpad : Bounded pad) : Bounded (Function.update input port pad port') :=
    (Function.forall_update_iff input fun _ pad => Bounded pad).2 ⟨hpad, fun j _ => h j⟩ port'
  unfold Input.onMotionEvent
  split_ifs with hdpad hleft hright hmotion
  · exact hupdate ⟨hport.leftX, hport.leftY, hport.rightX, hport.rightY⟩
  · obtain ⟨hx, hy⟩ := hpointer.resolve_left (by rw [hleft]; decide)
    exact hupdate ⟨hx, hy, hport.rightX, hport.rightY⟩
  · obtain ⟨hx, hy⟩ := hpointer.resolve_left (by rw [hright]; decide)
    exact hupdate ⟨hport.leftX, hport.leftY, hx, hy⟩
  · exact hupdate ⟨hport.leftX, hport.leftY, hport.rightX, hport.rightY⟩
  · exact h port'

theorem pointerAxes_onMotionEvent (input : Pads K) (port : Fin 4) (motionSource : Int) (xAxis yAxis : K)
    (port' : Fin 4) :
    pointerAxes (Input.onMotionEvent input port motionSource xAxis yAxis port') =
      if motionSource = MOTION_SOURCE_POINTER ∧ port' = port then (xAxis, yAxis) else pointerAxes (input port') := by
  unfold Input.onMotionEvent
  rcases eq_or_ne port' port with rfl | hport
  · have hdpad : MOTION_SOURCE_DPAD ≠ MOTION_SOURCE_POINTER := by decide
    have hleft : MOTION_SOURCE_ANALOG_LEFT ≠ MOTION_SOURCE_POINTER := by decide
    have hright : MOTION_SOURCE_ANALOG_RIGHT ≠ MOTION_SOURCE_POINTER := by decide
    split_ifs <;> simp_all [pointerAxes]
  · split_ifs <;> simp_all

end

section
variable {K : Type} [Field K] [LinearOrder K] [IsStrictOrderedRing K]

/-! ### The values -/

section
variable [FloorRing K]

theorem analogState_eq (pad : GamePadState K) (index id : Nat) :
    analogState pad index id = Audio.truncate (analogValue pad index id) := by
  fun_cases analogState pad index id <;> simp_all [analogValue, Audio.truncate]

theorem pointerState_eq (pad : GamePadState K) (index id : Nat) :
    pointerState pad index id = Audio.truncate (pointerValue pad index id) := by
  rcases index.eq_zero_or_pos with rfl | hindex
  · match id with
    | 0 => rfl
    | 1 => rfl
    | 2 =>
      simp only [pointerState, pointerValue, lt_irrefl, if_false]
      split <;> simp [Audio.truncate]
    | id + 3 => simp [pointerState, pointerValue, Audio.truncate]
  · simp [pointerState, pointerValue, hindex, Audio.truncate]

/-- What the core reads of the analog sticks and the pointer. -/
theorem getInputState_eq (input : Pads K) (port : Nat) {device : Nat} (index : Nat) (id : UInt32)
    (h : device = RETRO_DEVICE_ANALOG ∨ device = RETRO_DEVICE_POINTER) :
    Input.getInputState input port device index id = Audio.truncate (value input port device index id) := by
  unfold Input.getInputState value
  split
  · rcases h with rfl | rfl
    · exact analogState_eq ..
    · exact pointerState_eq ..
  · simp [Audio.truncate]

end

theorem abs_mul_maxRange_le {x : K} (h : |x| ≤ 1) : |x * MAX_RANGE_MOTION| ≤ MAX_RANGE_MOTION := by
  rw [abs_mul, Nat.abs_cast]
  exact mul_le_of_le_one_left (Nat.cast_nonneg _) h

theorem abs_analogValue_le {pad : GamePadState K} (h : Bounded pad) (index id : Nat) :
    |analogValue pad index id| ≤ MAX_RANGE_MOTION := by
  unfold analogValue
  split
  · exact abs_mul_maxRange_le h.leftX
  · exact abs_mul_maxRange_le h.leftY
  · exact abs_mul_maxRange_le h.rightX
  · exact abs_mul_maxRange_le h.rightY
  · simp

theorem abs_pointerCoordinate (axis : K) :
    |pointerCoordinate axis| = |2 * axis - 1| * MAX_RANGE_MOTION := by
  rw [pointerCoordinate, abs_mul, Nat.abs_cast]
  congr 2
  push_cast
  ring

theorem maxRange_pos : (0 : K) < MAX_RANGE_MOTION := Nat.cast_pos.2 (by decide)

theorem abs_pointerCoordinate_le_iff (axis : K) :
    |pointerCoordinate axis| ≤ MAX_RANGE_MOTION ↔ 0 ≤ axis ∧ axis ≤ 1 := by
  rw [abs_pointerCoordinate, mul_le_iff_le_one_left maxRange_pos, abs_le]
  constructor
  · rintro ⟨h₁, h₂⟩
    exact ⟨by linarith, by linarith⟩
  · rintro ⟨h₁, h₂⟩
    exact ⟨by linarith, by linarith⟩

/-! ### The position of a touch -/

variable {m : MathFunctions K}

theorem abs_reported_eq_one_iff (k : Fin 4) (x y : K) :
    (|(reported k x y).1| = 1 ∨ |(reported k x y).2| = 1) ↔ |x| = 1 ∨ |y| = 1 := by
  unfold reported
  rcases quarterTurns_cases (K := K) k with ⟨hone, hzero⟩ | ⟨hzero, hone⟩
  · simp [hzero, abs_mul, hone]
  · simp [hzero, abs_mul, hone, or_comm]

theorem abs_two_mul_sub_one_eq_iff (u : K) : |2 * u - 1| = 1 ↔ u = 0 ∨ u = 1 := by
  rw [abs_eq zero_le_one, or_comm]
  refine or_congr ⟨fun h => by linarith, ?_⟩ ⟨fun h => by linarith, ?_⟩
  · rintro rfl
    norm_num
  · rintro rfl
    norm_num

/-- The coordinates that a touch is read at. -/
def coordinates (l : Layout m) (p : K × K) : K × K :=
  (pointerCoordinate (getRelativePosition l.layout p.1 p.2).1,
    pointerCoordinate (getRelativePosition l.layout p.1 p.2).2)

theorem abs_coordinates_displays (hm : Exact m) (l : Layout m) {k : Fin 4} (hk : Turned m l.layout k) {u v : K}
    {p : K × K} (h : Displays l.layout u v (p.1, -p.2)) :
    |(coordinates l p).1| = |(reported k (2 * u - 1) (2 * v - 1)).1| * MAX_RANGE_MOTION ∧
      |(coordinates l p).2| = |(reported k (2 * u - 1) (2 * v - 1)).2| * MAX_RANGE_MOTION := by
  have haxis (z : K) : 2 * ((1 + z) / 2) - 1 = z := by ring
  rw [coordinates, TouchGestures.getRelativePosition_displays hm l hk h, abs_pointerCoordinate, abs_pointerCoordinate,
    haxis, haxis]
  exact ⟨rfl, rfl⟩

theorem abs_coordinates_le (hm : Exact m) {l : Layout m} {p : K × K} (h : l.Covers p) :
    |(coordinates l p).1| ≤ MAX_RANGE_MOTION ∧ |(coordinates l p).2| ≤ MAX_RANGE_MOTION := by
  obtain ⟨u, v, hdisplays⟩ := h
  obtain ⟨⟨⟨hu₁, hu₂⟩, hv₁, hv₂⟩, -⟩ := (displays_iff l.current).1 hdisplays
  obtain ⟨k, hk⟩ := l.turned
  obtain ⟨hx, hy⟩ := abs_reported_le (k := k) (x := 2 * u - 1) (y := 2 * v - 1)
    (abs_le.2 ⟨by linarith, by linarith⟩) (abs_le.2 ⟨by linarith, by linarith⟩)
  obtain ⟨hfst, hsnd⟩ := abs_coordinates_displays hm l hk hdisplays
  rw [hfst, hsnd]
  exact ⟨mul_le_of_le_one_left maxRange_pos.le hx, mul_le_of_le_one_left maxRange_pos.le hy⟩

theorem lt_abs_coordinates (hm : Exact m) {l : Layout m} {p : K × K} (h : ¬ l.Covers p) :
    MAX_RANGE_MOTION < |(coordinates l p).1| ∧ MAX_RANGE_MOTION < |(coordinates l p).2| := by
  rw [coordinates, TouchGestures.getRelativePosition_outside hm l h, abs_pointerCoordinate]
  have hfar : (1 : K) < |2 * -((10 : Nat) : K) - 1| := by norm_num
  exact ⟨lt_mul_of_one_lt_left maxRange_pos hfar, lt_mul_of_one_lt_left maxRange_pos hfar⟩

theorem atEdge_iff (hm : Exact m) (l : Layout m) (p : K × K) :
    AtEdge (coordinates l p).1 (coordinates l p).2 ↔ OnBorder l p := by
  have hdisplayed {u v : K} (h : Displays l.layout u v (p.1, -p.2)) :
      (|(coordinates l p).1| = MAX_RANGE_MOTION ∨ |(coordinates l p).2| = MAX_RANGE_MOTION) ↔
        (u = 0 ∨ u = 1) ∨ v = 0 ∨ v = 1 := by
    obtain ⟨k, hk⟩ := l.turned
    obtain ⟨hfst, hsnd⟩ := abs_coordinates_displays hm l hk h
    rw [hfst, hsnd, mul_eq_right₀ maxRange_pos.ne', mul_eq_right₀ maxRange_pos.ne', abs_reported_eq_one_iff,
      abs_two_mul_sub_one_eq_iff, abs_two_mul_sub_one_eq_iff]
  constructor
  · rintro ⟨⟨hrange, -⟩, hedge⟩
    by_cases hcovers : l.Covers p
    · obtain ⟨u, v, h⟩ := hcovers
      exact ⟨u, v, h, (hdisplayed h).1 hedge⟩
    · exact absurd hrange (not_le.2 (lt_abs_coordinates hm hcovers).1)
  · rintro ⟨u, v, h, hborder⟩
    exact ⟨abs_coordinates_le hm ⟨u, v, h⟩, (hdisplayed h).2 hborder⟩

theorem passed_eq {view : View} {event : MotionEvent K} {p : K × K} (hp : touchPosition view event = some p)
    {l : Layout m} (hshows : l.ShowsAt (touched view event)) : p = touched view event := by
  obtain ⟨hview, -⟩ := hshows
  rw [touchPosition] at hp
  rw [touched] at hview ⊢
  split at hp
  · rename_i haction
    rw [haction, if_neg (by decide)] at hview ⊢
    rw [← Option.some.inj hp, TouchGestures.normalizeTouchCoordinates_eq hview]
  · rename_i haction
    rw [haction, if_neg (by decide)] at hview ⊢
    rw [← Option.some.inj hp, TouchGestures.normalizeTouchCoordinates_eq hview]
  · rename_i haction
    rw [haction, if_pos rfl, ← Option.some.inj hp]
  all_goals cases hp

variable [FloorRing K] {s t : State m} {a : Action m} {es : List Int}

theorem inv_start : Inv ({} : State m) where
  bounded _ := by constructor <;> simp [pads]
  sets _ := rfl

omit [IsStrictOrderedRing K] in
theorem inv_onMotionEvent (hs : Inv s) (motion : Motion K) : Inv (s.onMotionEvent motion) where
  bounded := bounded_onMotionEvent hs.bounded motion.port (.inr ⟨motion.abs_xAxis_le, motion.abs_yAxis_le⟩)
  sets port := by
    simp only [State.onMotionEvent, pointerAxes_onMotionEvent]
    by_cases hpointer : motion.motionSource = MOTION_SOURCE_POINTER
    · rcases eq_or_ne port motion.port with rfl | hport
      · simp only [hpointer, if_true, true_and, Function.update_self]
        exact ⟨⟨motion.abs_xAxis_le, motion.abs_yAxis_le⟩, rfl⟩
      · simp only [hpointer, if_true, true_and, Function.update_of_ne hport, if_neg hport]
        exact hs.sets port
    · simp only [hpointer, false_and, if_false]
      exact hs.sets port

theorem inv_onTouchEvent (hs : Inv s) (view : View) (event : MotionEvent K) : Inv (s.onTouchEvent view event) := by
  unfold State.onTouchEvent
  split
  · rename_i p l hp hvideo
    refine ⟨bounded_onMotionEvent hs.bounded 0 (.inl rfl), fun port => ?_⟩
    simp only [Touch.onTouchEvent, pointerAxes_onMotionEvent, true_and]
    rcases eq_or_ne port 0 with rfl | hport
    · exact ⟨fun hshows => passed_eq hp hshows, rfl⟩
    · rw [if_neg hport, if_neg (Fin.val_ne_zero_iff.2 hport)]
      exact hs.sets port
  · exact hs

theorem inv_step (hs : Inv s) (h : step s a = some (t, es)) : Inv t := by
  cases a with
  | onMotionEvent motion =>
    obtain ⟨rfl, -⟩ := Prod.mk.inj (Option.some.inj h)
    exact inv_onMotionEvent hs motion
  | onTouchEvent view event =>
    obtain ⟨rfl, -⟩ := Prod.mk.inj (Option.some.inj h)
    exact inv_onTouchEvent hs view event
  | layout l =>
    obtain ⟨rfl, -⟩ := Prod.mk.inj (Option.some.inj h)
    exact ⟨hs.bounded, hs.sets⟩
  | getInputState port device index id =>
    obtain ⟨rfl, -⟩ := Prod.mk.inj (Option.some.inj h)
    exact hs

/-! ### The reads -/

omit [IsStrictOrderedRing K] [FloorRing K] in
theorem pointerValue_coordinate (pad : GamePadState K) {id : UInt32}
    (hid : id = RETRO_DEVICE_ID_POINTER_X ∨ id = RETRO_DEVICE_ID_POINTER_Y) :
    pointerValue pad 0 id.toNat = pointerCoordinate
      (if id = RETRO_DEVICE_ID_POINTER_X then pad.pointerScreenXAxis else pad.pointerScreenYAxis) := by
  rcases hid with rfl | rfl <;> rfl

omit [FloorRing K] in
/-- What is read after a touch. -/
theorem touch_iff (hm : Exact m) {l : Layout m} {position passed : K × K}
    (hpassed : l.ShowsAt position → passed = position) {x y coordinate : K} (haxes : coordinates l passed = (x, y))
    (hcoordinate : coordinate = x ∨ coordinate = y) :
    (|coordinate| ≤ MAX_RANGE_MOTION ∧ (¬ l.ShowsAt position → AtEdge x y)) ↔
      l.ShowsAt position ∨ OnBorder l passed := by
  have hedge := atEdge_iff hm l passed
  rw [haxes] at hedge
  rw [hedge, ← or_iff_not_imp_left]
  refine ⟨fun h => h.2, fun h => ⟨?_, h⟩⟩
  have hcovers : l.Covers passed := by
    rcases h with hshows | ⟨u, v, hdisplays, -⟩
    · rw [hpassed hshows]
      exact hshows.2
    · exact ⟨u, v, hdisplays⟩
  obtain ⟨hx, hy⟩ := abs_coordinates_le hm hcovers
  rw [haxes] at hx hy
  rcases hcoordinate with rfl | rfl
  · exact hx
  · exact hy

omit [FloorRing K] in
/-- What is read of a pointer, by what has set it. -/
theorem pointerValue_iff (hm : Exact m) {pad : GamePadState K} {source : Source m}
    (hsets : source.Sets (pointerAxes pad)) {id : UInt32}
    (hid : id = RETRO_DEVICE_ID_POINTER_X ∨ id = RETRO_DEVICE_ID_POINTER_Y) :
    (|pointerValue pad 0 id.toNat| ≤ MAX_RANGE_MOTION ∧ (source.Outside →
        AtEdge (pointerCoordinate pad.pointerScreenXAxis) (pointerCoordinate pad.pointerScreenYAxis))) ↔
      source.OnPicture id := by
  rw [pointerValue_coordinate pad hid]
  cases source with
  | start =>
    obtain ⟨hx, hy⟩ := Prod.mk.inj hsets
    rw [hx, hy, ite_self, abs_pointerCoordinate_le_iff]
    exact iff_of_false (fun h => absurd h.1.1 (by norm_num)) not_false
  | motion xAxis yAxis =>
    obtain ⟨⟨hxAxis, hyAxis⟩, haxes⟩ := hsets
    obtain ⟨hx, hy⟩ := Prod.mk.inj haxes
    rw [hx, hy, abs_pointerCoordinate_le_iff, Source.OnPicture]
    refine ⟨fun h => h.1.1, fun h => ⟨⟨h, ?_⟩, nofun⟩⟩
    split
    · exact (abs_le.1 hxAxis).2
    · exact (abs_le.1 hyAxis).2
  | touch l position passed =>
    obtain ⟨hpassed, haxes⟩ := hsets
    refine touch_iff hm hpassed (by rw [coordinates, ← haxes]; rfl) ?_
    split
    · exact .inl rfl
    · exact .inr rfl

/-- Only the coordinates of the pointer can be out of the range. -/
theorem abs_value_le (hs : Inv s) {port device index : Nat} {id : UInt32}
    (hother : ∀ pad, ¬ Asks pad port device index id) : |value s.input port device index id| ≤ MAX_RANGE_MOTION := by
  have hzero : |(0 : K)| ≤ MAX_RANGE_MOTION := abs_zero.trans_le maxRange_pos.le
  unfold value
  split
  · rename_i hport
    split
    · exact abs_analogValue_le (hs.bounded ⟨port, hport⟩) index id.toNat
    · split
      · rename_i hpointer
        unfold pointerValue
        split
        · exact hzero
        · rename_i hindex
          have hid (h : id = RETRO_DEVICE_ID_POINTER_X ∨ id = RETRO_DEVICE_ID_POINTER_Y) : False :=
            hother ⟨port, hport⟩ ⟨rfl, hpointer, Nat.eq_zero_of_not_pos hindex, h⟩
          split
          · rename_i hx
            exact (hid (.inl (UInt32.toNat_inj.1 hx))).elim
          · rename_i hy
            exact (hid (.inr (UInt32.toNat_inj.1 hy))).elim
          · split
            · exact (abs_one (α := K)).trans_le (Nat.one_le_cast.2 (by decide))
            · exact hzero
          · exact hzero
      · exact hzero
  · exact hzero

theorem inRange_step (hm : Exact m) (hs : Inv s) (h : step s a = some (t, es)) :
    InRange s a t es ↔ ReadOnPicture s a t es := by
  cases a with
  | onMotionEvent motion => exact Iff.rfl
  | onTouchEvent view event => exact Iff.rfl
  | layout l => exact Iff.rfl
  | getInputState port device index id =>
    obtain ⟨rfl, rfl⟩ := Prod.mk.inj (Option.some.inj h)
    have htold (hdevice : device = RETRO_DEVICE_ANALOG ∨ device = RETRO_DEVICE_POINTER) :
        [Input.getInputState s.input port device index id] =
          [Audio.truncate (value s.input port device index id)] := by
      rw [getInputState_eq s.input port index id hdevice]
    rw [InRange, and_iff_right htold]
    by_cases hasks : ∃ pad, Asks pad port device index id
    · obtain ⟨pad, rfl, rfl, rfl, hid⟩ := hasks
      have honly (pad' : Fin 4) : Asks pad' pad RETRO_DEVICE_POINTER 0 id ↔ pad' = pad :=
        ⟨fun h => (Fin.ext h.1).symm, fun h => ⟨h ▸ rfl, rfl, rfl, hid⟩⟩
      have hvalue : value s.input pad RETRO_DEVICE_POINTER 0 id = pointerValue (s.input pad) 0 id.toNat :=
        dif_pos pad.isLt
      simp only [ReadOnPicture, honly, forall_eq, hvalue]
      exact pointerValue_iff hm (hs.sets pad) hid
    · rw [not_exists] at hasks
      exact iff_of_true ⟨abs_value_le hs hasks, fun pad hpad => absurd hpad (hasks pad)⟩
        fun pad hpad => absurd hpad (hasks pad)

/-- In every run, what is read of the analog sticks and the pointer is in the range, and at an edge of it after a
touch outside of the picture, exactly if the coordinates of a pointer are read only after a touch of the picture, or
a motion that is not to the left of it or above it. -/
theorem inRange_iff (hm : Exact m) (as : List (Action m)) :
    Along step InRange {} as ↔ Along step ReadOnPicture {} as :=
  along_iff (fun hs h => inRange_step hm hs h) (fun hs h _ => inv_step hs h) inv_start as

end

/-! ### A pointer that has not been used -/

/-- A touch of the middle of the screen, and what is read then. -/
theorem inRange_touch : Along step InRange ({} : State cmath)
    [.layout TouchGestures.screen, .onTouchEvent ⟨1, 1⟩ ⟨.down, 1 / 2, 1 / 2⟩,
      .getInputState 0 RETRO_DEVICE_POINTER 0 RETRO_DEVICE_ID_POINTER_X] := by
  refine (inRange_iff exact_cmath _).2 ((along_cons_some rfl).2 ⟨trivial, (along_cons_some rfl).2 ⟨trivial, ?_⟩⟩)
  refine (along_cons_some rfl).2 ⟨?_, trivial⟩
  rintro pad ⟨hpad, -⟩
  obtain rfl : pad = 0 := Fin.ext hpad.symm
  refine .inl ⟨⟨by decide +kernel, by decide +kernel⟩, ?_⟩
  exact (TouchGestures.pressed_onTouchEvent exact_cmath TouchGestures.screen pads _).1 (by decide +kernel)

theorem not_inRange_start : ¬ Along step InRange ({} : State cmath)
    [.getInputState 0 RETRO_DEVICE_POINTER 0 RETRO_DEVICE_ID_POINTER_X] := by
  intro h
  have hrange := ((along_cons_some rfl).1 h).1.2.1
  revert hrange
  decide +kernel

end SweetHome.InputRange
