import SweetHome.Input
import SweetHome.Lib.Run
import Mathlib.Data.Rat.Floor

/-!
# The table of the pads

A view tells `Input` the number of a controller as its port. Numbers below 1 are sorted out before, and reads of ports
above 3 are answered with 0, but nothing keeps an event of a fifth controller from being written behind the four pads
(`inTable_iff`).
-/

namespace SweetHome.PadTable
open Step Input

variable {K : Type} [Field K] [LinearOrder K] [FloorRing K]

inductive Event where
  /-- `pads[i]` is used. -/
  | index (i : Int)
deriving DecidableEq, Repr

/-! ### `Input` -/

/-- A use of `pads[i]`; behind the table it is undefined what it does. -/
def withPad (i : Int) (f : Fin 4 → Pads K) : Option (Pads K) × List Event :=
  (if h : 0 ≤ i ∧ i < 4 then some (f ⟨i.toNat, by omega⟩) else none, [.index i])

def onKeyEvent (pads : Pads K) (port : UInt32) (action keyCode : Int) : Option (Pads K) × List Event :=
  if convertAndroidToLibretroKey keyCode = UNKNOWN_KEY then (some pads, [])
  else if action = AKEY_EVENT_ACTION_DOWN ∨ action = AKEY_EVENT_ACTION_UP then
    withPad port.toNat fun port => Input.onKeyEvent pads port action keyCode
  else (some pads, [])

def onMotionEvent (pads : Pads K) (port : Int32) (motionSource : Int) (xAxis yAxis : K) :
    Option (Pads K) × List Event :=
  if motionSource = MOTION_SOURCE_DPAD ∨ motionSource = MOTION_SOURCE_ANALOG_LEFT ∨
      motionSource = MOTION_SOURCE_ANALOG_RIGHT ∨ motionSource = MOTION_SOURCE_POINTER then
    withPad port.toInt fun port => Input.onMotionEvent pads port motionSource xAxis yAxis
  else (some pads, [])

/-- The branches of `getInputState` that look at the pad. -/
def usesPad (device index : Nat) (id : UInt32) : Bool :=
  device == RETRO_DEVICE_JOYPAD || device == RETRO_DEVICE_ANALOG && index < 2 && id < 2 ||
    device == RETRO_DEVICE_POINTER && index == 0 && id < 3

def getInputState (pads : Pads K) (port : UInt32) (device index : Nat) (id : UInt32) : Int × List Event :=
  if port ≥ 4 then (0, [])
  else
    (Input.getInputState pads port.toNat device index id,
      if usesPad device index id then [.index port.toNat] else [])

/-! ### The view -/

/-- `GamepadsManager.GAMEPAD_KEYS` -/
def GAMEPAD_KEYS : List Int :=
  [AKeyCode.dpadUp, AKeyCode.dpadDown, AKeyCode.dpadRight, AKeyCode.dpadLeft, AKeyCode.dpadDownRight,
    AKeyCode.dpadDownLeft, AKeyCode.dpadUpLeft, AKeyCode.dpadUpRight, AKeyCode.buttonSelect, AKeyCode.buttonStart,
    AKeyCode.buttonA, AKeyCode.buttonX, AKeyCode.buttonY, AKeyCode.buttonB, AKeyCode.buttonL1, AKeyCode.buttonL2,
    AKeyCode.buttonR1, AKeyCode.buttonR2, AKeyCode.buttonThumbL, AKeyCode.buttonThumbR]

/-- `GamepadsManager.getGamepadKeyEvent` -/
def getGamepadKeyEvent (keyCode : Int) : Int :=
  if keyCode = AKeyCode.buttonB then AKeyCode.buttonA
  else if keyCode = AKeyCode.buttonA then AKeyCode.buttonB
  else if keyCode = AKeyCode.buttonX then AKeyCode.buttonY
  else if keyCode = AKeyCode.buttonY then AKeyCode.buttonX
  else keyCode

def SOURCE_JOYSTICK : Int := 0x01000010

/-- An event knows the controller number of its device, if that is still there. -/
structure KeyEvent where
  controllerNumber : Option Int32
deriving DecidableEq, Repr

structure MotionEvent (K : Type) where
  controllerNumber : Option Int32
  source : Int
  hatX : K
  hatY : K
  x : K
  y : K
  z : K
  rz : K

structure State (K : Type) [Field K] where
  /-- There is one between `resume` and `pause`. -/
  input : Option (Pads K) := none
  undefined : Bool := false

/-- A call of `LibretroDroid` that goes on to `Input`. -/
def State.call (f : Pads K → Option (Pads K) × List Event) (s : State K) : State K × List Event :=
  match s.input with
  | none => (s, [])
  | some pads =>
    match f pads with
    | (some pads, es) => ({ s with input := some pads }, es)
    | (none, es) => ({ s with undefined := true }, es)

def sendKeyEvent (action keyCode : Int) (port : Int32) : State K → State K × List Event :=
  State.call fun pads => onKeyEvent pads port.toUInt32 action keyCode

def sendMotionEvent (source : Int) (xAxis yAxis : K) (port : Int32) : State K → State K × List Event :=
  State.call fun pads => onMotionEvent pads port.toUInt32.toInt32 source xAxis yAxis

/-- `onKeyDown` and `onKeyUp`, but for the action that they send. -/
def onKey (action keyCode : Int) (event : Option KeyEvent) (s : State K) : State K × List Event :=
  let mappedKey := getGamepadKeyEvent keyCode
  let port := (event.bind KeyEvent.controllerNumber).getD 0 - 1
  if event.isSome ∧ port ≥ 0 ∧ keyCode ∈ GAMEPAD_KEYS then sendKeyEvent action mappedKey port s else (s, [])

def onKeyDown (keyCode : Int) (event : Option KeyEvent) : State K → State K × List Event :=
  onKey AKEY_EVENT_ACTION_DOWN keyCode event

def onKeyUp (keyCode : Int) (event : Option KeyEvent) : State K → State K × List Event :=
  onKey AKEY_EVENT_ACTION_UP keyCode event

def onGenericMotionEvent (event : Option (MotionEvent K)) (s : State K) : State K × List Event :=
  let port := (event.bind MotionEvent.controllerNumber).getD 0 - 1
  match event with
  | none => (s, [])
  | some event =>
    if port ≥ 0 ∧ event.source = SOURCE_JOYSTICK then
      let (s, es) := sendMotionEvent MOTION_SOURCE_DPAD event.hatX event.hatY port s
      let (s, es') := sendMotionEvent MOTION_SOURCE_ANALOG_LEFT event.x event.y port s
      let (s, es'') := sendMotionEvent MOTION_SOURCE_ANALOG_RIGHT event.z event.rz port s
      (s, es ++ es' ++ es'')
    else (s, [])

/-! ### Steps -/

inductive Action (K : Type) where
  | resume
  | pause
  | onKeyDown (keyCode : Int) (event : Option KeyEvent)
  | onKeyUp (keyCode : Int) (event : Option KeyEvent)
  | onGenericMotionEvent (event : Option (MotionEvent K))
  | getInputState (port : UInt32) (device index : Nat) (id : UInt32)

/-- The events are queued to the GL thread, which takes them in their order. -/
def step : Step (State K) (Action K) Event := fun s a =>
  if s.undefined then none
  else
    match a with
    | .resume => some ({ s with input := some pads }, [])
    | .pause => some ({ s with input := none }, [])
    | .onKeyDown keyCode event => some (onKeyDown keyCode event s)
    | .onKeyUp keyCode event => some (onKeyUp keyCode event s)
    | .onGenericMotionEvent event => some (onGenericMotionEvent event s)
    | .getInputState port device index id =>
      match s.input with
      | none => some (s, [])
      | some pads => some (s, (getInputState pads port device index id).2)

/-! ### The law, and when it holds -/

/-- The number of the controller that an event comes from. -/
def Action.controllerNumber? : Action K → Option Int32
  | .onKeyDown _ event | .onKeyUp _ event => some ((event.bind KeyEvent.controllerNumber).getD 0)
  | .onGenericMotionEvent event => some ((event.bind MotionEvent.controllerNumber).getD 0)
  | .resume | .pause | .getInputState .. => none

/-- The number of a pad, from 1 on. -/
def HasRoom (n : Int32) : Prop := 1 ≤ n.toInt ∧ n.toInt ≤ 4

/-- The pads are used inside their table, and a controller without one changes none. -/
def InTable (s : State K) (a : Action K) (t : State K) (es : List Event) : Prop :=
  (∀ i, Event.index i ∈ es → 0 ≤ i ∧ i < 4) ∧
    ∀ n, a.controllerNumber? = some n → ¬ HasRoom n → t.input = s.input

/-- The controller is not behind the fourth. The smallest number would be the largest port. -/
def AtMostFourth (n : Int32) : Prop := n.toInt ≤ 4 ∧ n.toInt ≠ -2 ^ 31

/-- While there is an `Input`, key events of a gamepad and motions of a joystick come from the first controllers. -/
def FromFirst (s : State K) (a : Action K) (_ : State K) (_ : List Event) : Prop :=
  s.input.isSome →
    match a with
    | .onKeyDown keyCode event | .onKeyUp keyCode event =>
      ∀ e ∈ event, keyCode ∈ GAMEPAD_KEYS → AtMostFourth (e.controllerNumber.getD 0)
    | .onGenericMotionEvent event =>
      ∀ e ∈ event, e.source = SOURCE_JOYSTICK → AtMostFourth (e.controllerNumber.getD 0)
    | .resume | .pause | .getInputState .. => True

/-! ### Ports -/

/-- The port of a number; the smallest wraps around. -/
theorem port_eq (n : Int32) : (n - 1).toInt = if n.toInt = -2 ^ 31 then 2 ^ 31 - 1 else n.toInt - 1 := by
  have hlt := n.toInt_lt
  have hle := n.le_toInt
  have hone : (1 : Int32).toInt = 1 := rfl
  rw [Int32.toInt_sub, hone, Int.bmod_def]
  split <;> omega

theorem port_nonneg_iff (n : Int32) : n - 1 ≥ 0 ↔ 1 ≤ n.toInt ∨ n.toInt = -2 ^ 31 := by
  have hle := n.le_toInt
  have hzero : (0 : Int32).toInt = 0 := rfl
  rw [ge_iff_le, Int32.le_iff_toInt_le, hzero, port_eq]
  split <;> omega

theorem inside_iff {n : Int32} (h : n - 1 ≥ 0) : (0 ≤ (n - 1).toInt ∧ (n - 1).toInt < 4) ↔ AtMostFourth n := by
  rw [port_eq, AtMostFourth]
  rcases (port_nonneg_iff n).1 h with hpos | hmin
  · rw [if_neg (by omega)]
    omega
  · rw [if_pos hmin]
    omega

theorem AtMostFourth.hasRoom {n : Int32} (h : AtMostFourth n) (hport : n - 1 ≥ 0) : HasRoom n :=
  ⟨((port_nonneg_iff n).1 hport).resolve_right h.2, h.1⟩

theorem atMostFourth_of_not {n : Int32} (h : ¬ n - 1 ≥ 0) : AtMostFourth n := by
  rw [port_nonneg_iff, not_or] at h
  exact ⟨by omega, h.2⟩

/-- An `unsigned` port is the port that was sent. -/
theorem toNat_toUInt32 {port : Int32} (h : port ≥ 0) : (port.toUInt32.toNat : Int) = port.toInt := by
  rw [Int32.toNat_toUInt32_of_le h]
  exact Int.toNat_of_nonneg (Int32.le_iff_toInt_le.1 h)

theorem convert_gamepad :
    ∀ keyCode ∈ GAMEPAD_KEYS, convertAndroidToLibretroKey (getGamepadKeyEvent keyCode) ≠ UNKNOWN_KEY := by
  decide

/-! ### What is sent -/

section
variable {s : State K} {f : Pads K → Option (Pads K) × List Event} {port : Int32}

omit [LinearOrder K] [FloorRing K] in
theorem call_none (h : s.input = none) : s.call f = (s, []) := by
  rw [State.call, h]

omit [LinearOrder K] [FloorRing K] in
theorem call_some {es : List Event} (h : s.input.isSome) (hf : ∀ pads, (f pads).2 = es) :
    (s.call f).2 = es ∧ (s.call f).1.input.isSome := by
  obtain ⟨pads, hpads⟩ := Option.isSome_iff_exists.1 h
  have hes := hf pads
  simp only [State.call, hpads]
  rcases hcall : f pads with ⟨_ | pads', es'⟩ <;> rw [hcall] at hes
  · exact ⟨hes, rfl⟩
  · exact ⟨hes, rfl⟩

omit [LinearOrder K] [FloorRing K] in
theorem sendKeyEvent_some {action keyCode : Int} (h : s.input.isSome)
    (hkey : convertAndroidToLibretroKey keyCode ≠ UNKNOWN_KEY)
    (haction : action = AKEY_EVENT_ACTION_DOWN ∨ action = AKEY_EVENT_ACTION_UP) (hport : port ≥ 0) :
    (sendKeyEvent action keyCode port s).2 = [.index port.toInt] := by
  refine (call_some h fun pads => ?_).1
  rw [onKeyEvent, if_neg hkey, if_pos haction, withPad, toNat_toUInt32 hport]

theorem sendMotionEvent_some {source : Int} (h : s.input.isSome)
    (hsource : source = MOTION_SOURCE_DPAD ∨ source = MOTION_SOURCE_ANALOG_LEFT ∨
      source = MOTION_SOURCE_ANALOG_RIGHT ∨ source = MOTION_SOURCE_POINTER) (xAxis yAxis : K) (port : Int32) :
    (sendMotionEvent source xAxis yAxis port s).2 = [.index port.toInt] ∧
      (sendMotionEvent source xAxis yAxis port s).1.input.isSome := by
  refine call_some h fun pads => ?_
  rw [onMotionEvent, if_pos hsource]
  rfl

theorem onGenericMotionEvent_some {event : MotionEvent K} (h : s.input.isSome)
    (hport : event.controllerNumber.getD 0 - 1 ≥ 0) (hsource : event.source = SOURCE_JOYSTICK) :
    (onGenericMotionEvent (some event) s).2 = List.replicate 3 (.index (event.controllerNumber.getD 0 - 1).toInt) := by
  obtain ⟨hdpad, hinput⟩ := sendMotionEvent_some h (.inl rfl) event.hatX event.hatY
    (event.controllerNumber.getD 0 - 1)
  obtain ⟨hleft, hinput'⟩ := sendMotionEvent_some hinput (.inr (.inl rfl)) event.x event.y
    (event.controllerNumber.getD 0 - 1)
  obtain ⟨hright, -⟩ := sendMotionEvent_some hinput' (.inr (.inr (.inl rfl))) event.z event.rz
    (event.controllerNumber.getD 0 - 1)
  simp only [onGenericMotionEvent, Option.bind_some, if_pos (And.intro hport hsource)]
  rw [hdpad, hleft, hright]
  rfl

theorem onGenericMotionEvent_none (event : Option (MotionEvent K)) (h : s.input = none) :
    onGenericMotionEvent event s = (s, []) := by
  rcases event with _ | event
  · rfl
  · simp only [onGenericMotionEvent, sendMotionEvent, call_none h]
    split <;> rfl

end

/-! ### The law, step by step -/

variable {s t : State K} {a : Action K} {es : List Event}

omit [LinearOrder K] [FloorRing K] in
theorem inTable_iff_of_index {n : Int32} {k : Nat} (hn : a.controllerNumber? = some n) (hport : n - 1 ≥ 0)
    (hes : es = List.replicate (k + 1) (.index (n - 1).toInt)) : InTable s a t es ↔ AtMostFourth n := by
  rw [← inside_iff hport, hes]
  constructor
  · rintro ⟨hindex, -⟩
    exact hindex _ List.mem_cons_self
  · intro hinside
    refine ⟨fun i hi => ?_, fun m hm hroom => ?_⟩
    · obtain rfl := Event.index.inj (List.eq_of_mem_replicate hi)
      exact hinside
    · obtain rfl := Option.some.inj (hn.symm.trans hm)
      exact absurd (((inside_iff hport).1 hinside).hasRoom hport) hroom

omit [LinearOrder K] [FloorRing K] in
theorem inTable_of_silent (hinput : t.input = s.input) : InTable s a t [] := ⟨nofun, fun _ _ _ => hinput⟩

omit [LinearOrder K] [FloorRing K] in
theorem onKey_iff {action keyCode : Int} {event : Option KeyEvent}
    (haction : action = AKEY_EVENT_ACTION_DOWN ∨ action = AKEY_EVENT_ACTION_UP)
    (ha : a.controllerNumber? = some ((event.bind KeyEvent.controllerNumber).getD 0))
    (h : onKey action keyCode event s = (t, es)) :
    InTable s a t es ↔
      (s.input.isSome → ∀ e ∈ event, keyCode ∈ GAMEPAD_KEYS → AtMostFourth (e.controllerNumber.getD 0)) := by
  rcases hinput : s.input with _ | pads
  · have hsilent : onKey action keyCode event s = (s, []) := by
      simp only [onKey, sendKeyEvent, call_none hinput, ite_self]
    obtain ⟨rfl, rfl⟩ := Prod.mk.inj (hsilent.symm.trans h)
    exact iff_of_true (inTable_of_silent rfl) nofun
  · have hsome : s.input.isSome := by rw [hinput]; rfl
    by_cases hsent : event.isSome ∧ (event.bind KeyEvent.controllerNumber).getD 0 - 1 ≥ 0 ∧ keyCode ∈ GAMEPAD_KEYS
    · obtain ⟨hevent, hport, hkey⟩ := hsent
      obtain ⟨event, rfl⟩ := Option.isSome_iff_exists.1 hevent
      have hes := sendKeyEvent_some hsome (convert_gamepad keyCode hkey) haction hport
      simp only [onKey, if_pos (And.intro hevent (And.intro hport hkey))] at h
      rw [h] at hes
      rw [inTable_iff_of_index (k := 0) ha hport hes]
      exact ⟨fun h _ e he _ => Option.mem_some.1 he ▸ h, fun h => h rfl event rfl hkey⟩
    · simp only [onKey, if_neg hsent] at h
      obtain ⟨rfl, rfl⟩ := Prod.mk.inj h
      refine iff_of_true (inTable_of_silent rfl) ?_
      rintro - e rfl hkey
      exact atMostFourth_of_not fun hport => hsent ⟨rfl, hport, hkey⟩

theorem onGenericMotionEvent_iff {event : Option (MotionEvent K)}
    (ha : a.controllerNumber? = some ((event.bind MotionEvent.controllerNumber).getD 0))
    (h : onGenericMotionEvent event s = (t, es)) :
    InTable s a t es ↔
      (s.input.isSome → ∀ e ∈ event, e.source = SOURCE_JOYSTICK → AtMostFourth (e.controllerNumber.getD 0)) := by
  rcases hinput : s.input with _ | pads
  · obtain ⟨rfl, rfl⟩ := Prod.mk.inj ((onGenericMotionEvent_none event hinput).symm.trans h)
    exact iff_of_true (inTable_of_silent rfl) nofun
  · have hsome : s.input.isSome := by rw [hinput]; rfl
    rcases event with _ | event
    · obtain ⟨rfl, rfl⟩ := Prod.mk.inj h
      exact iff_of_true (inTable_of_silent rfl) fun _ => nofun
    · by_cases hsent : event.controllerNumber.getD 0 - 1 ≥ 0 ∧ event.source = SOURCE_JOYSTICK
      · have hes := onGenericMotionEvent_some hsome hsent.1 hsent.2
        rw [h] at hes
        rw [inTable_iff_of_index ha hsent.1 hes]
        exact ⟨fun h _ e he _ => Option.mem_some.1 he ▸ h, fun h => h rfl event rfl hsent.2⟩
      · simp only [onGenericMotionEvent, Option.bind_some, if_neg hsent] at h
        obtain ⟨rfl, rfl⟩ := Prod.mk.inj h
        refine iff_of_true (inTable_of_silent rfl) ?_
        intro _ e he hsource
        obtain rfl := Option.mem_some.1 he
        exact atMostFourth_of_not fun hport => hsent ⟨hport, hsource⟩

theorem getInputState_inside (pads : Pads K) (port : UInt32) (device index : Nat) (id : UInt32) :
    ∀ i, Event.index i ∈ (getInputState pads port device index id).2 → 0 ≤ i ∧ i < 4 := by
  intro i hi
  unfold getInputState at hi
  split at hi
  · cases hi
  · rename_i hport
    dsimp only at hi
    split at hi
    · obtain rfl := Event.index.inj (List.mem_singleton.1 hi)
      have hlt : port.toNat < 4 := UInt32.lt_iff_toNat_lt.1 (UInt32.not_le.1 hport)
      omega
    · cases hi

theorem step_iff (h : step s a = some (t, es)) : InTable s a t es ↔ FromFirst s a t es := by
  simp only [step] at h
  split at h
  · cases h
  · cases a with
    | resume | pause =>
      obtain ⟨rfl, rfl⟩ := Prod.mk.inj (Option.some.inj h)
      exact iff_of_true ⟨nofun, nofun⟩ fun _ => trivial
    | onKeyDown keyCode event =>
      exact onKey_iff (.inl rfl) rfl (Option.some.inj h)
    | onKeyUp keyCode event =>
      exact onKey_iff (.inr rfl) rfl (Option.some.inj h)
    | onGenericMotionEvent event =>
      exact onGenericMotionEvent_iff rfl (Option.some.inj h)
    | getInputState port device index id =>
      refine iff_of_true ⟨fun i hi => ?_, nofun⟩ fun _ => trivial
      rcases hinput : s.input with _ | pads <;> simp only [hinput] at h
      · obtain ⟨-, rfl⟩ := Prod.mk.inj (Option.some.inj h)
        cases hi
      · obtain ⟨-, rfl⟩ := Prod.mk.inj (Option.some.inj h)
        exact getInputState_inside pads port device index id i hi

/-- In a run, the pads are used inside their table, and controllers without one change none, exactly if no event
that goes on to `Input` comes from a controller behind the fourth. -/
theorem inTable_iff (as : List (Action K)) :
    Along step InTable ({} : State K) as ↔ Along step FromFirst ({} : State K) as :=
  along_iff (I := fun _ => True) (G := InTable) (C := FromFirst) (fun _ h => step_iff h) (fun _ _ _ => trivial)
    trivial as

/-- The fifth controller presses a button. -/
theorem not_inTable_fifth :
    ¬ Along step InTable ({} : State ℚ) [.resume, .onKeyDown AKeyCode.buttonA (some ⟨some 5⟩)] := by
  intro h
  obtain ⟨-, h⟩ := (along_cons_some rfl).1 h
  obtain ⟨⟨hindex, -⟩, -⟩ := (along_cons_some rfl).1 h
  exact absurd (hindex 4 List.mem_cons_self).2 (by decide)

end SweetHome.PadTable
