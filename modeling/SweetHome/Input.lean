import SweetHome.Audio
import SweetHome.Lib.LastWrite
import SweetHome.Lib.Round
import Mathlib.Data.Finset.Basic

/-!
# Input

Each of the four pads keeps the set of its pressed keys and the last position of its axes. A key is in the set
exactly if its last press or release was a press, so what the core reads depends on the last events
only (`getInputState_joypad`).
-/

namespace SweetHome.Input

namespace AKeyCode

def dpadUp : Int := 19
def dpadDown : Int := 20
def dpadLeft : Int := 21
def dpadRight : Int := 22
def buttonA : Int := 96
def buttonB : Int := 97
def buttonX : Int := 99
def buttonY : Int := 100
def buttonL1 : Int := 102
def buttonR1 : Int := 103
def buttonL2 : Int := 104
def buttonR2 : Int := 105
def buttonThumbL : Int := 106
def buttonThumbR : Int := 107
def buttonStart : Int := 108
def buttonSelect : Int := 109
def dpadUpLeft : Int := 268
def dpadDownLeft : Int := 269
def dpadUpRight : Int := 270
def dpadDownRight : Int := 271

end AKeyCode

def AKEY_EVENT_ACTION_DOWN : Int := 0
def AKEY_EVENT_ACTION_UP : Int := 1

def RETRO_DEVICE_JOYPAD : Nat := 1
def RETRO_DEVICE_ANALOG : Nat := 5
def RETRO_DEVICE_POINTER : Nat := 6

-- `RETRO_DEVICE_ID_JOYPAD_*`, and the diagonals of `Input`
namespace Joypad

def b : Nat := 0
def y : Nat := 1
def select : Nat := 2
def start : Nat := 3
def up : Nat := 4
def down : Nat := 5
def left : Nat := 6
def right : Nat := 7
def a : Nat := 8
def x : Nat := 9
def l : Nat := 10
def r : Nat := 11
def l2 : Nat := 12
def r2 : Nat := 13
def l3 : Nat := 14
def r3 : Nat := 15
def upLeft : Nat := 50
def upRight : Nat := 51
def downLeft : Nat := 52
def downRight : Nat := 53

end Joypad

def MOTION_SOURCE_DPAD : Int := 0
def MOTION_SOURCE_ANALOG_LEFT : Int := 1
def MOTION_SOURCE_ANALOG_RIGHT : Int := 2
def MOTION_SOURCE_POINTER : Int := 3
def MAX_RANGE_MOTION : Nat := 0x7fff
def UNKNOWN_KEY : Int := -1

/-- The cases of the `switch` in `convertAndroidToLibretroKey`. -/
def keys : List (Int × Nat) :=
  [(AKeyCode.buttonStart, Joypad.start), (AKeyCode.buttonSelect, Joypad.select),
    (AKeyCode.buttonA, Joypad.a), (AKeyCode.buttonX, Joypad.x), (AKeyCode.buttonY, Joypad.y),
    (AKeyCode.buttonB, Joypad.b), (AKeyCode.buttonL1, Joypad.l), (AKeyCode.buttonL2, Joypad.l2),
    (AKeyCode.buttonR1, Joypad.r), (AKeyCode.buttonR2, Joypad.r2), (AKeyCode.buttonThumbL, Joypad.l3),
    (AKeyCode.buttonThumbR, Joypad.r3), (AKeyCode.dpadUp, Joypad.up), (AKeyCode.dpadDown, Joypad.down),
    (AKeyCode.dpadLeft, Joypad.left), (AKeyCode.dpadRight, Joypad.right),
    (AKeyCode.dpadUpRight, Joypad.upRight), (AKeyCode.dpadUpLeft, Joypad.upLeft),
    (AKeyCode.dpadDownRight, Joypad.downRight), (AKeyCode.dpadDownLeft, Joypad.downLeft)]

def convertAndroidToLibretroKey (keyCode : Int) : Int :=
  match keys.lookup keyCode with
  | some id => id
  | none => UNKNOWN_KEY

/-! ### The pads -/

variable {K : Type} [Field K] [LinearOrder K] [FloorRing K]

structure GamePadState (K : Type) [Field K] where
  pressedKeys : Finset Int := ∅
  dpadXAxis : Int := 0
  dpadYAxis : Int := 0
  joypadLeftXAxis : K := 0
  joypadLeftYAxis : K := 0
  joypadRightXAxis : K := 0
  joypadRightYAxis : K := 0
  pointerScreenXAxis : K := -1
  pointerScreenYAxis : K := -1

/-- The four pads. -/
abbrev Pads (K : Type) [Field K] := Fin 4 → GamePadState K

/-- What `resume` makes. -/
def pads : Pads K := fun _ => {}

inductive Event (K : Type) where
  | onKeyEvent (port : Fin 4) (action keyCode : Int)
  | onMotionEvent (port : Fin 4) (motionSource : Int) (xAxis yAxis : K)

def onKeyEvent (pads : Pads K) (port : Fin 4) (action keyCode : Int) : Pads K :=
  let retroKeyCode := convertAndroidToLibretroKey keyCode
  if retroKeyCode = UNKNOWN_KEY then pads
  else
    let pad := pads port
    if action = AKEY_EVENT_ACTION_DOWN then
      Function.update pads port { pad with pressedKeys := insert retroKeyCode pad.pressedKeys }
    else if action = AKEY_EVENT_ACTION_UP then
      Function.update pads port { pad with pressedKeys := pad.pressedKeys.erase retroKeyCode }
    else pads

def onMotionEvent (pads : Pads K) (port : Fin 4) (motionSource : Int) (xAxis yAxis : K) : Pads K :=
  let pad := pads port
  if motionSource = MOTION_SOURCE_DPAD then
    Function.update pads port { pad with dpadXAxis := lround xAxis, dpadYAxis := lround yAxis }
  else if motionSource = MOTION_SOURCE_ANALOG_LEFT then
    Function.update pads port { pad with joypadLeftXAxis := xAxis, joypadLeftYAxis := yAxis }
  else if motionSource = MOTION_SOURCE_ANALOG_RIGHT then
    Function.update pads port { pad with joypadRightXAxis := xAxis, joypadRightYAxis := yAxis }
  else if motionSource = MOTION_SOURCE_POINTER then
    Function.update pads port { pad with pointerScreenXAxis := xAxis, pointerScreenYAxis := yAxis }
  else pads

def handle (pads : Pads K) : Event K → Pads K
  | .onKeyEvent port action keyCode => onKeyEvent pads port action keyCode
  | .onMotionEvent port motionSource xAxis yAxis => onMotionEvent pads port motionSource xAxis yAxis

/-! ### What the core reads -/

/-- The `int` that an `unsigned` is converted to. -/
def toInt (id : Nat) : Int := if id < 2 ^ 31 then id else id - 2 ^ 32

/-- One of the keys is pressed. -/
def anyPressed (pad : GamePadState K) (ids : List Nat) : Bool :=
  ids.any fun id => toInt id ∈ pad.pressedKeys

def joypadState (pad : GamePadState K) (id : Nat) : Bool :=
  if id = Joypad.left then
    pad.dpadXAxis == -1 || anyPressed pad [Joypad.left, Joypad.downLeft, Joypad.upLeft]
  else if id = Joypad.right then
    pad.dpadXAxis == 1 || anyPressed pad [Joypad.right, Joypad.upRight, Joypad.downRight]
  else if id = Joypad.up then
    pad.dpadYAxis == -1 || anyPressed pad [Joypad.up, Joypad.upLeft, Joypad.upRight]
  else if id = Joypad.down then
    pad.dpadYAxis == 1 || anyPressed pad [Joypad.down, Joypad.downLeft, Joypad.downRight]
  else anyPressed pad [id]

/-- The axes are between -1 and 1, so that the products fit into an `int16_t`. -/
def analogState (pad : GamePadState K) (index id : Nat) : Int :=
  match index, id with
  | 0, 0 => Audio.truncate (pad.joypadLeftXAxis * MAX_RANGE_MOTION)
  | 0, 1 => Audio.truncate (pad.joypadLeftYAxis * MAX_RANGE_MOTION)
  | 1, 0 => Audio.truncate (pad.joypadRightXAxis * MAX_RANGE_MOTION)
  | 1, 1 => Audio.truncate (pad.joypadRightYAxis * MAX_RANGE_MOTION)
  | _, _ => 0

def pointerState (pad : GamePadState K) (index id : Nat) : Int :=
  if 0 < index then 0
  else
    match id with
    | 0 => Audio.truncate ((2 : Nat) * (pad.pointerScreenXAxis - 1 / (2 : Nat)) * MAX_RANGE_MOTION)
    | 1 => Audio.truncate ((2 : Nat) * (pad.pointerScreenYAxis - 1 / (2 : Nat)) * MAX_RANGE_MOTION)
    | 2 => if 0 ≤ pad.pointerScreenXAxis ∧ 0 ≤ pad.pointerScreenYAxis then 1 else 0
    | _ => 0

def getInputState (pads : Pads K) (port device index : Nat) (id : UInt32) : Int :=
  if h : port < 4 then
    let pad := pads ⟨port, h⟩
    if device = RETRO_DEVICE_JOYPAD then (if joypadState pad id.toNat then 1 else 0)
    else if device = RETRO_DEVICE_ANALOG then analogState pad index id.toNat
    else if device = RETRO_DEVICE_POINTER then pointerState pad index id.toNat
    else 0
  else 0

/-! ### The last events -/

/-- The last press or release of a key on a port: `true` for a press. -/
def press? (port : Fin 4) (key : Int) : Event K → Option Bool
  | .onKeyEvent port' action keyCode =>
    if port' = port ∧ keyCode = key then
      if action = AKEY_EVENT_ACTION_DOWN then some true
      else if action = AKEY_EVENT_ACTION_UP then some false
      else none
    else none
  | .onMotionEvent _ _ _ _ => none

/-- The position that a motion of the d-pad on a port reports. -/
def dpad? (port : Fin 4) : Event K → Option (K × K)
  | .onKeyEvent _ _ _ => none
  | .onMotionEvent port' motionSource xAxis yAxis =>
    if port' = port ∧ motionSource = MOTION_SOURCE_DPAD then some (xAxis, yAxis) else none

/-- The last event of the key on the port was a press. -/
def Held (es : List (Event K)) (port : Fin 4) (key : Int) : Prop := lastWrite (press? port key) es = some true

inductive Direction where
  | left
  | right
  | up
  | down
deriving DecidableEq, Repr

namespace Direction

def id : Direction → Nat
  | left => Joypad.left
  | right => Joypad.right
  | up => Joypad.up
  | down => Joypad.down

/-- The two diagonal keys that contain the direction. -/
def diagonals : Direction → List Int
  | left => [AKeyCode.dpadDownLeft, AKeyCode.dpadUpLeft]
  | right => [AKeyCode.dpadUpRight, AKeyCode.dpadDownRight]
  | up => [AKeyCode.dpadUpLeft, AKeyCode.dpadUpRight]
  | down => [AKeyCode.dpadDownLeft, AKeyCode.dpadDownRight]

/-- A position of the d-pad rounds to the direction on its axis. -/
def Rounds (d : Direction) (position : K × K) : Prop :=
  match d with
  | left => lround position.1 = -1
  | right => lround position.1 = 1
  | up => lround position.2 = -1
  | down => lround position.2 = 1

end Direction

/-! ### The keys -/

theorem mem_keys {keyCode : Int} (h : convertAndroidToLibretroKey keyCode ≠ UNKNOWN_KEY) :
    ∃ id, (keyCode, id) ∈ keys ∧ convertAndroidToLibretroKey keyCode = id := by
  unfold convertAndroidToLibretroKey at *
  rcases hlookup : keys.lookup keyCode with _ | id
  · rw [hlookup] at h; exact absurd rfl h
  · obtain ⟨before, after, hkeys, -⟩ := List.lookup_eq_some_iff.1 hlookup
    exact ⟨id, by rw [hkeys]; simp, rfl⟩

theorem keys_injective : ∀ p ∈ keys, ∀ q ∈ keys, p.2 = q.2 → p.1 = q.1 := by decide

theorem keys_small : ∀ p ∈ keys, p.2 < 2 ^ 31 := by decide

theorem convert_inj {keyCode key : Int} (h : convertAndroidToLibretroKey key ≠ UNKNOWN_KEY) :
    convertAndroidToLibretroKey keyCode = convertAndroidToLibretroKey key ↔ keyCode = key := by
  refine ⟨fun hsame => ?_, fun hsame => hsame ▸ rfl⟩
  obtain ⟨id, hmem, hid⟩ := mem_keys h
  obtain ⟨id', hmem', hid'⟩ := mem_keys (hsame ▸ h)
  have hids : id' = id := by
    rw [hid, hid'] at hsame
    exact_mod_cast hsame
  exact keys_injective _ hmem' _ hmem hids

theorem convert_bounds {key : Int} (h : convertAndroidToLibretroKey key ≠ UNKNOWN_KEY) :
    0 ≤ convertAndroidToLibretroKey key ∧ convertAndroidToLibretroKey key < 2 ^ 31 := by
  obtain ⟨id, hmem, hid⟩ := mem_keys h
  have hsmall := keys_small _ hmem
  rw [hid]
  exact ⟨by positivity, by exact_mod_cast hsmall⟩

/-! ### What one event does -/

/-- What an event makes of the membership of a libretro key. -/
def write? (port : Fin 4) (r : Int) : Event K → Option Bool
  | .onKeyEvent port' action keyCode =>
    if port' = port ∧ convertAndroidToLibretroKey keyCode = r ∧ r ≠ UNKNOWN_KEY then
      if action = AKEY_EVENT_ACTION_DOWN then some true
      else if action = AKEY_EVENT_ACTION_UP then some false
      else none
    else none
  | .onMotionEvent _ _ _ _ => none

theorem handle_pressedKeys (port : Fin 4) (r : Int) (pads : Pads K) (e : Event K) :
    decide (r ∈ (handle pads e port).pressedKeys) =
      (write? port r e).getD (decide (r ∈ (pads port).pressedKeys)) := by
  cases e with
  | onKeyEvent port' action keyCode =>
    simp only [handle, onKeyEvent, write?]
    by_cases hport : port' = port
    · subst hport
      by_cases hknown : convertAndroidToLibretroKey keyCode = UNKNOWN_KEY
      · have hnot : ¬ (convertAndroidToLibretroKey keyCode = r ∧ r ≠ UNKNOWN_KEY) := by
          rintro ⟨rfl, hr⟩
          exact hr hknown
        rw [if_pos hknown, if_neg fun h => hnot h.2]
        rfl
      · rw [if_neg hknown]
        by_cases hr : convertAndroidToLibretroKey keyCode = r
        · subst hr
          have hkey : port' = port' ∧ convertAndroidToLibretroKey keyCode = convertAndroidToLibretroKey keyCode ∧
              convertAndroidToLibretroKey keyCode ≠ UNKNOWN_KEY := ⟨rfl, rfl, hknown⟩
          rw [if_pos hkey]
          split_ifs <;> simp
        · have hkey : ¬ (port' = port' ∧ convertAndroidToLibretroKey keyCode = r ∧ r ≠ UNKNOWN_KEY) :=
            fun h => hr h.2.1
          rw [if_neg hkey]
          split_ifs <;> simp [Ne.symm hr]
    · have hkey : ¬ (port' = port ∧ convertAndroidToLibretroKey keyCode = r ∧ r ≠ UNKNOWN_KEY) :=
        fun h => hport h.1
      rw [if_neg hkey]
      split_ifs <;> simp [Function.update_of_ne (Ne.symm hport)]
  | onMotionEvent port' motionSource xAxis yAxis =>
    simp only [handle, onMotionEvent, write?, Option.getD_none]
    by_cases hport : port = port'
    · subst hport
      split_ifs <;> simp
    · split_ifs <;> simp [Function.update_of_ne hport]

theorem handle_dpad (port : Fin 4) (pads : Pads K) (e : Event K) :
    ((handle pads e port).dpadXAxis, (handle pads e port).dpadYAxis) =
      ((dpad? port e).map fun position => (lround position.1, lround position.2)).getD
        ((pads port).dpadXAxis, (pads port).dpadYAxis) := by
  cases e with
  | onKeyEvent port' action keyCode =>
    simp only [handle, onKeyEvent, dpad?, Option.map_none, Option.getD_none]
    by_cases hport : port = port'
    · subst hport
      split_ifs <;> simp
    · split_ifs <;> simp [Function.update_of_ne hport]
  | onMotionEvent port' motionSource xAxis yAxis =>
    simp only [handle, onMotionEvent, dpad?]
    by_cases hport : port' = port
    · subst hport
      split_ifs <;> simp_all
    · have hsource : ¬ (port' = port ∧ motionSource = MOTION_SOURCE_DPAD) := fun h => hport h.1
      rw [if_neg hsource]
      split_ifs <;> simp [Function.update_of_ne (Ne.symm hport)]

theorem handle_congr {pads pads' : Pads K} {port : Fin 4} (h : pads port = pads' port) (e : Event K) :
    handle pads e port = handle pads' e port := by
  cases e with
  | onKeyEvent port' action keyCode =>
    simp only [handle, onKeyEvent]
    by_cases hport : port = port'
    · subst hport
      split_ifs <;> simp [h]
    · split_ifs <;> simp [Function.update_of_ne hport, h]
  | onMotionEvent port' motionSource xAxis yAxis =>
    simp only [handle, onMotionEvent]
    by_cases hport : port = port'
    · subst hport
      split_ifs <;> simp [h]
    · split_ifs <;> simp [Function.update_of_ne hport, h]

/-! ### What a sequence of events leaves -/

/-- The pads after the events since the last `resume`. -/
def after (es : List (Event K)) : Pads K := es.foldl handle pads

omit [Field K] [LinearOrder K] [FloorRing K] in
theorem write?_eq_press? (port : Fin 4) {key : Int} (h : convertAndroidToLibretroKey key ≠ UNKNOWN_KEY)
    (e : Event K) : write? port (convertAndroidToLibretroKey key) e = press? port key e := by
  cases e with
  | onKeyEvent port' action keyCode =>
    simp only [write?, press?, convert_inj h]
    simp [h]
  | onMotionEvent port' motionSource xAxis yAxis => rfl

theorem mem_pressedKeys (es : List (Event K)) (port : Fin 4) (r : Int) :
    r ∈ (after es port).pressedKeys ↔
      r ≠ UNKNOWN_KEY ∧ ∃ key, convertAndroidToLibretroKey key = r ∧ Held es port key := by
  have hfold : decide (r ∈ (after es port).pressedKeys) = (lastWrite (write? port r) es).getD false :=
    foldl_lastWrite (g := fun pads : Pads K => decide (r ∈ (pads port).pressedKeys))
      (handle_pressedKeys port r) pads es
  have hmem : r ∈ (after es port).pressedKeys ↔ lastWrite (write? port r) es = some true := by
    rw [← decide_eq_true_iff (p := r ∈ (after es port).pressedKeys), hfold]
    cases lastWrite (write? port r) es <;> simp
  rw [hmem]
  constructor
  · intro hlast
    obtain ⟨e, he, hwrite⟩ := List.mem_filterMap.1 (List.mem_of_getLast? hlast)
    cases e with
    | onKeyEvent port' action keyCode =>
      simp only [write?] at hwrite
      split at hwrite
      · rename_i hkey
        obtain ⟨-, rfl, hr⟩ := hkey
        refine ⟨hr, keyCode, rfl, ?_⟩
        rw [Held, ← hlast]
        congr 1
        funext e
        exact (write?_eq_press? port hr e).symm
      · cases hwrite
    | onMotionEvent port' motionSource xAxis yAxis => cases hwrite
  · rintro ⟨hr, key, rfl, hheld⟩
    rw [← hheld]
    congr 1
    funext e
    exact write?_eq_press? port hr e

theorem dpadAxes (es : List (Event K)) (port : Fin 4) :
    ((after es port).dpadXAxis, (after es port).dpadYAxis) =
      ((lastWrite (dpad? port) es).map fun position => (lround position.1, lround position.2)).getD (0, 0) := by
  rw [← lastWrite_map]
  exact foldl_lastWrite (g := fun pads : Pads K => ((pads port).dpadXAxis, (pads port).dpadYAxis))
    (handle_dpad port) pads es

/-- A key is pressed exactly if the last event of the Android key that is mapped to it was a press. -/
theorem anyPressed_iff (es : List (Event K)) (port : Fin 4) (id : UInt32) :
    toInt id.toNat ∈ (after es port).pressedKeys ↔
      ∃ key, convertAndroidToLibretroKey key = id.toNat ∧ Held es port key := by
  rw [mem_pressedKeys]
  have hbound : id.toNat < 2 ^ 32 := id.toNat_lt
  unfold toInt
  split
  · rename_i hsmall
    refine ⟨fun h => h.2, fun h => ⟨?_, h⟩⟩
    unfold UNKNOWN_KEY
    omega
  · rename_i hlarge
    constructor
    · rintro ⟨hknown, key, hkey, -⟩
      have hbounds := convert_bounds (show convertAndroidToLibretroKey key ≠ UNKNOWN_KEY by rwa [hkey])
      omega
    · rintro ⟨key, hkey, -⟩
      have hknown : convertAndroidToLibretroKey key ≠ UNKNOWN_KEY := by
        rw [hkey]
        unfold UNKNOWN_KEY
        omega
      have hbounds := convert_bounds hknown
      omega

theorem lookup_keys : ∀ p ∈ keys, keys.lookup p.1 = some p.2 := by decide

theorem convert_of_mem {key : Int} {id : Nat} (h : (key, id) ∈ keys) : convertAndroidToLibretroKey key = id := by
  rw [convertAndroidToLibretroKey, lookup_keys _ h]

/-- The key of an identifier of the table is pressed exactly if it is held. -/
theorem pressed_of_mem (es : List (Event K)) (port : Fin 4) {key : Int} {id : Nat} (h : (key, id) ∈ keys) :
    toInt id ∈ (after es port).pressedKeys ↔ Held es port key := by
  have hconvert := convert_of_mem h
  have hknown : convertAndroidToLibretroKey key ≠ UNKNOWN_KEY := by
    rw [hconvert]; unfold UNKNOWN_KEY; omega
  have hsmall := keys_small _ h
  rw [mem_pressedKeys, toInt, if_pos hsmall, ← hconvert]
  constructor
  · rintro ⟨-, key', hkey', hheld⟩
    rwa [← (convert_inj hknown).1 hkey']
  · intro hheld
    exact ⟨hknown, key, rfl, hheld⟩

/-! ### What the core reads of the events -/

/-- The digital state of an identifier, by the last events of its port. -/
def Active (es : List (Event K)) (port : Fin 4) (id : Nat) : Prop :=
  (∃ key, convertAndroidToLibretroKey key = id ∧ Held es port key) ∨
    ∃ d : Direction, d.id = id ∧ ((∃ key ∈ d.diagonals, Held es port key) ∨
      ∃ position, lastWrite (dpad? port) es = some position ∧ d.Rounds position)

theorem Direction.id_injective : ∀ d d' : Direction, d.id = d'.id → d = d' := by
  intro d d' h
  cases d <;> cases d' <;> first | rfl | cases h

theorem dpadAxis_iff (es : List (Event K)) (port : Fin 4) {f : Int × Int → Int} (hf : f (0, 0) = 0) {n : Int}
    (hn : n ≠ 0) : f ((after es port).dpadXAxis, (after es port).dpadYAxis) = n ↔
      ∃ position, lastWrite (dpad? port) es = some position ∧ f (lround position.1, lround position.2) = n := by
  rw [dpadAxes]
  rcases lastWrite (dpad? port) es with _ | position
  · simpa [hf] using Ne.symm hn
  · simp

theorem dpadXAxis_iff (es : List (Event K)) (port : Fin 4) {n : Int} (hn : n ≠ 0) :
    (after es port).dpadXAxis = n ↔
      ∃ position, lastWrite (dpad? port) es = some position ∧ lround position.1 = n :=
  dpadAxis_iff es port (f := Prod.fst) rfl hn

theorem dpadYAxis_iff (es : List (Event K)) (port : Fin 4) {n : Int} (hn : n ≠ 0) :
    (after es port).dpadYAxis = n ↔
      ∃ position, lastWrite (dpad? port) es = some position ∧ lround position.2 = n :=
  dpadAxis_iff es port (f := Prod.snd) rfl hn

theorem anyPressed_three (es : List (Event K)) (port : Fin 4) (id : Nat) {key key' : Int} {r r' : Nat}
    (h : (key, r) ∈ keys) (h' : (key', r') ∈ keys) :
    anyPressed (after es port) [id, r, r'] = true ↔
      toInt id ∈ (after es port).pressedKeys ∨ Held es port key ∨ Held es port key' := by
  rw [← pressed_of_mem es port h, ← pressed_of_mem es port h']
  simp [anyPressed]

theorem joypadState_of_fields (es : List (Event K)) (port : Fin 4) (d : Direction) {axis n : Int}
    {key key' : Int} {r r' : Nat}
    (hstate : joypadState (after es port) d.id = (axis == n || anyPressed (after es port) [d.id, r, r']))
    (haxis : axis = n ↔ ∃ position, lastWrite (dpad? port) es = some position ∧ d.Rounds position)
    (h : (key, r) ∈ keys) (h' : (key', r') ∈ keys) (hdiagonals : d.diagonals = [key, key']) :
    joypadState (after es port) d.id = true ↔
      toInt d.id ∈ (after es port).pressedKeys ∨ (∃ key ∈ d.diagonals, Held es port key) ∨
        ∃ position, lastWrite (dpad? port) es = some position ∧ d.Rounds position := by
  have hpair : (∃ key ∈ d.diagonals, Held es port key) ↔ Held es port key ∨ Held es port key' := by
    simp [hdiagonals]
  rw [hstate, Bool.or_eq_true, beq_iff_eq, haxis, anyPressed_three es port _ h h', hpair]
  exact or_comm.trans or_assoc

theorem joypadState_direction (es : List (Event K)) (port : Fin 4) (d : Direction) :
    joypadState (after es port) d.id = true ↔
      toInt d.id ∈ (after es port).pressedKeys ∨ (∃ key ∈ d.diagonals, Held es port key) ∨
        ∃ position, lastWrite (dpad? port) es = some position ∧ d.Rounds position := by
  have hupLeft : (AKeyCode.dpadUpLeft, Joypad.upLeft) ∈ keys := by decide
  have hupRight : (AKeyCode.dpadUpRight, Joypad.upRight) ∈ keys := by decide
  have hdownLeft : (AKeyCode.dpadDownLeft, Joypad.downLeft) ∈ keys := by decide
  have hdownRight : (AKeyCode.dpadDownRight, Joypad.downRight) ∈ keys := by decide
  cases d with
  | left => exact joypadState_of_fields es port .left rfl (dpadXAxis_iff es port (by decide)) hdownLeft hupLeft rfl
  | right => exact joypadState_of_fields es port .right rfl (dpadXAxis_iff es port (by decide)) hupRight hdownRight rfl
  | up => exact joypadState_of_fields es port .up rfl (dpadYAxis_iff es port (by decide)) hupLeft hupRight rfl
  | down => exact joypadState_of_fields es port .down rfl (dpadYAxis_iff es port (by decide)) hdownLeft hdownRight rfl

theorem joypadState_iff (es : List (Event K)) (port : Fin 4) (id : UInt32) :
    joypadState (after es port) id.toNat = true ↔ Active es port id.toNat := by
  rw [Active, ← anyPressed_iff]
  by_cases hdirection : ∃ d : Direction, d.id = id.toNat
  · obtain ⟨d, hd⟩ := hdirection
    rw [← hd, joypadState_direction]
    refine or_congr_right ⟨fun h => ⟨d, rfl, h⟩, ?_⟩
    rintro ⟨d', hd', h⟩
    rwa [← Direction.id_injective d' d hd']
  · have hnone : ∀ d : Direction, id.toNat ≠ d.id := fun d hd => hdirection ⟨d, hd.symm⟩
    have hstate : joypadState (after es port) id.toNat = anyPressed (after es port) [id.toNat] := by
      have hleft : id.toNat ≠ Joypad.left := hnone .left
      have hright : id.toNat ≠ Joypad.right := hnone .right
      have hup : id.toNat ≠ Joypad.up := hnone .up
      have hdown : id.toNat ≠ Joypad.down := hnone .down
      rw [joypadState, if_neg hleft, if_neg hright, if_neg hup, if_neg hdown]
    rw [hstate]
    constructor
    · intro h
      exact .inl (by simpa [anyPressed] using h)
    · rintro (h | ⟨d, hd, -⟩)
      · simpa [anyPressed] using h
      · exact absurd ⟨d, hd⟩ hdirection

/-! ### Events without effect -/

/-- An event that has no effect on what is read of a port: one on another port, one of an unmapped key, a
repeated press, or a release without a press. -/
inductive Idle (es : List (Event K)) (port : Fin 4) : Event K → Prop
  | keyElsewhere {port' : Fin 4} (h : port' ≠ port) (action keyCode : Int) :
    Idle es port (.onKeyEvent port' action keyCode)
  | motionElsewhere {port' : Fin 4} (h : port' ≠ port) (motionSource : Int) (xAxis yAxis : K) :
    Idle es port (.onMotionEvent port' motionSource xAxis yAxis)
  | unmapped {keyCode : Int} (h : convertAndroidToLibretroKey keyCode = UNKNOWN_KEY) (action : Int) :
    Idle es port (.onKeyEvent port action keyCode)
  | repeated {keyCode : Int} (h : Held es port keyCode) :
    Idle es port (.onKeyEvent port AKEY_EVENT_ACTION_DOWN keyCode)
  | unpressed {keyCode : Int} (h : ¬ Held es port keyCode) :
    Idle es port (.onKeyEvent port AKEY_EVENT_ACTION_UP keyCode)

theorem handle_idle {es : List (Event K)} {port : Fin 4} {e : Event K} (h : Idle es port e) :
    handle (after es) e port = after es port := by
  cases h with
  | keyElsewhere h action keyCode =>
    simp only [handle, onKeyEvent]
    split_ifs <;> simp [Function.update_of_ne (Ne.symm h)]
  | motionElsewhere h motionSource xAxis yAxis =>
    simp only [handle, onMotionEvent]
    split_ifs <;> simp [Function.update_of_ne (Ne.symm h)]
  | unmapped h action => simp [handle, onKeyEvent, h]
  | @repeated keyCode h =>
    by_cases hknown : convertAndroidToLibretroKey keyCode = UNKNOWN_KEY
    · simp [handle, onKeyEvent, hknown]
    · have hmem := (mem_pressedKeys es port (convertAndroidToLibretroKey keyCode)).2 ⟨hknown, keyCode, rfl, h⟩
      simp [handle, onKeyEvent, hknown, Finset.insert_eq_of_mem hmem]
  | @unpressed keyCode h =>
    by_cases hknown : convertAndroidToLibretroKey keyCode = UNKNOWN_KEY
    · simp [handle, onKeyEvent, hknown]
    · have hnot : convertAndroidToLibretroKey keyCode ∉ (after es port).pressedKeys := by
        rw [mem_pressedKeys]
        rintro ⟨-, key, hkey, hheld⟩
        exact h ((convert_inj hknown).1 hkey ▸ hheld)
      have hup : AKEY_EVENT_ACTION_UP ≠ AKEY_EVENT_ACTION_DOWN := by decide
      simp [handle, onKeyEvent, hknown, hup, Finset.erase_eq_of_notMem hnot]

theorem foldl_congr_port {pads pads' : Pads K} {port : Fin 4} (h : pads port = pads' port)
    (es : List (Event K)) : es.foldl handle pads port = es.foldl handle pads' port := by
  induction es generalizing pads pads' with
  | nil => exact h
  | cons e es ih => exact ih (handle_congr h e)

theorem after_idle {es : List (Event K)} {port : Fin 4} {e : Event K} (h : Idle es port e)
    (later : List (Event K)) : after (es ++ e :: later) port = after (es ++ later) port := by
  unfold after
  rw [List.foldl_append, List.foldl_append, List.foldl_cons]
  exact foldl_congr_port (handle_idle h) later

/-- The digital state follows the last events of the port, and idle events have no effect on it. -/
theorem getInputState_joypad (es : List (Event K)) (port : Fin 4) (id : UInt32) :
    (getInputState (after es) port RETRO_DEVICE_JOYPAD 0 id = 1 ↔ Active es port id.toNat) ∧
      ∀ e, Idle es port e → ∀ later,
        getInputState (after (es ++ e :: later)) port RETRO_DEVICE_JOYPAD 0 id =
          getInputState (after (es ++ later)) port RETRO_DEVICE_JOYPAD 0 id := by
  have hstate : ∀ pads : Pads K, getInputState pads port RETRO_DEVICE_JOYPAD 0 id =
      if joypadState (pads port) id.toNat then 1 else 0 := by
    intro pads
    simp [getInputState, port.isLt]
  constructor
  · rw [hstate, ← joypadState_iff]
    split <;> simp_all
  · intro e he later
    rw [hstate, hstate, after_idle he later]

end SweetHome.Input
