import SweetHome.Lib.LastWrite
import Mathlib.Data.Fintype.Basic
import Mathlib.Data.List.Sort
import Mathlib.Logic.Function.Basic

/-!
# The environment of the core

The singleton that answers the environment callbacks of the core, and that the Java side reads and
updates. `initialize` and `deinitialize` are called once in each session.
-/

namespace SweetHome

/-- A `float` by its bits: it is stored and passed on here, never computed with. -/
abbrev FloatBits := UInt32

structure RumbleState where
  strengthWeak : Nat := 0
  strengthStrong : Nat := 0
deriving DecidableEq, Repr

structure Variable where
  key : String := ""
  value : String := ""
  description : String := ""
deriving DecidableEq, Repr

structure Controller where
  id : Nat
  description : String
deriving DecidableEq, Repr

/-- `RETRO_PIXEL_FORMAT_RGB565` -/
def retroPixelFormatRgb565 : Int := 2

/-- `RETRO_LANGUAGE_ENGLISH` -/
def retroLanguageEnglish : Nat := 0

/-- `RETRO_HW_CONTEXT_OPENGLES3` -/
def retroHwContextOpenGLES3 : Nat := 4

/-- `VFS::SUPPORTED_VERSION` -/
def supportedVersion : Nat := 2

/-! ### What the core passes -/

/-- An entry of `retro_variable`: a description, a semicolon, a blank, and the values. -/
structure RetroVariable where
  key : String
  value : String
  /-- The first value begins inside the text, as the interface asks for. -/
  wf : (if ';' ∈ value.toList then value.toList.idxOf ';' + 2 else 1) ≤ value.length

/-- The value up to the first bar; where there is no semicolon, `npos + 2` is 1. -/
def RetroVariable.firstValue (received : RetroVariable) : String :=
  let value := received.value.toList
  let firstValueStart := if ';' ∈ value then value.idxOf ';' + 2 else 1
  String.ofList ((value.drop firstValueStart).takeWhile (· ≠ '|'))

/-- Pointers to functions of the core are numbers; null is `none`. -/
structure RetroHwRenderCallback where
  contextReset : Option Nat
  contextDestroy : Option Nat
  depth : Bool
  stencil : Bool
  bottomLeftOrigin : Bool
deriving DecidableEq, Repr

structure RetroGameGeometry where
  baseWidth : Nat
  baseHeight : Nat
  aspectRatio : FloatBits
deriving DecidableEq, Repr

/-- The commands of `handle_callback_environment`, with what `data` points to. -/
inductive Command where
  | getCanDupe
  | setPixelFormat (format : Int)
  | setInputDescriptors
  | getVariable (key : String)
  | setVariables (received : List RetroVariable)
  | getVariableUpdate
  | getPreferredHwRender
  | setHwRender (callback : RetroHwRenderCallback)
  | getRumbleInterface
  | getLogInterface
  | getSaveDirectory
  | getSystemDirectory
  | setRotation (index : Nat)
  | setDiskControlInterface (callback : Option Nat)
  | getPerfInterface
  | setSystemAvInfo (geometry : RetroGameGeometry)
  | setGeometry (geometry : RetroGameGeometry)
  | setControllerInfo (received : List (List Controller))
  | getAudioVideoEnable
  | getLanguage
  | getVfsInterface
  | getMicrophoneInterface
  | other (cmd : Nat)

inductive RumbleEffect where
  | strong
  | weak
  | dummy
deriving DecidableEq, Repr

/-- The strength that an effect of `retro_rumble_effect` has in a state. -/
def RumbleState.strength (state : RumbleState) : RumbleEffect → Nat
  | .strong => state.strengthStrong
  | .weak => state.strengthWeak
  | .dummy => 0

/-- What a command leaves where `data` points to. -/
inductive Data where
  | unchanged
  | bool (value : Bool)
  | unsigned (value : Nat)
  | string (value : String)
  /-- `get_current_framebuffer`, which may be null, and `eglGetProcAddress` -/
  | hwRender (getCurrentFramebuffer : Bool)
  | rumbleInterface
  | logInterface
  | vfsInterface (requiredInterfaceVersion : Nat)
  | microphoneInterface
deriving DecidableEq, Repr

/-! ### The variables -/

/-- `unordered_map<string, Variable>`, as entries in some order. -/
abbrev VariableMap := List (String × Variable)

namespace VariableMap

/-- The variable that `variables[key]` refers to; a missing one is made. -/
def current (map : VariableMap) (key : String) : Variable := (map.lookup key).getD {}

/-- `variables[key] = value` -/
def assign (map : VariableMap) (key : String) (value : Variable) : VariableMap :=
  (key, value) :: map.filter fun entry => entry.1 != key

def receive (map : VariableMap) (received : RetroVariable) : VariableMap :=
  let current := map.current received.key
  map.assign received.key
    { key := received.key
      description := received.value
      value := if current.value = "" then received.firstValue else current.value }

end VariableMap

/-! ### The singleton -/

structure Environment where
  hwContextReset : Option Nat := none
  hwContextDestroy : Option Nat := none
  retroDiskControlCallback : Option Nat := none
  savesDirectory : String := ""
  systemDirectory : String := ""
  /-- Whether the pointer is set; there is one function that it points to. -/
  callbackGetCurrentFramebuffer : Bool := false
  language : Nat := retroLanguageEnglish
  useVirtualFileSystem : Bool := false
  enableMicrophone : Bool := false
  pixelFormat : Int := retroPixelFormatRgb565
  useHWAcceleration : Bool := false
  useDepth : Bool := false
  useStencil : Bool := false
  bottomLeftOrigin : Bool := false
  /-- In turns of `-M_PI / 2`. -/
  screenRotation : Nat := 0
  screenRotationUpdated : Bool := false
  gameGeometryUpdated : Bool := false
  gameGeometryWidth : Nat := 0
  gameGeometryHeight : Nat := 0
  gameGeometryAspectRatio : FloatBits := 0xBF800000
  rumbleStates : Fin 4 → RumbleState := fun _ => {}
  variableMap : VariableMap := []
  dirtyVariables : Bool := false
  controllers : List (List Controller) := []
deriving DecidableEq

/-- What the core and the Java side do to the environment. -/
inductive Access where
  | callbackEnvironment (cmd : Command)
  | callbackSetRumbleState (port : Nat) (effect : RumbleEffect) (strength : Nat)
  | updateVariable (key value : String)
  | getVariables
  | getControllers
  | availableDisks

inductive Reply where
  | callbackEnvironment (result : Bool) (data : Data)
  | callbackSetRumbleState (result : Bool)
  | updateVariable
  | getVariables (result : List Variable)
  | getControllers (result : List (List Controller))
  /-- The callback that is asked for its images; there are none where it is null. -/
  | availableDisks (callback : Option Nat)
deriving DecidableEq, Repr

namespace Environment

def initializeEnvironment (e : Environment) (requiredSystemDirectory requiredSavesDirectory : String) :
    Environment :=
  { e with
    callbackGetCurrentFramebuffer := true
    systemDirectory := requiredSystemDirectory
    savesDirectory := requiredSavesDirectory }

def deinitializeEnvironment (e : Environment) : Environment :=
  { e with
    callbackGetCurrentFramebuffer := false
    hwContextReset := none
    hwContextDestroy := none
    retroDiskControlCallback := none
    savesDirectory := ""
    systemDirectory := ""
    language := retroLanguageEnglish
    pixelFormat := retroPixelFormatRgb565
    useHWAcceleration := false
    useDepth := false
    useStencil := false
    bottomLeftOrigin := false
    screenRotation := 0
    gameGeometryUpdated := false
    gameGeometryWidth := 0
    gameGeometryHeight := 0
    gameGeometryAspectRatio := 0xBF800000
    rumbleStates := fun _ => {} }

def updateVariable (e : Environment) (key value : String) : Environment :=
  let current := e.variableMap.current key
  if value ≠ current.value then
    { e with
      variableMap := e.variableMap.assign key { current with key := key, value := value }
      dirtyVariables := true }
  -- `variables[key]` has inserted it all the same
  else { e with variableMap := e.variableMap.assign key current }

def languages : List (String × Nat) :=
  [("en", retroLanguageEnglish), ("jp", 1), ("fr", 2), ("es", 3), ("de", 4), ("it", 5), ("nl", 6),
    ("pt", 8), ("ru", 9), ("ko", 10), ("zh", 11), ("eo", 13), ("pl", 14), ("vi", 15), ("ar", 16),
    ("el", 17), ("tr", 18)]

def setLanguage (e : Environment) (androidLanguage : String) : Environment :=
  match languages.lookup androidLanguage with
  | some language => { e with language := language }
  | none => e

def handleSetVariables (e : Environment) (received : List RetroVariable) : Environment :=
  { e with variableMap := received.foldl VariableMap.receive e.variableMap }

def handleGetVariable (e : Environment) (key : String) : Bool × Data :=
  match e.variableMap.lookup key with
  | none => (false, .unchanged)
  | some foundVariable => (true, .string foundVariable.value)

def handleGetVfsInterface (e : Environment) : Bool × Data :=
  if e.useVirtualFileSystem then (true, .vfsInterface supportedVersion) else (false, .unchanged)

def handleGetMicrophoneInterface (e : Environment) : Bool × Data :=
  if e.enableMicrophone then (true, .microphoneInterface) else (false, .unchanged)

def handleSetHwRender (e : Environment) (callback : RetroHwRenderCallback) : Environment :=
  { e with
    useHWAcceleration := true
    useDepth := callback.depth
    useStencil := callback.stencil
    bottomLeftOrigin := callback.bottomLeftOrigin
    hwContextDestroy := callback.contextDestroy
    hwContextReset := callback.contextReset }

def handleSetGeometry (e : Environment) (geometry : RetroGameGeometry) : Environment :=
  { e with
    gameGeometryHeight := geometry.baseHeight
    gameGeometryWidth := geometry.baseWidth
    gameGeometryAspectRatio := geometry.aspectRatio
    gameGeometryUpdated := true }

def handleCallbackEnvironment (e : Environment) : Command → Environment × Bool × Data
  | .getCanDupe => (e, true, .bool true)
  | .setPixelFormat format => ({ e with pixelFormat := format }, true, .unchanged)
  | .setInputDescriptors => (e, false, .unchanged)
  | .getVariable key => (e, e.handleGetVariable key)
  | .setVariables received => (e.handleSetVariables received, true, .unchanged)
  | .getVariableUpdate => ({ e with dirtyVariables := false }, true, .bool e.dirtyVariables)
  | .getPreferredHwRender => (e, true, .unsigned retroHwContextOpenGLES3)
  | .setHwRender callback =>
    (e.handleSetHwRender callback, true, .hwRender e.callbackGetCurrentFramebuffer)
  | .getRumbleInterface => (e, true, .rumbleInterface)
  | .getLogInterface => (e, true, .logInterface)
  | .getSaveDirectory => (e, e.savesDirectory ≠ "", .string e.savesDirectory)
  | .getSystemDirectory => (e, e.systemDirectory ≠ "", .string e.systemDirectory)
  | .setRotation index =>
    ({ e with screenRotation := index, screenRotationUpdated := true }, true, .unchanged)
  | .setDiskControlInterface callback =>
    ({ e with retroDiskControlCallback := callback }, true, .unchanged)
  | .getPerfInterface => (e, false, .unchanged)
  | .setSystemAvInfo geometry => (e.handleSetGeometry geometry, true, .unchanged)
  | .setGeometry geometry => (e.handleSetGeometry geometry, true, .unchanged)
  | .setControllerInfo received => ({ e with controllers := received }, true, .unchanged)
  | .getAudioVideoEnable => (e, false, .unchanged)
  | .getLanguage => (e, true, .unsigned e.language)
  | .getVfsInterface => (e, e.handleGetVfsInterface)
  | .getMicrophoneInterface => (e, e.handleGetMicrophoneInterface)
  | .other _ => (e, false, .unchanged)

def setRumbleState (e : Environment) (port : Fin 4) (effect : RumbleEffect) (strength : Nat) : Environment :=
  let state := e.rumbleStates port
  let state : RumbleState :=
    match effect with
    | .strong => { state with strengthStrong := strength }
    | .weak => { state with strengthWeak := strength }
    | .dummy => state
  { e with rumbleStates := Function.update e.rumbleStates port state }

def handleCallbackSetRumbleState (e : Environment) (port : Nat) (effect : RumbleEffect)
    (strength : Nat) : Environment × Bool :=
  if h : port < 4 then (e.setRumbleState ⟨port, h⟩ effect strength, true) else (e, false)

/-- The variables in the order of their keys. -/
def getVariables (e : Environment) : List Variable :=
  (e.variableMap.map Prod.snd).insertionSort fun v1 v2 => v1.key ≤ v2.key

def access (e : Environment) : Access → Environment × Reply
  | .callbackEnvironment cmd =>
    let (e, result, data) := e.handleCallbackEnvironment cmd
    (e, .callbackEnvironment result data)
  | .callbackSetRumbleState port effect strength =>
    let (e, result) := e.handleCallbackSetRumbleState port effect strength
    (e, .callbackSetRumbleState result)
  | .updateVariable key value => (e.updateVariable key value, .updateVariable)
  | .getVariables => (e, .getVariables e.getVariables)
  | .getControllers => (e, .getControllers e.controllers)
  | .availableDisks => (e, .availableDisks e.retroDiskControlCallback)

/-- Accesses one after the other. -/
def accesses (e : Environment) : List Access → Environment × List Reply
  | [] => (e, [])
  | a :: as =>
    let (e, reply) := e.access a
    let (e, replies) := e.accesses as
    (e, reply :: replies)

/-! ### What accesses leave -/

theorem accesses_fst (e : Environment) (as : List Access) :
    (e.accesses as).1 = as.foldl (fun e a => (e.access a).1) e := by
  induction as generalizing e with
  | nil => rfl
  | cons a as ih => exact ih _

theorem accesses_append (e : Environment) (as bs : List Access) :
    (e.accesses (as ++ bs)).1 = ((e.accesses as).1.accesses bs).1 := by
  rw [accesses_fst, accesses_fst, accesses_fst, List.foldl_append]

end Environment

namespace Access

/-- The accesses that put an entry into the map of the variables. -/
def TouchesVariables : Access → Prop
  | updateVariable _ _ => True
  | callbackEnvironment (.setVariables received) => received ≠ []
  | _ => False

def SetsHwRender : Access → Prop
  | callbackEnvironment (.setHwRender _) => True
  | _ => False

def SetsRotation : Access → Prop
  | callbackEnvironment (.setRotation _) => True
  | _ => False

def SetsGeometry : Access → Prop
  | callbackEnvironment (.setSystemAvInfo _) | callbackEnvironment (.setGeometry _) => True
  | _ => False

def pixelFormat? : Access → Option Int
  | callbackEnvironment (.setPixelFormat format) => some format
  | _ => none

def diskControl? : Access → Option (Option Nat)
  | callbackEnvironment (.setDiskControlInterface callback) => some callback
  | _ => none

def controllerInfo? : Access → Option (List (List Controller))
  | callbackEnvironment (.setControllerInfo received) => some received
  | _ => none

/-- The strength that is set for a port and an effect. -/
def strength? (port : Fin 4) (effect : RumbleEffect) : Access → Option Nat
  | callbackSetRumbleState port' effect' strength =>
    if port' = port ∧ effect' = effect then some strength else none
  | _ => none

/-- An access that writes nothing. -/
structure Quiet (a : Access) : Prop where
  touchesVariables : ¬ a.TouchesVariables
  setsHwRender : ¬ a.SetsHwRender
  setsRotation : ¬ a.SetsRotation
  setsGeometry : ¬ a.SetsGeometry
  pixelFormat : a.pixelFormat? = none
  diskControl : a.diskControl? = none
  controllerInfo : a.controllerInfo? = none
  strength : ∀ port effect, a.strength? port effect = none

theorem quiet_callbackSetRumbleState {port : Nat} (h : ¬ port < 4) (effect : RumbleEffect) (strength : Nat) :
    (callbackSetRumbleState port effect strength).Quiet := by
  refine ⟨id, id, id, id, rfl, rfl, rfl, ?_⟩
  intro other _
  have hne : port ≠ other := by omega
  simp [strength?, hne]

end Access

theorem VariableMap.foldl_receive_eq_nil (map : VariableMap) (received : List RetroVariable) :
    received.foldl VariableMap.receive map = [] ↔ map = [] ∧ received = [] := by
  induction received generalizing map with
  | nil => simp
  | cons v received ih =>
    rw [List.foldl_cons, ih]
    simp [VariableMap.receive, VariableMap.assign]

namespace Environment

/-- What an access does to the environment. -/
inductive Effect (e : Environment) : Access → Environment → Prop
  | setPixelFormat (format : Int) :
    Effect e (.callbackEnvironment (.setPixelFormat format)) { e with pixelFormat := format }
  | setVariables (received : List RetroVariable) :
    Effect e (.callbackEnvironment (.setVariables received)) (e.handleSetVariables received)
  | getVariableUpdate : Effect e (.callbackEnvironment .getVariableUpdate) { e with dirtyVariables := false }
  | setHwRender (callback : RetroHwRenderCallback) :
    Effect e (.callbackEnvironment (.setHwRender callback)) (e.handleSetHwRender callback)
  | setRotation (index : Nat) :
    Effect e (.callbackEnvironment (.setRotation index))
      { e with screenRotation := index, screenRotationUpdated := true }
  | setDiskControlInterface (callback : Option Nat) :
    Effect e (.callbackEnvironment (.setDiskControlInterface callback))
      { e with retroDiskControlCallback := callback }
  | setSystemAvInfo (geometry : RetroGameGeometry) :
    Effect e (.callbackEnvironment (.setSystemAvInfo geometry)) (e.handleSetGeometry geometry)
  | setGeometry (geometry : RetroGameGeometry) :
    Effect e (.callbackEnvironment (.setGeometry geometry)) (e.handleSetGeometry geometry)
  | setControllerInfo (received : List (List Controller)) :
    Effect e (.callbackEnvironment (.setControllerInfo received)) { e with controllers := received }
  | setRumbleState (port : Fin 4) (effect : RumbleEffect) (strength : Nat) :
    Effect e (.callbackSetRumbleState port effect strength) (e.setRumbleState port effect strength)
  | updateVariable (key value : String) :
    Effect e (.updateVariable key value) (e.updateVariable key value)
  | quiet {a : Access} (h : a.Quiet) : Effect e a e

variable (e : Environment) (a : Access) (as : List Access)

theorem access_effect : Effect e a (e.access a).1 := by
  cases a with
  | callbackEnvironment cmd =>
    cases cmd
    case setPixelFormat format => exact .setPixelFormat format
    case setVariables received => exact .setVariables received
    case getVariableUpdate => exact .getVariableUpdate
    case setHwRender callback => exact .setHwRender callback
    case setRotation index => exact .setRotation index
    case setDiskControlInterface callback => exact .setDiskControlInterface callback
    case setSystemAvInfo geometry => exact .setSystemAvInfo geometry
    case setGeometry geometry => exact .setGeometry geometry
    case setControllerInfo received => exact .setControllerInfo received
    all_goals exact .quiet ⟨id, id, id, id, rfl, rfl, rfl, fun _ _ => rfl⟩
  | callbackSetRumbleState port effect strength =>
    by_cases hport : port < 4
    · have heffect := Effect.setRumbleState (e := e) ⟨port, hport⟩ effect strength
      simpa [access, handleCallbackSetRumbleState, hport] using heffect
    · have hquiet := Access.quiet_callbackSetRumbleState hport effect strength
      simpa [access, handleCallbackSetRumbleState, hport] using Effect.quiet (e := e) hquiet
  | updateVariable key value => exact .updateVariable key value
  | getVariables | getControllers | availableDisks =>
    exact .quiet ⟨id, id, id, id, rfl, rfl, rfl, fun _ _ => rfl⟩

theorem setLanguage_eq (androidLanguage : String) : e.setLanguage androidLanguage =
    { e with language := (languages.lookup androidLanguage).getD e.language } := by
  unfold setLanguage
  cases languages.lookup androidLanguage <;> rfl

/-- What `deinitialize` does not reset, but for the variables and the controllers. -/
theorem deinitializeEnvironment_eq (hvariables : e.variableMap = []) (hdirty : e.dirtyVariables = false)
    (hcontrollers : e.controllers = []) :
    e.deinitializeEnvironment =
      { screenRotationUpdated := e.screenRotationUpdated
        useVirtualFileSystem := e.useVirtualFileSystem
        enableMicrophone := e.enableMicrophone } := by
  rw [deinitializeEnvironment, hvariables, hdirty, hcontrollers]

theorem access_variableMap :
    (e.access a).1.variableMap = [] ↔ e.variableMap = [] ∧ ¬ a.TouchesVariables := by
  have heffect := e.access_effect a
  generalize (e.access a).1 = f at heffect ⊢
  cases heffect
  case setVariables received =>
    simp [handleSetVariables, Access.TouchesVariables, VariableMap.foldl_receive_eq_nil]
  case updateVariable key value =>
    simp only [updateVariable, Access.TouchesVariables]
    split <;> simp [VariableMap.assign]
  case quiet hquiet => simp [hquiet.touchesVariables]
  all_goals simp [Access.TouchesVariables, handleSetHwRender, handleSetGeometry, setRumbleState]

theorem accesses_variableMap :
    (e.accesses as).1.variableMap = [] ↔ e.variableMap = [] ∧ ∀ a ∈ as, ¬ a.TouchesVariables := by
  rw [accesses_fst]
  exact foldl_untouched (P := fun e => e.variableMap = []) access_variableMap e as

/-- Only a step that leaves a variable makes the variables dirty. -/
theorem access_dirtyVariables (h : e.variableMap = [] → e.dirtyVariables = false) :
    (e.access a).1.variableMap = [] → (e.access a).1.dirtyVariables = false := by
  intro hempty
  obtain ⟨hmap, htouches⟩ := (e.access_variableMap a).1 hempty
  have hclean := h hmap
  have heffect := e.access_effect a
  generalize (e.access a).1 = f at heffect ⊢
  cases heffect
  case updateVariable key value => exact absurd trivial htouches
  case getVariableUpdate => rfl
  all_goals exact hclean

theorem accesses_dirtyVariables (h : e.variableMap = [] → e.dirtyVariables = false) :
    (e.accesses as).1.variableMap = [] → (e.accesses as).1.dirtyVariables = false := by
  induction as generalizing e with
  | nil => exact h
  | cons a as ih => exact ih _ (e.access_dirtyVariables a h)

/-- What an access leaves in the members that one command writes whole. -/
structure Writes (f : Environment) : Prop where
  pixelFormat : f.pixelFormat = a.pixelFormat?.getD e.pixelFormat
  diskControl : f.retroDiskControlCallback = a.diskControl?.getD e.retroDiskControlCallback
  controllers : f.controllers = a.controllerInfo?.getD e.controllers
  language : f.language = e.language

theorem access_writes : Writes e a (e.access a).1 := by
  have heffect := e.access_effect a
  generalize (e.access a).1 = f at heffect ⊢
  cases heffect
  case updateVariable key value =>
    simp only [updateVariable]
    split <;> exact ⟨rfl, rfl, rfl, rfl⟩
  case quiet hquiet =>
    constructor
    case pixelFormat => simp [hquiet.pixelFormat]
    case diskControl => simp [hquiet.diskControl]
    case controllers => simp [hquiet.controllerInfo]
    case language => rfl
  all_goals exact ⟨rfl, rfl, rfl, rfl⟩

theorem accesses_controllers :
    (e.accesses as).1.controllers = (lastWrite Access.controllerInfo? as).getD e.controllers := by
  rw [accesses_fst]
  exact foldl_lastWrite (fun e a => (e.access_writes a).controllers) e as

theorem access_screenRotationUpdated (h : ¬ a.SetsRotation) (b : Bool) :
    { e with screenRotationUpdated := b }.access a =
      ({ (e.access a).1 with screenRotationUpdated := b }, (e.access a).2) := by
  cases a with
  | callbackEnvironment cmd =>
    cases cmd
    case setRotation index => exact absurd trivial h
    all_goals rfl
  | callbackSetRumbleState port effect strength =>
    simp only [access, handleCallbackSetRumbleState]
    split <;> rfl
  | updateVariable key value =>
    simp only [access, updateVariable]
    split <;> rfl
  | getVariables | getControllers | availableDisks => rfl

theorem access_setRotation (h : a.SetsRotation) (b : Bool) :
    { e with screenRotationUpdated := b }.access a = e.access a := by
  cases a with
  | callbackEnvironment cmd =>
    cases cmd
    case setRotation index => rfl
    all_goals cases h
  | callbackSetRumbleState port effect strength => cases h
  | updateVariable key value => cases h
  | getVariables | getControllers | availableDisks => cases h

theorem access_rotation (h : ¬ a.SetsRotation) :
    (e.access a).1.screenRotation = e.screenRotation ∧
      (e.access a).1.screenRotationUpdated = e.screenRotationUpdated := by
  have heffect := e.access_effect a
  generalize (e.access a).1 = f at heffect ⊢
  cases heffect
  case setRotation index => exact absurd trivial h
  case updateVariable key value =>
    simp only [updateVariable]
    split <;> exact ⟨rfl, rfl⟩
  all_goals exact ⟨rfl, rfl⟩

/-! ### What only some accesses write -/

/-- What `SET_HW_RENDER` writes. -/
def hardware : Bool × Bool × Bool × Bool × Option Nat × Option Nat :=
  (e.useHWAcceleration, e.useDepth, e.useStencil, e.bottomLeftOrigin, e.hwContextReset, e.hwContextDestroy)

def rotation : Nat × Bool := (e.screenRotation, e.screenRotationUpdated)

def geometry : Bool × Nat × Nat × FloatBits :=
  (e.gameGeometryUpdated, e.gameGeometryWidth, e.gameGeometryHeight, e.gameGeometryAspectRatio)

theorem access_hardware : (e.access a).1.hardware = ({} : Environment).hardware ↔
    e.hardware = ({} : Environment).hardware ∧ ¬ a.SetsHwRender := by
  have heffect := e.access_effect a
  generalize (e.access a).1 = f at heffect ⊢
  cases heffect
  case setHwRender callback => simp [hardware, handleSetHwRender, Access.SetsHwRender]
  case updateVariable key value =>
    simp only [updateVariable, Access.SetsHwRender]
    split <;> simp [hardware]
  case quiet hquiet => simp [hquiet.setsHwRender]
  all_goals simp [hardware, handleSetVariables, handleSetGeometry, setRumbleState, Access.SetsHwRender]

theorem accesses_hardware : (e.accesses as).1.hardware = ({} : Environment).hardware ↔
    e.hardware = ({} : Environment).hardware ∧ ∀ a ∈ as, ¬ a.SetsHwRender := by
  rw [accesses_fst]
  exact foldl_untouched (P := fun e : Environment => e.hardware = ({} : Environment).hardware)
    access_hardware e as

theorem access_rotation_iff : (e.access a).1.rotation = ({} : Environment).rotation ↔
    e.rotation = ({} : Environment).rotation ∧ ¬ a.SetsRotation := by
  by_cases hrotation : a.SetsRotation
  · have haccess := e.access_effect a
    generalize (e.access a).1 = f at haccess ⊢
    cases haccess
    case setRotation index => simp [rotation, hrotation]
    case quiet hquiet => exact absurd hrotation hquiet.setsRotation
    all_goals cases hrotation
  · obtain ⟨hscreen, hupdated⟩ := e.access_rotation a hrotation
    simp [rotation, hscreen, hupdated, hrotation]

theorem accesses_rotation : (e.accesses as).1.rotation = ({} : Environment).rotation ↔
    e.rotation = ({} : Environment).rotation ∧ ∀ a ∈ as, ¬ a.SetsRotation := by
  rw [accesses_fst]
  exact foldl_untouched (P := fun e : Environment => e.rotation = ({} : Environment).rotation)
    access_rotation_iff e as

theorem access_geometry : (e.access a).1.geometry = ({} : Environment).geometry ↔
    e.geometry = ({} : Environment).geometry ∧ ¬ a.SetsGeometry := by
  have heffect := e.access_effect a
  generalize (e.access a).1 = f at heffect ⊢
  cases heffect
  case setSystemAvInfo geometry => simp [Environment.geometry, handleSetGeometry, Access.SetsGeometry]
  case setGeometry geometry => simp [Environment.geometry, handleSetGeometry, Access.SetsGeometry]
  case updateVariable key value =>
    simp only [updateVariable, Access.SetsGeometry]
    split <;> simp [geometry]
  case quiet hquiet => simp [hquiet.setsGeometry]
  all_goals simp [geometry, handleSetVariables, handleSetHwRender, setRumbleState, Access.SetsGeometry]

theorem accesses_geometry : (e.accesses as).1.geometry = ({} : Environment).geometry ↔
    e.geometry = ({} : Environment).geometry ∧ ∀ a ∈ as, ¬ a.SetsGeometry := by
  rw [accesses_fst]
  exact foldl_untouched (P := fun e : Environment => e.geometry = ({} : Environment).geometry)
    access_geometry e as

theorem accesses_pixelFormat :
    (e.accesses as).1.pixelFormat = (lastWrite Access.pixelFormat? as).getD e.pixelFormat := by
  rw [accesses_fst]
  exact foldl_lastWrite (fun e a => (e.access_writes a).pixelFormat) e as

theorem accesses_diskControl : (e.accesses as).1.retroDiskControlCallback =
    (lastWrite Access.diskControl? as).getD e.retroDiskControlCallback := by
  rw [accesses_fst]
  exact foldl_lastWrite (fun e a => (e.access_writes a).diskControl) e as

theorem access_strength (port : Fin 4) {effect : RumbleEffect} (h : effect ≠ .dummy) :
    ((e.access a).1.rumbleStates port).strength effect =
      (a.strength? port effect).getD ((e.rumbleStates port).strength effect) := by
  have heffect := e.access_effect a
  generalize (e.access a).1 = f at heffect ⊢
  cases heffect
  case setRumbleState port' effect' strength =>
    simp only [setRumbleState, Access.strength?, Fin.val_inj]
    by_cases hport : port' = port
    · subst hport
      rw [Function.update_self]
      cases effect <;> cases effect' <;> simp [RumbleState.strength] at h ⊢
    · rw [Function.update_of_ne (Ne.symm hport), if_neg fun hsame => hport hsame.1]
      rfl
  case updateVariable key value =>
    simp only [updateVariable]
    split <;> rfl
  case quiet hquiet => simp [hquiet.strength]
  all_goals rfl

theorem accesses_strength (port : Fin 4) {effect : RumbleEffect} (h : effect ≠ .dummy) :
    ((e.accesses as).1.rumbleStates port).strength effect =
      (lastWrite (Access.strength? port effect) as).getD ((e.rumbleStates port).strength effect) := by
  rw [accesses_fst]
  exact foldl_lastWrite (g := fun e : Environment => (e.rumbleStates port).strength effect)
    (fun e a => e.access_strength a port h) e as

theorem accesses_language : (e.accesses as).1.language = e.language := by
  induction as generalizing e with
  | nil => rfl
  | cons a as ih => exact (ih _).trans (e.access_writes a).language

end Environment

end SweetHome
