import SweetHome.Environment
import SweetHome.LibretroDroid
import SweetHome.ShaderManager

/-!
# One session after the other

The native singletons live as long as the process, so a session begins with what the one before it has
left in them. `destroy` and the next `create` together reset all that can be observed, except the
variables, the controllers and the viewport: nothing is left behind exactly if the session has not
touched a variable and has ended with no controllers and the default viewport (`leavesNothing_iff`).
-/

namespace SweetHome.Sessions

structure Rect where
  x : FloatBits := 0
  y : FloatBits := 0
  width : FloatBits := 0x3F800000
  height : FloatBits := 0x3F800000
deriving DecidableEq, Repr

/-- What `Video` is constructed with, and what the updates change. -/
structure Video where
  useHWAcceleration : Bool
  width : Nat
  height : Nat
  useDepth : Bool
  useStencil : Bool
  openglESVersion : Nat
  pixelFormat : Int
  fragmentShaderConfig : ShaderManager.Config
  bottomLeftOrigin : Bool
  rotation : Nat
  skipDuplicateFrames : Bool
  ambientMode : Bool
  viewportRect : Rect

structure Rumble where
  rumbleStates : Fin 4 → RumbleState := fun _ => {}
  dirtyStates : Fin 4 → Bool := fun _ => false

inductive Event where
  | reply (reply : Reply)
  | video (video : Video)
  | contextReset (callback : Nat)
  | contextDestroy (callback : Nat)
  /-- The frames of a step are drawn. -/
  | frame (video : Video)
  | refreshAspectRatio
  | sendRumbleEvent (port : Fin 4) (state : RumbleState)
  | error (error : RetroError)

namespace Rumble

def fetchFromEnvironment (r : Rumble) (environmentStates : Fin 4 → RumbleState) : Rumble where
  rumbleStates := environmentStates
  dirtyStates := fun i => if r.rumbleStates i = environmentStates i then r.dirtyStates i else true

def handleRumbleUpdates (r : Rumble) : Rumble × List Event :=
  ({ r with dirtyStates := fun _ => false },
    ((List.finRange 4).filter r.dirtyStates).map fun i => .sendRumbleEvent i (r.rumbleStates i))

end Rumble

/-! ### The process -/

/-- The members of `Environment` and `LibretroDroid` that a session can observe. -/
structure Process where
  environment : Environment := {}
  rumbleEnabled : Bool := false
  fragmentShaderConfig : ShaderManager.Config := ⟨.default, [], List.nodup_nil⟩
  viewportRect : Rect := {}
  openglESVersion : Nat := 2
  skipDuplicateFrames : Bool := false
  ambientMode : Bool := false
  dirtyVideo : Bool := false
  video : Option Video := none
  rumble : Option Rumble := none

/-- What `dlopen` and `get_symbol` make of the file of the core. -/
inductive CoreFile where
  | cannotDlopen
  | missingSymbol
  | opened
deriving DecidableEq, Repr

/-- What the view passes to `create`. -/
structure Options where
  openGLESVersion : Nat
  coreFile : CoreFile
  systemDirectory : String
  savesDirectory : String
  coreVariables : List (String × String)
  shader : ShaderManager.Config
  enableVirtualFileSystem : Bool
  enableMicrophone : Bool
  skipDuplicateFrames : Bool
  enableAmbientMode : Bool
  language : String
  rumbleEventsEnabled : Bool

/-- A call of `create`, with what the core asks for in `retro_set_environment` and `retro_init`. -/
structure Start where
  options : Options
  retroSetEnvironment : List Access
  retroInit : List Access

/-- The accesses of a `create` that has opened the core. -/
def Start.accesses (s : Start) : List Access :=
  s.retroSetEnvironment ++ s.options.coreVariables.map (fun v => .updateVariable v.1 v.2) ++ s.retroInit

inductive Action where
  /-- An access of the core in any call into it, or of the Java side. -/
  | access (a : Access)
  | onSurfaceCreated (baseWidth baseHeight : Nat) (contextReset : List Access)
  | step (retroRun : List Access)
  | setViewport (viewportRect : Rect)
  | setShaderConfig (shaderConfig : ShaderManager.Config)

def Action.accesses : Action → List Access
  | access a => [a]
  | onSurfaceCreated _ _ contextReset => contextReset
  | step retroRun => retroRun
  | setViewport _ | setShaderConfig _ => []

def Action.viewport? : Action → Option Rect
  | setViewport viewportRect => some viewportRect
  | _ => none

namespace Process

def accesses (p : Process) (as : List Access) : Process × List Event :=
  ({ p with environment := (p.environment.accesses as).1 }, (p.environment.accesses as).2.map .reply)

def resetGlobalVariables (p : Process) : Process := { p with video := none, rumble := none }

/-- `create` up to the construction of the core. -/
def beginCreate (p : Process) (o : Options) : Process :=
  let p := p.resetGlobalVariables
  let environment := p.environment.initializeEnvironment o.systemDirectory o.savesDirectory
  let environment := environment.setLanguage o.language
  { p with
    environment :=
      { environment with
        useVirtualFileSystem := o.enableVirtualFileSystem
        enableMicrophone := o.enableMicrophone }
    openglESVersion := o.openGLESVersion
    skipDuplicateFrames := o.skipDuplicateFrames
    ambientMode := 3 ≤ o.openGLESVersion && o.enableAmbientMode }

def create (p : Process) (s : Start) : Process × List Event × Option RetroError :=
  let p := p.beginCreate s.options
  match s.options.coreFile with
  | .cannotDlopen | .missingSymbol => (p, [], some .loadLibrary)
  | .opened =>
    let (p, es) := p.accesses s.accesses
    if p.environment.useHWAcceleration && p.openglESVersion < 3 then (p, es, some .glNotCompatible)
    else ({ p with fragmentShaderConfig := s.options.shader, rumble := some {} }, es, none)

/-- `onCreate` of the view. -/
def onCreate (p : Process) (s : Start) : Process × List Event × Option RetroError :=
  match p.create s with
  | (p, es, none) => ({ p with rumbleEnabled := s.options.rumbleEventsEnabled }, es, none)
  | (p, es, some error) => (p, es, some error)

def newVideo (p : Process) (baseWidth baseHeight : Nat) : Video where
  useHWAcceleration := p.environment.useHWAcceleration
  width := baseWidth
  height := baseHeight
  useDepth := p.environment.useDepth
  useStencil := p.environment.useStencil
  openglESVersion := p.openglESVersion
  pixelFormat := p.environment.pixelFormat
  fragmentShaderConfig := p.fragmentShaderConfig
  bottomLeftOrigin := p.environment.bottomLeftOrigin
  rotation := p.environment.screenRotation
  skipDuplicateFrames := p.skipDuplicateFrames
  ambientMode := p.ambientMode
  viewportRect := p.viewportRect

def onSurfaceCreated (p : Process) (baseWidth baseHeight : Nat) (contextReset : List Access) :
    Process × List Event :=
  let video := p.newVideo baseWidth baseHeight
  let resets := p.environment.hwContextReset.toList.map .contextReset
  let (p, es) := { p with video := some video }.accesses contextReset
  (p, .video video :: resets ++ es)

def fetchRumble (p : Process) : Process :=
  match p.rumble with
  | some rumble =>
    if p.rumbleEnabled then
      { p with rumble := some (rumble.fetchFromEnvironment p.environment.rumbleStates) }
    else p
  | none => p

def updateGeometry (p : Process) : Process :=
  match p.video with
  | some video =>
    if p.environment.gameGeometryUpdated then
      let e := p.environment
      { p with
        environment := { e with gameGeometryUpdated := false }
        video := some { video with width := e.gameGeometryWidth, height := e.gameGeometryHeight }
        dirtyVideo := true }
    else p
  | none => p

def updateRotation (p : Process) : Process :=
  match p.video with
  | some video =>
    if p.environment.screenRotationUpdated then
      let e := p.environment
      { p with
        environment := { e with screenRotationUpdated := false }
        video := some { video with rotation := e.screenRotation } }
    else p
  | none => p

def handleRumbleUpdates (p : Process) : Process × List Event :=
  match p.rumble with
  | some rumble =>
    if p.rumbleEnabled then
      let (rumble, es) := rumble.handleRumbleUpdates
      ({ p with rumble := some rumble }, es)
    else (p, [])
  | none => (p, [])

def requestAspectRatioUpdate (p : Process) : Process × List Event :=
  if p.dirtyVideo then ({ p with dirtyVideo := false }, [.refreshAspectRatio]) else (p, [])

/-- `step` of the native interface. -/
def step (p : Process) (retroRun : List Access) : Process × List Event :=
  let (p, replies) := p.accesses retroRun
  let frames := p.video.toList.map .frame
  let p := p.fetchRumble.updateGeometry.updateRotation
  let (p, refresh) := p.requestAspectRatioUpdate
  let (p, rumbles) := p.handleRumbleUpdates
  (p, replies ++ frames ++ refresh ++ rumbles)

def setViewport (p : Process) (viewportRect : Rect) : Process :=
  { p with
    viewportRect := viewportRect
    video := p.video.map fun video => { video with viewportRect := viewportRect } }

def setShaderConfig (p : Process) (shaderConfig : ShaderManager.Config) : Process :=
  { p with
    fragmentShaderConfig := shaderConfig
    video := p.video.map fun video => { video with fragmentShaderConfig := shaderConfig } }

def act (p : Process) : Action → Process × List Event
  | .access a => p.accesses [a]
  | .onSurfaceCreated baseWidth baseHeight contextReset =>
    p.onSurfaceCreated baseWidth baseHeight contextReset
  | .step retroRun => p.step retroRun
  | .setViewport viewportRect => (p.setViewport viewportRect, [])
  | .setShaderConfig shaderConfig => (p.setShaderConfig shaderConfig, [])

def acts (p : Process) : List Action → Process × List Event
  | [] => (p, [])
  | a :: as =>
    let (p, es) := p.act a
    let (p, es') := p.acts as
    (p, es ++ es')

/-- `destroy`, with what the core asks for while it is taken down. -/
def destroy (p : Process) (retroDeinit : List Access) : Process × List Event :=
  let destroys := p.environment.hwContextDestroy.toList.map .contextDestroy
  let (p, es) := p.accesses retroDeinit
  ({ p with video := none, rumble := none, environment := p.environment.deinitializeEnvironment },
    destroys ++ es)

end Process

/-! ### Sessions -/

structure Session where
  start : Start
  actions : List Action
  retroDeinit : List Access

namespace Session

/-- After a failed `create` the view is aborted, and its `onDestroy` does nothing. -/
def run (s : Session) (p : Process) : Process × List Event :=
  match p.onCreate s.start with
  | (p, es, some error) => (p, es ++ [.error error])
  | (p, es, none) =>
    let (p, es') := p.acts s.actions
    let (p, es'') := p.destroy s.retroDeinit
    (p, es ++ es' ++ es'')

def accesses (s : Session) : List Access :=
  s.start.accesses ++ s.actions.flatMap Action.accesses ++ s.retroDeinit

end Session

/-- A first session that ends with `destroy`. -/
structure FirstSession extends Session where
  created : (({} : Process).onCreate start).2.2 = none

/-- Every session after it observes what it observes in a fresh process. -/
def LeavesNothing (s : FirstSession) : Prop :=
  ∀ t : Session, (t.run (s.run {}).1).2 = (t.run {}).2

/-- What the session has left of what is never reset is as in a fresh process. -/
structure Clean (s : FirstSession) : Prop where
  variables_untouched : ∀ a ∈ s.accesses, ¬ a.TouchesVariables
  controllers : (lastWrite Access.controllerInfo? s.accesses).getD [] = []
  viewport : (lastWrite Action.viewport? s.actions).getD {} = {}

/-! ### What a session leaves -/

namespace Process
variable (p : Process)

theorem fetchRumble_eq : ∃ rumble, p.fetchRumble = { p with rumble := rumble } := by
  unfold fetchRumble
  split
  · split
    · exact ⟨_, rfl⟩
    · exact ⟨p.rumble, rfl⟩
  · exact ⟨p.rumble, rfl⟩

theorem updateGeometry_eq : ∃ updated video dirty, p.updateGeometry =
    { p with
      environment := { p.environment with gameGeometryUpdated := updated }
      video := video
      dirtyVideo := dirty } := by
  unfold updateGeometry
  split
  · split
    · exact ⟨_, _, _, rfl⟩
    · exact ⟨_, p.video, _, rfl⟩
  · exact ⟨_, p.video, _, rfl⟩

theorem updateRotation_eq : ∃ updated video, p.updateRotation =
    { p with
      environment := { p.environment with screenRotationUpdated := updated }
      video := video } := by
  unfold updateRotation
  split
  · split
    · exact ⟨_, _, rfl⟩
    · exact ⟨_, p.video, rfl⟩
  · exact ⟨_, p.video, rfl⟩

theorem requestAspectRatioUpdate_fst : p.requestAspectRatioUpdate.1 = { p with dirtyVideo := false } := by
  unfold requestAspectRatioUpdate
  split
  · rfl
  · rename_i hdirty
    rw [Bool.not_eq_true] at hdirty
    rw [← hdirty]

theorem handleRumbleUpdates_fst : ∃ rumble, p.handleRumbleUpdates.1 = { p with rumble := rumble } := by
  unfold handleRumbleUpdates
  split
  · split
    · exact ⟨_, rfl⟩
    · exact ⟨p.rumble, rfl⟩
  · exact ⟨p.rumble, rfl⟩

theorem step_fst (retroRun : List Access) : ∃ geometryUpdated rotationUpdated video rumble,
    (p.step retroRun).1 =
      { p with
        environment :=
          { (p.environment.accesses retroRun).1 with
            gameGeometryUpdated := geometryUpdated
            screenRotationUpdated := rotationUpdated }
        video := video
        rumble := rumble
        dirtyVideo := false } := by
  obtain ⟨_, hfetch⟩ := (p.accesses retroRun).1.fetchRumble_eq
  obtain ⟨_, _, _, hgeometry⟩ := (p.accesses retroRun).1.fetchRumble.updateGeometry_eq
  obtain ⟨_, _, hrotation⟩ := (p.accesses retroRun).1.fetchRumble.updateGeometry.updateRotation_eq
  obtain ⟨q, hq⟩ : ∃ q, q = (p.accesses retroRun).1.fetchRumble.updateGeometry.updateRotation := ⟨_, rfl⟩
  obtain ⟨_, hrumble⟩ := q.requestAspectRatioUpdate.1.handleRumbleUpdates_fst
  have hstep : (p.step retroRun).1 = q.requestAspectRatioUpdate.1.handleRumbleUpdates.1 := by
    rw [hq]
    rfl
  rw [hstep, hrumble, requestAspectRatioUpdate_fst, hq, hrotation, hgeometry, hfetch]
  exact ⟨_, _, _, _, rfl⟩

/-- An action changes the environment by its accesses, and clears the two update flags. -/
theorem act_environment (a : Action) : ∃ geometryUpdated rotationUpdated,
    (p.act a).1.environment =
      { (p.environment.accesses a.accesses).1 with
        gameGeometryUpdated := geometryUpdated
        screenRotationUpdated := rotationUpdated } := by
  cases a with
  | access a => exact ⟨_, _, rfl⟩
  | onSurfaceCreated baseWidth baseHeight contextReset => exact ⟨_, _, rfl⟩
  | setViewport viewportRect => exact ⟨_, _, rfl⟩
  | setShaderConfig shaderConfig => exact ⟨_, _, rfl⟩
  | step retroRun =>
    obtain ⟨geometryUpdated, rotationUpdated, _, _, hstep⟩ := p.step_fst retroRun
    refine ⟨geometryUpdated, rotationUpdated, ?_⟩
    rw [act, hstep]
    rfl

theorem act_viewportRect (a : Action) : (p.act a).1.viewportRect = a.viewport?.getD p.viewportRect := by
  cases a with
  | access a => rfl
  | onSurfaceCreated baseWidth baseHeight contextReset => rfl
  | setViewport viewportRect => rfl
  | setShaderConfig shaderConfig => rfl
  | step retroRun =>
    obtain ⟨_, _, _, _, hstep⟩ := p.step_fst retroRun
    rw [act, hstep]
    rfl

theorem act_dirtyVideo (a : Action) (h : p.dirtyVideo = false) : (p.act a).1.dirtyVideo = false := by
  cases a with
  | access a => exact h
  | onSurfaceCreated baseWidth baseHeight contextReset => exact h
  | setViewport viewportRect => exact h
  | setShaderConfig shaderConfig => exact h
  | step retroRun =>
    obtain ⟨_, _, _, _, hstep⟩ := p.step_fst retroRun
    rw [act, hstep]

variable (as : List Action)

theorem acts_fst : (p.acts as).1 = as.foldl (fun p a => (p.act a).1) p := by
  induction as generalizing p with
  | nil => rfl
  | cons a as ih => exact ih _

theorem acts_viewportRect :
    (p.acts as).1.viewportRect = (lastWrite Action.viewport? as).getD p.viewportRect := by
  rw [acts_fst]
  exact foldl_lastWrite act_viewportRect p as

theorem acts_dirtyVideo (h : p.dirtyVideo = false) : (p.acts as).1.dirtyVideo = false := by
  induction as generalizing p with
  | nil => exact h
  | cons a as ih => exact ih _ (p.act_dirtyVideo a h)

theorem acts_variableMap :
    (p.acts as).1.environment.variableMap = [] ↔
      p.environment.variableMap = [] ∧ ∀ a ∈ as.flatMap Action.accesses, ¬ a.TouchesVariables := by
  induction as generalizing p with
  | nil => simp [acts]
  | cons a as ih =>
    obtain ⟨_, _, hact⟩ := p.act_environment a
    have hmap := p.environment.accesses_variableMap a.accesses
    rw [List.flatMap_cons, List.forall_mem_append, ← and_assoc, ← hmap]
    have hrest := ih (p.act a).1
    rw [hact] at hrest
    exact hrest

theorem acts_dirtyVariables
    (h : p.environment.variableMap = [] → p.environment.dirtyVariables = false) :
    (p.acts as).1.environment.variableMap = [] → (p.acts as).1.environment.dirtyVariables = false := by
  induction as generalizing p with
  | nil => exact h
  | cons a as ih =>
    refine ih (p.act a).1 ?_
    obtain ⟨_, _, hact⟩ := p.act_environment a
    rw [hact]
    exact p.environment.accesses_dirtyVariables a.accesses h

theorem acts_controllers :
    (p.acts as).1.environment.controllers =
      (lastWrite Access.controllerInfo? (as.flatMap Action.accesses)).getD p.environment.controllers := by
  induction as generalizing p with
  | nil => rfl
  | cons a as ih =>
    obtain ⟨_, _, hact⟩ := p.act_environment a
    have hcontrollers := p.environment.accesses_controllers a.accesses
    rw [List.flatMap_cons, lastWrite_append_getD, ← hcontrollers]
    have hrest := ih (p.act a).1
    rw [hact] at hrest
    exact hrest

theorem beginCreate_environment (o : Options) : (p.beginCreate o).environment =
    { p.environment.initializeEnvironment o.systemDirectory o.savesDirectory with
      language := (Environment.languages.lookup o.language).getD p.environment.language
      useVirtualFileSystem := o.enableVirtualFileSystem
      enableMicrophone := o.enableMicrophone } := by
  simp only [beginCreate, resetGlobalVariables, Environment.setLanguage_eq]
  rfl

theorem create_opened {s : Start} (h : s.options.coreFile = .opened) :
    p.create s =
      let e := (p.beginCreate s.options).environment.accesses s.accesses
      let q := { p.beginCreate s.options with environment := e.1 }
      if e.1.useHWAcceleration && s.options.openGLESVersion < 3 then
        (q, e.2.map .reply, some .glNotCompatible)
      else
        ({ q with fragmentShaderConfig := s.options.shader, rumble := some {} }, e.2.map .reply, none) := by
  unfold create
  rw [h]
  rfl

theorem onCreate_opened {s : Start} (h : s.options.coreFile = .opened) :
    p.onCreate s =
      let e := (p.beginCreate s.options).environment.accesses s.accesses
      let q := { p.beginCreate s.options with environment := e.1 }
      if e.1.useHWAcceleration && s.options.openGLESVersion < 3 then
        (q, e.2.map .reply, some .glNotCompatible)
      else
        ({ q with
          rumbleEnabled := s.options.rumbleEventsEnabled
          fragmentShaderConfig := s.options.shader
          rumble := some {} }, e.2.map .reply, none) := by
  rw [onCreate, p.create_opened h]
  cases hincompatible : ((p.beginCreate s.options).environment.accesses s.accesses).1.useHWAcceleration &&
      decide (s.options.openGLESVersion < 3) with
  | true => simp only [hincompatible, if_true]
  | false => simp only [hincompatible, Bool.false_eq_true, if_false]

theorem onCreate_of_not_opened {s : Start} (h : s.options.coreFile ≠ .opened) :
    p.onCreate s = (p.beginCreate s.options, [], some .loadLibrary) := by
  have hcreate : p.create s = (p.beginCreate s.options, [], some .loadLibrary) := by
    unfold create
    split
    · rfl
    · rfl
    · rename_i hopened
      exact absurd hopened h
  rw [onCreate, hcreate]

theorem onCreate_environment (s : Start) : (p.onCreate s).1.environment =
    if s.options.coreFile = .opened then ((p.beginCreate s.options).environment.accesses s.accesses).1
    else (p.beginCreate s.options).environment := by
  split
  · rename_i hopened
    rw [p.onCreate_opened hopened]
    simp only
    split <;> rfl
  · rename_i hopened
    rw [p.onCreate_of_not_opened hopened]

theorem onCreate_snd (s : Start) : (p.onCreate s).2 =
    if s.options.coreFile = .opened then
      let e := (p.beginCreate s.options).environment.accesses s.accesses
      (e.2.map .reply,
        if e.1.useHWAcceleration && s.options.openGLESVersion < 3 then some .glNotCompatible else none)
    else ([], some .loadLibrary) := by
  split
  · rename_i hopened
    rw [p.onCreate_opened hopened]
    simp only
    split <;> rfl
  · rename_i hopened
    rw [p.onCreate_of_not_opened hopened]

theorem onCreate_none {s : Start} (h : (p.onCreate s).2.2 = none) :
    (p.onCreate s).1 =
      { p.beginCreate s.options with
        environment := ((p.beginCreate s.options).environment.accesses s.accesses).1
        rumbleEnabled := s.options.rumbleEventsEnabled
        fragmentShaderConfig := s.options.shader
        rumble := some {} } := by
  by_cases hopened : s.options.coreFile = .opened
  · rw [p.onCreate_opened hopened] at h ⊢
    simp only at h ⊢
    split at h
    · cases h
    · rename_i hcompatible
      rw [if_neg hcompatible]
  · rw [p.onCreate_of_not_opened hopened] at h
    cases h

end Process

namespace FirstSession
variable (s : FirstSession)

theorem run_fst :
    (s.run {}).1 =
      ((((({} : Process).onCreate s.start).1.acts s.actions).1).destroy s.retroDeinit).1 := by
  have hcreated := s.created
  rcases honCreate : ({} : Process).onCreate s.start with ⟨p, es, _ | error⟩
  · rw [Session.run, honCreate]
  · rw [honCreate] at hcreated
    cases hcreated

theorem run_variableMap :
    (s.run {}).1.environment.variableMap = [] ↔ ∀ a ∈ s.accesses, ¬ a.TouchesVariables := by
  have hbegin := ({} : Process).beginCreate_environment s.start.options
  have hdestroy : ∀ p : Process, (p.destroy s.retroDeinit).1.environment.variableMap =
      (p.environment.accesses s.retroDeinit).1.variableMap := fun _ => rfl
  rw [run_fst, hdestroy, Environment.accesses_variableMap, Process.acts_variableMap,
    Process.onCreate_none _ s.created]
  simp only
  rw [Environment.accesses_variableMap, hbegin]
  simp only [Environment.initializeEnvironment, true_and, Session.accesses, List.forall_mem_append, and_assoc]

theorem run_dirtyVariables (h : (s.run {}).1.environment.variableMap = []) :
    (s.run {}).1.environment.dirtyVariables = false := by
  have hbegin := ({} : Process).beginCreate_environment s.start.options
  rw [run_fst] at h ⊢
  refine Environment.accesses_dirtyVariables _ s.retroDeinit ?_ h
  refine Process.acts_dirtyVariables _ s.actions ?_
  rw [Process.onCreate_none _ s.created]
  refine Environment.accesses_dirtyVariables _ s.start.accesses ?_
  intro _
  rw [hbegin]
  rfl

theorem run_controllers :
    (s.run {}).1.environment.controllers = (lastWrite Access.controllerInfo? s.accesses).getD [] := by
  have hbegin := ({} : Process).beginCreate_environment s.start.options
  have hdestroy : ∀ p : Process, (p.destroy s.retroDeinit).1.environment.controllers =
      (p.environment.accesses s.retroDeinit).1.controllers := fun _ => rfl
  rw [run_fst, hdestroy, Environment.accesses_controllers, Process.acts_controllers,
    Process.onCreate_none _ s.created]
  simp only
  rw [Environment.accesses_controllers, hbegin, Session.accesses, lastWrite_append_getD, lastWrite_append_getD]
  rfl

theorem run_viewportRect :
    (s.run {}).1.viewportRect = (lastWrite Action.viewport? s.actions).getD {} := by
  have hdestroy : ∀ p : Process, (p.destroy s.retroDeinit).1.viewportRect = p.viewportRect := fun _ => rfl
  rw [run_fst, hdestroy, Process.acts_viewportRect, Process.onCreate_none _ s.created]
  rfl

theorem run_dirtyVideo : (s.run {}).1.dirtyVideo = false := by
  rw [run_fst]
  refine Process.acts_dirtyVideo _ s.actions ?_
  rw [Process.onCreate_none _ s.created]
  rfl

end FirstSession

/-! ### What the next session observes -/

/-- The process but for the update flag of the rotation. -/
def Process.withUpdated (q : Process) (b : Bool) : Process :=
  { q with environment := { q.environment with screenRotationUpdated := b } }

namespace Process
variable (q : Process) (b : Bool)

theorem fetchRumble_withUpdated : (q.withUpdated b).fetchRumble = q.fetchRumble.withUpdated b := by
  obtain ⟨e, enabled, _, _, _, _, _, _, _, rumble⟩ := q
  cases rumble <;> cases enabled <;> rfl

theorem updateGeometry_withUpdated : (q.withUpdated b).updateGeometry = q.updateGeometry.withUpdated b := by
  obtain ⟨e, _, _, _, _, _, _, _, video, _⟩ := q
  cases video with
  | none => rfl
  | some video => cases h : e.gameGeometryUpdated <;> simp [updateGeometry, withUpdated, h]

/-- The flag only writes what the video has already. -/
theorem updateRotation_withUpdated {video : Video} (hvideo : q.video = some video)
    (hrotation : video.rotation = q.environment.screenRotation) :
    (q.withUpdated b).updateRotation = q.withUpdated false := by
  obtain ⟨e, _, _, _, _, _, _, _, _, _⟩ := q
  subst hvideo
  have hsame : { video with rotation := e.screenRotation } = video := by
    rw [← show video.rotation = e.screenRotation from hrotation]
  cases b with
  | false => rfl
  | true => simp [updateRotation, withUpdated, hsame]

theorem requestAspectRatioUpdate_withUpdated : (q.withUpdated b).requestAspectRatioUpdate =
    (q.requestAspectRatioUpdate.1.withUpdated b, q.requestAspectRatioUpdate.2) := by
  obtain ⟨e, _, _, _, _, _, _, dirtyVideo, _, _⟩ := q
  cases dirtyVideo <;> rfl

theorem handleRumbleUpdates_withUpdated : (q.withUpdated b).handleRumbleUpdates =
    (q.handleRumbleUpdates.1.withUpdated b, q.handleRumbleUpdates.2) := by
  obtain ⟨e, enabled, _, _, _, _, _, _, _, rumble⟩ := q
  cases rumble <;> cases enabled <;> rfl

end Process

/-- The update flags of the rotation may differ where the video has the rotation already. -/
def Same (p q : Process) : Prop :=
  ∃ b, p = q.withUpdated b ∧
    (b = q.environment.screenRotationUpdated ∨ ∀ v ∈ q.video, v.rotation = q.environment.screenRotation)

namespace Same
variable {p q : Process}

theorem refl (p : Process) : Same p p := ⟨_, rfl, .inl rfl⟩

theorem access (h : Same p q) (a : Access) :
    Same { p with environment := (p.environment.access a).1 }
        { q with environment := (q.environment.access a).1 } ∧
      (p.environment.access a).2 = (q.environment.access a).2 := by
  obtain ⟨b, rfl, hb⟩ := h
  by_cases hrotation : a.SetsRotation
  · have haccess := q.environment.access_setRotation a hrotation b
    simp only [Process.withUpdated, haccess]
    exact ⟨refl _, trivial⟩
  · have haccess := q.environment.access_screenRotationUpdated a hrotation b
    obtain ⟨hscreen, hsame⟩ := q.environment.access_rotation a hrotation
    simp only [Process.withUpdated, haccess]
    refine ⟨⟨b, rfl, ?_⟩, trivial⟩
    simp only [hscreen, hsame]
    exact hb

theorem accesses (h : Same p q) (as : List Access) :
    Same (p.accesses as).1 (q.accesses as).1 ∧ (p.accesses as).2 = (q.accesses as).2 := by
  induction as generalizing p q with
  | nil => exact ⟨h, rfl⟩
  | cons a as ih =>
    obtain ⟨hsame, hreply⟩ := h.access a
    obtain ⟨hrest, hreplies⟩ := ih hsame
    exact ⟨hrest, congrArg₂ _ (congrArg _ hreply) hreplies⟩

theorem fetchRumble (h : Same p q) : Same p.fetchRumble q.fetchRumble := by
  obtain ⟨b, rfl, hb⟩ := h
  obtain ⟨rumble, hrumble⟩ := q.fetchRumble_eq
  refine ⟨b, q.fetchRumble_withUpdated b, ?_⟩
  rw [hrumble]
  exact hb

theorem updateGeometry (h : Same p q) : Same p.updateGeometry q.updateGeometry := by
  obtain ⟨b, rfl, hb⟩ := h
  refine ⟨b, q.updateGeometry_withUpdated b, ?_⟩
  unfold Process.updateGeometry
  split
  · rename_i video hvideo
    split
    · refine hb.imp_right fun hrotation => ?_
      rintro _ ⟨⟩
      exact hrotation video hvideo
    · exact hb
  · exact hb

theorem updateRotation (h : Same p q) : Same p.updateRotation q.updateRotation := by
  obtain ⟨b, rfl, hb | hrotation⟩ := h
  · have heq : q.withUpdated b = q := by
      rw [hb]
      rfl
    rw [heq]
    exact refl _
  · rcases hvideo : q.video with _ | video
    · have hnone : ∀ c, (q.withUpdated c).updateRotation = q.withUpdated c := by
        intro c
        simp [Process.updateRotation, Process.withUpdated, hvideo]
      have hq : q.updateRotation = q := hnone q.environment.screenRotationUpdated
      rw [hnone, hq]
      exact ⟨b, rfl, .inr hrotation⟩
    · have hcleared : ∀ c, (q.withUpdated c).updateRotation = q.withUpdated false :=
        fun c => q.updateRotation_withUpdated c hvideo (hrotation video hvideo)
      have hq : q.updateRotation = q.withUpdated false := hcleared q.environment.screenRotationUpdated
      rw [hcleared, hq]
      exact refl _

theorem requestAspectRatioUpdate (h : Same p q) :
    Same p.requestAspectRatioUpdate.1 q.requestAspectRatioUpdate.1 ∧
      p.requestAspectRatioUpdate.2 = q.requestAspectRatioUpdate.2 := by
  obtain ⟨b, rfl, hb⟩ := h
  rw [q.requestAspectRatioUpdate_withUpdated b]
  refine ⟨⟨b, rfl, ?_⟩, rfl⟩
  rw [q.requestAspectRatioUpdate_fst]
  exact hb

theorem handleRumbleUpdates (h : Same p q) :
    Same p.handleRumbleUpdates.1 q.handleRumbleUpdates.1 ∧
      p.handleRumbleUpdates.2 = q.handleRumbleUpdates.2 := by
  obtain ⟨b, rfl, hb⟩ := h
  obtain ⟨rumble, hrumble⟩ := q.handleRumbleUpdates_fst
  rw [q.handleRumbleUpdates_withUpdated b]
  refine ⟨⟨b, rfl, ?_⟩, rfl⟩
  rw [hrumble]
  exact hb

theorem step (h : Same p q) (retroRun : List Access) :
    Same (p.step retroRun).1 (q.step retroRun).1 ∧ (p.step retroRun).2 = (q.step retroRun).2 := by
  obtain ⟨haccesses, hreplies⟩ := h.accesses retroRun
  obtain ⟨hrefresh, hrefreshes⟩ := haccesses.fetchRumble.updateGeometry.updateRotation.requestAspectRatioUpdate
  obtain ⟨hrumble, hrumbles⟩ := hrefresh.handleRumbleUpdates
  have hframes : (p.accesses retroRun).1.video = (q.accesses retroRun).1.video := by
    obtain ⟨b, hb, -⟩ := haccesses
    rw [hb]
    rfl
  refine ⟨hrumble, ?_⟩
  simp only [Process.step]
  rw [hreplies, hframes, hrefreshes, hrumbles]

theorem onSurfaceCreated (h : Same p q) (baseWidth baseHeight : Nat) (contextReset : List Access) :
    Same (p.onSurfaceCreated baseWidth baseHeight contextReset).1
        (q.onSurfaceCreated baseWidth baseHeight contextReset).1 ∧
      (p.onSurfaceCreated baseWidth baseHeight contextReset).2 =
        (q.onSurfaceCreated baseWidth baseHeight contextReset).2 := by
  obtain ⟨b, rfl, -⟩ := h
  have hnew : Same { q.withUpdated b with video := some ((q.withUpdated b).newVideo baseWidth baseHeight) }
      { q with video := some (q.newVideo baseWidth baseHeight) } := by
    refine ⟨b, rfl, .inr ?_⟩
    rintro _ ⟨⟩
    rfl
  obtain ⟨hsame, hreplies⟩ := hnew.accesses contextReset
  refine ⟨hsame, ?_⟩
  simp only [Process.onSurfaceCreated]
  rw [hreplies]
  rfl

theorem act (h : Same p q) (a : Action) : Same (p.act a).1 (q.act a).1 ∧ (p.act a).2 = (q.act a).2 := by
  cases a with
  | access a => exact h.accesses [a]
  | onSurfaceCreated baseWidth baseHeight contextReset =>
    exact h.onSurfaceCreated baseWidth baseHeight contextReset
  | step retroRun => exact h.step retroRun
  | setViewport viewportRect =>
    obtain ⟨b, rfl, hb⟩ := h
    refine ⟨⟨b, rfl, hb.imp_right fun hrotation v hv => ?_⟩, rfl⟩
    obtain ⟨video, hvideo, rfl⟩ := Option.map_eq_some_iff.1 hv
    exact hrotation video hvideo
  | setShaderConfig shaderConfig =>
    obtain ⟨b, rfl, hb⟩ := h
    refine ⟨⟨b, rfl, hb.imp_right fun hrotation v hv => ?_⟩, rfl⟩
    obtain ⟨video, hvideo, rfl⟩ := Option.map_eq_some_iff.1 hv
    exact hrotation video hvideo

theorem acts (h : Same p q) (as : List Action) :
    Same (p.acts as).1 (q.acts as).1 ∧ (p.acts as).2 = (q.acts as).2 := by
  induction as generalizing p q with
  | nil => exact ⟨h, rfl⟩
  | cons a as ih =>
    obtain ⟨hsame, hes⟩ := h.act a
    obtain ⟨hrest, hrests⟩ := ih hsame
    exact ⟨hrest, congrArg₂ _ hes hrests⟩

theorem destroy (h : Same p q) (retroDeinit : List Access) :
    (p.destroy retroDeinit).2 = (q.destroy retroDeinit).2 := by
  obtain ⟨-, hes⟩ := h.accesses retroDeinit
  obtain ⟨b, rfl, -⟩ := h
  simp only [Process.destroy]
  rw [hes]
  rfl

end Same

/-- The process that a successful `create` hands to the core. -/
def Process.created (p : Process) (o : Options) : Process :=
  { p.beginCreate o with
    rumbleEnabled := o.rumbleEventsEnabled
    fragmentShaderConfig := o.shader
    rumble := some {} }

theorem Session.run_snd (t : Session) (p : Process) : (t.run p).2 =
    if t.start.options.coreFile = .opened then
      let q := (p.created t.start.options).accesses t.start.accesses
      if q.1.environment.useHWAcceleration && t.start.options.openGLESVersion < 3 then
        q.2 ++ [.error .glNotCompatible]
      else q.2 ++ (q.1.acts t.actions).2 ++ ((q.1.acts t.actions).1.destroy t.retroDeinit).2
    else [.error .loadLibrary] := by
  split
  · rename_i hopened
    rw [Session.run, p.onCreate_opened hopened]
    have henvironment : ((p.created t.start.options).accesses t.start.accesses).1.environment =
        ((p.beginCreate t.start.options).environment.accesses t.start.accesses).1 := rfl
    simp only [henvironment]
    cases ((p.beginCreate t.start.options).environment.accesses t.start.accesses).1.useHWAcceleration &&
      decide (t.start.options.openGLESVersion < 3) <;> rfl
  · rename_i hopened
    rw [Session.run, p.onCreate_of_not_opened hopened]
    rfl

theorem Same.run {t : Session} {p q : Process}
    (h : Same (p.created t.start.options) (q.created t.start.options)) : (t.run p).2 = (t.run q).2 := by
  obtain ⟨hsame, hreplies⟩ := h.accesses t.start.accesses
  obtain ⟨hacts, hes⟩ := hsame.acts t.actions
  have hdestroy := hacts.destroy t.retroDeinit
  have hhardware : ((p.created t.start.options).accesses t.start.accesses).1.environment.useHWAcceleration =
      ((q.created t.start.options).accesses t.start.accesses).1.environment.useHWAcceleration := by
    obtain ⟨b, hb, -⟩ := hsame
    rw [hb]
    rfl
  rw [t.run_snd, t.run_snd]
  simp only
  rw [hhardware, hreplies, hes, hdestroy]

/-- What is never reset is as in a fresh process, but for what no session can observe. -/
structure Reset (p : Process) : Prop where
  environment : ∃ updated vfs microphone, p.environment =
    { screenRotationUpdated := updated, useVirtualFileSystem := vfs, enableMicrophone := microphone }
  viewportRect : p.viewportRect = {}
  dirtyVideo : p.dirtyVideo = false

theorem Reset.created {p : Process} (h : Reset p) (o : Options) :
    Same (p.created o) (({} : Process).created o) := by
  obtain ⟨⟨updated, vfs, microphone, henvironment⟩, hviewport, hdirty⟩ := h
  refine ⟨updated, ?_, .inr fun v hv => by cases hv⟩
  simp only [Process.created, Process.beginCreate, Process.resetGlobalVariables, henvironment, hviewport, hdirty,
    Environment.initializeEnvironment, Environment.setLanguage_eq]
  rfl

theorem Clean.reset {s : FirstSession} (h : Clean s) : Reset (s.run {}).1 := by
  have hvariables := s.run_variableMap.2 h.variables_untouched
  have hdirty := s.run_dirtyVariables hvariables
  have hcontrollers := s.run_controllers.trans h.controllers
  refine ⟨?_, s.run_viewportRect.trans h.viewport, s.run_dirtyVideo⟩
  have hdestroy : (s.run {}).1.environment = ((((({} : Process).onCreate s.start).1.acts
      s.actions).1.environment.accesses s.retroDeinit).1).deinitializeEnvironment := by
    rw [s.run_fst]
    rfl
  rw [hdestroy] at hvariables hdirty hcontrollers ⊢
  exact ⟨_, _, _, Environment.deinitializeEnvironment_eq _ hvariables hdirty hcontrollers⟩

theorem leavesNothing_of_clean {s : FirstSession} (h : Clean s) : LeavesNothing s :=
  fun t => Same.run (h.reset.created t.start.options)

/-- A session that asks for all that is never reset. -/
def probe : Session where
  start :=
    { options :=
        { openGLESVersion := 3
          coreFile := .opened
          systemDirectory := ""
          savesDirectory := ""
          coreVariables := []
          shader := ⟨.default, [], List.nodup_nil⟩
          enableVirtualFileSystem := false
          enableMicrophone := false
          skipDuplicateFrames := false
          enableAmbientMode := false
          language := "en"
          rumbleEventsEnabled := false }
      retroSetEnvironment := []
      retroInit := [] }
  actions := [.access .getVariables, .access .getControllers, .onSurfaceCreated 0 0 []]
  retroDeinit := []

theorem probe_run (p : Process) : (probe.run p).2.take 3 =
    [.reply (.getVariables p.environment.getVariables), .reply (.getControllers p.environment.controllers),
      .video ((p.created probe.start.options).newVideo 0 0)] := by
  have hopened : probe.start.options.coreFile = .opened := rfl
  have hgl : decide (probe.start.options.openGLESVersion < 3) = false := rfl
  rw [Session.run_snd, if_pos hopened]
  simp only [hgl, Bool.and_false, Bool.false_eq_true, if_false]
  rfl

theorem getVariables_eq_nil {e : Environment} (h : e.getVariables = []) : e.variableMap = [] := by
  have hlength := congrArg List.length h
  rw [Environment.getVariables, List.length_insertionSort, List.length_map] at hlength
  exact List.length_eq_zero_iff.1 hlength

theorem clean_of_leavesNothing {s : FirstSession} (h : LeavesNothing s) : Clean s := by
  have hobserved := congrArg (List.take 3) (h probe)
  rw [probe_run, probe_run] at hobserved
  simp only [List.cons.injEq, Event.reply.injEq, Reply.getVariables.injEq, Reply.getControllers.injEq,
    Event.video.injEq] at hobserved
  obtain ⟨hvariables, hcontrollers, hvideo, -⟩ := hobserved
  refine ⟨s.run_variableMap.1 (getVariables_eq_nil hvariables), ?_, ?_⟩
  · rw [← s.run_controllers, hcontrollers]
  · rw [← s.run_viewportRect]
    exact congrArg Video.viewportRect hvideo

/-- For every first session that ends with `destroy`: whatever session follows observes what it observes in
a fresh process exactly if the first one is clean. -/
theorem leavesNothing_iff (s : FirstSession) : LeavesNothing s ↔ Clean s :=
  ⟨clean_of_leavesNothing, leavesNothing_of_clean⟩

/-- A session with one option. -/
def optionSession : FirstSession where
  toSession :=
    { probe with
      start :=
        { probe.start with
          options := { probe.start.options with coreVariables := [("core_speed", "fast")] } } }
  created := rfl

/-- The option of the first core is among those of the second one. -/
theorem option_stays : ¬ LeavesNothing optionSession := by
  intro h
  have hobserved := congrArg (List.take 3) (h probe)
  rw [probe_run, probe_run] at hobserved
  simp only [List.cons.injEq, Event.reply.injEq, Reply.getVariables.injEq] at hobserved
  exact absurd hobserved.1 (by decide)

end SweetHome.Sessions
