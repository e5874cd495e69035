import SweetHome.Lib.Run
import SweetHome.Sessions

/-!
# Geometry and rotation

What the core sets travels to the video in three latched flags: the end of a step hands the size and the
rotation on where the environment says that they were updated, and the refresh that it asks for hands on the
aspect ratio. A flag is clear only when the video has what was set last (`Inv`).
-/

namespace SweetHome

namespace Access

/-- What `SET_ROTATION` writes, and that it has. -/
def rotation? : Access → Option (Nat × Bool)
  | callbackEnvironment (.setRotation index) => some (index, true)
  | _ => none

/-- The geometry that is set. -/
def geometry? : Access → Option RetroGameGeometry
  | callbackEnvironment (.setSystemAvInfo geometry) | callbackEnvironment (.setGeometry geometry) =>
    some geometry
  | _ => none

end Access

namespace Environment
variable (e : Environment) (a : Access) (as : List Access)

/-- The environment's members for a geometry that was just set. -/
def updatedGeometry (geometry : RetroGameGeometry) : Bool × Nat × Nat × FloatBits :=
  (true, geometry.baseWidth, geometry.baseHeight, geometry.aspectRatio)

theorem access_rotation_eq : (e.access a).1.rotation = a.rotation?.getD e.rotation := by
  have heffect := e.access_effect a
  generalize (e.access a).1 = f at heffect ⊢
  cases heffect
  case updateVariable key value =>
    simp only [updateVariable]
    split <;> rfl
  case quiet hquiet =>
    have hnone : a.rotation? = none := by
      rcases a with ⟨_ | _⟩ | _ | _ | _ | _ | _ <;> first | rfl | exact absurd trivial hquiet.setsRotation
    rw [hnone]; rfl
  all_goals rfl

theorem access_geometry_eq : (e.access a).1.geometry = (a.geometry?.map updatedGeometry).getD e.geometry := by
  have heffect := e.access_effect a
  generalize (e.access a).1 = f at heffect ⊢
  cases heffect
  case updateVariable key value =>
    simp only [updateVariable]
    split <;> rfl
  case quiet hquiet =>
    have hnone : a.geometry? = none := by
      rcases a with ⟨_ | _⟩ | _ | _ | _ | _ | _ <;> first | rfl | exact absurd trivial hquiet.setsGeometry
    rw [hnone]; rfl
  all_goals rfl

theorem accesses_rotation_eq :
    (e.accesses as).1.rotation = (lastWrite Access.rotation? as).getD e.rotation := by
  rw [accesses_fst]
  exact foldl_lastWrite access_rotation_eq e as

theorem accesses_geometry_eq :
    (e.accesses as).1.geometry = ((lastWrite Access.geometry? as).map updatedGeometry).getD e.geometry := by
  rw [accesses_fst, ← lastWrite_map]
  exact foldl_lastWrite access_geometry_eq e as

end Environment

namespace Geometry
open Step Sessions

/-! ### Aspect ratios -/

/-- `x > 0` -/
def positive (x : FloatBits) : Bool := 0 < x && x ≤ 0x7F800000

/-- `x < 0` -/
def negative (x : FloatBits) : Bool := 0x80000000 < x && x ≤ 0xFF800000

section
/- The quotient of two unsigned numbers as a `float`. -/
variable (divide : Nat → Nat → FloatBits)

def retrieveGameSpecificAspectRatio (e : Environment) : FloatBits :=
  if positive e.gameGeometryAspectRatio then e.gameGeometryAspectRatio
  else if 0 < e.gameGeometryWidth ∧ 0 < e.gameGeometryHeight then
    divide e.gameGeometryWidth e.gameGeometryHeight
  else 0xBF800000

def findDefaultAspectRatio (geometry : RetroGameGeometry) : FloatBits :=
  if negative geometry.aspectRatio then divide geometry.baseWidth geometry.baseHeight
  else geometry.aspectRatio

/-! ### The view -/

structure View where
  process : Process
  isGameLoaded : Bool := false
  isEmulationReady : Bool := false
  defaultAspectRatio : FloatBits := 0x3F800000
  /-- The aspect ratio that `VideoLayout` holds. -/
  aspectRatio : FloatBits := 0x3F800000

def View.getAspectRatio (v : View) : FloatBits :=
  let gameAspectRatio := retrieveGameSpecificAspectRatio divide v.process.environment
  if positive gameAspectRatio then gameAspectRatio else v.defaultAspectRatio

def View.refreshAspectRatio (v : View) : View := { v with aspectRatio := v.getAspectRatio divide }

end

inductive Move where
  /-- The game is loaded; `avInfo` is the geometry of `retro_get_system_av_info` after it. -/
  | loadGame (retroLoadGame : List Access) (avInfo : RetroGameGeometry)
  | onSurfaceCreated (baseWidth baseHeight : Nat) (contextReset : List Access)
  | resume
  | pause
  | step (retroRun : List Access)
  /-- An access of the core in any other call into it, or of the Java side. -/
  | access (a : Access)
  | setViewport (viewportRect : Rect)
  | setShaderConfig (shaderConfig : ShaderManager.Config)

/-- What the core has told: by an access, or as the base size for the surface. -/
inductive Told where
  | access (a : Access)
  | baseSize (width height : Nat)

def Event.isRefreshAspectRatio : Event → Bool
  | .refreshAspectRatio => true
  | _ => false

def View.act (v : View) (a : Action) : View := { v with process := (v.process.act a).1 }

/-- The surface is created once, after the load; the view steps between `resume` and `pause`. -/
def step (divide : Nat → Nat → FloatBits) : Step View Move Told
  | v, .loadGame retroLoadGame avInfo =>
    if v.isGameLoaded then none
    else
      some ({ v with
        process := (v.process.accesses retroLoadGame).1
        isGameLoaded := true
        defaultAspectRatio := findDefaultAspectRatio divide avInfo }, retroLoadGame.map .access)
  | v, .onSurfaceCreated baseWidth baseHeight contextReset =>
    if v.isGameLoaded && v.process.video.isNone then
      some ({ v.act (.onSurfaceCreated baseWidth baseHeight contextReset) with aspectRatio := 0x3F800000 },
        .baseSize baseWidth baseHeight :: contextReset.map .access)
    else none
  | v, .resume =>
    if v.process.video.isSome then
      some ({ v.refreshAspectRatio divide with isEmulationReady := true }, [])
    else none
  | v, .pause => some ({ v with isEmulationReady := false }, [])
  | v, .step retroRun =>
    if v.isEmulationReady then
      let w := v.act (.step retroRun)
      let refreshes := (v.process.act (.step retroRun)).2.any Event.isRefreshAspectRatio
      some (if refreshes then w.refreshAspectRatio divide else w, retroRun.map .access)
    else none
  | v, .access a => some (v.act (.access a), [.access a])
  | v, .setViewport viewportRect => some (v.act (.setViewport viewportRect), [])
  | v, .setShaderConfig shaderConfig => some (v.act (.setShaderConfig shaderConfig), [])

/-! ### What was set last -/

namespace Told

def rotation? : Told → Option (Nat × Bool)
  | access a => a.rotation?
  | baseSize _ _ => none

def geometry? : Told → Option RetroGameGeometry
  | access a => a.geometry?
  | baseSize _ _ => none

def baseSize? : Told → Option (Nat × Nat)
  | access _ => none
  | baseSize width height => some (width, height)

end Told

def lastRotation (h : List Told) : Nat := ((lastWrite Told.rotation? h).map Prod.fst).getD 0

/-- The base size of the last geometry, or else the one for the surface. -/
def lastBaseSize (h : List Told) : Nat × Nat :=
  match lastWrite Told.geometry? h with
  | some geometry => (geometry.baseWidth, geometry.baseHeight)
  | none => (lastWrite Told.baseSize? h).getD (0, 0)

/-! ### What one step hands on -/

/-- The environment with both flags cleared. -/
def cleared (e : Environment) : Environment :=
  { e with gameGeometryUpdated := false, screenRotationUpdated := false }

/-- What the end of a step makes of the video. -/
def handOn (e : Environment) (video : Video) : Video :=
  { video with
    width := if e.gameGeometryUpdated then e.gameGeometryWidth else video.width
    height := if e.gameGeometryUpdated then e.gameGeometryHeight else video.height
    rotation := if e.screenRotationUpdated then e.screenRotation else video.rotation }

theorem updates_video {p : Process} {video : Video} (hvideo : p.video = some video) :
    p.updateGeometry.updateRotation =
      { p with
        environment := cleared p.environment
        video := some (handOn p.environment video)
        dirtyVideo := p.dirtyVideo || p.environment.gameGeometryUpdated } := by
  obtain ⟨e, _, _, _, _, _, _, _, _, _⟩ := p
  obtain rfl : _ = some video := hvideo
  rcases hgeometry : e.gameGeometryUpdated with _ | _ <;>
    rcases hrotation : e.screenRotationUpdated with _ | _
  · have hcleared : cleared e = e := by
      cases e
      cases hgeometry
      cases hrotation
      rfl
    simp [Process.updateGeometry, Process.updateRotation, handOn, hgeometry, hrotation, hcleared]
  all_goals simp [Process.updateGeometry, Process.updateRotation, cleared, handOn, hgeometry, hrotation]

theorem any_handleRumbleUpdates (p : Process) :
    p.handleRumbleUpdates.2.any Event.isRefreshAspectRatio = false := by
  unfold Process.handleRumbleUpdates
  split
  · split
    · simp [Rumble.handleRumbleUpdates, Event.isRefreshAspectRatio]
    · rfl
  · rfl

/-- A step clears the flags and hands on what was updated; it asks for a refresh if the geometry was. -/
theorem step_video {p : Process} {video : Video} (hvideo : p.video = some video) (retroRun : List Access) :
    (p.step retroRun).1.environment = cleared (p.environment.accesses retroRun).1 ∧
      (p.step retroRun).1.video = some (handOn (p.environment.accesses retroRun).1 video) ∧
      (p.step retroRun).1.dirtyVideo = false ∧
      (p.step retroRun).2.any Event.isRefreshAspectRatio =
        (p.dirtyVideo || (p.environment.accesses retroRun).1.gameGeometryUpdated) := by
  obtain ⟨f, hf⟩ : ∃ f, f = (p.accesses retroRun).1.fetchRumble := ⟨_, rfl⟩
  obtain ⟨rumble, hfetch⟩ := (p.accesses retroRun).1.fetchRumble_eq
  rw [← hf] at hfetch
  have hupdates := updates_video (show f.video = some video by rw [hfetch]; exact hvideo)
  obtain ⟨q, hq⟩ : ∃ q, q = f.updateGeometry.updateRotation := ⟨_, rfl⟩
  rw [← hq] at hupdates
  obtain ⟨_, hrumble⟩ := q.requestAspectRatioUpdate.1.handleRumbleUpdates_fst
  have hfst : (p.step retroRun).1 = q.requestAspectRatioUpdate.1.handleRumbleUpdates.1 := by rw [hq, hf]; rfl
  have hsnd : (p.step retroRun).2 = (p.environment.accesses retroRun).2.map .reply ++
      p.video.toList.map .frame ++ q.requestAspectRatioUpdate.2 ++
      q.requestAspectRatioUpdate.1.handleRumbleUpdates.2 := by rw [hq, hf]; rfl
  have hreplies : ((p.environment.accesses retroRun).2.map Event.reply).any Event.isRefreshAspectRatio = false := by
    simp [Event.isRefreshAspectRatio]
  have hframes : (p.video.toList.map Event.frame).any Event.isRefreshAspectRatio = false := by
    simp [Event.isRefreshAspectRatio]
  refine ⟨?_, ?_, ?_, ?_⟩
  · rw [hfst, hrumble, Process.requestAspectRatioUpdate_fst, hupdates, hfetch]; rfl
  · rw [hfst, hrumble, Process.requestAspectRatioUpdate_fst, hupdates, hfetch]; rfl
  · rw [hfst, hrumble, Process.requestAspectRatioUpdate_fst]
  · rw [hsnd, List.any_append, List.any_append, List.any_append, hreplies, hframes, any_handleRumbleUpdates]
    have hdirty : q.dirtyVideo = (p.dirtyVideo || (p.environment.accesses retroRun).1.gameGeometryUpdated) := by
      rw [hupdates, hfetch]; rfl
    rw [← hdirty, Process.requestAspectRatioUpdate]
    cases q.dirtyVideo <;> rfl

/-! ### What the environment remembers -/

/-- The environment holds what was set last. -/
structure Remembers (e : Environment) (h : List Told) : Prop where
  rotation : e.screenRotation = lastRotation h
  geometry : ∀ geometry, lastWrite Told.geometry? h = some geometry →
    (e.gameGeometryWidth, e.gameGeometryHeight) = (geometry.baseWidth, geometry.baseHeight)
  updated : e.gameGeometryUpdated = true → lastWrite Told.geometry? h ≠ none

theorem lastWrite_told {β : Type} {f : Told → Option β} {g : Access → Option β} (hf : ∀ a, f (.access a) = g a)
    (as : List Access) : lastWrite f (as.map .access) = lastWrite g as := by
  unfold lastWrite
  rw [List.filterMap_map]
  congr 2
  funext a
  exact hf a

theorem lastWrite_geometry_told (as : List Access) :
    lastWrite Told.geometry? (as.map .access) = lastWrite Access.geometry? as := lastWrite_told (fun _ => rfl) as

theorem lastWrite_rotation_told (as : List Access) :
    lastWrite Told.rotation? (as.map .access) = lastWrite Access.rotation? as := lastWrite_told (fun _ => rfl) as

theorem lastWrite_baseSize_told (as : List Access) :
    lastWrite Told.baseSize? (as.map .access) = none := by
  rw [lastWrite_told (g := fun _ => none) (fun _ => rfl), lastWrite]
  simp

theorem rotation?_snd {as : List Access} {r : Nat × Bool} (h : lastWrite Access.rotation? as = some r) :
    r.2 = true := by
  obtain ⟨a, -, ha⟩ := List.mem_filterMap.1 (List.mem_of_getLast? h)
  rcases a with ⟨_ | _⟩ | _ | _ | _ | _ | _ <;> cases ha
  rfl

section
variable (e : Environment) (as : List Access)

/-- Either nothing is set and all stays, or the flag tells that something was. -/
theorem geometry_accesses :
    (lastWrite Access.geometry? as = none ∧ (e.accesses as).1.geometry = e.geometry) ∨
      ∃ geometry, lastWrite Access.geometry? as = some geometry ∧
        (e.accesses as).1.geometry = Environment.updatedGeometry geometry := by
  rw [e.accesses_geometry_eq as]
  rcases lastWrite Access.geometry? as with _ | geometry
  · exact .inl ⟨rfl, rfl⟩
  · exact .inr ⟨geometry, rfl, rfl⟩

theorem rotation_accesses :
    (lastWrite Access.rotation? as = none ∧ (e.accesses as).1.rotation = e.rotation) ∨
      ∃ index, lastWrite Access.rotation? as = some (index, true) ∧
        (e.accesses as).1.rotation = (index, true) := by
  rw [e.accesses_rotation_eq as]
  rcases hlast : lastWrite Access.rotation? as with _ | ⟨index, updated⟩
  · exact .inl ⟨rfl, rfl⟩
  · obtain rfl : updated = true := rotation?_snd hlast
    exact .inr ⟨index, rfl, rfl⟩

end

theorem Remembers.accesses {e : Environment} {h : List Told} (he : Remembers e h) (as : List Access) :
    Remembers (e.accesses as).1 (h ++ as.map .access) := by
  have hrotation : (e.accesses as).1.screenRotation = lastRotation (h ++ as.map .access) := by
    rw [lastRotation, lastWrite_append, lastWrite_rotation_told]
    rcases rotation_accesses e as with ⟨hnone, hkept⟩ | ⟨index, hsome, hset⟩
    · rw [hnone]
      exact (congrArg Prod.fst hkept).trans he.rotation
    · rw [hsome]
      exact congrArg Prod.fst hset
  rcases geometry_accesses e as with ⟨hnone, hkept⟩ | ⟨geometry, hsome, hset⟩
  · obtain ⟨hupdated, hwidth, hheight, -⟩ : _ ∧ _ ∧ _ ∧ _ := by
      simpa only [Environment.geometry, Prod.mk.injEq] using hkept
    have hlast : lastWrite Told.geometry? (h ++ as.map .access) = lastWrite Told.geometry? h := by
      rw [lastWrite_append, lastWrite_geometry_told, hnone]; rfl
    refine ⟨hrotation, ?_, ?_⟩
    · rw [hlast, hwidth, hheight]; exact he.geometry
    · rw [hlast, hupdated]; exact he.updated
  · obtain ⟨hupdated, hwidth, hheight, -⟩ : _ ∧ _ ∧ _ ∧ _ := by
      simpa only [Environment.geometry, Environment.updatedGeometry, Prod.mk.injEq] using hset
    have hlast : lastWrite Told.geometry? (h ++ as.map .access) = some geometry := by
      rw [lastWrite_append, lastWrite_geometry_told, hsome]; rfl
    refine ⟨hrotation, ?_, ?_⟩
    · intro geometry' hgeometry'
      obtain rfl : geometry = geometry' := Option.some.inj (hlast.symm.trans hgeometry')
      rw [hwidth, hheight]
    · intro _; rw [hlast]; exact Option.some_ne_none geometry

theorem Remembers.cleared {e : Environment} {h : List Told} (he : Remembers e h) :
    Remembers (cleared e) h where
  rotation := he.rotation
  geometry := he.geometry
  updated := nofun

/-! ### What a session keeps -/

section
variable (divide : Nat → Nat → FloatBits)

/-- The video has what was set last, where no flag says that it is yet to get it. -/
structure Current (v : View) (video : Video) (h : List Told) : Prop where
  size : v.process.environment.gameGeometryUpdated = true ∨ (video.width, video.height) = lastBaseSize h
  rotation : v.process.environment.screenRotationUpdated = true ∨ video.rotation = lastRotation h
  aspectRatio : v.isEmulationReady = true → v.process.environment.gameGeometryUpdated = true ∨
    v.aspectRatio = v.getAspectRatio divide

structure Inv (v : View) (h : List Told) : Prop where
  remembers : Remembers v.process.environment h
  dirtyVideo : v.process.dirtyVideo = false
  loaded : v.process.video ≠ none → v.isGameLoaded = true
  /-- Before there is a video, no flag is cleared. -/
  latched : v.process.video = none → v.isEmulationReady = false ∧
    (lastWrite Told.geometry? h ≠ none → v.process.environment.gameGeometryUpdated = true)
  current : ∀ video, v.process.video = some video → Current divide v video h

variable {divide} {v w : View} {video : Video} {h es : List Told}

/-- The aspect ratio depends on the environment's geometry and the default only. -/
theorem getAspectRatio_congr (hgeometry : w.process.environment.geometry = v.process.environment.geometry)
    (hdefault : w.defaultAspectRatio = v.defaultAspectRatio) :
    w.getAspectRatio divide = v.getAspectRatio divide := by
  obtain ⟨-, hwidth, hheight, haspect⟩ : _ ∧ _ ∧ _ ∧ _ := by
    simpa only [Environment.geometry, Prod.mk.injEq] using hgeometry
  unfold View.getAspectRatio retrieveGameSpecificAspectRatio
  rw [hwidth, hheight, haspect, hdefault]

theorem getAspectRatio_process {p : Process} (henvironment : p.environment = v.process.environment) :
    View.getAspectRatio divide { v with process := p } = v.getAspectRatio divide := by
  unfold View.getAspectRatio
  rw [henvironment]

theorem getAspectRatio_step (hvideo : v.process.video = some video) (retroRun : List Access) :
    (v.act (.step retroRun)).getAspectRatio divide =
      View.getAspectRatio divide { v with process := (v.process.accesses retroRun).1 } := by
  unfold View.getAspectRatio View.act
  rw [Process.act, (step_video hvideo retroRun).1]
  rfl

theorem Inv.accesses (hv : Inv divide v h) (as : List Access) :
    Inv divide { v with process := (v.process.accesses as).1 } (h ++ as.map .access) := by
  have hremembers := hv.remembers.accesses as
  have hsize : lastWrite Access.geometry? as = none →
      lastBaseSize (h ++ as.map .access) = lastBaseSize h ∧
        lastWrite Told.geometry? (h ++ as.map .access) = lastWrite Told.geometry? h := by
    intro hnone
    rw [lastBaseSize, lastBaseSize, lastWrite_append, lastWrite_append, lastWrite_geometry_told,
      lastWrite_baseSize_told, hnone]
    exact ⟨rfl, rfl⟩
  have hrotation : lastWrite Access.rotation? as = none →
      lastRotation (h ++ as.map .access) = lastRotation h := by
    intro hnone
    rw [lastRotation, lastRotation, lastWrite_append, lastWrite_rotation_told, hnone]
    rfl
  refine ⟨hremembers, hv.dirtyVideo, hv.loaded, ?_, ?_⟩
  · intro hvideo
    obtain ⟨hready, hlatched⟩ := hv.latched hvideo
    refine ⟨hready, fun hset => ?_⟩
    rcases geometry_accesses v.process.environment as with ⟨hnone, hkept⟩ | ⟨geometry, -, hset'⟩
    · rw [(hsize hnone).2] at hset
      exact (congrArg Prod.fst hkept).trans (hlatched hset)
    · exact congrArg Prod.fst hset'
  · intro video hvideo
    obtain ⟨hcsize, hcrotation, hcaspect⟩ := hv.current video hvideo
    constructor
    · rcases geometry_accesses v.process.environment as with ⟨hnone, hkept⟩ | ⟨geometry, -, hset⟩
      · rw [(hsize hnone).1]
        exact hcsize.imp_left (congrArg Prod.fst hkept).trans
      · exact .inl (congrArg Prod.fst hset)
    · rcases rotation_accesses v.process.environment as with ⟨hnone, hkept⟩ | ⟨index, -, hset⟩
      · rw [hrotation hnone]
        exact hcrotation.imp_left (congrArg Prod.snd hkept).trans
      · exact .inl (congrArg Prod.snd hset)
    · intro hready
      rcases geometry_accesses v.process.environment as with ⟨hnone, hkept⟩ | ⟨geometry, -, hset⟩
      · have haspect : View.getAspectRatio divide { v with process := (v.process.accesses as).1 } =
            v.getAspectRatio divide := getAspectRatio_congr hkept rfl
        rw [haspect]
        exact (hcaspect hready).imp_left (congrArg Prod.fst hkept).trans
      · exact .inl (congrArg Prod.fst hset)

theorem Inv.onSurfaceCreated (hv : Inv divide v h) (hloaded : v.isGameLoaded = true)
    (hvideo : v.process.video = none) (baseWidth baseHeight : Nat) :
    Inv divide
      { v with
        process := { v.process with video := some (v.process.newVideo baseWidth baseHeight) }
        aspectRatio := 0x3F800000 } (h ++ [.baseSize baseWidth baseHeight]) := by
  obtain ⟨hready, hlatched⟩ := hv.latched hvideo
  have hgeometry : lastWrite Told.geometry? (h ++ [.baseSize baseWidth baseHeight]) =
      lastWrite Told.geometry? h := by
    rw [lastWrite_append]; rfl
  have hrotation : lastRotation (h ++ [.baseSize baseWidth baseHeight]) = lastRotation h := by
    rw [lastRotation, lastWrite_append]; rfl
  refine ⟨⟨?_, ?_, ?_⟩, hv.dirtyVideo, fun _ => hloaded, nofun, ?_⟩
  · rw [hrotation]; exact hv.remembers.rotation
  · rw [hgeometry]; exact hv.remembers.geometry
  · rw [hgeometry]; exact hv.remembers.updated
  · intro video hnew
    obtain rfl := Option.some.inj hnew
    refine ⟨?_, .inr ?_, ?_⟩
    · rcases hlast : lastWrite Told.geometry? h with _ | geometry
      · right
        rw [lastBaseSize, hgeometry, hlast, lastWrite_append]; rfl
      · left
        exact hlatched (by rw [hlast]; exact Option.some_ne_none geometry)
    · rw [hrotation]; exact hv.remembers.rotation
    · intro hready'
      rw [show v.isEmulationReady = true from hready'] at hready
      cases hready

/-- What a completed step leaves: the flags are clear and the video has what was set last. -/
structure Settled (divide : Nat → Nat → FloatBits) (v : View) (h : List Told) : Prop where
  geometryUpdated : v.process.environment.gameGeometryUpdated = false
  rotationUpdated : v.process.environment.screenRotationUpdated = false
  video : ∃ video, v.process.video = some video ∧ (video.width, video.height) = lastBaseSize h ∧
    video.rotation = lastRotation h
  aspectRatio : v.aspectRatio = v.getAspectRatio divide

theorem Remembers.lastBaseSize {e : Environment} (he : Remembers e h) (hupdated : e.gameGeometryUpdated = true) :
    (e.gameGeometryWidth, e.gameGeometryHeight) = lastBaseSize h := by
  rcases hlast : lastWrite Told.geometry? h with _ | geometry
  · exact absurd hlast (he.updated hupdated)
  · rw [Geometry.lastBaseSize, hlast, he.geometry geometry hlast]

/-- What is handed on at the end of a step is what was set last. -/
theorem Current.handOn (hcurrent : Current divide v video h) (hremembers : Remembers v.process.environment h) :
    ((handOn v.process.environment video).width, (handOn v.process.environment video).height) =
        lastBaseSize h ∧
      (handOn v.process.environment video).rotation = lastRotation h := by
  constructor
  · rcases hupdated : v.process.environment.gameGeometryUpdated with _ | _
    · simpa [Geometry.handOn, hupdated] using hcurrent.size
    · simpa [Geometry.handOn, hupdated] using hremembers.lastBaseSize hupdated
  · rcases hupdated : v.process.environment.screenRotationUpdated with _ | _
    · simpa [Geometry.handOn, hupdated] using hcurrent.rotation
    · simpa [Geometry.handOn, hupdated] using hremembers.rotation

/-- A step that is not skipped has a video to draw with and runs the process once. -/
theorem Inv.step_process (hv : Inv divide v h) {retroRun : List Access}
    (hstep : step divide v (.step retroRun) = some (w, es)) :
    v.isEmulationReady = true ∧ (∃ video, v.process.video = some video) ∧
      w.process = (v.process.step retroRun).1 ∧ w.isGameLoaded = v.isGameLoaded ∧
      es = retroRun.map .access := by
  simp only [step] at hstep
  split at hstep
  · rename_i hready
    have hvideo : ∃ video, v.process.video = some video := by
      rcases hnone : v.process.video with _ | video
      · rw [(hv.latched hnone).1] at hready; cases hready
      · exact ⟨video, rfl⟩
    obtain ⟨rfl, rfl⟩ := Prod.mk.inj (Option.some.inj hstep)
    refine ⟨hready, hvideo, ?_⟩
    split <;> exact ⟨rfl, rfl, rfl⟩
  · cases hstep

theorem Inv.settles (hv : Inv divide v h) {retroRun : List Access}
    (hstep : step divide v (.step retroRun) = some (w, es)) :
    Inv divide w (h ++ es) ∧ Settled divide w (h ++ es) := by
  obtain ⟨hready, ⟨video, hvideo⟩, hprocess, hloaded', hevents⟩ := hv.step_process hstep
  obtain ⟨henvironment, hvideo', hdirty', hrefresh⟩ := step_video hvideo retroRun
  obtain ⟨hremembers, -, hloaded, -, hcurrent⟩ := hv.accesses retroRun
  obtain ⟨hsize, hrotation⟩ := (hcurrent video hvideo).handOn hremembers
  have haspect : w.aspectRatio = w.getAspectRatio divide := by
    simp only [step, if_pos hready] at hstep
    obtain ⟨rfl, -⟩ := Prod.mk.inj (Option.some.inj hstep)
    split
    · rfl
    · rename_i hrefreshes
      have hclear : (v.process.environment.accesses retroRun).1.gameGeometryUpdated = false := by
        rw [Process.act, hrefresh, hv.dirtyVideo] at hrefreshes
        simpa using hrefreshes
      rcases (hcurrent video hvideo).aspectRatio hready with hset | haspect
      · rw [show (v.process.environment.accesses retroRun).1.gameGeometryUpdated = true from hset] at hclear
        cases hclear
      · exact haspect.trans (getAspectRatio_step hvideo retroRun).symm
  subst hevents
  have hsettled : Settled divide w (h ++ retroRun.map .access) := by
    refine ⟨?_, ?_, ⟨_, hprocess ▸ hvideo', hsize, hrotation⟩, haspect⟩
    · rw [hprocess, henvironment]; rfl
    · rw [hprocess, henvironment]; rfl
  refine ⟨⟨?_, ?_, ?_, ?_, ?_⟩, hsettled⟩
  · rw [hprocess, henvironment]; exact hremembers.cleared
  · rw [hprocess]; exact hdirty'
  · intro _; rw [hloaded']; exact hloaded (by rw [Option.ne_none_iff_exists']; exact ⟨video, hvideo⟩)
  · intro hnone
    rw [hprocess, hvideo'] at hnone
    cases hnone
  · intro video' hsome
    obtain ⟨video, hvideo, hsize, hrotation⟩ := hsettled.video
    obtain rfl : video = video' := Option.some.inj (hvideo.symm.trans hsome)
    exact ⟨.inr hsize, .inr hrotation, fun _ => .inr haspect⟩

theorem Inv.mapVideo (hv : Inv divide v h) {f : Video → Video}
    (hf : ∀ video, (f video).width = video.width ∧ (f video).height = video.height ∧
      (f video).rotation = video.rotation)
    {p : Process} (henvironment : p.environment = v.process.environment)
    (hdirty : p.dirtyVideo = v.process.dirtyVideo) (hvideo : p.video = v.process.video.map f) :
    Inv divide { v with process := p } h := by
  refine ⟨?_, hdirty.trans hv.dirtyVideo, ?_, ?_, ?_⟩
  · rw [henvironment]; exact hv.remembers
  · intro hsome
    refine hv.loaded fun hnone => hsome ?_
    rw [hvideo, hnone]; rfl
  · intro hnone
    rw [henvironment]
    exact hv.latched (by simpa [hvideo] using hnone)
  · intro video' hvideo'
    rw [hvideo] at hvideo'
    obtain ⟨video, hvideo, rfl⟩ := Option.map_eq_some_iff.1 hvideo'
    obtain ⟨hwidth, hheight, hrotation⟩ := hf video
    obtain ⟨hsize, hrot, haspect⟩ := hv.current video hvideo
    refine ⟨?_, ?_, ?_⟩
    · rw [henvironment, hwidth, hheight]; exact hsize
    · rw [henvironment, hrotation]; exact hrot
    · rw [henvironment, getAspectRatio_process henvironment]; exact haspect

theorem Inv.move (hv : Inv divide v h) {m : Move} (hstep : Geometry.step divide v m = some (w, es)) :
    Inv divide w (h ++ es) := by
  cases m with
  | loadGame retroLoadGame avInfo =>
    simp only [step] at hstep
    split at hstep
    · cases hstep
    · rename_i hloaded
      obtain ⟨rfl, rfl⟩ := Prod.mk.inj (Option.some.inj hstep)
      obtain ⟨hremembers, hdirty, -, hlatched, -⟩ := hv.accesses retroLoadGame
      refine ⟨hremembers, hdirty, fun _ => rfl, hlatched, ?_⟩
      intro video hvideo
      exact absurd (hv.loaded (by rw [show v.process.video = some video from hvideo]; nofun)) hloaded
  | onSurfaceCreated baseWidth baseHeight contextReset =>
    simp only [step] at hstep
    split at hstep
    · rename_i hready
      obtain ⟨hloaded, hvideo⟩ : v.isGameLoaded = true ∧ v.process.video = none := by simpa using hready
      obtain ⟨rfl, rfl⟩ := Prod.mk.inj (Option.some.inj hstep)
      have hcreated := (hv.onSurfaceCreated hloaded hvideo baseWidth baseHeight).accesses contextReset
      rwa [List.append_assoc] at hcreated
    · cases hstep
  | resume =>
    simp only [step] at hstep
    split at hstep
    · rename_i hsome
      obtain ⟨rfl, rfl⟩ := Prod.mk.inj (Option.some.inj hstep)
      rw [List.append_nil]
      refine ⟨hv.remembers, hv.dirtyVideo, hv.loaded, ?_, ?_⟩
      · intro hnone
        rw [show v.process.video = none from hnone] at hsome
        cases hsome
      · intro video hvideo
        obtain ⟨hsize, hrotation, -⟩ := hv.current video hvideo
        exact ⟨hsize, hrotation, fun _ => .inr rfl⟩
    · cases hstep
  | pause =>
    obtain ⟨rfl, rfl⟩ := Prod.mk.inj (Option.some.inj hstep)
    rw [List.append_nil]
    refine ⟨hv.remembers, hv.dirtyVideo, hv.loaded, fun hnone => ⟨rfl, (hv.latched hnone).2⟩, ?_⟩
    intro video hvideo
    obtain ⟨hsize, hrotation, -⟩ := hv.current video hvideo
    exact ⟨hsize, hrotation, nofun⟩
  | step retroRun => exact (hv.settles hstep).1
  | access a =>
    obtain ⟨rfl, rfl⟩ := Prod.mk.inj (Option.some.inj hstep)
    exact hv.accesses [a]
  | setViewport viewportRect =>
    obtain ⟨rfl, rfl⟩ := Prod.mk.inj (Option.some.inj hstep)
    rw [List.append_nil]
    exact hv.mapVideo (f := fun video => { video with viewportRect := viewportRect })
      (fun _ => ⟨rfl, rfl, rfl⟩) rfl rfl rfl
  | setShaderConfig shaderConfig =>
    obtain ⟨rfl, rfl⟩ := Prod.mk.inj (Option.some.inj hstep)
    rw [List.append_nil]
    exact hv.mapVideo (f := fun video => { video with fragmentShaderConfig := shaderConfig })
      (fun _ => ⟨rfl, rfl, rfl⟩) rfl rfl rfl

theorem Inv.moves (hv : Inv divide v h) (ms : List Move) :
    Inv divide (run (Geometry.step divide) v ms).1 (h ++ (run (Geometry.step divide) v ms).2) := by
  induction ms generalizing v h with
  | nil => simpa using hv
  | cons m ms ih =>
    rcases hstep : Geometry.step divide v m with _ | ⟨w, es⟩
    · rw [run_cons_none hstep, List.append_nil]; exact hv
    · rw [run_cons_some hstep, ← List.append_assoc]
      exact ih (hv.move hstep)

/-! ### Until the core sets something new -/

structure KeepsGeometry (divide : Nat → Nat → FloatBits) (size : Nat × Nat) (ratio : FloatBits) (v : View) :
    Prop where
  loaded : v.isGameLoaded = true
  updated : v.process.environment.gameGeometryUpdated = false
  dirtyVideo : v.process.dirtyVideo = false
  video : ∃ video, v.process.video = some video ∧ (video.width, video.height) = size
  held : v.aspectRatio = ratio
  computed : v.getAspectRatio divide = ratio

structure KeepsRotation (rotation : Nat) (v : View) : Prop where
  loaded : v.isGameLoaded = true
  updated : v.process.environment.screenRotationUpdated = false
  video : ∃ video, v.process.video = some video ∧ video.rotation = rotation

/-- With the game loaded and its surface there, a move is an action of the process, or it resumes or pauses; the
aspect ratio may be computed again. -/
theorem running_move {video : Video} (hloaded : v.isGameLoaded = true) (hvideo : v.process.video = some video)
    {m : Move} (hstep : Geometry.step divide v m = some (w, es)) :
    ∃ u, (w = u ∨ w = u.refreshAspectRatio divide) ∧
      ((es = [] ∧ ∃ ready, u = { v with isEmulationReady := ready }) ∨
        ∃ a : Action, (∀ baseWidth baseHeight contextReset, a ≠ .onSurfaceCreated baseWidth baseHeight contextReset) ∧
          es = a.accesses.map .access ∧ u = v.act a) := by
  cases m with
  | loadGame retroLoadGame avInfo => simp [Geometry.step, hloaded] at hstep
  | onSurfaceCreated baseWidth baseHeight contextReset => simp [Geometry.step, hvideo] at hstep
  | resume =>
    simp only [Geometry.step, hvideo, Option.isSome_some, if_true] at hstep
    obtain ⟨rfl, rfl⟩ := Prod.mk.inj (Option.some.inj hstep)
    exact ⟨_, .inr rfl, .inl ⟨rfl, true, rfl⟩⟩
  | pause =>
    obtain ⟨rfl, rfl⟩ := Prod.mk.inj (Option.some.inj hstep)
    exact ⟨_, .inl rfl, .inl ⟨rfl, false, rfl⟩⟩
  | step retroRun =>
    simp only [Geometry.step] at hstep
    split at hstep
    · obtain ⟨rfl, rfl⟩ := Prod.mk.inj (Option.some.inj hstep)
      refine ⟨v.act (.step retroRun), ?_, .inr ⟨.step retroRun, nofun, rfl, rfl⟩⟩
      split
      · exact .inr rfl
      · exact .inl rfl
    · cases hstep
  | access a =>
    obtain ⟨rfl, rfl⟩ := Prod.mk.inj (Option.some.inj hstep)
    exact ⟨_, .inl rfl, .inr ⟨.access a, nofun, rfl, rfl⟩⟩
  | setViewport viewportRect =>
    obtain ⟨rfl, rfl⟩ := Prod.mk.inj (Option.some.inj hstep)
    exact ⟨_, .inl rfl, .inr ⟨.setViewport viewportRect, nofun, rfl, rfl⟩⟩
  | setShaderConfig shaderConfig =>
    obtain ⟨rfl, rfl⟩ := Prod.mk.inj (Option.some.inj hstep)
    exact ⟨_, .inl rfl, .inr ⟨.setShaderConfig shaderConfig, nofun, rfl, rfl⟩⟩

theorem KeepsGeometry.accesses {size : Nat × Nat} {ratio : FloatBits} (hv : KeepsGeometry divide size ratio v)
    {as : List Access} (has : lastWrite Access.geometry? as = none) :
    KeepsGeometry divide size ratio { v with process := (v.process.accesses as).1 } := by
  have hgeometry : (v.process.environment.accesses as).1.geometry = v.process.environment.geometry := by
    rw [Environment.accesses_geometry_eq, has]; rfl
  refine ⟨hv.loaded, (congrArg Prod.fst hgeometry).trans hv.updated, hv.dirtyVideo, hv.video, hv.held, ?_⟩
  have hratio : View.getAspectRatio divide { v with process := (v.process.accesses as).1 } =
      v.getAspectRatio divide := getAspectRatio_congr hgeometry rfl
  rw [hratio, hv.computed]

theorem KeepsGeometry.step {size : Nat × Nat} {ratio : FloatBits} (hv : KeepsGeometry divide size ratio v)
    {retroRun : List Access} (has : lastWrite Access.geometry? retroRun = none) :
    KeepsGeometry divide size ratio (v.act (.step retroRun)) := by
  obtain ⟨video, hvideo, hsize⟩ := hv.video
  obtain ⟨hloaded, hupdated, -, -, hheld, hcomputed⟩ := hv.accesses has
  obtain ⟨henvironment, hvideo', hdirty, -⟩ := step_video hvideo retroRun
  have hclear : (v.process.environment.accesses retroRun).1.gameGeometryUpdated = false := hupdated
  refine ⟨hloaded, ?_, hdirty, ⟨_, hvideo', ?_⟩, hheld, ?_⟩
  · rw [View.act, Process.act, henvironment]; rfl
  · simpa [handOn, hclear] using hsize
  · rw [getAspectRatio_step hvideo retroRun, hcomputed]

theorem KeepsGeometry.mapVideo {size : Nat × Nat} {ratio : FloatBits} (hv : KeepsGeometry divide size ratio v)
    {f : Video → Video} (hf : ∀ video, (f video).width = video.width ∧ (f video).height = video.height)
    {p : Process} (henvironment : p.environment = v.process.environment)
    (hdirty : p.dirtyVideo = v.process.dirtyVideo) (hvideo : p.video = v.process.video.map f) :
    KeepsGeometry divide size ratio { v with process := p } := by
  obtain ⟨video, hsome, hsize⟩ := hv.video
  refine ⟨hv.loaded, ?_, hdirty.trans hv.dirtyVideo, ⟨f video, ?_, ?_⟩, hv.held,
    (getAspectRatio_process henvironment).trans hv.computed⟩
  · rw [henvironment]; exact hv.updated
  · rw [hvideo, hsome]; rfl
  · rw [(hf video).1, (hf video).2, hsize]

theorem KeepsGeometry.act {size : Nat × Nat} {ratio : FloatBits} (hv : KeepsGeometry divide size ratio v) {a : Action}
    (ha : lastWrite Access.geometry? a.accesses = none)
    (hsurface : ∀ baseWidth baseHeight contextReset, a ≠ .onSurfaceCreated baseWidth baseHeight contextReset) :
    KeepsGeometry divide size ratio (v.act a) := by
  cases a with
  | onSurfaceCreated baseWidth baseHeight contextReset => exact absurd rfl (hsurface _ _ _)
  | access a => exact hv.accesses ha
  | step retroRun => exact hv.step ha
  | setViewport viewportRect =>
    exact hv.mapVideo (f := fun video => { video with viewportRect := viewportRect }) (fun _ => ⟨rfl, rfl⟩)
      rfl rfl rfl
  | setShaderConfig shaderConfig =>
    exact hv.mapVideo (f := fun video => { video with fragmentShaderConfig := shaderConfig })
      (fun _ => ⟨rfl, rfl⟩) rfl rfl rfl

theorem KeepsGeometry.move {size : Nat × Nat} {ratio : FloatBits} (hv : KeepsGeometry divide size ratio v)
    {m : Move} (hstep : Geometry.step divide v m = some (w, es))
    (hes : lastWrite Told.geometry? es = none) : KeepsGeometry divide size ratio w := by
  obtain ⟨video, hvideo, -⟩ := hv.video
  obtain ⟨u, hw, hu⟩ := running_move hv.loaded hvideo hstep
  have hkept : KeepsGeometry divide size ratio u := by
    rcases hu with ⟨-, ready, rfl⟩ | ⟨a, hsurface, rfl, rfl⟩
    · exact ⟨hv.loaded, hv.updated, hv.dirtyVideo, hv.video, hv.held, hv.computed⟩
    · exact hv.act (by rwa [lastWrite_geometry_told] at hes) hsurface
  rcases hw with rfl | rfl
  · exact hkept
  · exact ⟨hkept.loaded, hkept.updated, hkept.dirtyVideo, hkept.video, hkept.computed, hkept.computed⟩

theorem KeepsRotation.act {rotation : Nat} (hv : KeepsRotation rotation v) {a : Action}
    (ha : lastWrite Access.rotation? a.accesses = none)
    (hsurface : ∀ baseWidth baseHeight contextReset, a ≠ .onSurfaceCreated baseWidth baseHeight contextReset) :
    KeepsRotation rotation (v.act a) := by
  obtain ⟨video, hvideo, hrotation⟩ := hv.video
  have hkept : (v.process.environment.accesses a.accesses).1.rotation = v.process.environment.rotation := by
    rw [Environment.accesses_rotation_eq, ha]; rfl
  have hclear : (v.process.environment.accesses a.accesses).1.screenRotationUpdated = false :=
    (congrArg Prod.snd hkept).trans hv.updated
  cases a with
  | onSurfaceCreated baseWidth baseHeight contextReset => exact absurd rfl (hsurface _ _ _)
  | access a => exact ⟨hv.loaded, hclear, video, hvideo, hrotation⟩
  | step retroRun =>
    obtain ⟨henvironment, hvideo', -, -⟩ := step_video hvideo retroRun
    refine ⟨hv.loaded, ?_, _, hvideo', ?_⟩
    · rw [View.act, Process.act, henvironment]; rfl
    · rw [← hrotation, handOn, show (v.process.environment.accesses retroRun).1.screenRotationUpdated = false from
        hclear]
      rfl
  | setViewport viewportRect =>
    refine ⟨hv.loaded, hv.updated, { video with viewportRect := viewportRect }, ?_, hrotation⟩
    rw [View.act, Process.act, Process.setViewport, hvideo]; rfl
  | setShaderConfig shaderConfig =>
    refine ⟨hv.loaded, hv.updated, { video with fragmentShaderConfig := shaderConfig }, ?_, hrotation⟩
    rw [View.act, Process.act, Process.setShaderConfig, hvideo]; rfl

theorem KeepsRotation.move {rotation : Nat} (hv : KeepsRotation rotation v)
    {m : Move} (hstep : Geometry.step divide v m = some (w, es))
    (hes : lastWrite Told.rotation? es = none) : KeepsRotation rotation w := by
  obtain ⟨video, hvideo, -⟩ := hv.video
  obtain ⟨u, hw, hu⟩ := running_move hv.loaded hvideo hstep
  have hkept : KeepsRotation rotation u := by
    rcases hu with ⟨-, ready, rfl⟩ | ⟨a, hsurface, rfl, rfl⟩
    · exact ⟨hv.loaded, hv.updated, hv.video⟩
    · exact hv.act (by rwa [lastWrite_rotation_told] at hes) hsurface
  rcases hw with rfl | rfl
  · exact hkept
  · exact ⟨hkept.loaded, hkept.updated, hkept.video⟩

/-- What every move keeps that says nothing of the kind, a run keeps that says nothing of the kind. -/
theorem keeps_run {β : Type} {write : Told → Option β} {K : View → Prop}
    (hmove : ∀ {v w m es}, K v → Geometry.step divide v m = some (w, es) → lastWrite write es = none → K w)
    (hv : K v) (ms : List Move) (hms : lastWrite write (run (Geometry.step divide) v ms).2 = none) :
    K (run (Geometry.step divide) v ms).1 := by
  induction ms generalizing v with
  | nil => exact hv
  | cons m ms ih =>
    rcases hstep : Geometry.step divide v m with _ | ⟨w, es⟩
    · rwa [run_cons_none hstep]
    · rw [run_cons_some hstep, lastWrite_append] at hms
      rw [run_cons_some hstep]
      rcases hlast : lastWrite write (run (Geometry.step divide) w ms).2 with _ | b
      · rw [hlast] at hms
        exact ih (hmove hv hstep hms) hlast
      · rw [hlast] at hms; cases hms

end

/-! ### No change is lost -/

/-- The view of a first session after its `create`. -/
def created (s : Start) : View := { process := (({} : Process).onCreate s).1 }

/-- The resolution that is requested of the renderer. -/
def View.resolution (v : View) : Option (Nat × Nat) :=
  v.process.video.map fun video => (video.width, video.height)

/-- The rotation that `VideoLayout` holds. -/
def View.rotation (v : View) : Option Nat := v.process.video.map (·.rotation)

theorem created_inv (divide : Nat → Nat → FloatBits) {s : Start} (hs : (({} : Process).onCreate s).2.2 = none) :
    Inv divide (created s) (s.accesses.map .access) := by
  have hnone : (({} : Process).beginCreate s.options).video = none := rfl
  have hstart : Inv divide { process := ({} : Process).beginCreate s.options } [] := by
    refine ⟨⟨?_, ?_, ?_⟩, rfl, fun hsome => absurd hnone hsome, fun _ => ⟨rfl, fun hset => absurd rfl hset⟩, ?_⟩
    · rw [Process.beginCreate_environment]; rfl
    · rintro geometry ⟨⟩
    · rw [Process.beginCreate_environment]; nofun
    · intro video hvideo
      cases hnone.symm.trans hvideo
  have haccesses := hstart.accesses s.accesses
  rw [List.nil_append] at haccesses
  rw [created, Process.onCreate_none _ hs]
  refine ⟨haccesses.remembers, haccesses.dirtyVideo, haccesses.loaded, haccesses.latched, ?_⟩
  intro video hvideo
  cases hnone.symm.trans hvideo

/-- After a completed step, and until the core sets something new, the video has what was set last. -/
theorem geometry_delivered (divide : Nat → Nat → FloatBits) (s : Start)
    (hs : (({} : Process).onCreate s).2.2 = none) (before later : List Move) (retroRun : List Access)
    (v w u : View) (h told es : List Told) (hbefore : run (step divide) (created s) before = (v, h))
    (hstep : step divide v (.step retroRun) = some (w, told))
    (hlater : run (step divide) w later = (u, es)) :
    (lastWrite Told.geometry? es = none →
      u.aspectRatio = u.getAspectRatio divide ∧ u.aspectRatio = w.aspectRatio ∧
        u.resolution = some (lastBaseSize (s.accesses.map .access ++ h ++ told))) ∧
    (lastWrite Told.rotation? es = none →
      u.rotation = some (lastRotation (s.accesses.map .access ++ h ++ told))) := by
  have hv : Inv divide v (s.accesses.map .access ++ h) := by
    have hmoves := (created_inv divide hs).moves before
    rwa [hbefore] at hmoves
  obtain ⟨hw, hsettled⟩ := hv.settles hstep
  obtain ⟨video, hvideo, hsize, hrotation⟩ := hsettled.video
  have hloaded : w.isGameLoaded = true := hw.loaded (by rw [hvideo]; nofun)
  constructor
  · intro hes
    have hkeeps : KeepsGeometry divide (lastBaseSize (s.accesses.map .access ++ h ++ told)) w.aspectRatio w :=
      ⟨hloaded, hsettled.geometryUpdated, hw.dirtyVideo, ⟨video, hvideo, hsize⟩, rfl, hsettled.aspectRatio.symm⟩
    have hkept := keeps_run (fun hv => hv.move) hkeeps later (by rwa [hlater])
    rw [hlater] at hkept
    obtain ⟨video', hvideo', hsize'⟩ := hkept.video
    refine ⟨hkept.held.trans hkept.computed.symm, hkept.held, ?_⟩
    rw [View.resolution, hvideo', ← hsize']; rfl
  · intro hes
    have hkeeps : KeepsRotation (lastRotation (s.accesses.map .access ++ h ++ told)) w :=
      ⟨hloaded, hsettled.rotationUpdated, video, hvideo, hrotation⟩
    have hkept := keeps_run (fun hv => hv.move) hkeeps later (by rwa [hlater])
    rw [hlater] at hkept
    obtain ⟨video', hvideo', hrotation'⟩ := hkept.video
    rw [View.rotation, hvideo', ← hrotation']; rfl

def hardwareStart : Start where
  options :=
    { openGLESVersion := 3
      coreFile := .opened
      systemDirectory := "system"
      savesDirectory := "saves"
      coreVariables := []
      shader := ⟨.default, [], List.nodup_nil⟩
      enableVirtualFileSystem := false
      enableMicrophone := false
      skipDuplicateFrames := false
      enableAmbientMode := false
      language := "en"
      rumbleEventsEnabled := false }
  retroSetEnvironment := [.callbackEnvironment (.setHwRender ⟨none, none, false, false, true⟩)]
  retroInit := []

/-- The quotient where it is one or two. -/
def quotient (m n : Nat) : FloatBits := if m = 2 * n then 0x40000000 else 0x3F800000

/-- The core sets a geometry while it loads the game, before there is a video. -/
def early : List Move :=
  [.loadGame [.callbackEnvironment (.setGeometry ⟨512, 256, 0xBF800000⟩)] ⟨320, 240, 0x3FAAAAAB⟩,
    .onSurfaceCreated 320 240 [], .resume]

def firstStep : View × List Told :=
  ((step quotient (run (step quotient) (created hardwareStart) early).1
    (.step [.callbackEnvironment (.setRotation 1)])).getD (created hardwareStart, []))

/-- A geometry that was set before there was a video reaches it with the first step. -/
theorem geometry_delivered_early :
    (run (step quotient) (created hardwareStart) early).1.resolution = some (320, 240) ∧
      firstStep.1.resolution = some (512, 256) ∧ firstStep.1.rotation = some 1 := by
  have hdelivered := geometry_delivered quotient hardwareStart rfl early []
    [.callbackEnvironment (.setRotation 1)] (run (step quotient) (created hardwareStart) early).1 firstStep.1
    firstStep.1 (run (step quotient) (created hardwareStart) early).2 firstStep.2 [] rfl rfl rfl
  refine ⟨rfl, (hdelivered.1 rfl).2.2.trans ?_, (hdelivered.2 rfl).trans ?_⟩ <;> decide

end Geometry
end SweetHome
