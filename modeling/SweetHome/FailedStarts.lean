import SweetHome.Sessions

/-!
# The start after a failed one

A `create` or the load of a game that throws aborts the view, whose `onDestroy` then does nothing: what the
core has written into the environment before the failure is still there when the next core is created.
The next start is as in a fresh process exactly if the failed core has left every default in place
(`unpoisoned_iff`).
-/

namespace SweetHome.FailedStarts
open Sessions

/-! ### The view -/

structure View where
  isAborted : Bool := false

/-- `catchExceptions`: the first exception of the native code aborts the view. -/
def View.catchExceptions (v : View) (block : Process → Process × Option RetroError) (p : Process) :
    View × Process :=
  if v.isAborted then (v, p) else
    match block p with
    | (p, none) => (v, p)
    | (p, some _) => ({ v with isAborted := true }, p)

/-- A start that fails, at the latest when `retro_load_game` returns false. -/
structure FailedStart where
  start : Start
  /-- From the end of `create` to the return of `retro_load_game`. -/
  retroLoadGame : List Access
  /-- What the core would ask for if `destroy` were called. -/
  retroDeinit : List Access

namespace FailedStart
variable (s : FailedStart)

def onCreate (p : Process) : Process × Option RetroError :=
  ((p.onCreate s.start).1, (p.onCreate s.start).2.2)

def loadGame (p : Process) : Process × Option RetroError :=
  ((p.accesses s.retroLoadGame).1, some .loadGame)

def onDestroy (p : Process) : Process × Option RetroError :=
  ((p.destroy s.retroDeinit).1, none)

/-- The process after the life of the view. -/
def after : Process :=
  let (v, p) := View.catchExceptions {} s.onCreate {}
  let (v, p) := v.catchExceptions s.loadGame p
  (v.catchExceptions s.onDestroy p).2

/-- The accesses before the failure; where `create` fails, it is for a `SET_HW_RENDER` among the first
of them. -/
def accesses : List Access :=
  if s.start.options.coreFile = .opened then s.start.accesses ++ s.retroLoadGame else []

end FailedStart

/-- Every next `create` answers, and fails or not, as in a fresh process, and leaves the environment that it
leaves there. -/
def Unpoisoned (s : FailedStart) : Prop :=
  ∀ t : Start, (s.after.onCreate t).2 = (({} : Process).onCreate t).2 ∧
    (s.after.onCreate t).1.environment = (({} : Process).onCreate t).1.environment

/-- Accesses after which each member has its default, if it had it before. -/
structure KeepsDefaults (as : List Access) : Prop where
  hwRender : ∀ a ∈ as, ¬ a.SetsHwRender
  rotation : ∀ a ∈ as, ¬ a.SetsRotation
  geometry : ∀ a ∈ as, ¬ a.SetsGeometry
  variables_untouched : ∀ a ∈ as, ¬ a.TouchesVariables
  pixelFormat : (lastWrite Access.pixelFormat? as).getD retroPixelFormatRgb565 = retroPixelFormatRgb565
  diskControl : (lastWrite Access.diskControl? as).getD none = none
  controllers : (lastWrite Access.controllerInfo? as).getD [] = []
  strength : ∀ port, ∀ effect ≠ .dummy, (lastWrite (Access.strength? port effect) as).getD 0 = 0

/-- The failed start has left each default in place. -/
structure Harmless (s : FailedStart) : Prop where
  language : (Environment.languages.lookup s.start.options.language).getD retroLanguageEnglish =
    retroLanguageEnglish
  accesses : KeepsDefaults s.accesses

/-! ### What `create` does not overwrite -/

structure Pristine (e : Environment) : Prop where
  language : e.language = retroLanguageEnglish
  hardware : e.hardware = ({} : Environment).hardware
  rotation : e.rotation = ({} : Environment).rotation
  geometry : e.geometry = ({} : Environment).geometry
  variableMap : e.variableMap = []
  dirtyVariables : e.dirtyVariables = false
  pixelFormat : e.pixelFormat = retroPixelFormatRgb565
  diskControl : e.retroDiskControlCallback = none
  controllers : e.controllers = []
  strength : ∀ port, ∀ effect ≠ .dummy, (e.rumbleStates port).strength effect = 0

/-- The members that `create` writes whatever its arguments are. -/
def overwrite (e : Environment) (framebuffer : Bool) (systemDirectory savesDirectory : String)
    (vfs microphone : Bool) : Environment :=
  { e with
    callbackGetCurrentFramebuffer := framebuffer
    systemDirectory := systemDirectory
    savesDirectory := savesDirectory
    useVirtualFileSystem := vfs
    enableMicrophone := microphone }

theorem Pristine.eq {e : Environment} (h : Pristine e) : e = overwrite {} e.callbackGetCurrentFramebuffer
    e.systemDirectory e.savesDirectory e.useVirtualFileSystem e.enableMicrophone := by
  have hrumble : e.rumbleStates = fun _ => {} := by
    funext port
    have hweak := h.strength port .weak (by decide)
    have hstrong := h.strength port .strong (by decide)
    rcases hstate : e.rumbleStates port with ⟨weak, strong⟩
    rw [hstate] at hweak hstrong
    exact congrArg₂ RumbleState.mk hweak hstrong
  obtain ⟨hlanguage, hhardware, hrotation, hgeometry, hmap, hdirty, hformat, hdisk, hcontrollers, -⟩ := h
  obtain ⟨⟩ := e
  simp only [Environment.hardware, Environment.rotation, Environment.geometry, Prod.mk.injEq] at *
  simp only [overwrite, *]

theorem Pristine.of_eq {e : Environment} {framebuffer vfs microphone : Bool}
    {systemDirectory savesDirectory : String}
    (h : e = overwrite {} framebuffer systemDirectory savesDirectory vfs microphone) : Pristine e := by
  subst h
  refine ⟨rfl, rfl, rfl, rfl, rfl, rfl, rfl, rfl, rfl, ?_⟩
  intro port effect _
  cases effect <;> rfl

theorem created_overwrite (p : Process) (o : Options) : (p.beginCreate o).environment =
    { overwrite p.environment true o.systemDirectory o.savesDirectory o.enableVirtualFileSystem
        o.enableMicrophone with
      language := (Environment.languages.lookup o.language).getD p.environment.language } := by
  rw [p.beginCreate_environment]
  rfl

/-- The next `create` sees of the process the environment only, and of it what it does not overwrite. -/
theorem onCreate_of_pristine {p : Process} (h : Pristine p.environment) (t : Start) :
    (p.onCreate t).2 = (({} : Process).onCreate t).2 ∧
      (p.onCreate t).1.environment = (({} : Process).onCreate t).1.environment := by
  have hbegin : (p.beginCreate t.options).environment = (({} : Process).beginCreate t.options).environment := by
    rw [created_overwrite, created_overwrite, h.eq]
    rfl
  constructor
  · rw [p.onCreate_snd, Process.onCreate_snd, hbegin]
  · rw [p.onCreate_environment, Process.onCreate_environment, hbegin]

/-- A start of a core that asks for nothing, in a language that is not known. -/
def quietStart : Start :=
  { probe.start with options := { probe.start.options with language := "" } }

theorem pristine_of_onCreate {p : Process}
    (h : (p.onCreate quietStart).1.environment = (({} : Process).onCreate quietStart).1.environment) :
    Pristine p.environment := by
  have hopened : quietStart.options.coreFile = .opened := rfl
  have hlanguage : Environment.languages.lookup quietStart.options.language = none := by decide
  rw [p.onCreate_environment, Process.onCreate_environment, if_pos hopened, if_pos hopened,
    created_overwrite, created_overwrite, hlanguage] at h
  have hback := congrArg (fun e : Environment => overwrite e p.environment.callbackGetCurrentFramebuffer
    p.environment.systemDirectory p.environment.savesDirectory p.environment.useVirtualFileSystem
    p.environment.enableMicrophone) h
  exact Pristine.of_eq hback

/-! ### What the failed core has left -/

section
variable {e : Environment} {as : List Access}

/-- Accesses leave a pristine environment so exactly if they keep each of its defaults. -/
theorem accesses_pristine (h : Pristine { e with language := retroLanguageEnglish }) :
    Pristine (e.accesses as).1 ↔ e.language = retroLanguageEnglish ∧ KeepsDefaults as := by
  have hlanguage := e.accesses_language as
  have hhardware := (e.accesses_hardware as).trans (and_iff_right h.hardware)
  have hrotation := (e.accesses_rotation as).trans (and_iff_right h.rotation)
  have hgeometry := (e.accesses_geometry as).trans (and_iff_right h.geometry)
  have hvariables := (e.accesses_variableMap as).trans (and_iff_right h.variableMap)
  have hdirty := e.accesses_dirtyVariables as fun _ => h.dirtyVariables
  have hformat : (e.accesses as).1.pixelFormat =
      (lastWrite Access.pixelFormat? as).getD retroPixelFormatRgb565 := by
    rw [e.accesses_pixelFormat, show e.pixelFormat = retroPixelFormatRgb565 from h.pixelFormat]
  have hdisk : (e.accesses as).1.retroDiskControlCallback = (lastWrite Access.diskControl? as).getD none := by
    rw [e.accesses_diskControl, show e.retroDiskControlCallback = none from h.diskControl]
  have hcontrollers : (e.accesses as).1.controllers = (lastWrite Access.controllerInfo? as).getD [] := by
    rw [e.accesses_controllers, show e.controllers = [] from h.controllers]
  have hstrength : ∀ port, ∀ effect ≠ .dummy, ((e.accesses as).1.rumbleStates port).strength effect =
      (lastWrite (Access.strength? port effect) as).getD 0 := by
    intro port effect heffect
    rw [e.accesses_strength as port heffect,
      show (e.rumbleStates port).strength effect = 0 from h.strength port effect heffect]
  constructor
  · intro hp
    refine ⟨hlanguage.symm.trans hp.language, hhardware.1 hp.hardware, hrotation.1 hp.rotation,
      hgeometry.1 hp.geometry, hvariables.1 hp.variableMap, hformat.symm.trans hp.pixelFormat,
      hdisk.symm.trans hp.diskControl, hcontrollers.symm.trans hp.controllers, ?_⟩
    intro port effect heffect
    exact (hstrength port effect heffect).symm.trans (hp.strength port effect heffect)
  · rintro ⟨hl, hk⟩
    have hmap := hvariables.2 hk.variables_untouched
    refine ⟨hlanguage.trans hl, hhardware.2 hk.hwRender, hrotation.2 hk.rotation, hgeometry.2 hk.geometry, hmap,
      hdirty hmap, hformat.trans hk.pixelFormat, hdisk.trans hk.diskControl,
      hcontrollers.trans hk.controllers, ?_⟩
    intro port effect heffect
    exact (hstrength port effect heffect).trans (hk.strength port effect heffect)

end

/-- What a `create` in a fresh process writes first is pristine but for the language. -/
theorem pristine_beginCreate (o : Options) :
    Pristine { (({} : Process).beginCreate o).environment with language := retroLanguageEnglish } := by
  rw [created_overwrite]
  exact Pristine.of_eq rfl

namespace FailedStart
variable (s : FailedStart)

/-- The view is aborted by the first failure, so `destroy` is never called. -/
theorem after_of_error (h : (({} : Process).onCreate s.start).2.2 ≠ none) :
    s.after = (({} : Process).onCreate s.start).1 := by
  rcases hcreate : ({} : Process).onCreate s.start with ⟨p, es, _ | error⟩
  · rw [hcreate] at h
    exact absurd rfl h
  · simp [after, View.catchExceptions, onCreate, hcreate]

theorem after_of_none (h : (({} : Process).onCreate s.start).2.2 = none) :
    s.after = ((({} : Process).onCreate s.start).1.accesses s.retroLoadGame).1 := by
  rcases hcreate : ({} : Process).onCreate s.start with ⟨p, es, _ | error⟩
  · simp [after, View.catchExceptions, onCreate, loadGame, hcreate]
  · rw [hcreate] at h
    cases h

theorem after_pristine : Pristine s.after.environment ↔ Harmless s := by
  have hlanguage : (({} : Process).beginCreate s.start.options).environment.language =
      (Environment.languages.lookup s.start.options.language).getD retroLanguageEnglish := by
    rw [created_overwrite]
  have hbegin := pristine_beginCreate s.start.options
  have hharmless : ∀ as, s.accesses = as →
      (Pristine (((({} : Process).beginCreate s.start.options).environment.accesses as).1) ↔ Harmless s) := by
    rintro _ rfl
    rw [accesses_pristine hbegin, hlanguage]
    exact ⟨fun ⟨hl, hk⟩ => ⟨hl, hk⟩, fun ⟨hl, hk⟩ => ⟨hl, hk⟩⟩
  by_cases hopened : s.start.options.coreFile = .opened
  · have haccesses : s.accesses = s.start.accesses ++ s.retroLoadGame := if_pos hopened
    have henvironment := ({} : Process).onCreate_environment s.start
    have hsnd := ({} : Process).onCreate_snd s.start
    rw [if_pos hopened] at henvironment hsnd
    rcases herror : (({} : Process).onCreate s.start).2.2 with _ | error
    · rw [s.after_of_none herror, ← hharmless _ haccesses, Environment.accesses_append, ← henvironment]
      rfl
    · -- OpenGL ES is too old for the core: the hardware flag stays
      have hhardware : (({} : Process).onCreate s.start).1.environment.useHWAcceleration = true := by
        by_contra hsoftware
        rw [Bool.not_eq_true, henvironment] at hsoftware
        rw [hsnd] at herror
        simp [hsoftware] at herror
      rw [s.after_of_error (by simp [herror])]
      refine iff_of_false ?_ ?_
      · intro hpristine
        have hfalse := congrArg Prod.fst hpristine.hardware
        simp [Environment.hardware, hhardware] at hfalse
      · intro hkeeps
        have hrender : ∀ a ∈ s.start.accesses, ¬ a.SetsHwRender :=
          fun a ha => hkeeps.accesses.hwRender a (by rw [haccesses]; exact List.mem_append_left _ ha)
        have hclean : (({} : Process).beginCreate s.start.options).environment.hardware =
            ({} : Environment).hardware := hbegin.hardware
        have hfalse := congrArg Prod.fst
          ((Environment.accesses_hardware _ s.start.accesses).2 ⟨hclean, hrender⟩)
        rw [henvironment] at hhardware
        simp [Environment.hardware, hhardware] at hfalse
  · have haccesses : s.accesses = [] := if_neg hopened
    have hsnd := ({} : Process).onCreate_snd s.start
    have henvironment := ({} : Process).onCreate_environment s.start
    rw [if_neg hopened] at hsnd henvironment
    rw [s.after_of_error (by simp [hsnd]), henvironment, ← hharmless _ haccesses]
    rfl

end FailedStart

/-- For every failed start: each next start is as in a fresh process exactly if the failed one is
harmless. -/
theorem unpoisoned_iff (s : FailedStart) : Unpoisoned s ↔ Harmless s := by
  rw [← s.after_pristine]
  constructor
  · intro h
    exact pristine_of_onCreate (h quietStart).2
  · intro h t
    exact onCreate_of_pristine h t

/-- A hardware core on OpenGL ES 2. -/
def hardwareStart : FailedStart where
  start :=
    { quietStart with
      options := { quietStart.options with openGLESVersion := 2 }
      retroInit := [.callbackEnvironment (.setHwRender ⟨none, none, false, false, false⟩)] }
  retroLoadGame := []
  retroDeinit := []

/-- After it, a software core does not start on OpenGL ES 2 either. -/
theorem hardware_poisons : ¬ Unpoisoned hardwareStart := by
  intro h
  have hstart := (h { quietStart with options := { quietStart.options with openGLESVersion := 2 } }).1
  exact absurd (congrArg Prod.snd hstart) (by decide)

end SweetHome.FailedStarts
