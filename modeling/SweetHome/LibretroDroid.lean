import SweetHome.Lib.Run

/-!
# The native singleton (`libretrodroid.cpp`)

`LibretroDroid` is one process-wide object: `create` installs a `Core` and initializes the
environment, the game load adds pacing and audio, the surface callback adds video, `destroy` takes
all of it down. Each part is modelled by the session (the `create` call) it was made for. A `Core`
carries the entry points called through it, so that what happened to a library handle before it is
closed can be read off the object that held it.

A call through a null `core` pointer ends the process: the state is then `dead`.
-/

namespace SweetHome

inductive Entry where
  | retroInit
  | retroDeinit
  | retroLoadGame (result : Bool)
  | retroUnloadGame
  | retroSerializeSize
  | retroSerialize
  | retroUnserialize
  | retroReset
deriving DecidableEq, Repr

/-- A `Core` object: the session whose `create` built it, and the entry points called through it,
latest first. -/
structure Core where
  session : Nat
  calls : List Entry
deriving DecidableEq, Repr

namespace Core

def call (c : Core) (e : Entry) : Core := { c with calls := e :: c.calls }

def GameLoaded (c : Core) : Prop :=
  .retroLoadGame true ∈ c.calls ∧ .retroUnloadGame ∉ c.calls

/-- What a core on which `retro_init` was called must have seen before its handle is closed:
`retro_unload_game` if a game was loaded, and exactly one `retro_deinit`. -/
def ClosesClean (c : Core) : Prop :=
  .retroInit ∈ c.calls →
    (.retroLoadGame true ∈ c.calls → .retroUnloadGame ∈ c.calls) ∧ c.calls.count .retroDeinit = 1

instance (c : Core) : Decidable c.GameLoaded := by unfold GameLoaded; infer_instance

instance (c : Core) : Decidable c.ClosesClean := by unfold ClosesClean; infer_instance

@[simp] theorem call_session (c : Core) (e : Entry) : (c.call e).session = c.session := rfl

@[simp] theorem call_calls (c : Core) (e : Entry) : (c.call e).calls = e :: c.calls := rfl

end Core

/-- What the native code does to cores: it calls an entry point through the `core` pointer (the
object is the one installed at that moment), or closes the library handle of a dropped core. -/
inductive NativeEvent where
  | invoke (entry : Entry) (core : Option Core)
  | dlclose (core : Core)
deriving DecidableEq, Repr

inductive RetroError where
  | loadLibrary
  | loadGame
  | glNotCompatible
deriving DecidableEq, Repr

/-- The ways `create` can end: the library does not open, a symbol is missing, a hardware core meets
OpenGL ES below 3, or the core is installed. -/
inductive CreateResult where
  | cannotDlopen
  | missingSymbol
  | glNotCompatible
  | created
deriving DecidableEq, Repr

/-- The members of the singletons, each with the session it was made for. -/
structure LibretroDroid where
  sessions : Nat := 0
  core : Option Core := none
  audio : Option Nat := none
  video : Option Nat := none
  fpsSync : Option Nat := none
  rumble : Option Nat := none
  environment : Option Nat := none
  dead : Bool := false
deriving DecidableEq, Repr

namespace LibretroDroid

def invoke (e : Entry) (n : LibretroDroid) : LibretroDroid × List NativeEvent :=
  match n.core with
  | none => ({ n with dead := true }, [.invoke e none])
  | some c => ({ n with core := some (c.call e) }, [.invoke e (some c)])

/-- Dropping the `unique_ptr`s closes the library handle of the core they held. -/
def resetGlobalVariables (n : LibretroDroid) : LibretroDroid × List NativeEvent :=
  ({ n with core := none, audio := none, video := none, fpsSync := none, rumble := none },
    n.core.toList.map .dlclose)

def create (r : CreateResult) (n : LibretroDroid) :
    LibretroDroid × List NativeEvent × Option RetroError :=
  let (n, closed) := n.resetGlobalVariables
  let id := n.sessions + 1
  let n := { n with sessions := id, environment := some id }
  match r with
  | .cannotDlopen => (n, closed, some .loadLibrary)
  -- the constructor throws after `dlopen`: the handle is leaked, never closed
  | .missingSymbol => (n, closed, some .loadLibrary)
  | .glNotCompatible =>
    let (n, es) := invoke .retroInit { n with core := some ⟨id, []⟩ }
    (n, closed ++ es, some .glNotCompatible)
  | .created =>
    let (n, es) := invoke .retroInit { n with core := some ⟨id, []⟩ }
    ({ n with rumble := some id }, closed ++ es, none)

/-- `loadGameFromPath` and its siblings; on success `afterGameLoad` makes the pacing and audio. -/
def loadGame (result : Bool) (n : LibretroDroid) :
    LibretroDroid × List NativeEvent × Option RetroError :=
  match n.core with
  | none => ({ n with dead := true }, [], none)
  | some c =>
    let (n, es) := n.invoke (.retroLoadGame result)
    if result then ({ n with fpsSync := some c.session, audio := some c.session }, es, none)
    else (n, es, some .loadGame)

def onSurfaceCreated (n : LibretroDroid) : LibretroDroid :=
  match n.core with
  | none => { n with dead := true }
  | some c => { n with video := some c.session }

def destroy (n : LibretroDroid) : LibretroDroid × List NativeEvent :=
  match n.core with
  | none => n.invoke .retroUnloadGame
  | some c =>
    ({ n with video := none, core := none, rumble := none, fpsSync := none, audio := none,
              environment := none },
      [.invoke .retroUnloadGame (some c), .invoke .retroDeinit (some (c.call .retroUnloadGame)),
        .dlclose ((c.call .retroUnloadGame).call .retroDeinit)])

def serializeState (n : LibretroDroid) : LibretroDroid × List NativeEvent :=
  let (n, es) := n.invoke .retroSerializeSize
  if n.dead then (n, es) else
    let (n, es') := n.invoke .retroSerialize
    (n, es ++ es')

def unserializeState (n : LibretroDroid) : LibretroDroid × List NativeEvent :=
  n.invoke .retroUnserialize

def reset (n : LibretroDroid) : LibretroDroid × List NativeEvent :=
  n.invoke .retroReset

section
variable {n : LibretroDroid} {c : Core}

@[simp] theorem create_sessions (r : CreateResult) (n : LibretroDroid) :
    (n.create r).1.sessions = n.sessions + 1 := by
  cases r <;> rfl

@[simp] theorem create_audio (r : CreateResult) (n : LibretroDroid) :
    (n.create r).1.audio = none := by
  cases r <;> rfl

@[simp] theorem create_video (r : CreateResult) (n : LibretroDroid) :
    (n.create r).1.video = none := by
  cases r <;> rfl

@[simp] theorem create_environment (r : CreateResult) (n : LibretroDroid) :
    (n.create r).1.environment = some (n.sessions + 1) := by
  cases r <;> rfl

@[simp] theorem create_dead (r : CreateResult) (n : LibretroDroid) :
    (n.create r).1.dead = n.dead := by
  cases r <;> rfl

theorem create_core (r : CreateResult) (n : LibretroDroid) :
    ∀ c ∈ (n.create r).1.core, c = ⟨n.sessions + 1, [.retroInit]⟩ := by
  cases r <;> simp [create, invoke, resetGlobalVariables, Core.call]

theorem create_created_core (n : LibretroDroid) :
    (n.create .created).1.core = some ⟨n.sessions + 1, [.retroInit]⟩ := rfl

theorem create_error (r : CreateResult) (n : LibretroDroid) :
    (n.create r).2.2.isSome = (r != .created) := by
  cases r <;> rfl

theorem dlclose_mem_create (r : CreateResult) (n : LibretroDroid) (c : Core) :
    .dlclose c ∈ (n.create r).2.1 ↔ n.core = some c := by
  cases r <;> cases h : n.core <;> simp [create, invoke, resetGlobalVariables, h, eq_comm]

theorem loadGame_some (result : Bool) (h : n.core = some c) :
    n.loadGame result =
      ({ n with
          core := some (c.call (.retroLoadGame result))
          fpsSync := if result then some c.session else n.fpsSync
          audio := if result then some c.session else n.audio },
        [.invoke (.retroLoadGame result) (some c)], if result then none else some .loadGame) := by
  cases result <;> simp [loadGame, invoke, h]

theorem destroy_some (h : n.core = some c) :
    n.destroy =
      ({ n with video := none, core := none, rumble := none, fpsSync := none, audio := none,
                environment := none },
        [.invoke .retroUnloadGame (some c), .invoke .retroDeinit (some (c.call .retroUnloadGame)),
          .dlclose ((c.call .retroUnloadGame).call .retroDeinit)]) := by
  simp [destroy, h]

end

end LibretroDroid

/-! ## `GLRetroView` -/

/-- The flags of `GLRetroView.kt` that guard the native calls, and the session that the view's own
`onCreate` made. -/
structure GLRetroView where
  isAborted : Bool := false
  isGameLoaded : Bool := false
  session : Option Nat := none
deriving DecidableEq, Repr

namespace GLRetroView

/-- `catchExceptions`: nothing runs in an aborted view, and a `RetroException` aborts it. -/
def catchExceptions (v : GLRetroView) (n : LibretroDroid)
    (block : LibretroDroid → LibretroDroid × List NativeEvent × Option RetroError) :
    GLRetroView × LibretroDroid × List NativeEvent :=
  if v.isAborted then (v, n, []) else
    let (n, es, error) := block n
    ({ v with isAborted := error.isSome }, n, es)

def onCreate (r : CreateResult) (v : GLRetroView) (n : LibretroDroid) :
    GLRetroView × LibretroDroid × List NativeEvent :=
  { v with session := some (n.sessions + 1) }.catchExceptions n (·.create r)

def initializeCore (result : Bool) (v : GLRetroView) (n : LibretroDroid) :
    GLRetroView × LibretroDroid × List NativeEvent :=
  if v.isGameLoaded then (v, n, []) else
    let (v', n', es) := v.catchExceptions n (·.loadGame result)
    if v'.isAborted || n'.dead then (v', n', es) else
      ({ v' with isGameLoaded := true }, n'.onSurfaceCreated, es)

def onDestroy (v : GLRetroView) (n : LibretroDroid) :
    GLRetroView × LibretroDroid × List NativeEvent :=
  v.catchExceptions n fun n => (n.destroy.1, n.destroy.2, none)

section
variable {v : GLRetroView} {n : LibretroDroid} {c : Core}

theorem onCreate_eq (r : CreateResult) (h : v.isAborted = false) :
    v.onCreate r n = ({ v with session := some (n.sessions + 1), isAborted := r != .created },
      (n.create r).1, (n.create r).2.1) := by
  simp [onCreate, catchExceptions, h, LibretroDroid.create_error]

theorem onDestroy_null (h : v.isAborted = false) (hc : n.core = none) :
    v.onDestroy n = (v, { n with dead := true }, [.invoke .retroUnloadGame none]) := by
  obtain ⟨_, _, _⟩ := v
  simp_all [onDestroy, catchExceptions, LibretroDroid.destroy, LibretroDroid.invoke]

theorem onDestroy_aborted (h : v.isAborted = true) : v.onDestroy n = (v, n, []) := by
  simp [onDestroy, catchExceptions, h]

theorem onDestroy_eq (h : v.isAborted = false) : v.onDestroy n = (v, n.destroy) := by
  obtain ⟨_, _, _⟩ := v
  simp_all [onDestroy, catchExceptions]

theorem initializeCore_skip (result : Bool) (h : v.isAborted = true ∨ v.isGameLoaded = true) :
    v.initializeCore result n = (v, n, []) := by
  rcases h with h | h <;> simp [initializeCore, catchExceptions, h]

theorem initializeCore_null (result : Bool) (ha : v.isAborted = false)
    (hl : v.isGameLoaded = false) (hc : n.core = none) :
    v.initializeCore result n = (v, { n with dead := true }, []) := by
  obtain ⟨_, _, _⟩ := v
  simp_all [initializeCore, catchExceptions, LibretroDroid.loadGame]

theorem initializeCore_load (result : Bool) (ha : v.isAborted = false)
    (hl : v.isGameLoaded = false) (hd : n.dead = false) (hc : n.core = some c) :
    v.initializeCore result n =
      ({ v with isAborted := !result, isGameLoaded := result },
        { n with
          core := some (c.call (.retroLoadGame result))
          fpsSync := if result then some c.session else n.fpsSync
          audio := if result then some c.session else n.audio
          video := if result then some c.session else n.video },
        [.invoke (.retroLoadGame result) (some c)]) := by
  obtain ⟨_, _, _⟩ := v
  cases result <;>
    simp_all [initializeCore, catchExceptions, LibretroDroid.loadGame_some _ hc,
      LibretroDroid.onSurfaceCreated]

end

end GLRetroView
end SweetHome
