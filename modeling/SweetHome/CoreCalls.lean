import SweetHome.LibretroDroid

/-!
# Core calls of one `GameActivity`

The UI thread of one `GameActivity` and the GL thread of its `GLRetroView`. Every core call of the
activity (rewind sampler, automatic restore, lifecycle saves, reset button) goes through
`runOnGLThread`: the closure is appended to the FIFO queue of the GL thread and the UI thread waits
until it has run. The queue runs also before the surface callback has loaded the game, and nothing
on the way asks whether it has. The calls reach a loaded game exactly in the runs where the GL
thread takes such a closure only while `isGameLoaded` is set and `ON_DESTROY` has not come
(`callsLegal_iff`).
-/

namespace SweetHome.CoreCalls
open Step

inductive Closure where
  | serializeState
  | unserializeState
  | reset
  | onKeyEvent
deriving DecidableEq, Repr

namespace Closure

def exec : Closure → LibretroDroid → LibretroDroid × List NativeEvent
  | .serializeState, n => n.serializeState
  | .unserializeState, n => n.unserializeState
  | .reset, n => n.reset
  -- `sendKeyEvent` only reaches `Input`
  | .onKeyEvent, n => (n, [])

/-- The closure calls the core. These are the ones queued by `runOnGLThread`, whose caller waits;
the others are queued by `queueEvent` alone. -/
def CallsCore : Closure → Prop
  | .onKeyEvent => False
  | _ => True

instance : DecidablePred CallsCore
  | .serializeState => .isTrue trivial
  | .unserializeState => .isTrue trivial
  | .reset => .isTrue trivial
  | .onKeyEvent => .isFalse id

end Closure

structure State where
  native : LibretroDroid := {}
  view : GLRetroView := {}
  created : Bool := false
  /-- `ON_DESTROY` has been handled; `onDestroy` of the activity has cancelled its `mainScope`. -/
  destroyed : Bool := false
  restorePosted : Bool := false
  uiWaiting : Bool := false
  glQueue : List Closure := []
deriving DecidableEq, Repr

inductive Action where
  /-- `ON_CREATE`; `restore` when `GameActivity.onCreate` found a state to restore. -/
  | onCreate (r : CreateResult) (restore : Bool)
  | postedRestore
  | rewindSampler
  | onPause
  | onSaveInstanceState
  | btnHardwareReset
  | sendKeyEvent
  | onDestroy
  | glEvent
  | onSurfaceCreated (result : Bool)
deriving DecidableEq, Repr

def State.runOnGLThread (s : State) (c : Closure) : State :=
  { s with glQueue := s.glQueue ++ [c], uiWaiting := true }

/-- The UI thread is free to handle its next message, between `ON_CREATE` and `ON_DESTROY`. -/
def State.Running (s : State) : Prop :=
  s.created = true ∧ s.destroyed = false ∧ s.uiWaiting = false

instance (s : State) : Decidable s.Running := by unfold State.Running; infer_instance

def stepAlive : Step State Action NativeEvent
  | s, .onCreate r restore =>
    if s.created = false ∧ s.uiWaiting = false then
      let (v, n, es) := s.view.onCreate r s.native
      some ({ s with view := v, native := n, created := true, restorePosted := restore }, es)
    else none
  | s, .postedRestore =>
    if s.restorePosted = true ∧ s.uiWaiting = false then
      some ({ s with restorePosted := false }.runOnGLThread .unserializeState, [])
    else none
  | s, .rewindSampler | s, .onPause | s, .onSaveInstanceState =>
    if s.Running then some (s.runOnGLThread .serializeState, []) else none
  | s, .btnHardwareReset =>
    if s.Running then some (s.runOnGLThread .reset, []) else none
  | s, .sendKeyEvent =>
    if s.Running then some ({ s with glQueue := s.glQueue ++ [.onKeyEvent] }, []) else none
  | s, .onDestroy =>
    if s.Running then
      let (v, n, es) := s.view.onDestroy s.native
      some ({ s with view := v, native := n, destroyed := true }, es)
    else none
  | s, .glEvent =>
    match s.glQueue with
    | [] => none
    | c :: q =>
      let (n, es) := c.exec s.native
      some ({ s with native := n, glQueue := q,
                     uiWaiting := if c.CallsCore then false else s.uiWaiting }, es)
  | s, .onSurfaceCreated result =>
    let (v, n, es) := s.view.initializeCore result s.native
    some ({ s with view := v, native := n }, es)

def step : Step State Action NativeEvent
  | s, a => if s.native.dead then none else stepAlive s a

/-! ### The law and the condition -/

def NeedsGame : Entry → Prop
  | .retroSerializeSize | .retroSerialize | .retroUnserialize | .retroReset => True
  | _ => False

def Legal : NativeEvent → Prop
  | .invoke e c => NeedsGame e → ∃ core ∈ c, core.GameLoaded
  | .dlclose _ => True

def CallsLegal (_ : State) (_ : Action) (_ : State) (es : List NativeEvent) : Prop :=
  ∀ e ∈ es, Legal e

def State.InGame (s : State) : Prop := s.view.isGameLoaded = true ∧ s.destroyed = false

/-- The GL thread takes a closure that calls the core only in the game. -/
def TakesInGame : State → Action → State → List NativeEvent → Prop
  | s, .glEvent, _, _ => ∀ c ∈ s.glQueue.head?, c.CallsCore → s.InGame
  | _, _, _, _ => True

instance : DecidablePred NeedsGame := fun e => by
  cases e <;> unfold NeedsGame <;> infer_instance

instance (o : Option Core) : Decidable (∃ c ∈ o, c.GameLoaded) :=
  match o with
  | none => .isFalse (by simp)
  | some c => decidable_of_iff c.GameLoaded (by simp)

instance : DecidablePred Legal
  | .invoke e c => inferInstanceAs (Decidable (NeedsGame e → ∃ core ∈ c, core.GameLoaded))
  | .dlclose _ => .isTrue trivial

instance (s a t es) : Decidable (CallsLegal s a t es) := by unfold CallsLegal; infer_instance

/-! ### What a closure does to the core -/

section
variable {n : LibretroDroid} {c : Core}

theorem exec_core (k : Closure) (n : LibretroDroid) :
    ∃ l, (k.exec n).1.core = n.core.map (fun c => { c with calls := l ++ c.calls }) ∧
      .retroLoadGame true ∉ l ∧ .retroUnloadGame ∉ l := by
  rcases hc : n.core with _ | c
  · refine ⟨[], ?_, by simp, by simp⟩
    cases k <;> simp [Closure.exec, LibretroDroid.serializeState, LibretroDroid.unserializeState,
      LibretroDroid.reset, LibretroDroid.invoke, hc]
  · cases k with
    | serializeState =>
      by_cases hd : n.dead = true
      · exact ⟨[.retroSerializeSize], by
          simp [Closure.exec, LibretroDroid.serializeState, LibretroDroid.invoke, hc, hd, Core.call],
          by simp, by simp⟩
      · exact ⟨[.retroSerialize, .retroSerializeSize], by
          simp [Closure.exec, LibretroDroid.serializeState, LibretroDroid.invoke, hc, hd, Core.call],
          by simp, by simp⟩
    | unserializeState =>
      exact ⟨[.retroUnserialize], by
        simp [Closure.exec, LibretroDroid.unserializeState, LibretroDroid.invoke, hc, Core.call],
        by simp, by simp⟩
    | reset =>
      exact ⟨[.retroReset], by
        simp [Closure.exec, LibretroDroid.reset, LibretroDroid.invoke, hc, Core.call],
        by simp, by simp⟩
    | onKeyEvent => exact ⟨[], by simp [Closure.exec, hc], by simp, by simp⟩

theorem gameLoaded_call {e : Entry} (h : NeedsGame e) : (c.call e).GameLoaded ↔ c.GameLoaded := by
  cases e <;> simp_all [NeedsGame, Core.GameLoaded]

theorem exec_legal {k : Closure} (hk : k.CallsCore) (hd : n.dead = false) :
    (∀ e ∈ (k.exec n).2, Legal e) ↔ ∃ c ∈ n.core, c.GameLoaded := by
  rcases hc : n.core with _ | c
  · cases k <;> simp_all [Closure.exec, Closure.CallsCore, LibretroDroid.serializeState,
      LibretroDroid.unserializeState, LibretroDroid.reset, LibretroDroid.invoke, Legal, NeedsGame]
  · cases k <;> simp_all [Closure.exec, Closure.CallsCore, LibretroDroid.serializeState,
      LibretroDroid.unserializeState, LibretroDroid.reset, LibretroDroid.invoke, Legal, NeedsGame,
      gameLoaded_call (c := c) (e := .retroSerializeSize) trivial]

end

/-! ### The flags of the view follow the core -/

/-- The Kotlin flags tell where the core is in its life. -/
structure Inv (s : State) : Prop where
  fresh : s.created = false → s.native.core = none ∧ s.view = {} ∧ s.destroyed = false
  inGame : s.InGame → ∃ c ∈ s.native.core, .retroLoadGame true ∈ c.calls
  notLoaded : s.view.isGameLoaded = false → ∀ c ∈ s.native.core, .retroLoadGame true ∉ c.calls
  notUnloaded : ∀ c ∈ s.native.core, .retroUnloadGame ∉ c.calls
  aborted : s.view.isAborted = true → s.view.isGameLoaded = false
  ended : s.destroyed = true → s.native.core = none ∨ s.view.isAborted = true

theorem Inv.inGame_iff {s : State} (hi : Inv s) :
    s.InGame ↔ ∃ c ∈ s.native.core, c.GameLoaded := by
  constructor
  · intro h
    obtain ⟨c, hc, hl⟩ := hi.inGame h
    exact ⟨c, hc, hl, hi.notUnloaded c hc⟩
  · rintro ⟨c, hc, hl, -⟩
    have hloaded : s.view.isGameLoaded = true := by
      by_contra h
      exact hi.notLoaded (by simpa using h) c hc hl
    refine ⟨hloaded, ?_⟩
    by_contra h
    rcases hi.ended (by simpa using h) with hnone | ha
    · rw [hnone] at hc; exact absurd hc nofun
    · rw [hi.aborted ha] at hloaded; exact absurd hloaded nofun

theorem inv_init : Inv {} := by
  refine ⟨?_, ?_, ?_, ?_, ?_, ?_⟩ <;> simp [State.InGame]

theorem Inv.congr {s t : State} (hn : t.native = s.native) (hv : t.view = s.view)
    (hc : t.created = s.created) (hd : t.destroyed = s.destroyed) (h : Inv s) : Inv t := by
  refine ⟨?_, ?_, ?_, ?_, ?_, ?_⟩ <;> simp only [State.InGame, hn, hv, hc, hd]
  exacts [h.fresh, h.inGame, h.notLoaded, h.notUnloaded, h.aborted, h.ended]

theorem inv_onCreate {s : State} (hi : Inv s) (hc : s.created = false) (r : CreateResult)
    (restore : Bool) :
    Inv { s with view := (s.view.onCreate r s.native).1, native := (s.view.onCreate r s.native).2.1,
                 created := true, restorePosted := restore } := by
  obtain ⟨-, hv, hd⟩ := hi.fresh hc
  rw [GLRetroView.onCreate_eq r (by rw [hv])]
  refine ⟨by simp, ?inGame, ?notLoaded, ?notUnloaded, ?aborted, ?ended⟩
  case inGame => simp [State.InGame, hv]
  case notLoaded =>
    intro _ c hc
    rw [LibretroDroid.create_core r _ c hc]
    simp
  case notUnloaded =>
    intro c hc
    rw [LibretroDroid.create_core r _ c hc]
    simp
  case aborted => simp [hv]
  case ended => simp [hd]

theorem inv_onSurfaceCreated {s : State} (hi : Inv s) (hd : s.native.dead = false) (result : Bool) :
    Inv { s with view := (s.view.initializeCore result s.native).1,
                 native := (s.view.initializeCore result s.native).2.1 } := by
  by_cases hskip : s.view.isAborted = true ∨ s.view.isGameLoaded = true
  · rw [GLRetroView.initializeCore_skip result hskip]; exact hi
  · simp only [not_or, Bool.not_eq_true] at hskip
    obtain ⟨ha, hl⟩ := hskip
    rcases hc : s.native.core with _ | c
    · rw [GLRetroView.initializeCore_null result ha hl hc]
      exact ⟨hi.fresh, hi.inGame, hi.notLoaded, hi.notUnloaded, hi.aborted, hi.ended⟩
    · rw [GLRetroView.initializeCore_load result ha hl hd hc]
      have hfresh : s.created = true := by
        by_contra h
        have := (hi.fresh (by simpa using h)).1
        rw [hc] at this
        exact absurd this nofun
      refine ⟨by simp [hfresh], ?inGame, ?notLoaded, ?notUnloaded, ?aborted, ?ended⟩
      case inGame =>
        rintro ⟨rfl, -⟩
        exact ⟨_, rfl, by simp⟩
      case notLoaded =>
        rintro rfl c' hc'
        obtain rfl : c.call (.retroLoadGame false) = c' := by simpa using hc'
        simpa using hi.notLoaded hl c hc
      case notUnloaded =>
        intro c' hc'
        obtain rfl : c.call (.retroLoadGame result) = c' := by simpa using hc'
        simpa using hi.notUnloaded c hc
      case aborted => cases result <;> simp
      case ended =>
        intro hdes
        rcases hi.ended hdes with h | h
        · rw [hc] at h; exact absurd h nofun
        · rw [ha] at h; exact absurd h nofun

theorem inv_onDestroy {s : State} (hi : Inv s) (hcr : s.created = true) :
    Inv { s with view := (s.view.onDestroy s.native).1, native := (s.view.onDestroy s.native).2.1,
                 destroyed := true } := by
  by_cases ha : s.view.isAborted = true
  · rw [GLRetroView.onDestroy_aborted ha]
    exact ⟨by simp [hcr], by simp [State.InGame], hi.notLoaded, hi.notUnloaded, hi.aborted,
      fun _ => .inr ha⟩
  · rw [Bool.not_eq_true] at ha
    rcases hc : s.native.core with _ | c
    · rw [GLRetroView.onDestroy_null ha hc]
      exact ⟨by simp [hcr], by simp [State.InGame], hi.notLoaded, hi.notUnloaded, hi.aborted,
        fun _ => .inl hc⟩
    · rw [GLRetroView.onDestroy_eq ha, LibretroDroid.destroy_some hc]
      exact ⟨by simp [hcr], by simp [State.InGame], by simp, by simp, hi.aborted, by simp⟩

theorem inv_exec {s : State} (hi : Inv s) (k : Closure) (q : List Closure) (w : Bool) :
    Inv { s with native := (k.exec s.native).1, glQueue := q, uiWaiting := w } := by
  obtain ⟨l, hcore, hl, hu⟩ := exec_core k s.native
  refine ⟨?fresh, ?inGame, ?notLoaded, ?notUnloaded, hi.aborted, ?ended⟩
  case fresh =>
    intro h
    obtain ⟨h1, h2, h3⟩ := hi.fresh h
    exact ⟨by rw [hcore, h1]; rfl, h2, h3⟩
  case inGame =>
    intro h
    obtain ⟨c, hc, hmem⟩ := hi.inGame h
    exact ⟨_, by rw [hcore, hc]; rfl, by simp [hmem]⟩
  case notLoaded =>
    intro h c hc
    rw [hcore] at hc
    obtain ⟨c', hc', rfl⟩ := Option.map_eq_some_iff.1 hc
    simpa [hl] using hi.notLoaded h c' hc'
  case notUnloaded =>
    intro c hc
    rw [hcore] at hc
    obtain ⟨c', hc', rfl⟩ := Option.map_eq_some_iff.1 hc
    simpa [hu] using hi.notUnloaded c' hc'
  case ended =>
    intro h
    rcases hi.ended h with h | h
    · exact .inl (by rw [hcore, h]; rfl)
    · exact .inr h

/-! ### The steps -/

theorem onCreate_legal {v : GLRetroView} {n : LibretroDroid} (r : CreateResult) :
    ∀ e ∈ (v.onCreate r n).2.2, Legal e := by
  by_cases ha : v.isAborted = true
  · simp [GLRetroView.onCreate, GLRetroView.catchExceptions, ha]
  · rw [GLRetroView.onCreate_eq r (by simpa using ha)]
    cases r <;> cases hc : n.core <;>
      simp [LibretroDroid.create, LibretroDroid.invoke, LibretroDroid.resetGlobalVariables, hc, Legal,
        NeedsGame]

theorem initializeCore_legal {v : GLRetroView} {n : LibretroDroid} (result : Bool)
    (hd : n.dead = false) : ∀ e ∈ (v.initializeCore result n).2.2, Legal e := by
  by_cases hskip : v.isAborted = true ∨ v.isGameLoaded = true
  · simp [GLRetroView.initializeCore_skip result hskip]
  · simp only [not_or, Bool.not_eq_true] at hskip
    obtain ⟨ha, hl⟩ := hskip
    rcases hc : n.core with _ | c
    · simp [GLRetroView.initializeCore_null result ha hl hc]
    · simp [GLRetroView.initializeCore_load result ha hl hd hc, Legal, NeedsGame]

theorem onDestroy_legal {v : GLRetroView} {n : LibretroDroid} :
    ∀ e ∈ (v.onDestroy n).2.2, Legal e := by
  by_cases ha : v.isAborted = true
  · simp [GLRetroView.onDestroy_aborted ha]
  · rw [GLRetroView.onDestroy_eq (by simpa using ha)]
    rcases hc : n.core with _ | c <;>
      simp [LibretroDroid.destroy, LibretroDroid.invoke, hc, Legal, NeedsGame]

section
variable {s t : State} {a : Action} {es : List NativeEvent}

theorem step_alive (h : step s a = some (t, es)) :
    s.native.dead = false ∧ stepAlive s a = some (t, es) := by
  simp only [step] at h
  split at h
  · cases h
  · rename_i hd
    exact ⟨by simpa using hd, h⟩

theorem stepAlive_cases (h : stepAlive s a = some (t, es)) :
    (t.native = s.native ∧ t.view = s.view ∧ t.created = s.created ∧ t.destroyed = s.destroyed ∧
      es = [] ∧ a ≠ .glEvent) ∨
    (∃ r restore, a = .onCreate r restore ∧ s.created = false ∧ es = (s.view.onCreate r s.native).2.2 ∧
      t = { s with view := (s.view.onCreate r s.native).1, native := (s.view.onCreate r s.native).2.1,
                   created := true, restorePosted := restore }) ∨
    (a = .onDestroy ∧ s.created = true ∧ es = (s.view.onDestroy s.native).2.2 ∧
      t = { s with view := (s.view.onDestroy s.native).1, native := (s.view.onDestroy s.native).2.1,
                   destroyed := true }) ∨
    (∃ k q w, a = .glEvent ∧ s.glQueue = k :: q ∧ es = (k.exec s.native).2 ∧
      t = { s with native := (k.exec s.native).1, glQueue := q, uiWaiting := w }) ∨
    (∃ result, a = .onSurfaceCreated result ∧ es = (s.view.initializeCore result s.native).2.2 ∧
      t = { s with view := (s.view.initializeCore result s.native).1,
                   native := (s.view.initializeCore result s.native).2.1 }) := by
  match a with
  | .onCreate r restore =>
    simp only [stepAlive] at h
    split at h
    · obtain ⟨rfl, rfl⟩ := Prod.mk.inj (Option.some.inj h)
      exact .inr (.inl ⟨r, restore, rfl, (‹_ ∧ _›).1, rfl, rfl⟩)
    · cases h
  | .onDestroy =>
    simp only [stepAlive] at h
    split at h
    · obtain ⟨rfl, rfl⟩ := Prod.mk.inj (Option.some.inj h)
      exact .inr (.inr (.inl ⟨rfl, (‹State.Running s›).1, rfl, rfl⟩))
    · cases h
  | .glEvent =>
    simp only [stepAlive] at h
    split at h
    · cases h
    · obtain ⟨rfl, rfl⟩ := Prod.mk.inj (Option.some.inj h)
      exact .inr (.inr (.inr (.inl ⟨_, _, _, rfl, ‹_›, rfl, rfl⟩)))
  | .onSurfaceCreated result =>
    obtain ⟨rfl, rfl⟩ := Prod.mk.inj (Option.some.inj h)
    exact .inr (.inr (.inr (.inr ⟨result, rfl, rfl, rfl⟩)))
  | .postedRestore | .rewindSampler | .onPause | .onSaveInstanceState | .btnHardwareReset
  | .sendKeyEvent =>
    simp only [stepAlive] at h
    split at h
    · obtain ⟨rfl, rfl⟩ := Prod.mk.inj (Option.some.inj h)
      exact .inl ⟨rfl, rfl, rfl, rfl, rfl, by simp⟩
    · cases h

theorem inv_step (hi : Inv s) (h : step s a = some (t, es)) : Inv t := by
  obtain ⟨hd, h⟩ := step_alive h
  rcases stepAlive_cases h with ⟨hn, hv, hc, hdes, -, -⟩ | ⟨r, restore, -, hc, -, rfl⟩ |
    ⟨-, hc, -, rfl⟩ | ⟨k, q, w, -, -, -, rfl⟩ | ⟨result, -, -, rfl⟩
  · exact hi.congr hn hv hc hdes
  · exact inv_onCreate hi hc r restore
  · exact inv_onDestroy hi hc
  · exact inv_exec hi k q w
  · exact inv_onSurfaceCreated hi hd result

theorem step_legal_iff (hi : Inv s) (h : step s a = some (t, es)) :
    CallsLegal s a t es ↔ TakesInGame s a t es := by
  obtain ⟨hd, h⟩ := step_alive h
  rcases stepAlive_cases h with ⟨-, -, -, -, rfl, ha⟩ | ⟨r, restore, rfl, -, rfl, -⟩ |
    ⟨rfl, -, rfl, -⟩ | ⟨k, q, w, rfl, hq, rfl, -⟩ | ⟨result, rfl, rfl, -⟩
  · refine iff_of_true (by simp [CallsLegal]) ?_
    cases a <;> first | exact absurd rfl ha | trivial
  · exact iff_of_true (onCreate_legal r) trivial
  · exact iff_of_true onDestroy_legal trivial
  · have htakes : TakesInGame s .glEvent t (k.exec s.native).2 ↔ (k.CallsCore → s.InGame) := by
      simp [TakesInGame, hq]
    rw [htakes]
    by_cases hk : k.CallsCore
    · have hlegal := exec_legal hk hd
      rw [← hi.inGame_iff] at hlegal
      exact hlegal.trans ⟨fun hg _ => hg, fun hg => hg hk⟩
    · have hnil : (k.exec s.native).2 = [] := by
        cases k <;> first | rfl | exact absurd trivial hk
      exact iff_of_true (by simp [CallsLegal, hnil]) fun hk' => absurd hk' hk
  · exact iff_of_true (initializeCore_legal result hd) trivial

end

/-- In a run of the UI thread and the GL thread, every core call that needs a game finds one loaded
exactly when the GL thread takes the closures that call the core only in the game. -/
theorem callsLegal_iff (as : List Action) :
    Along step CallsLegal {} as ↔ Along step TakesInGame {} as :=
  along_iff (I := Inv) step_legal_iff (fun hi h _ => inv_step hi h) inv_init as

/-- The rewind sampler ticks before the surface callback: the GL thread calls `retro_serialize_size`
on a core that has no game. -/
theorem sampler_before_load :
    ¬ Along step CallsLegal {} [.onCreate .created false, .rewindSampler, .glEvent] := by
  decide

end SweetHome.CoreCalls
