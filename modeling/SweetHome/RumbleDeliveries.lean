import SweetHome.Lib.Run
import SweetHome.Sessions
import Mathlib.Data.Rat.Defs
import Mathlib.Tactic.FieldSimp

/-!
# Rumble deliveries

The strengths that the core sets lie in the environment; a step with rumble enabled copies them to the cache of
`Rumble`, marks the ports that differ, and calls the handler for each marked port. Between steps no port
is marked, and the cache is what was last delivered (`Follows`).
-/

namespace SweetHome.RumbleDeliveries
open Step Sessions

/-- The strengths as the handler gets them, weak and strong. -/
def normalized (state : RumbleState) : ℚ × ℚ :=
  ((state.strengthWeak : ℚ) / 0xFFFF, (state.strengthStrong : ℚ) / 0xFFFF)

theorem normalized_inj {s t : RumbleState} : normalized s = normalized t ↔ s = t := by
  obtain ⟨weak, strong⟩ := s
  obtain ⟨weak', strong'⟩ := t
  simp [normalized]

/-- What a call of the handler delivers to a port. -/
def deliveredTo? (port : Fin 4) : Event → Option (ℚ × ℚ)
  | .sendRumbleEvent i state => if i = port then some (normalized state) else none
  | _ => none

/-- The pair last delivered to a port, initially zero. -/
def delivered (port : Fin 4) (es : List Event) : ℚ × ℚ := (lastWrite (deliveredTo? port) es).getD (0, 0)

/-- The pair last set by the core for a port. -/
def lastSet (port : Fin 4) (as : List Access) : RumbleState where
  strengthWeak := (lastWrite (Access.strength? port .weak) as).getD 0
  strengthStrong := (lastWrite (Access.strength? port .strong) as).getD 0

/-- What the handler is to be called with for a port: nothing, if it has got that last. -/
def due (port : Fin 4) (es : List Event) (as : List Access) : List (ℚ × ℚ) :=
  if normalized (lastSet port as) = delivered port es then [] else [normalized (lastSet port as)]

/-! ### Steps, and the switch -/

inductive Move where
  | act (a : Action)
  | setRumbleEnabled (enabled : Bool)

def Move.accesses : Move → List Access
  | act a => a.accesses
  | setRumbleEnabled _ => []

def step : Step Process Move Event
  | p, .act a => some (p.act a)
  | p, .setRumbleEnabled enabled => some ({ p with rumbleEnabled := enabled }, [])

/-! ### What one step delivers -/

theorem filterMap_of_nodup {α β : Type} {l : List α} {x : α} (hl : l.Nodup) (hx : x ∈ l) {g : α → Option β}
    (hg : ∀ y, y ≠ x → g y = none) : l.filterMap g = (g x).toList := by
  induction l with
  | nil => cases hx
  | cons y l ih =>
    obtain ⟨hy, hl⟩ := List.nodup_cons.1 hl
    by_cases hyx : y = x
    · subst hyx
      have hrest : l.filterMap g = [] := by
        rw [List.filterMap_eq_nil_iff]
        intro z hz
        exact hg z fun hzy => hy (hzy ▸ hz)
      rcases hgy : g y with _ | b
      · rw [List.filterMap_cons_none hgy, hrest]; rfl
      · rw [List.filterMap_cons_some hgy, hrest]; rfl
    · rw [List.filterMap_cons_none (hg y hyx)]
      exact ih hl (List.mem_of_ne_of_mem (Ne.symm hyx) hx)

/-- After a fetch into a cache with no marks, the handler is called for the ports that differ. -/
theorem handleRumbleUpdates_fetch {r : Rumble} (hclean : ∀ port, r.dirtyStates port = false)
    (states : Fin 4 → RumbleState) (port : Fin 4) :
    ((r.fetchFromEnvironment states).handleRumbleUpdates.2).filterMap (deliveredTo? port) =
      if r.rumbleStates port = states port then [] else [normalized (states port)] := by
  have hmem : port ∈ List.finRange 4 := List.mem_finRange port
  simp only [Rumble.handleRumbleUpdates, Rumble.fetchFromEnvironment, hclean, List.filterMap_map,
    List.filterMap_filter]
  rw [filterMap_of_nodup (List.nodup_finRange 4) hmem]
  · by_cases hsame : r.rumbleStates port = states port
    · simp [hsame]
    · simp [hsame, deliveredTo?]
  · intro i hi
    simp [deliveredTo?, hi]

theorem filterMap_replies (port : Fin 4) (replies : List Reply) :
    (replies.map Event.reply).filterMap (deliveredTo? port) = [] := by
  simp [List.filterMap_map, deliveredTo?]

/-- What `step` does between the fetch and the deliveries. -/
def refresh (f : Process) : Process × List Event := f.updateGeometry.updateRotation.requestAspectRatioUpdate

theorem refresh_keeps (f : Process) :
    (refresh f).1.rumble = f.rumble ∧ (refresh f).1.rumbleEnabled = f.rumbleEnabled := by
  obtain ⟨_, _, _, hgeometry⟩ := f.updateGeometry_eq
  obtain ⟨_, _, hrotation⟩ := f.updateGeometry.updateRotation_eq
  rw [refresh, Process.requestAspectRatioUpdate_fst, hrotation, hgeometry]
  exact ⟨rfl, rfl⟩

theorem filterMap_refresh (port : Fin 4) (f : Process) :
    (refresh f).2.filterMap (deliveredTo? port) = [] := by
  unfold refresh Process.requestAspectRatioUpdate
  split <;> rfl

theorem step_deliveries (port : Fin 4) (p : Process) (retroRun : List Access) :
    (p.step retroRun).2.filterMap (deliveredTo? port) =
      (refresh (p.accesses retroRun).1.fetchRumble).1.handleRumbleUpdates.2.filterMap (deliveredTo? port) := by
  have hframes : (p.video.toList.map Event.frame).filterMap (deliveredTo? port) = [] := by
    cases p.video <;> rfl
  have hevents : (p.step retroRun).2 = (p.environment.accesses retroRun).2.map .reply ++
      p.video.toList.map .frame ++ (refresh (p.accesses retroRun).1.fetchRumble).2 ++
      (refresh (p.accesses retroRun).1.fetchRumble).1.handleRumbleUpdates.2 := rfl
  rw [hevents, List.filterMap_append, List.filterMap_append, List.filterMap_append, filterMap_replies,
    hframes, filterMap_refresh]
  rfl

/-- What a step makes of the cache, and what it delivers: the ports that changed in the cache. -/
theorem step_rumble {p : Process} {r : Rumble} (hr : p.rumble = some r)
    (hclean : ∀ port, r.dirtyStates port = false) (retroRun : List Access) :
    ∃ r', (p.step retroRun).1.rumble = some r' ∧ (∀ port, r'.dirtyStates port = false) ∧
      r'.rumbleStates =
        (if p.rumbleEnabled then (p.environment.accesses retroRun).1.rumbleStates else r.rumbleStates) ∧
      ∀ port, (p.step retroRun).2.filterMap (deliveredTo? port) =
        if r.rumbleStates port = r'.rumbleStates port then [] else [normalized (r'.rumbleStates port)] := by
  obtain ⟨f, hf⟩ : ∃ f, f = (p.accesses retroRun).1.fetchRumble := ⟨_, rfl⟩
  obtain ⟨hrumble, henabled⟩ := refresh_keeps f
  have hfst : (p.step retroRun).1 = (refresh f).1.handleRumbleUpdates.1 := by rw [hf]; rfl
  simp only [step_deliveries, ← hf, hfst]
  rcases hp : p.rumbleEnabled with _ | _
  · have hfetch : f.rumble = some r ∧ f.rumbleEnabled = false := by
      rw [hf]; simp [Process.fetchRumble, Process.accesses, hr, hp]
    refine ⟨r, ?_, hclean, rfl, ?_⟩ <;>
      simp [Process.handleRumbleUpdates, hrumble, henabled, hfetch.1, hfetch.2]
  · obtain ⟨states, hstates⟩ : ∃ states, states = (p.environment.accesses retroRun).1.rumbleStates := ⟨_, rfl⟩
    have hfetch : f.rumble = some (r.fetchFromEnvironment states) ∧ f.rumbleEnabled = true := by
      rw [hf, hstates]; simp [Process.fetchRumble, Process.accesses, hr, hp]
    refine ⟨(r.fetchFromEnvironment states).handleRumbleUpdates.1, ?_, fun _ => rfl, hstates, ?_⟩
    · simp [Process.handleRumbleUpdates, hrumble, henabled, hfetch.1, hfetch.2]
    · intro port
      simp only [Process.handleRumbleUpdates, hrumble, henabled, hfetch.1, hfetch.2, if_true]
      exact handleRumbleUpdates_fetch hclean states port

theorem act_silent (p : Process) {a : Action} (ha : ∀ retroRun, a ≠ .step retroRun) :
    (p.act a).1.rumble = p.rumble ∧ ∀ port, (p.act a).2.filterMap (deliveredTo? port) = [] := by
  cases a with
  | step retroRun => exact absurd rfl (ha retroRun)
  | access a => exact ⟨rfl, fun port => filterMap_replies port _⟩
  | onSurfaceCreated baseWidth baseHeight contextReset =>
    refine ⟨rfl, fun port => ?_⟩
    have hresets : (Event.video (p.newVideo baseWidth baseHeight) ::
        p.environment.hwContextReset.toList.map Event.contextReset).filterMap (deliveredTo? port) = [] := by
      cases p.environment.hwContextReset <;> rfl
    refine (List.filterMap_append ..).trans ?_
    rw [hresets]
    exact filterMap_replies port _
  | setViewport viewportRect => exact ⟨rfl, fun _ => rfl⟩
  | setShaderConfig shaderConfig => exact ⟨rfl, fun _ => rfl⟩

/-! ### Runs -/

/-- The cache is what was last delivered, with no marks; the environment holds what was last set. -/
structure Follows (p : Process) (es : List Event) (as : List Access) : Prop where
  cache : ∃ r, p.rumble = some r ∧ (∀ port, r.dirtyStates port = false) ∧
    ∀ port, normalized (r.rumbleStates port) = delivered port es
  states : ∀ port, p.environment.rumbleStates port = lastSet port as

theorem delivered_append (port : Fin 4) (es es' : List Event) :
    delivered port (es ++ es') = (lastWrite (deliveredTo? port) es').getD (delivered port es) :=
  lastWrite_append_getD _ es es' _

theorem delivered_of_filterMap_nil {port : Fin 4} {es' : List Event}
    (h : es'.filterMap (deliveredTo? port) = []) (es : List Event) :
    delivered port (es ++ es') = delivered port es := by
  rw [delivered_append, lastWrite, h]; rfl

theorem states_accesses {e : Environment} {port : Fin 4} {as : List Access}
    (h : e.rumbleStates port = lastSet port as) (as' : List Access) :
    (e.accesses as').1.rumbleStates port = lastSet port (as ++ as') := by
  have hweak := @Environment.accesses_strength e as' port .weak (by decide)
  have hstrong := @Environment.accesses_strength e as' port .strong (by decide)
  rw [h] at hweak hstrong
  rcases hs : (e.accesses as').1.rumbleStates port with ⟨weak, strong⟩
  rw [hs] at hweak hstrong
  simp only [lastSet, lastWrite_append_getD, RumbleState.mk.injEq]
  exact ⟨hweak, hstrong⟩

namespace Follows
variable {p q : Process} {es es' : List Event} {as : List Access} {m : Move}

theorem move (h : Follows p es as) (hstep : step p m = some (q, es')) :
    Follows q (es ++ es') (as ++ m.accesses) := by
  obtain ⟨⟨r, hr, hclean, hcache⟩, hstates⟩ := h
  cases m with
  | setRumbleEnabled enabled =>
    obtain ⟨rfl, rfl⟩ := Prod.mk.inj (Option.some.inj hstep)
    rw [List.append_nil, show as ++ Move.accesses (.setRumbleEnabled enabled) = as from List.append_nil as]
    exact ⟨⟨r, hr, hclean, hcache⟩, hstates⟩
  | act a =>
    obtain ⟨rfl, rfl⟩ : q = (p.act a).1 ∧ es' = (p.act a).2 := by
      rw [show p.act a = (q, es') from Option.some.inj hstep]; exact ⟨rfl, rfl⟩
    have henvironment : ∀ port, (p.act a).1.environment.rumbleStates port = lastSet port (as ++ a.accesses) := by
      intro port
      obtain ⟨_, _, hact⟩ := p.act_environment a
      rw [hact]
      exact states_accesses (hstates port) a.accesses
    refine ⟨?_, henvironment⟩
    by_cases hsteps : ∃ retroRun, a = .step retroRun
    · obtain ⟨retroRun, rfl⟩ := hsteps
      obtain ⟨r', hr', hclean', -, hdelivers⟩ := step_rumble hr hclean retroRun
      refine ⟨r', hr', hclean', fun port => ?_⟩
      have hact : (p.act (.step retroRun)).2 = (p.step retroRun).2 := rfl
      rw [delivered_append, lastWrite, hact, hdelivers port, ← hcache port]
      split
      · rename_i hsame; rw [hsame]; rfl
      · rfl
    · obtain ⟨hrumble, hsilent⟩ := act_silent p fun retroRun ha => hsteps ⟨retroRun, ha⟩
      refine ⟨r, by rw [hrumble, hr], hclean, fun port => ?_⟩
      rw [hcache port, delivered_of_filterMap_nil (hsilent port)]

theorem moves (h : Follows p es as) (ms : List Move) :
    Follows (run step p ms).1 (es ++ (run step p ms).2) (as ++ ms.flatMap Move.accesses) := by
  induction ms generalizing p es as with
  | nil => simpa using h
  | cons m ms ih =>
    obtain ⟨q, es', hstep⟩ : ∃ q es', step p m = some (q, es') := by cases m <;> exact ⟨_, _, rfl⟩
    rw [run_cons_some hstep, List.flatMap_cons, ← List.append_assoc, ← List.append_assoc]
    exact ih (h.move hstep)

theorem onCreate {s : Start} (hs : (({} : Process).onCreate s).2.2 = none) :
    Follows (({} : Process).onCreate s).1 [] s.accesses := by
  rw [Process.onCreate_none _ hs]
  refine ⟨⟨{}, rfl, fun _ => rfl, fun port => ?_⟩, fun port => ?_⟩
  · simp [normalized, delivered, lastWrite]
  · rw [← List.nil_append s.accesses]
    refine states_accesses ?_ s.accesses
    rw [Process.beginCreate_environment]
    rfl

end Follows

/-- The process after a session's moves, the first one, and what they have let one observe. -/
def after (s : Start) (ms : List Move) : Process × List Event := run step (({} : Process).onCreate s).1 ms

/-- After a step with rumble enabled, what was last delivered is what was last set, and the step has called
the handler once for each port where they differed; ports above 3 are refused. -/
theorem rumble_follows (s : Start) (hs : (({} : Process).onCreate s).2.2 = none) (ms : List Move)
    (retroRun : List Access) (henabled : (after s ms).1.rumbleEnabled = true) :
    (∀ port,
      delivered port ((after s ms).2 ++ ((after s ms).1.step retroRun).2) =
        normalized (lastSet port (s.accesses ++ ms.flatMap Move.accesses ++ retroRun)) ∧
      ((after s ms).1.step retroRun).2.filterMap (deliveredTo? port) =
        due port (after s ms).2 (s.accesses ++ ms.flatMap Move.accesses ++ retroRun)) ∧
    ∀ e : Environment, ∀ port > 3, ∀ effect strength,
      e.access (.callbackSetRumbleState port effect strength) = (e, .callbackSetRumbleState false) := by
  constructor
  · intro port
    have hfollows : Follows (after s ms).1 (after s ms).2 (s.accesses ++ ms.flatMap Move.accesses) :=
      (Follows.onCreate hs).moves ms
    obtain ⟨⟨r, hr, hclean, hcache⟩, hstates⟩ := hfollows
    obtain ⟨r', hr', hclean', hfetched, hdelivers⟩ := step_rumble hr hclean retroRun
    have hset : r'.rumbleStates port = lastSet port (s.accesses ++ ms.flatMap Move.accesses ++ retroRun) := by
      rw [hfetched, if_pos henabled]
      exact states_accesses (hstates port) retroRun
    rw [delivered_append, lastWrite, hdelivers port, due, ← hcache port, hset]
    generalize s.accesses ++ ms.flatMap Move.accesses ++ retroRun = history
    by_cases hsame : r.rumbleStates port = lastSet port history
    · simp [hsame]
    · simp [hsame, normalized_inj, Ne.symm hsame]
  · intro e port hport effect strength
    have hrange : ¬ port < 4 := by omega
    simp [Environment.access, Environment.handleCallbackSetRumbleState, hrange]

def silentStart : Start where
  options :=
    { openGLESVersion := 3
      coreFile := .opened
      systemDirectory := "system"
      savesDirectory := "saves"
      coreVariables := []
      shader := ⟨.default, [], List.nodup_nil⟩
      enableVirtualFileSystem := false
      enableMicrophone := false
      skipDuplicateFrames := false
      enableAmbientMode := false
      language := "en"
      rumbleEventsEnabled := false }
  retroSetEnvironment := []
  retroInit := []

def enabling : List Move := [.act (.step [.callbackSetRumbleState 0 .weak 0xFFFF]), .setRumbleEnabled true]

/-- What is set while rumble is disabled is delivered by the next step with rumble enabled. -/
theorem rumble_follows_enabling :
    delivered 0 (after silentStart enabling).2 = (0, 0) ∧
      delivered 0 ((after silentStart enabling).2 ++ ((after silentStart enabling).1.step []).2) = (1, 0) := by
  refine ⟨by decide +kernel, ?_⟩
  rw [((rumble_follows silentStart rfl enabling [] rfl).1 0).1]
  decide +kernel

end SweetHome.RumbleDeliveries
