import SweetHome.LibretroDroid
import Mathlib.Logic.Function.Basic

/-!
# Which session `onDestroy` tears down

The lifecycles of several `GLRetroView`s of one process over the native singletons. Every view keeps
its own order, `onCreate` before the surface callbacks before `onDestroy`; the views interleave
freely. `create` drops the core it finds without unloading or deinitializing it, so the sessions
stay apart exactly in the runs that never create a session while a core is installed
(`ownsSession_iff`).
-/

namespace SweetHome.Ownership
open Step

inductive Phase where
  | waiting
  | live
  | destroyed
deriving DecidableEq, Repr

structure State (ι : Type) where
  native : LibretroDroid
  view : ι → GLRetroView
  phase : ι → Phase

inductive Action (ι : Type) where
  | onCreate (v : ι) (r : CreateResult)
  | onSurfaceCreated (v : ι) (result : Bool)
  | onDestroy (v : ι)

variable {ι : Type}

def init : State ι := ⟨{}, fun _ => {}, fun _ => .waiting⟩

variable [DecidableEq ι]

/-- The view `v` has become `r.1`, in phase `p`, over the singletons `r.2.1`. -/
def State.set (s : State ι) (v : ι) (p : Phase) (r : GLRetroView × LibretroDroid × List NativeEvent) :
    State ι × List NativeEvent :=
  (⟨r.2.1, Function.update s.view v r.1, Function.update s.phase v p⟩, r.2.2)

def step : Step (State ι) (Action ι) NativeEvent
  | s, .onCreate v r =>
    if s.native.dead = false ∧ s.phase v = .waiting then
      some (s.set v .live ((s.view v).onCreate r s.native))
    else none
  | s, .onSurfaceCreated v result =>
    if s.native.dead = false ∧ s.phase v = .live then
      some (s.set v .live ((s.view v).initializeCore result s.native))
    else none
  | s, .onDestroy v =>
    if s.native.dead = false ∧ s.phase v = .live then
      some (s.set v .destroyed ((s.view v).onDestroy s.native))
    else none

/-! ### The law and the condition -/

def Keeps (own : Option Nat) (p q : Option Nat) : Prop := ∀ k ∈ p, own ≠ some k → q = some k

/-- Going from `n` to `n'` tears down nothing but the session `own`. -/
structure TearsDownOwn (own : Option Nat) (n n' : LibretroDroid) : Prop where
  core : ∀ c ∈ n.core, own ≠ some c.session → n'.core = some c
  audio : Keeps own n.audio n'.audio
  video : Keeps own n.video n'.video
  environment : Keeps own n.environment n'.environment

instance (own p q : Option Nat) : Decidable (Keeps own p q) := by unfold Keeps; infer_instance

instance (own : Option Nat) (n n' : LibretroDroid) : Decidable (TearsDownOwn own n n') :=
  decidable_of_iff ((∀ c ∈ n.core, own ≠ some c.session → n'.core = some c) ∧
      Keeps own n.audio n'.audio ∧ Keeps own n.video n'.video ∧
      Keeps own n.environment n'.environment)
    ⟨fun ⟨a, b, c, d⟩ => ⟨a, b, c, d⟩, fun ⟨a, b, c, d⟩ => ⟨a, b, c, d⟩⟩

def ClosesClean : NativeEvent → Prop
  | .dlclose c => c.ClosesClean
  | .invoke _ _ => True

instance : DecidablePred ClosesClean
  | .dlclose c => inferInstanceAs (Decidable c.ClosesClean)
  | .invoke _ _ => .isTrue trivial

def DestroysOwn : State ι → Action ι → State ι → Prop
  | s, .onDestroy v, t => TearsDownOwn (s.view v).session s.native t.native
  | _, _, _ => True

instance (s : State ι) : ∀ a t, Decidable (DestroysOwn s a t)
  | .onDestroy _, _ => inferInstanceAs (Decidable (TearsDownOwn _ _ _))
  | .onCreate _ _, _ => .isTrue trivial
  | .onSurfaceCreated _ _, _ => .isTrue trivial

/-- `onDestroy` of a view tears down only the session of that view, and every library handle is
closed clean. -/
def OwnsSession (s : State ι) (a : Action ι) (t : State ι) (es : List NativeEvent) : Prop :=
  DestroysOwn s a t ∧ ∀ e ∈ es, ClosesClean e

instance (s : State ι) (a t es) : Decidable (OwnsSession s a t es) := by
  unfold OwnsSession; infer_instance

/-- A session is created only when no core is installed. -/
def CreatesWhenDown : State ι → Action ι → State ι → List NativeEvent → Prop
  | s, .onCreate _ _, _, _ => s.native.core = none
  | _, _, _, _ => True

/-! ### The invariant of the runs that create only when down -/

def Active (s : State ι) (v : ι) : Prop := s.phase v = .live ∧ (s.view v).isAborted = false

/-- What holds as long as every session is created with no core installed: what is in place belongs
to the latest session, and at most one view, the owner of that session, is active. -/
structure Inv (s : State ι) : Prop where
  fresh : ∀ v, s.phase v = .waiting → (s.view v).isAborted = false
  core : ∀ c ∈ s.native.core,
    c.session = s.native.sessions ∧ .retroInit ∈ c.calls ∧ .retroDeinit ∉ c.calls
  audio : ∀ k ∈ s.native.audio, k = s.native.sessions
  video : ∀ k ∈ s.native.video, k = s.native.sessions
  environment : ∀ k ∈ s.native.environment, k = s.native.sessions
  owner : ∀ v, Active s v →
    (s.view v).session = some s.native.sessions ∧ s.native.core.isSome
  unique : ∀ v w, Active s v → Active s w → v = w

omit [DecidableEq ι] in
theorem inv_init : Inv (init : State ι) := by
  refine ⟨?_, ?_, ?_, ?_, ?_, ?_, ?_⟩ <;> simp [init, Active]

section
variable {s t : State ι} {es : List NativeEvent} {v : ι}

theorem step_onCreate {r : CreateResult} (h : step s (.onCreate v r) = some (t, es)) :
    s.phase v = .waiting ∧ (t, es) = s.set v .live ((s.view v).onCreate r s.native) := by
  simp only [step] at h
  split at h
  · exact ⟨(‹_ ∧ _›).2, (Option.some.inj h).symm⟩
  · cases h

theorem step_onSurfaceCreated {result : Bool}
    (h : step s (.onSurfaceCreated v result) = some (t, es)) :
    s.native.dead = false ∧ s.phase v = .live ∧
      (t, es) = s.set v .live ((s.view v).initializeCore result s.native) := by
  simp only [step] at h
  split at h
  · exact ⟨(‹_ ∧ _›).1, (‹_ ∧ _›).2, (Option.some.inj h).symm⟩
  · cases h

theorem step_onDestroy (h : step s (.onDestroy v) = some (t, es)) :
    s.phase v = .live ∧ (t, es) = s.set v .destroyed ((s.view v).onDestroy s.native) := by
  simp only [step] at h
  split at h
  · exact ⟨(‹_ ∧ _›).2, (Option.some.inj h).symm⟩
  · cases h

theorem active_of_set {p : Phase} {r : GLRetroView × LibretroDroid × List NativeEvent}
    (heq : (t, es) = s.set v p r) (w : ι) :
    Active t w ↔ if w = v then p = .live ∧ r.1.isAborted = false else Active s w := by
  obtain ⟨rfl, -⟩ := Prod.mk.inj heq
  by_cases h : w = v
  · subst h; simp [Active]
  · simp [Active, h]

/-! ### `onCreate` -/

theorem ownsSession_onCreate {r : CreateResult} (hi : Inv s)
    (h : step s (.onCreate v r) = some (t, es)) :
    OwnsSession s (.onCreate v r) t es ↔ s.native.core = none := by
  obtain ⟨hv, heq⟩ := step_onCreate h
  rw [GLRetroView.onCreate_eq r (hi.fresh v hv)] at heq
  obtain ⟨rfl, rfl⟩ := Prod.mk.inj heq
  constructor
  · rintro ⟨-, hclean⟩
    by_contra hne
    obtain ⟨c, hc⟩ := Option.ne_none_iff_exists'.1 hne
    -- the dropped core has never been deinitialized
    have hclosed : c.ClosesClean := hclean _ ((LibretroDroid.dlclose_mem_create r _ c).2 hc)
    obtain ⟨-, hinit, hdeinit⟩ := hi.core c hc
    have := (hclosed hinit).2
    rw [List.count_eq_zero_of_not_mem hdeinit] at this
    omega
  · intro hnone
    refine ⟨trivial, fun e he => ?_⟩
    match e, he with
    | .invoke _ _, _ => trivial
    | .dlclose c, he => rw [LibretroDroid.dlclose_mem_create, hnone] at he; cases he

theorem inv_onCreate {r : CreateResult} (hi : Inv s) (h : step s (.onCreate v r) = some (t, es))
    (hnone : s.native.core = none) : Inv t := by
  obtain ⟨hv, heq⟩ := step_onCreate h
  rw [GLRetroView.onCreate_eq r (hi.fresh v hv)] at heq
  -- with no core installed no other view is active
  have hother : ∀ w, ¬ Active s w := by
    intro w hw
    have := (hi.owner w hw).2
    rw [hnone] at this
    exact absurd this nofun
  have hact : ∀ w, Active t w → w = v ∧ r = .created := by
    intro w hw
    rw [active_of_set heq] at hw
    split at hw
    · exact ⟨‹_›, by simpa using hw.2⟩
    · exact absurd hw (hother w)
  obtain ⟨rfl, -⟩ := Prod.mk.inj heq
  refine ⟨?fresh, ?core, ?audio, ?video, ?environment, ?owner, ?unique⟩
  case fresh =>
    intro w hw
    by_cases hwv : w = v
    · subst hwv; simp at hw
    · simp only [Function.update_of_ne hwv] at hw ⊢; exact hi.fresh w hw
  case core =>
    intro c hc
    rw [LibretroDroid.create_core r _ c hc]
    simp
  case audio => simp
  case video => simp
  case environment =>
    intro k hk
    simp at hk ⊢
    exact hk.symm
  case owner =>
    intro w hw
    obtain ⟨rfl, rfl⟩ := hact w hw
    simp [LibretroDroid.create_created_core]
  case unique =>
    intro w w' hw hw'
    rw [(hact w hw).1, (hact w' hw').1]

/-! ### The surface callback and `onDestroy` -/

theorem ownsSession_onSurfaceCreated {result : Bool} (hi : Inv s)
    (h : step s (.onSurfaceCreated v result) = some (t, es)) :
    OwnsSession s (.onSurfaceCreated v result) t es ∧ Inv t := by
  obtain ⟨hd, hv, heq⟩ := step_onSurfaceCreated h
  by_cases hskip : (s.view v).isAborted = true ∨ (s.view v).isGameLoaded = true
  · rw [GLRetroView.initializeCore_skip result hskip] at heq
    obtain ⟨rfl, rfl⟩ := Prod.mk.inj heq
    rw [Function.update_eq_self, ← hv, Function.update_eq_self]
    exact ⟨⟨trivial, by simp⟩, hi⟩
  · simp only [not_or, Bool.not_eq_true] at hskip
    obtain ⟨ha, hl⟩ := hskip
    -- the view is active, so the installed core is its own
    have hown := hi.owner v ⟨hv, ha⟩
    obtain ⟨c, hc⟩ := Option.isSome_iff_exists.1 hown.2
    obtain ⟨hcs, hinit, hdeinit⟩ := hi.core c hc
    rw [GLRetroView.initializeCore_load result ha hl hd hc] at heq
    have hact : ∀ w, Active t w → Active s w := by
      intro w hw
      rw [active_of_set heq] at hw
      split at hw
      · subst w; exact ⟨hv, ha⟩
      · exact hw
    obtain ⟨rfl, rfl⟩ := Prod.mk.inj heq
    refine ⟨⟨trivial, by simp [ClosesClean]⟩,
      ?fresh, ?core, ?audio, ?video, hi.environment, ?owner, ?unique⟩
    case fresh =>
      intro w hw
      by_cases hwv : w = v
      · subst hwv; simp at hw
      · simp only [Function.update_of_ne hwv] at hw ⊢; exact hi.fresh w hw
    case core =>
      intro c' hc'
      obtain rfl : c.call (.retroLoadGame result) = c' := by simpa using hc'
      exact ⟨hcs, by simp [hinit], by simp [hdeinit]⟩
    case audio =>
      intro k hk
      rcases result with _ | _
      · exact hi.audio k (by simpa using hk)
      · obtain rfl : c.session = k := by simpa using hk
        exact hcs
    case video =>
      intro k hk
      rcases result with _ | _
      · exact hi.video k (by simpa using hk)
      · obtain rfl : c.session = k := by simpa using hk
        exact hcs
    case owner =>
      intro w hw
      obtain rfl := hi.unique w v (hact w hw) ⟨hv, ha⟩
      simpa using hown.1
    case unique =>
      intro w w' hw hw'
      exact hi.unique w w' (hact w hw) (hact w' hw')

theorem ownsSession_onDestroy (hi : Inv s) (h : step s (.onDestroy v) = some (t, es)) :
    OwnsSession s (.onDestroy v) t es ∧ Inv t := by
  obtain ⟨hv, heq⟩ := step_onDestroy h
  have hfresh : ∀ w, Function.update s.phase v .destroyed w = .waiting → w ≠ v ∧ s.phase w = .waiting := by
    intro w hw
    by_cases hwv : w = v
    · subst hwv; simp at hw
    · exact ⟨hwv, by simpa [hwv] using hw⟩
  by_cases ha : (s.view v).isAborted = true
  · rw [GLRetroView.onDestroy_aborted ha] at heq
    have hact : ∀ w, Active t w → Active s w := by
      intro w hw
      rw [active_of_set heq] at hw
      split at hw
      · exact absurd hw.1 (by decide)
      · exact hw
    obtain ⟨rfl, rfl⟩ := Prod.mk.inj heq
    simp only [Function.update_eq_self] at hact ⊢
    refine ⟨⟨⟨fun c hc _ => hc, fun k hk _ => hk, fun k hk _ => hk, fun k hk _ => hk⟩, by simp⟩,
      fun w hw => hi.fresh w (hfresh w hw).2, hi.core, hi.audio, hi.video, hi.environment,
      fun w hw => hi.owner w (hact w hw), fun w w' hw hw' => hi.unique w w' (hact w hw) (hact w' hw')⟩
  · rw [Bool.not_eq_true] at ha
    have hown := hi.owner v ⟨hv, ha⟩
    obtain ⟨c, hc⟩ := Option.isSome_iff_exists.1 hown.2
    obtain ⟨hcs, hinit, hdeinit⟩ := hi.core c hc
    rw [GLRetroView.onDestroy_eq ha, LibretroDroid.destroy_some hc] at heq
    -- `v` was the only active view, so none is left
    have hact : ∀ w, ¬ Active t w := by
      intro w hw
      rw [active_of_set heq] at hw
      split at hw
      · exact absurd hw.1 (by decide)
      · exact absurd (hi.unique w v hw ⟨hv, ha⟩) ‹_›
    obtain ⟨rfl, rfl⟩ := Prod.mk.inj heq
    have hkeeps : ∀ {p q : Option Nat}, (∀ k ∈ p, k = s.native.sessions) →
        Keeps (s.view v).session p q := by
      intro p q hp k hk hne
      exact absurd (hown.1.trans (congrArg some (hp k hk).symm)) hne
    refine ⟨⟨⟨?_, hkeeps hi.audio, hkeeps hi.video, hkeeps hi.environment⟩, ?clean⟩,
      ?fresh, by simp, by simp, by simp, by simp,
      fun w hw => absurd hw (hact w), fun w _ hw _ => absurd hw (hact w)⟩
    · intro c' hc' hne
      exact absurd (hown.1.trans (congrArg some (hi.core c' hc').1.symm)) hne
    case clean => simp [ClosesClean, Core.ClosesClean, List.count_eq_zero_of_not_mem hdeinit]
    case fresh =>
      intro w hw
      obtain ⟨hwv, hw⟩ := hfresh w hw
      simp only [Function.update_of_ne hwv]
      exact hi.fresh w hw

end

/-- In a run of any views, every `onDestroy` tears down only its own session and every handle is
closed clean exactly when no session is created while a core is still installed. -/
theorem ownsSession_iff (as : List (Action ι)) :
    Along step OwnsSession init as ↔ Along step CreatesWhenDown init as := by
  refine along_iff (I := Inv) (fun {s a t es} hi h => ?_) (fun {s a t es} hi h hC => ?_) inv_init as
  · match a with
    | .onCreate _ _ => exact ownsSession_onCreate hi h
    | .onSurfaceCreated _ _ => exact iff_of_true (ownsSession_onSurfaceCreated hi h).1 trivial
    | .onDestroy _ => exact iff_of_true (ownsSession_onDestroy hi h).1 trivial
  · match a with
    | .onCreate _ _ => exact inv_onCreate hi h hC
    | .onSurfaceCreated _ _ => exact (ownsSession_onSurfaceCreated hi h).2
    | .onDestroy _ => exact (ownsSession_onDestroy hi h).2

/-- Two views: the second is created before the first is destroyed. The first core is closed without
`retro_deinit`, and `onDestroy` of the first view takes down the session of the second. -/
theorem overlap_breaks_ownership :
    ¬ Along step OwnsSession (init : State (Fin 2))
      [.onCreate 0 .created, .onCreate 1 .created, .onDestroy 0] := by
  decide

end SweetHome.Ownership
