import Mathlib.Algebra.BigOperators.Group.List.Basic
import Mathlib.Data.List.Basic

/-!
# Runs of a partial step function

A `Step σ α ε` takes a state and an action to the next state and to the events the transition lets
one observe; it is `none` when the action is not enabled. `Along step T s as` reads a law of single
transitions along the run that the schedule `as` drives from `s`; `run` collects its events.

The rule used throughout is `along_iff`: a law `G` of transitions holds along a run exactly when
the condition `C` does, as soon as the two agree on every transition taken from an invariant state
and the invariant survives the transitions that meet `C`.
-/

namespace SweetHome

/-- One step: `none` when the action is not enabled, else the next state and the events. -/
abbrev Step (σ α ε : Type) := σ → α → Option (σ × List ε)

namespace Step
variable {σ α ε : Type} (step : Step σ α ε)

/-- Every transition of the run driven by the schedule satisfies `T`. The run ends at the first
action that is not enabled. -/
def Along (T : σ → α → σ → List ε → Prop) : σ → List α → Prop
  | _, [] => True
  | s, a :: as =>
    match step s a with
    | none => True
    | some (t, es) => T s a t es ∧ Along T t as

/-- The last state of the run driven by the schedule, and the events of its transitions. -/
def run : σ → List α → σ × List ε
  | s, [] => (s, [])
  | s, a :: as =>
    match step s a with
    | none => (s, [])
    | some (t, es) => ((run t as).1, es ++ (run t as).2)

variable {step} {T : σ → α → σ → List ε → Prop} {s t : σ} {a : α} {es : List ε}

@[simp] theorem along_nil : Along step T s [] := trivial

theorem along_cons_none {as : List α} (h : step s a = none) : Along step T s (a :: as) := by
  simp [Along, h]

theorem along_cons_some {as : List α} (h : step s a = some (t, es)) :
    Along step T s (a :: as) ↔ T s a t es ∧ Along step T t as := by
  simp [Along, h]

@[simp] theorem run_nil : run step s [] = (s, []) := rfl

theorem run_cons_none {as : List α} (h : step s a = none) : run step s (a :: as) = (s, []) := by
  simp [run, h]

theorem run_cons_some {as : List α} (h : step s a = some (t, es)) :
    run step s (a :: as) = ((run step t as).1, es ++ (run step t as).2) := by
  simp [run, h]

instance decidableAlong [∀ s a t es, Decidable (T s a t es)] :
    ∀ (s : σ) (as : List α), Decidable (Along step T s as)
  | _, [] => .isTrue trivial
  | s, a :: as =>
    match h : step s a with
    | none => .isTrue (along_cons_none h)
    | some (t, _) =>
      have := decidableAlong t as
      decidable_of_iff _ (along_cons_some h).symm

theorem run_append (htotal : ∀ s a, step s a ≠ none) (s : σ) (as bs : List α) :
    run step s (as ++ bs) =
      ((run step (run step s as).1 bs).1, (run step s as).2 ++ (run step (run step s as).1 bs).2) := by
  induction as generalizing s with
  | nil => rfl
  | cons a as ih =>
    rcases h : step s a with _ | ⟨t, es⟩
    · exact absurd h (htotal s a)
    · rw [List.cons_append, run_cons_some h, run_cons_some h, ih, List.append_assoc]

theorem run_inv {I : σ → Prop} (hstep : ∀ {s a t es}, I s → step s a = some (t, es) → I t)
    (hs : I s) (as : List α) : I (run step s as).1 := by
  induction as generalizing s with
  | nil => exact hs
  | cons a as ih =>
    rcases h : step s a with _ | ⟨t, es⟩
    · rwa [run_cons_none h]
    · rw [run_cons_some h]; exact ih (hstep hs h)

/-- The invariant that survives the transitions that meet `C` survives a run of such transitions. -/
theorem run_inv_of {I : σ → Prop} {C : σ → α → σ → List ε → Prop}
    (hstep : ∀ {s a t es}, I s → step s a = some (t, es) → C s a t es → I t) (hs : I s) (as : List α)
    (hC : Along step C s as) : I (run step s as).1 := by
  induction as generalizing s with
  | nil => exact hs
  | cons a as ih =>
    rcases h : step s a with _ | ⟨t, es⟩
    · rwa [run_cons_none h]
    · obtain ⟨ha, hC⟩ := (along_cons_some h).1 hC
      rw [run_cons_some h]
      exact ih (hstep hs h ha) hC

/-- What every transition from an invariant state shows, a run shows. -/
theorem forall_mem_run {I : σ → Prop} {P : ε → Prop}
    (hstep : ∀ {s a t es}, I s → step s a = some (t, es) → I t ∧ ∀ e ∈ es, P e) (hs : I s) (as : List α) :
    ∀ e ∈ (run step s as).2, P e := by
  induction as generalizing s with
  | nil => nofun
  | cons a as ih =>
    rcases h : step s a with _ | ⟨t, es⟩
    · simp [run_cons_none h]
    · obtain ⟨ht, hes⟩ := hstep hs h
      rw [run_cons_some h]
      exact List.forall_mem_append.2 ⟨hes, ih ht⟩

/-- What a run takes out and what it leaves are what was there and what it puts in, if each transition keeps
such an account. -/
theorem run_balance {M : Type} [AddCommMonoid M] {f : σ → M} {taken put : ε → M}
    (hstep : ∀ {s a t es}, step s a = some (t, es) → (es.map taken).sum + f t = f s + (es.map put).sum) (s : σ)
    (as : List α) :
    ((run step s as).2.map taken).sum + f (run step s as).1 = f s + ((run step s as).2.map put).sum := by
  induction as generalizing s with
  | nil => simp
  | cons a as ih =>
    rcases h : step s a with _ | ⟨t, es⟩
    · simp [run_cons_none h]
    · rw [run_cons_some h, List.map_append, List.map_append, List.sum_append, List.sum_append, add_assoc, ih,
        ← add_assoc, hstep h, add_assoc]

/-- A run of enabled actions shows what each of them shows, one after the other. -/
theorem map_run {β : Type} {P : α → Prop} {f : ε → β} {g : α → List β}
    (hstep : ∀ s a, P a → ∃ t es, step s a = some (t, es) ∧ es.map f = g a) (s : σ) {as : List α}
    (has : ∀ a ∈ as, P a) : (run step s as).2.map f = as.flatMap g := by
  induction as generalizing s with
  | nil => rfl
  | cons a as ih =>
    obtain ⟨ha, has⟩ := List.forall_mem_cons.1 has
    obtain ⟨t, es, h, hes⟩ := hstep s a ha
    rw [run_cons_some h, List.map_append, hes, ih t has, List.flatMap_cons]

/-- In a run that meets `D`, a law `G` holds along the run exactly when `C` does, if they agree on the
transitions from invariant states that meet `D`, and those of them that meet `C` keep the invariant. -/
theorem along_iff_of {I : σ → Prop} {D G C : σ → α → σ → List ε → Prop}
    (hiff : ∀ {s a t es}, I s → step s a = some (t, es) → D s a t es → (G s a t es ↔ C s a t es))
    (hstep : ∀ {s a t es}, I s → step s a = some (t, es) → D s a t es → C s a t es → I t)
    (hs : I s) (as : List α) (hD : Along step D s as) : Along step G s as ↔ Along step C s as := by
  induction as generalizing s with
  | nil => simp
  | cons a as ih =>
    rcases h : step s a with _ | ⟨t, es⟩
    · simp [along_cons_none h]
    · obtain ⟨hDa, hD⟩ := (along_cons_some h).1 hD
      rw [along_cons_some h, along_cons_some h, hiff hs h hDa]
      exact and_congr_right fun hC => ih (hstep hs h hDa hC) hD

theorem along_mono {D G : σ → α → σ → List ε → Prop} (h : ∀ s a t es, D s a t es → G s a t es) (as : List α)
    (hD : Along step D s as) : Along step G s as := by
  induction as generalizing s with
  | nil => trivial
  | cons a as ih =>
    rcases hstep : step s a with _ | ⟨t, es⟩
    · exact along_cons_none hstep
    · obtain ⟨ha, hD⟩ := (along_cons_some hstep).1 hD
      exact (along_cons_some hstep).2 ⟨h s a t es ha, ih hD⟩

theorem along_true (s : σ) (as : List α) : Along step (fun _ _ _ _ => True) s as := by
  induction as generalizing s with
  | nil => trivial
  | cons a as ih =>
    rcases hstep : step s a with _ | ⟨t, es⟩
    · exact along_cons_none hstep
    · exact (along_cons_some hstep).2 ⟨trivial, ih t⟩

/-- What holds along all runs that meet `D` holds of each transition that does, and along all runs from there. -/
theorem forall_along_step {D G : σ → α → σ → List ε → Prop}
    (hs : ∀ as, Along step D s as → Along step G s as) (h : step s a = some (t, es)) (ha : D s a t es) :
    G s a t es ∧ ∀ as, Along step D t as → Along step G t as :=
  ⟨((along_cons_some h).1 (hs [a] ((along_cons_some h).2 ⟨ha, trivial⟩))).1,
    fun as has => ((along_cons_some h).1 (hs (a :: as) ((along_cons_some h).2 ⟨ha, has⟩))).2⟩

/-- A law `G` holds along a run exactly when `C` does, if they agree on the transitions from
invariant states and transitions that meet `C` keep the invariant. -/
theorem along_iff {I : σ → Prop} {G C : σ → α → σ → List ε → Prop}
    (hiff : ∀ {s a t es}, I s → step s a = some (t, es) → (G s a t es ↔ C s a t es))
    (hstep : ∀ {s a t es}, I s → step s a = some (t, es) → C s a t es → I t)
    (hs : I s) (as : List α) : Along step G s as ↔ Along step C s as :=
  along_iff_of (I := I) (D := fun _ _ _ _ => True) (G := G) (C := C) (fun hs h _ => hiff hs h)
    (fun hs h _ => hstep hs h) hs as (along_true _ as)

/-- What the actions in `p` let one observe does not depend on the others: a run in which each other
transition keeps `R` silently, and each transition of `p` is matched, shows at `q` what the run of the
actions in `p` alone shows. -/
theorem run_filter {R : σ → σ → Prop} {C : σ → α → σ → List ε → Prop} {p : α → Bool} {q : ε → Bool}
    (htotal : ∀ s a, step s a ≠ none)
    (hout : ∀ {s u a t es}, R s u → p a = false → step s a = some (t, es) →
      R t u ∧ es.filter q = [])
    (hin : ∀ {s u a t es}, R s u → p a = true → step s a = some (t, es) → C s a t es →
      ∃ u', step u a = some (u', es.filter q) ∧ R t u')
    {u : σ} (hR : R s u) (as : List α) (hC : Along step C s as) :
    (run step s as).2.filter q = (run step u (as.filter p)).2 := by
  induction as generalizing s u with
  | nil => rfl
  | cons a as ih =>
    rcases h : step s a with _ | ⟨t, es⟩
    · exact absurd h (htotal s a)
    · obtain ⟨hCa, hC⟩ := (along_cons_some h).1 hC
      rw [run_cons_some h, List.filter_append]
      rcases hp : p a with _ | _
      · obtain ⟨hRt, hes⟩ := hout hR hp h
        rw [hes, List.nil_append, List.filter_cons_of_neg (by simp [hp]), ih hRt hC]
      · obtain ⟨u', hu, hRt⟩ := hin hR hp h hCa
        rw [List.filter_cons_of_pos hp, run_cons_some hu, ih hRt hC]

variable (step) in
/-- The steps, with the actions taken so far beside the state, the latest first. -/
def recorded : Step (σ × List α) α ε
  | (s, past), a => (step s a).map fun (t, es) => ((t, a :: past), es)

theorem recorded_eq_some {past : List α} {p : σ × List α} :
    recorded step (s, past) a = some (p, es) ↔ step s a = some (p.1, es) ∧ p.2 = a :: past := by
  rcases h : step s a with _ | ⟨t, es'⟩ <;> simp only [recorded, h, Option.map_none, Option.map_some]
  · simp
  · obtain ⟨u, past'⟩ := p
    simp only [Option.some.injEq, Prod.mk.injEq]
    constructor
    · rintro ⟨⟨rfl, rfl⟩, rfl⟩
      exact ⟨⟨rfl, rfl⟩, rfl⟩
    · rintro ⟨⟨rfl, rfl⟩, rfl⟩
      exact ⟨⟨rfl, rfl⟩, rfl⟩

/-- A law of the transitions alone does not see the record. -/
theorem along_recorded (past : List α) (as : List α) :
    Along (recorded step) (fun p a q es => T p.1 a q.1 es) (s, past) as ↔ Along step T s as := by
  induction as generalizing s past with
  | nil => simp
  | cons a as ih =>
    rcases h : step s a with _ | ⟨t, es⟩
    · have hnone : recorded step (s, past) a = none := by simp [recorded, h]
      simp [along_cons_none h, along_cons_none hnone]
    · have hsome : recorded step (s, past) a = some ((t, a :: past), es) := recorded_eq_some.2 ⟨h, rfl⟩
      rw [along_cons_some h, along_cons_some hsome, ih]

variable (step) in
/-- A schedule whose actions are all enabled, with the state it leads to and its events. -/
def Leads (s : σ) (as : List α) (t : σ) (es : List ε) : Prop :=
  ∀ bs, run step s (as ++ bs) = ((run step t bs).1, es ++ (run step t bs).2)

theorem leads_nil (s : σ) : Leads step s [] s [] := fun _ => rfl

theorem Leads.run {as : List α} (h : Leads step s as t es) : run step s as = (t, es) := by
  have hrun := h []
  rwa [List.append_nil, run_nil, List.append_nil] at hrun

theorem Leads.cons {as : List α} {u : σ} {es' : List ε} (h : Leads step t as u es') (hstep : step s a = some (t, es)) :
    Leads step s (a :: as) u (es ++ es') := by
  intro bs
  rw [List.cons_append, run_cons_some hstep, h bs, List.append_assoc]

theorem Leads.append {as as' : List α} {u : σ} {es' : List ε} (h : Leads step s as t es)
    (h' : Leads step t as' u es') : Leads step s (as ++ as') u (es ++ es') := by
  intro bs
  rw [List.append_assoc, h, h' bs, List.append_assoc]

/-- An action that is repeated gets to its end if each time it either ends or makes the measure smaller, silently. -/
theorem leads_replicate {I : σ → Prop} {Q : σ → List ε → Prop} (μ : σ → Nat) (a : α)
    (hstep : ∀ s, I s → ∃ t es, step s a = some (t, es) ∧ (Q t es ∨ es = [] ∧ I t ∧ μ t < μ s)) (hs : I s) :
    ∃ n t es, Leads step s (List.replicate n a) t es ∧ Q t es := by
  induction hk : μ s using Nat.strongRecOn generalizing s with
  | ind k ih =>
    obtain ⟨t, es, hfirst, hend | ⟨rfl, ht, hlt⟩⟩ := hstep s hs
    · refine ⟨1, t, es, ?_, hend⟩
      have hlast := (leads_nil t).cons hfirst
      rwa [List.append_nil] at hlast
    · obtain ⟨n, t', es', hrest, hQ⟩ := ih (μ t) (hk ▸ hlt) ht rfl
      exact ⟨n + 1, t', es', hrest.cons hfirst, hQ⟩

end Step
end SweetHome
