import SweetHome.Lib.Run
import SweetHome.Sessions

/-!
# The options of the core

The Java side writes the variables, the core registers and reads them, and `GET_VARIABLE_UPDATE` reads and
clears the flag that tells the core to read them again. A core that keeps copies is out of date only
while the flag is set (`Core.Inv`).
-/

namespace SweetHome
open Step

namespace Access

/-- The value that is given to `updateVariable` for a key. -/
def update? (key : String) : Access → Option String
  | updateVariable key' value => if key' = key then some value else none
  | _ => none

def isSetVariables : Access → Bool
  | callbackEnvironment (.setVariables _) => true
  | _ => false

def isGetVariableUpdate : Access → Bool
  | callbackEnvironment .getVariableUpdate => true
  | _ => false

theorem eq_getVariableUpdate {a : Access} (h : a.isGetVariableUpdate = true) :
    a = callbackEnvironment .getVariableUpdate := by
  rcases a with ⟨_ | _⟩ | _ | _ | _ | _ | _ <;> first | rfl | cases h

end Access

namespace VariableMap
variable (map : VariableMap)

theorem lookup_filter_ne {key other : String} (h : other ≠ key) :
    (map.filter fun entry => entry.1 != key).lookup other = map.lookup other := by
  induction map with
  | nil => rfl
  | cons entry map ih =>
    rcases entry with ⟨key', value⟩
    by_cases hkey : key' = key
    · subst hkey
      rw [List.filter_cons_of_neg (by simp), ih, List.lookup_cons, beq_false_of_ne h]
    · rw [List.filter_cons_of_pos (by simp [hkey]), List.lookup_cons, List.lookup_cons, ih]

theorem lookup_assign (key other : String) (value : Variable) :
    (map.assign key value).lookup other = if other = key then some value else map.lookup other := by
  unfold assign
  by_cases h : other = key
  · subst h; simp
  · rw [List.lookup_cons, beq_false_of_ne h, if_neg h, lookup_filter_ne map h]

end VariableMap

namespace Environment
variable (e : Environment) (a : Access) (as : List Access)

/-- The stored value of a key; an absent key counts as empty. -/
def stored (key : String) : String := (e.variableMap.current key).value

def Listed (key : String) : Prop := e.variableMap.lookup key ≠ none

theorem stored_congr {f : Environment} (h : f.variableMap = e.variableMap) : f.stored = e.stored := by
  unfold stored; rw [h]

theorem handleGetVariable_of_listed {key : String} (h : e.Listed key) :
    e.handleGetVariable key = (true, .string (e.stored key)) := by
  unfold handleGetVariable stored VariableMap.current
  rcases hfound : e.variableMap.lookup key with _ | foundVariable
  · exact absurd hfound h
  · rfl

/-! ### What the accesses do to the values -/

theorem stored_updateVariable (key value : String) :
    (e.updateVariable key value).stored = Function.update e.stored key value := by
  funext other
  by_cases h : other = key
  · subst h
    simp only [updateVariable, Function.update_self]
    split
    · simp [stored, VariableMap.current, VariableMap.lookup_assign]
    · rename_i hsame
      simpa [stored, VariableMap.current, VariableMap.lookup_assign, eq_comm] using hsame
  · simp only [updateVariable, Function.update_of_ne h]
    split <;> simp [stored, VariableMap.current, VariableMap.lookup_assign, h]

theorem dirtyVariables_updateVariable (key value : String) :
    (e.updateVariable key value).dirtyVariables = true ↔ value ≠ e.stored key ∨ e.dirtyVariables = true := by
  simp only [updateVariable, stored]
  split
  · rename_i hchanged; simp [hchanged]
  · rename_i hsame; simp only [hsame, false_or]

theorem listed_updateVariable (key value other : String) :
    (e.updateVariable key value).Listed other ↔ other = key ∨ e.Listed other := by
  by_cases h : other = key
  · simp only [updateVariable]; split <;> simp [Listed, VariableMap.lookup_assign, h]
  · simp only [updateVariable]; split <;> simp [Listed, VariableMap.lookup_assign, h]

/-- The first value of a description is a default: it does not replace what is stored. -/
theorem stored_foldl_receive (received : List RetroVariable) {key : String} (h : e.stored key ≠ "") :
    (e.handleSetVariables received).stored key = e.stored key := by
  unfold handleSetVariables stored at *
  dsimp only
  generalize e.variableMap = map at h ⊢
  induction received generalizing map with
  | nil => rfl
  | cons v received ih =>
    have hkeep : ((map.receive v).current key).value = (map.current key).value := by
      by_cases hkey : key = v.key
      · subst hkey
        simp only [VariableMap.receive, VariableMap.current, VariableMap.lookup_assign] at h ⊢
        simp [h]
      · simp [VariableMap.receive, VariableMap.current, VariableMap.lookup_assign, hkey]
    rw [List.foldl_cons, ih (map.receive v) (by rwa [hkeep]), hkeep]

theorem listed_handleSetVariables (received : List RetroVariable) (key : String) :
    (e.handleSetVariables received).Listed key ↔ key ∈ received.map (·.key) ∨ e.Listed key := by
  unfold handleSetVariables Listed
  dsimp only
  generalize e.variableMap = map
  induction received generalizing map with
  | nil => simp
  | cons v received ih =>
    rw [List.foldl_cons, ih, List.map_cons, List.mem_cons]
    by_cases hkey : key = v.key
    · simp [VariableMap.receive, VariableMap.lookup_assign, hkey]
    · simp [VariableMap.receive, VariableMap.lookup_assign, hkey]

theorem access_variables (htouches : ¬ a.TouchesVariables) (hpoll : a.isGetVariableUpdate = false) :
    (e.access a).1.variableMap = e.variableMap ∧ (e.access a).1.dirtyVariables = e.dirtyVariables := by
  have heffect := e.access_effect a
  generalize (e.access a).1 = f at heffect ⊢
  cases heffect
  case setVariables received =>
    obtain rfl : received = [] := by simpa [Access.TouchesVariables] using htouches
    exact ⟨rfl, rfl⟩
  case getVariableUpdate => simp [Access.isGetVariableUpdate] at hpoll
  case updateVariable key value => exact absurd trivial htouches
  all_goals exact ⟨rfl, rfl⟩

theorem listed_access {key : String} (h : e.Listed key) : (e.access a).1.Listed key := by
  have heffect := e.access_effect a
  generalize (e.access a).1 = f at heffect ⊢
  cases heffect
  case setVariables received => exact (e.listed_handleSetVariables received key).2 (.inr h)
  case updateVariable key' value => exact (e.listed_updateVariable key' value key).2 (.inr h)
  all_goals exact h

theorem stored_access {key : String} (h : e.stored key ≠ "") (hupdate : a.update? key = none) :
    (e.access a).1.stored key = e.stored key := by
  have heffect := e.access_effect a
  generalize (e.access a).1 = f at heffect ⊢
  cases heffect
  case setVariables received => exact e.stored_foldl_receive received h
  case updateVariable key' value =>
    have hkey : key' ≠ key := by simpa [Access.update?] using hupdate
    rw [stored_updateVariable, Function.update_of_ne (Ne.symm hkey)]
  all_goals rfl

/-! ### The flag -/

/-- An `updateVariable` with a value other than the stored one. -/
def Changes : Access → Prop
  | .updateVariable key value => value ≠ e.stored key
  | _ => False

theorem access_dirtyVariables_iff : (e.access a).1.dirtyVariables = true ↔
    e.Changes a ∨ e.dirtyVariables = true ∧ a.isGetVariableUpdate = false := by
  rcases hpoll : a.isGetVariableUpdate with _ | _
  · have heffect := e.access_effect a
    generalize (e.access a).1 = f at heffect ⊢
    cases heffect
    case updateVariable key value => simp [Changes, dirtyVariables_updateVariable]
    case getVariableUpdate => simp [Access.isGetVariableUpdate] at hpoll
    case quiet hquiet =>
      have hchanges : ¬ e.Changes a := by
        cases a with
        | updateVariable key value => exact absurd trivial hquiet.touchesVariables
        | _ => exact id
      simp [hchanges]
    all_goals simp [Changes, handleSetVariables, handleSetHwRender, handleSetGeometry, setRumbleState]
  · obtain rfl := Access.eq_getVariableUpdate hpoll
    simp [Changes, access, handleCallbackEnvironment]

/-- Some `updateVariable` since the last `GET_VARIABLE_UPDATE` was given a value other than the one
stored for its key. -/
def ChangedSince : Prop :=
  ∃ before key value after, as = before ++ .updateVariable key value :: after ∧
    value ≠ (e.accesses before).1.stored key ∧ ∀ a ∈ after, a.isGetVariableUpdate = false

theorem changedSince_cons : e.ChangedSince (a :: as) ↔
    (e.Changes a ∧ ∀ b ∈ as, b.isGetVariableUpdate = false) ∨ (e.access a).1.ChangedSince as := by
  constructor
  · rintro ⟨before, key, value, after, has, hvalue, hafter⟩
    cases before with
    | nil =>
      obtain ⟨rfl, rfl⟩ := List.cons.inj has
      exact .inl ⟨hvalue, hafter⟩
    | cons b before =>
      obtain ⟨rfl, rfl⟩ := List.cons.inj has
      exact .inr ⟨before, key, value, after, rfl, hvalue, hafter⟩
  · rintro (⟨hchanges, hafter⟩ | ⟨before, key, value, after, rfl, hvalue, hafter⟩)
    · cases a with
      | updateVariable key value => exact ⟨[], key, value, as, rfl, hchanges, hafter⟩
      | _ => cases hchanges
    · exact ⟨a :: before, key, value, after, rfl, hvalue, hafter⟩

theorem accesses_dirtyVariables_iff : (e.accesses as).1.dirtyVariables = true ↔
    e.ChangedSince as ∨ e.dirtyVariables = true ∧ ∀ a ∈ as, a.isGetVariableUpdate = false := by
  induction as generalizing e with
  | nil => simp [accesses, ChangedSince]
  | cons a as ih =>
    have hcons : (e.accesses (a :: as)).1 = ((e.access a).1.accesses as).1 := rfl
    rw [hcons, ih, changedSince_cons, access_dirtyVariables_iff, List.forall_mem_cons]
    tauto

/-! ### What the Java side has set -/

/-- The key is listed with the value that was given to it. -/
def Holds (key value : String) : Prop := e.Listed key ∧ e.stored key = value

theorem access_holds {key value : String} (hvalue : value ≠ "")
    (h : a.update? key = some value ∨ a.update? key = none ∧ e.Holds key value) :
    (e.access a).1.Holds key value := by
  rcases h with hupdate | ⟨hnone, hlisted, hstored⟩
  · cases a with
    | updateVariable key' value' =>
      obtain ⟨rfl, rfl⟩ : key' = key ∧ value' = value := by simpa [Access.update?] using hupdate
      refine ⟨(e.listed_updateVariable key' value' key').2 (.inl rfl), ?_⟩
      simp [access, stored_updateVariable]
    | _ => cases hupdate
  · refine ⟨e.listed_access a hlisted, ?_⟩
    rw [e.stored_access a (by rwa [hstored]) hnone, hstored]

theorem accesses_holds {key value : String} (hvalue : value ≠ "")
    (h : lastWrite (Access.update? key) as = some value ∨
      lastWrite (Access.update? key) as = none ∧ e.Holds key value) :
    (e.accesses as).1.Holds key value := by
  induction as generalizing e with
  | nil =>
    rcases h with hlast | ⟨-, hholds⟩
    · cases hlast
    · exact hholds
  | cons a as ih =>
    rw [lastWrite_cons] at h
    refine ih (e.access a).1 ?_
    rcases hlast : lastWrite (Access.update? key) as with _ | value'
    · rw [hlast] at h
      exact .inr ⟨rfl, e.access_holds a hvalue (by simpa using h)⟩
    · rw [hlast] at h
      exact .inl (by simpa using h)

/-- Only a changing `updateVariable` changes what is stored, and it sets the flag. -/
theorem access_stored_or_dirty (hregister : a.isSetVariables = false) (hpoll : a.isGetVariableUpdate = false) :
    (e.access a).1.dirtyVariables = true ∨
      (e.access a).1.stored = e.stored ∧ (e.access a).1.dirtyVariables = e.dirtyVariables := by
  by_cases htouches : a.TouchesVariables
  · cases a with
    | updateVariable key value =>
      by_cases hvalue : value = e.stored key
      · right
        have hstored : (e.updateVariable key value).stored = e.stored := by
          rw [stored_updateVariable, hvalue, Function.update_eq_self]
        have hdirty : (e.updateVariable key value).dirtyVariables = e.dirtyVariables := by
          rw [Bool.eq_iff_iff, dirtyVariables_updateVariable]
          simp [hvalue]
        exact ⟨hstored, hdirty⟩
      · exact .inl ((e.dirtyVariables_updateVariable key value).2 (.inl hvalue))
    | callbackEnvironment cmd =>
      cases cmd
      case setVariables received => cases hregister
      all_goals cases htouches
    | _ => cases htouches
  · obtain ⟨hmap, hdirty⟩ := e.access_variables a htouches hpoll
    exact .inr ⟨e.stored_congr hmap, hdirty⟩

end Environment

namespace CoreOptions

/-! ### A core that keeps copies -/

structure Core where
  environment : Environment
  /-- The keys, once they are registered. -/
  keys : Option (List String) := none
  /-- The keys that are to be read. -/
  pending : List String := []
  values : String → Option String := fun _ => none

inductive Move where
  /-- An access of anyone that is none of the core's moves. -/
  | access (a : Access)
  | setVariables (received : List RetroVariable)
  /-- The next of the pending keys is read. -/
  | getVariable
  | getVariableUpdate

namespace Core

/-- The core registers once, reads all keys, and reads them all again when a poll tells it to. -/
def step : Step Core Move Reply
  | c, .access a =>
    if a.isSetVariables || a.isGetVariableUpdate then none
    else
      let (environment, reply) := c.environment.access a
      some ({ c with environment := environment }, [reply])
  | c, .setVariables received =>
    match c.keys with
    | some _ => none
    | none =>
      let (environment, reply) := c.environment.access (.callbackEnvironment (.setVariables received))
      let keys := received.map (·.key)
      some ({ c with environment := environment, keys := some keys, pending := keys }, [reply])
  | c, .getVariable =>
    match c.pending with
    | [] => none
    | key :: pending =>
      let (environment, reply) := c.environment.access (.callbackEnvironment (.getVariable key))
      let value :=
        match reply with
        | .callbackEnvironment true (.string value) => some value
        | _ => none
      some ({ c with environment, pending, values := Function.update c.values key value }, [reply])
  | c, .getVariableUpdate =>
    match c.keys, c.pending with
    | some keys, [] =>
      let (environment, reply) := c.environment.access (.callbackEnvironment .getVariableUpdate)
      match reply with
      | .callbackEnvironment true (.bool true) =>
        some ({ c with environment, pending := keys }, [reply])
      | _ => some ({ c with environment }, [reply])
    | _, _ => none

/-- A key is registered. -/
def Registered (c : Core) (key : String) : Prop := ∃ keys, c.keys = some keys ∧ key ∈ keys

/-- The copy of the key is the stored value. -/
def Current (c : Core) (key : String) : Prop := c.values key = some (c.environment.stored key)

structure Inv (c : Core) : Prop where
  pending : ∀ key ∈ c.pending, c.Registered key
  listed : ∀ key, c.Registered key → c.environment.Listed key
  current : ∀ key, c.Registered key → key ∉ c.pending → c.Current key ∨ c.environment.dirtyVariables = true

variable {c d : Core} {m : Move} {es : List Reply}

theorem step_inv (hc : c.Inv) (h : step c m = some (d, es)) : d.Inv := by
  cases m with
  | access a =>
    simp only [step] at h
    split at h
    · cases h
    · rename_i hown
      obtain ⟨rfl, -⟩ := Prod.mk.inj (Option.some.inj h)
      obtain ⟨hregister, hpoll⟩ : a.isSetVariables = false ∧ a.isGetVariableUpdate = false := by
        simpa using hown
      refine ⟨hc.pending, fun key hkey => c.environment.listed_access a (hc.listed key hkey), ?_⟩
      intro key hkey hpending
      rcases c.environment.access_stored_or_dirty a hregister hpoll with hdirty | ⟨hstored, hdirty⟩
      · exact .inr hdirty
      · simpa only [Current, hstored, hdirty] using hc.current key hkey hpending
  | setVariables received =>
    simp only [step] at h
    split at h
    · cases h
    · obtain ⟨rfl, -⟩ := Prod.mk.inj (Option.some.inj h)
      refine ⟨fun key hkey => ⟨_, rfl, hkey⟩, ?_, ?_⟩
      · rintro key ⟨keys, hkeys, hkey⟩
        obtain rfl := Option.some.inj hkeys
        exact (c.environment.listed_handleSetVariables received key).2 (.inl hkey)
      · rintro key ⟨keys, hkeys, hkey⟩ hpending
        obtain rfl := Option.some.inj hkeys
        exact absurd hkey hpending
  | getVariable =>
    simp only [step] at h
    split at h
    · cases h
    · rename_i key pending hpending
      obtain ⟨rfl, -⟩ := Prod.mk.inj (Option.some.inj h)
      have hregistered : ∀ other ∈ key :: pending, c.Registered other := by
        rw [← hpending]; exact hc.pending
      have hread : c.environment.handleGetVariable key = (true, .string (c.environment.stored key)) :=
        c.environment.handleGetVariable_of_listed (hc.listed key (hregistered key List.mem_cons_self))
      refine ⟨fun other hother => hregistered other (List.mem_cons_of_mem key hother), hc.listed, ?_⟩
      intro other hother hnot
      by_cases hkey : other = key
      · subst hkey
        left
        simp [Current, Environment.access, Environment.handleCallbackEnvironment, hread]
      · have hold := hc.current other hother (by rw [hpending]; simp [hkey, hnot])
        simpa [Current, Function.update_of_ne hkey, Environment.access,
          Environment.handleCallbackEnvironment] using hold
  | getVariableUpdate =>
    simp only [step] at h
    split at h
    · rename_i keys hkeys hpending
      rcases hdirty : c.environment.dirtyVariables with _ | _
      · simp only [Environment.access, Environment.handleCallbackEnvironment, hdirty] at h
        obtain ⟨rfl, -⟩ := Prod.mk.inj (Option.some.inj h)
        refine ⟨hc.pending, hc.listed, fun key hkey hnot => ?_⟩
        rcases hc.current key hkey hnot with hcurrent | hset
        · exact .inl hcurrent
        · rw [hdirty] at hset; cases hset
      · simp only [Environment.access, Environment.handleCallbackEnvironment, hdirty] at h
        obtain ⟨rfl, -⟩ := Prod.mk.inj (Option.some.inj h)
        refine ⟨fun key hkey => ⟨keys, hkeys, hkey⟩, hc.listed, ?_⟩
        rintro key ⟨keys', hkeys', hkey⟩ hnot
        obtain rfl : keys = keys' := Option.some.inj (hkeys.symm.trans hkeys')
        exact absurd hkey hnot
    · cases h

theorem start_inv (e : Environment) : Inv { environment := e } where
  pending := nofun
  listed := fun _ ⟨_, hkeys, _⟩ => nomatch hkeys
  current := fun _ ⟨_, hkeys, _⟩ => nomatch hkeys

theorem dirtyVariables_getVariableUpdate (h : step c .getVariableUpdate = some (d, es)) :
    d.environment.dirtyVariables = false := by
  simp only [step] at h
  split at h
  · split at h <;> obtain ⟨rfl, -⟩ := Prod.mk.inj (Option.some.inj h) <;> rfl
  · cases h

theorem dirtyVariables_getVariable (h : step c .getVariable = some (d, es)) :
    d.environment.dirtyVariables = c.environment.dirtyVariables := by
  simp only [step] at h
  split at h
  · cases h
  · obtain ⟨rfl, -⟩ := Prod.mk.inj (Option.some.inj h)
    rfl

theorem dirtyVariables_reads (h : c.environment.dirtyVariables = false) (n : Nat) :
    (run step c (.replicate n .getVariable)).1.environment.dirtyVariables = false := by
  induction n generalizing c with
  | zero => exact h
  | succ n ih =>
    rw [List.replicate_succ]
    rcases hread : step c .getVariable with _ | ⟨d, es⟩
    · rwa [run_cons_none hread]
    · rw [run_cons_some hread]
      exact ih (by rw [dirtyVariables_getVariable hread, h])

/-- A poll that is answered, and the reads it asks for, bring every copy up to date. -/
theorem current_of_poll (hc : c.Inv) (n : Nat) {key : String}
    (hpoll : step c .getVariableUpdate = some (d, es)) {f : Core}
    (hf : f = (run step d (.replicate n .getVariable)).1) (hpending : f.pending = [])
    (hkey : f.Registered key) : f.Current key := by
  have hclean : f.environment.dirtyVariables = false := by
    rw [hf]; exact dirtyVariables_reads (dirtyVariables_getVariableUpdate hpoll) n
  have hinv : f.Inv := by
    rw [hf]; exact run_inv step_inv (step_inv hc hpoll) _
  rcases hinv.current key hkey (by simp [hpending]) with hcurrent | hdirty
  · exact hcurrent
  · rw [hclean] at hdirty; cases hdirty

end Core

/-- What a session starts with in a fresh process, before anyone has accessed the options. -/
def fresh (o : Sessions.Options) : Environment := (({} : Sessions.Process).beginCreate o).environment

theorem dirtyVariables_fresh (o : Sessions.Options) : (fresh o).dirtyVariables = false := by
  simp only [fresh, Sessions.Process.beginCreate, Environment.setLanguage_eq]
  rfl

/-! ### The accesses of a session -/

/-- What the options are answered from. -/
def optionState (e : Environment) : VariableMap × Bool := (e.variableMap, e.dirtyVariables)

theorem optionState_access {e f : Environment} (h : optionState e = optionState f) (a : Access) :
    optionState (e.access a).1 = optionState (f.access a).1 := by
  obtain ⟨hmap, hdirty⟩ := Prod.mk.inj h
  cases a with
  | callbackEnvironment cmd =>
    cases cmd
    case setVariables received =>
      simp [optionState, Environment.access, Environment.handleCallbackEnvironment,
        Environment.handleSetVariables, hmap, hdirty]
    case getVariableUpdate => exact Prod.ext hmap rfl
    all_goals exact h
  | callbackSetRumbleState port effect strength =>
    simp only [Environment.access, Environment.handleCallbackSetRumbleState]
    split <;> exact h
  | updateVariable key value =>
    simp only [Environment.access, Environment.updateVariable, hmap]
    split
    · rfl
    · exact Prod.ext rfl hdirty
  | getVariables | getControllers | availableDisks => exact h

theorem optionState_accesses {e f : Environment} (h : optionState e = optionState f) (as : List Access) :
    optionState (e.accesses as).1 = optionState (f.accesses as).1 := by
  induction as generalizing e f with
  | nil => exact h
  | cons a as ih => exact ih (optionState_access h a)

/-- The steps of a session touch the options by their accesses only. -/
theorem optionState_acts (p : Sessions.Process) (as : List Sessions.Action) :
    optionState (p.acts as).1.environment =
      optionState (p.environment.accesses (as.flatMap Sessions.Action.accesses)).1 := by
  induction as generalizing p with
  | nil => rfl
  | cons a as ih =>
    obtain ⟨_, _, hact⟩ := p.act_environment a
    rw [List.flatMap_cons, Environment.accesses_append]
    exact (ih (p.act a).1).trans (optionState_accesses (by rw [hact]; rfl) _)

/-- What the Java side has set is what the core reads; a poll tells whether a value has changed since the
last one; and a core that reads all its keys when it is told to is up to date after the poll. Only what the first
poll of a process tells rests on what was there before. A session reaches the options by these accesses only. -/
theorem options_protocol (o : Sessions.Options) :
    (∀ (e : Environment) as key value, lastWrite (Access.update? key) as = some value → value ≠ "" →
      ((e.accesses as).1.access (.callbackEnvironment (.getVariable key))).2 =
        .callbackEnvironment true (.string value)) ∧
    (∀ as, ∃ updated,
      (((fresh o).accesses as).1.access (.callbackEnvironment .getVariableUpdate)).2 =
        .callbackEnvironment true (.bool updated) ∧
      (updated = true ↔ (fresh o).ChangedSince as)) ∧
    (∀ (e : Environment) moves n c d f es, c = (run Core.step { environment := e } moves).1 →
      Core.step c .getVariableUpdate = some (d, es) →
      f = (run Core.step d (.replicate n .getVariable)).1 → f.pending = [] →
      ∀ key, f.Registered key → f.Current key) ∧
    (∀ (e : Environment) moves c, c = (run Core.step { environment := e } moves).1 →
      ∀ key, c.Registered key → key ∉ c.pending →
        c.Current key ∨ c.environment.dirtyVariables = true) ∧
    ∀ (p : Sessions.Process) as, optionState (p.acts as).1.environment =
      optionState (p.environment.accesses (as.flatMap Sessions.Action.accesses)).1 := by
  refine ⟨?_, ?_, ?_, ?_, optionState_acts⟩
  · intro e as key value hlast hvalue
    obtain ⟨hlisted, hstored⟩ := e.accesses_holds as hvalue (.inl hlast)
    simp [Environment.access, Environment.handleCallbackEnvironment,
      Environment.handleGetVariable_of_listed _ hlisted, hstored]
  · intro as
    refine ⟨((fresh o).accesses as).1.dirtyVariables, rfl, ?_⟩
    rw [Environment.accesses_dirtyVariables_iff, dirtyVariables_fresh]
    simp
  · intro e moves n c d f es hc hpoll hf hpending key hkey
    have hinv : c.Inv := by
      rw [hc]; exact run_inv Core.step_inv (Core.start_inv _) moves
    exact Core.current_of_poll hinv n hpoll hf hpending hkey
  · intro e moves c hc key hkey hpending
    have hinv : c.Inv := by
      rw [hc]; exact run_inv Core.step_inv (Core.start_inv _) moves
    exact hinv.current key hkey hpending

end CoreOptions
end SweetHome
