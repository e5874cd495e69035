import SweetHome.OptionParsing

/-!
# The store of the options

`variables[key]` makes an entry for a key that is not there, and `updateVariable` fills in the key only of
the copy that it writes back. An empty value for a new key is not written back: the entry stays without its
key, and the listing that is sorted by keys shows it under the empty one.
-/

namespace SweetHome
open Step

namespace VariableMap

def Distinct (map : VariableMap) : Prop := (map.map Prod.fst).Nodup

def Keyed (map : VariableMap) : Prop := ∀ key v, map.lookup key = some v → v.key = key

variable {map : VariableMap} {key : String} {v : Variable}

theorem lookup_eq_some_iff (h : map.Distinct) : map.lookup key = some v ↔ (key, v) ∈ map := by
  induction map with
  | nil => simp
  | cons entry map ih =>
    rcases entry with ⟨key', v'⟩
    obtain ⟨hnew, hmap⟩ := List.nodup_cons.1 h
    rw [List.lookup_cons, List.mem_cons]
    by_cases hkey : key = key'
    · subst hkey
      have hother : (key, v) ∉ map := fun hmem => hnew (List.mem_map.2 ⟨_, hmem, rfl⟩)
      simp [hother, eq_comm]
    · rw [beq_false_of_ne hkey]
      simpa [hkey] using ih hmap

theorem assign_distinct (h : map.Distinct) (key : String) (v : Variable) : (map.assign key v).Distinct := by
  unfold assign Distinct
  rw [List.map_cons, List.nodup_cons]
  refine ⟨by simp, ?_⟩
  exact h.sublist (List.filter_sublist.map Prod.fst)

theorem foldl_receive_distinct (h : map.Distinct) (received : List RetroVariable) :
    (received.foldl VariableMap.receive map).Distinct := by
  induction received generalizing map with
  | nil => exact h
  | cons r received ih => exact ih (assign_distinct h r.key _)

theorem assign_keyed (h : map.Keyed) (hv : v.key = key) : (map.assign key v).Keyed := by
  intro other w hw
  rw [lookup_assign] at hw
  split at hw
  · rename_i hother
    rw [← Option.some.inj hw, hv, hother]
  · exact h other w hw

theorem foldl_receive_keyed (h : map.Keyed) (received : List RetroVariable) :
    (received.foldl VariableMap.receive map).Keyed := by
  induction received generalizing map with
  | nil => exact h
  | cons r received ih => exact ih (assign_keyed h rfl)

end VariableMap

namespace Environment
variable {e : Environment} {a : Access}

/-- An empty value for a key, other than the empty one, that is not stored. -/
def LeavesUnkeyed (e : Environment) : Access → Prop
  | .updateVariable key value => value = "" ∧ key ≠ "" ∧ ¬ e.Listed key
  | _ => False

theorem updateVariable_keyed_iff (h : e.variableMap.Keyed) (key value : String) :
    (e.updateVariable key value).variableMap.Keyed ↔ ¬ e.LeavesUnkeyed (.updateVariable key value) := by
  unfold updateVariable LeavesUnkeyed Listed
  dsimp only
  rcases hfound : e.variableMap.lookup key with _ | v
  · have hcurrent : e.variableMap.current key = {} := by rw [VariableMap.current, hfound]; rfl
    rw [hcurrent]
    by_cases hvalue : value = ""
    · rw [if_neg (by simp [hvalue])]
      by_cases hkey : key = ""
      · simpa [hkey] using VariableMap.assign_keyed (v := {}) h hkey.symm
      · refine iff_of_false ?_ (by simp [hvalue, hkey])
        intro hkeyed
        refine hkey (hkeyed key {} ?_).symm
        simp [VariableMap.lookup_assign]
    · rw [if_pos hvalue]
      refine iff_of_true (VariableMap.assign_keyed h rfl) (by simp [hvalue])
  · have hcurrent : e.variableMap.current key = v := by rw [VariableMap.current, hfound]; rfl
    refine iff_of_true ?_ (by simp)
    rw [hcurrent]
    split
    · exact VariableMap.assign_keyed h rfl
    · exact VariableMap.assign_keyed h (h key v hfound)

theorem access_keyed_iff (h : e.variableMap.Keyed) :
    (e.access a).1.variableMap.Keyed ↔ ¬ e.LeavesUnkeyed a := by
  have heffect := e.access_effect a
  generalize hf : (e.access a).1 = f at heffect ⊢
  cases heffect
  case updateVariable key value => exact updateVariable_keyed_iff h key value
  case setVariables received => exact iff_of_true (VariableMap.foldl_receive_keyed h received) id
  case quiet hquiet =>
    refine iff_of_true h ?_
    cases a with
    | updateVariable key value => exact absurd trivial hquiet.touchesVariables
    | _ => exact id
  all_goals exact iff_of_true h id

theorem access_distinct (h : e.variableMap.Distinct) : (e.access a).1.variableMap.Distinct := by
  have heffect := e.access_effect a
  generalize (e.access a).1 = f at heffect ⊢
  cases heffect
  case updateVariable key value =>
    unfold updateVariable
    dsimp only
    split <;> exact VariableMap.assign_distinct h key _
  case setVariables received => exact VariableMap.foldl_receive_distinct h received
  all_goals exact h

/-! ### The listing -/

instance : Std.Total fun v1 v2 : Variable => v1.key ≤ v2.key := ⟨fun v1 v2 => String.le_total v1.key v2.key⟩

instance : IsTrans Variable fun v1 v2 => v1.key ≤ v2.key := ⟨fun _ _ _ => String.le_trans⟩

/-- Nothing that the environment answers with tells the two apart; the order of the entries may differ. -/
def Same (e f : Environment) : Prop :=
  (∀ key, f.variableMap.lookup key = e.variableMap.lookup key) ∧ { f with variableMap := e.variableMap } = e

structure WellKept (e : Environment) : Prop where
  keyed : e.variableMap.Keyed
  listed : ∀ v, v ∈ e.getVariables ↔ e.variableMap.lookup v.key = some v
  one : (e.getVariables.map Variable.key).Perm (e.variableMap.map Prod.fst)
  increasing : (e.getVariables.map Variable.key).Pairwise (· < ·)
  writtenBack : ∀ v ∈ e.getVariables, Same e (e.updateVariable v.key v.value)

theorem mem_getVariables (e : Environment) (v : Variable) :
    v ∈ e.getVariables ↔ ∃ key, (key, v) ∈ e.variableMap := by
  simp [getVariables, List.mem_insertionSort]

theorem updateVariable_same {v : Variable} (h : e.variableMap.lookup v.key = some v) :
    Same e (e.updateVariable v.key v.value) := by
  have hcurrent : e.variableMap.current v.key = v := by rw [VariableMap.current, h]; rfl
  have hupdate : e.updateVariable v.key v.value =
      { e with variableMap := e.variableMap.assign v.key v } := by
    simp [updateVariable, hcurrent]
  rw [hupdate]
  refine ⟨?_, rfl⟩
  intro key
  rw [VariableMap.lookup_assign]
  split
  · rename_i hkey; rw [hkey, h]
  · rfl

theorem wellKept_of_keyed (hdistinct : e.variableMap.Distinct) (hkeyed : e.variableMap.Keyed) : e.WellKept := by
  have hkey : ∀ {key v}, (key, v) ∈ e.variableMap → v.key = key := fun h =>
    hkeyed _ _ ((VariableMap.lookup_eq_some_iff hdistinct).2 h)
  have hlisted : ∀ v, v ∈ e.getVariables ↔ e.variableMap.lookup v.key = some v := by
    intro v
    rw [mem_getVariables, VariableMap.lookup_eq_some_iff hdistinct]
    constructor
    · rintro ⟨key, hmem⟩
      rwa [hkey hmem]
    · exact fun hmem => ⟨v.key, hmem⟩
  have hone : (e.getVariables.map Variable.key).Perm (e.variableMap.map Prod.fst) := by
    have hperm := (List.perm_insertionSort (fun v1 v2 : Variable => v1.key ≤ v2.key)
      (e.variableMap.map Prod.snd)).map Variable.key
    rw [List.map_map] at hperm
    have hkeys : e.variableMap.map (Variable.key ∘ Prod.snd) = e.variableMap.map Prod.fst :=
      List.map_congr_left fun entry hentry => hkey hentry
    rwa [hkeys] at hperm
  refine ⟨hkeyed, hlisted, hone, ?_, ?_⟩
  · have hsorted : (e.getVariables.map Variable.key).Pairwise (· ≤ ·) :=
      List.pairwise_map.2 (List.pairwise_insertionSort _ _)
    have hnodup : (e.getVariables.map Variable.key).Nodup := hone.nodup_iff.2 hdistinct
    exact (hsorted.and hnodup).imp fun h => String.not_le.1 fun hle => h.2 (String.le_antisymm h.1 hle)
  · intro v hv
    exact updateVariable_same ((hlisted v).1 hv)

/-! ### Runs -/

/-- The accesses one after the other, as a total step. -/
def accessStep : Step Environment Access Reply := fun e a => some ((e.access a).1, [(e.access a).2])

def StaysKept (as : List Access) : Prop := Along accessStep (fun _ _ f _ => f.WellKept) {} as

/-- The store stays well kept in the runs in which no new key, other than the empty one, is given an empty
value, and in no others. -/
theorem staysKept_iff (as : List Access) :
    StaysKept as ↔ Along accessStep (fun e a _ _ => ¬ e.LeavesUnkeyed a) {} as := by
  refine along_iff (I := fun e => e.variableMap.Distinct ∧ e.variableMap.Keyed) ?_ ?_ ?_ as
  · rintro e a f es ⟨hdistinct, hkeyed⟩ ⟨⟩
    rw [← access_keyed_iff hkeyed]
    exact ⟨fun hkept => hkept.keyed, fun hkeyed' => wellKept_of_keyed (access_distinct hdistinct) hkeyed'⟩
  · rintro e a f es ⟨hdistinct, hkeyed⟩ ⟨⟩ hkeeps
    exact ⟨access_distinct hdistinct, (access_keyed_iff hkeyed).2 hkeeps⟩
  · exact ⟨List.nodup_nil, by rintro _ _ ⟨⟩⟩

/-- A new key with an empty value: the listing does not show it. -/
theorem not_staysKept_empty : ¬ StaysKept [.updateVariable "core_renderer" ""] := by
  intro h
  obtain ⟨hkept, -⟩ := h
  have hkeyed := hkept.keyed "core_renderer" {} rfl
  revert hkeyed
  decide

end Environment
end SweetHome
