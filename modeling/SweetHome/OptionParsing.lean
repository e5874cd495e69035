import SweetHome.CoreOptions

/-!
# The descriptions of the options

`SET_VARIABLES` as it is on the strings that the core passes: the first value is cut out between positions
that `find` returned and nobody looked at. `substr` throws when the first of them is past the end, which is
the case of an empty string and of one that ends with its first semicolon.
-/

namespace SweetHome

/-! ### Strings of the core -/

/-- A string that the core passes, as `std::string` holds it. A `char` is the `Char` with its code, so that
positions count bytes. -/
structure CString where
  text : String
  length_lt : text.length < 2 ^ 63

namespace CString

/-- `std::string::npos` -/
def npos : Nat := 2 ^ 64 - 1

/-- `find(c, pos)` -/
def find (value : CString) (c : Char) (pos : Nat) : Nat :=
  match (value.text.toList.drop pos).idxOf? c with
  | some i => pos + i
  | none => npos

/-- `substr(pos, count)`; `none` is `std::out_of_range`. -/
def substr (value : CString) (pos count : Nat) : Option String :=
  if pos ≤ value.text.length then some (String.ofList ((value.text.toList.drop pos).take count)) else none

def firstValue (value : CString) : Option String :=
  -- `npos + 2` wraps
  let firstValueStart := (value.find ';' 0 + 2) % 2 ^ 64
  let firstValueEnd := value.find '|' firstValueStart
  value.substr firstValueStart ((firstValueEnd + 2 ^ 64 - firstValueStart) % 2 ^ 64)

/-- The string is `"D; V1|...|Vn"`, with `V1` the value. -/
def Describes (value : CString) (V1 : String) : Prop :=
  ∃ D rest, value.text.toList = D ++ ';' :: ' ' :: (V1.toList ++ rest) ∧ ';' ∉ D ∧ '|' ∉ V1.toList ∧
    (rest = [] ∨ ∃ others, rest = '|' :: others)

/-- There is text, and more of it after the first semicolon. -/
def Parsable (value : CString) : Prop :=
  value.text.toList ≠ [] ∧ ∀ D, ';' ∉ D → value.text.toList ≠ D ++ [';']

variable (value : CString)

def start : Nat := if ';' ∈ value.text.toList then value.text.toList.idxOf ';' + 2 else 1

theorem find_semicolon : (value.find ';' 0 + 2) % 2 ^ 64 = value.start := by
  have hlength := value.length_lt
  unfold find start
  rw [List.drop_zero]
  split
  · rename_i i hi
    obtain ⟨hlt, hget, hbefore⟩ := List.idxOf?_eq_some_iff.1 hi
    have hmem : ';' ∈ value.text.toList := hget ▸ List.getElem_mem hlt
    have hidx : value.text.toList.idxOf ';' = i := by
      rw [List.idxOf_eq_getD_idxOf?, hi]; rfl
    rw [if_pos hmem, hidx, Nat.mod_eq_of_lt (by rw [String.length_toList] at hlt; omega), Nat.zero_add]
  · rename_i hnone
    rw [if_neg (List.idxOf?_eq_none_iff.1 hnone)]
    rfl

theorem takeWhile_ne (l : List Char) (c : Char) : l.takeWhile (· ≠ c) = l.take (l.idxOf c) := by
  rw [List.takeWhile_eq_take_findIdx_not, List.idxOf]
  congr 2
  funext a
  by_cases h : a = c <;> simp [h]

/-- Up to the bar, or to the end where there is none. -/
theorem take_find (h : value.start ≤ value.text.length) :
    (value.text.toList.drop value.start).take
        ((value.find '|' value.start + 2 ^ 64 - value.start) % 2 ^ 64) =
      (value.text.toList.drop value.start).takeWhile (· ≠ '|') := by
  have hlength := value.length_lt
  have hrest : (value.text.toList.drop value.start).length ≤ value.text.length - value.start := by
    rw [List.length_drop, String.length_toList]
  rw [takeWhile_ne]
  unfold find
  split
  · rename_i i hi
    obtain ⟨hlt, -⟩ := List.idxOf?_eq_some_iff.1 hi
    have hcount : (value.start + i + 2 ^ 64 - value.start) % 2 ^ 64 = i := by omega
    rw [hcount, List.idxOf_eq_getD_idxOf?, hi]
    rfl
  · rename_i hnone
    have hall : value.text.length - value.start ≤ (npos + 2 ^ 64 - value.start) % 2 ^ 64 := by
      unfold npos; omega
    rw [List.take_of_length_le (hrest.trans hall),
      List.idxOf_of_notMem (List.idxOf?_eq_none_iff.1 hnone), List.take_length]

theorem firstValue_eq : value.firstValue =
    if value.start ≤ value.text.length then
      some (String.ofList ((value.text.toList.drop value.start).takeWhile (· ≠ '|')))
    else none := by
  simp only [firstValue, substr, find_semicolon]
  split
  · rename_i h; rw [take_find value h]
  · rfl

theorem start_eq {D rest : List Char} (h : value.text.toList = D ++ ';' :: rest) (hD : ';' ∉ D) :
    value.start = D.length + 2 := by
  unfold start
  rw [h, if_pos (by simp), List.idxOf_append_of_notMem hD, List.idxOf_cons_self]

theorem start_le_iff : value.start ≤ value.text.length ↔ value.Parsable := by
  rw [← String.length_toList]
  by_cases hmem : ';' ∈ value.text.toList
  · obtain ⟨D, rest, htext, hD⟩ := List.eq_append_cons_of_mem hmem
    constructor
    · intro hle
      refine ⟨List.ne_nil_of_mem hmem, ?_⟩
      intro D' hD' heq
      rw [start_eq value heq hD', heq] at hle
      simp at hle
    · rintro ⟨-, hlast⟩
      rw [start_eq value htext hD, htext]
      rcases rest with _ | ⟨c, rest⟩
      · exact absurd htext (hlast D hD)
      · simp
  · rw [start, if_neg hmem, Parsable, Nat.one_le_iff_ne_zero, Ne, List.length_eq_zero_iff]
    refine ⟨fun h => ⟨h, ?_⟩, And.left⟩
    rintro D - htext
    exact hmem (htext ▸ by simp)

theorem firstValue_of_describes {V1 : String} (h : value.Describes V1) : value.firstValue = some V1 := by
  obtain ⟨D, rest, htext, hD, hV1, hrest⟩ := h
  have hstart := start_eq value htext hD
  have hlength : value.text.length = D.length + 2 + (V1.toList ++ rest).length := by
    rw [← String.length_toList, htext]; simp; omega
  have hdrop : value.text.toList.drop value.start = V1.toList ++ rest := by
    rw [hstart, htext]; simp
  have hrest' : rest.takeWhile (· ≠ '|') = [] := by
    rcases hrest with rfl | ⟨others, rfl⟩ <;> simp
  rw [firstValue_eq, if_pos (by omega), hdrop, List.takeWhile_append_of_pos, hrest', List.append_nil,
    String.ofList_toList]
  intro c hc
  have hne : c ≠ '|' := ne_of_mem_of_not_mem hc hV1
  simpa using hne

theorem firstValue_eq_none_iff : value.firstValue = none ↔ ¬ value.Parsable := by
  rw [firstValue_eq, ← start_le_iff]
  split <;> simp [*]

end CString

/-! ### The loop -/

/-- An entry of `retro_variable`, with whatever strings the core passes. -/
structure RawVariable where
  key : String
  value : CString

/-- The entry as the environment takes it, once nothing of it is out of range. -/
def RawVariable.parsed (received : RawVariable) (h : received.value.Parsable) : RetroVariable where
  key := received.key
  value := received.value.text
  wf := received.value.start_le_iff.2 h

theorem RawVariable.firstValue_parsed (received : RawVariable) (h : received.value.Parsable) :
    received.value.firstValue = some (received.parsed h).firstValue := by
  rw [CString.firstValue_eq, if_pos (received.value.start_le_iff.2 h)]
  rfl

namespace OptionParsing

structure Handled where
  variableMap : VariableMap
  count : Nat
  /-- Whether `std::out_of_range` has left the loop. -/
  thrown : Bool

/-- One round of the loop; `none` where it throws, which is before it writes. -/
def receive (variableMap : VariableMap) (received : RawVariable) : Option VariableMap :=
  match received.value.firstValue with
  | none => none
  | some value =>
    let currentVariable := variableMap.current received.key
    some (variableMap.assign received.key
      { key := received.key
        description := received.value.text
        value := if currentVariable.value = "" then value else currentVariable.value })

/-- The loop over the entries before the null key. -/
def environmentHandleSetVariables (variableMap : VariableMap) (count : Nat) : List RawVariable → Handled
  | [] => { variableMap, count, thrown := false }
  | received :: rest =>
    match receive variableMap received with
    | none => { variableMap, count, thrown := true }
    | some variableMap => environmentHandleSetVariables variableMap (count + 1) rest

variable (variableMap : VariableMap) (count : Nat) (received : List RawVariable)

theorem receive_eq_none_iff (entry : RawVariable) : receive variableMap entry = none ↔ ¬ entry.value.Parsable := by
  rw [← CString.firstValue_eq_none_iff]
  unfold receive
  split <;> simp [*]

theorem receive_parsed (entry : RawVariable) (h : entry.value.Parsable) :
    receive variableMap entry = some (variableMap.receive (entry.parsed h)) := by
  unfold receive
  rw [entry.firstValue_parsed h]
  rfl

/-- The loop goes through parsable entries as the environment does, and then on. -/
theorem environmentHandleSetVariables_append (rest : List RawVariable)
    (h : ∀ entry ∈ received, entry.value.Parsable) :
    environmentHandleSetVariables variableMap count (received ++ rest) =
      environmentHandleSetVariables ((received.pmap RawVariable.parsed h).foldl VariableMap.receive variableMap)
        (count + received.length) rest := by
  induction received generalizing variableMap count with
  | nil => rfl
  | cons entry received ih =>
    obtain ⟨hentry, hreceived⟩ := List.forall_mem_cons.1 h
    rw [List.cons_append, environmentHandleSetVariables, receive_parsed variableMap entry hentry]
    dsimp only
    rw [ih _ _ hreceived, List.pmap_cons, List.foldl_cons, List.length_cons, Nat.add_right_comm, Nat.add_assoc]

theorem environmentHandleSetVariables_parsed (h : ∀ entry ∈ received, entry.value.Parsable) :
    environmentHandleSetVariables variableMap 0 received =
      { variableMap := (received.pmap RawVariable.parsed h).foldl VariableMap.receive variableMap
        count := received.length
        thrown := false } := by
  have happend := environmentHandleSetVariables_append variableMap 0 received [] h
  rwa [List.append_nil, Nat.zero_add] at happend

theorem thrown_iff : (environmentHandleSetVariables variableMap count received).thrown = false ↔
    ∀ entry ∈ received, entry.value.Parsable := by
  induction received generalizing variableMap count with
  | nil => simp [environmentHandleSetVariables]
  | cons entry received ih =>
    rw [List.forall_mem_cons]
    by_cases hentry : entry.value.Parsable
    · rw [environmentHandleSetVariables, receive_parsed variableMap entry hentry]
      exact (ih _ _).trans (iff_and_self.2 fun _ => hentry)
    · rw [environmentHandleSetVariables, (receive_eq_none_iff variableMap entry).2 hentry]
      simp [hentry]

/-! ### What the loop is to do -/

/-- An entry goes on until its key is listed again. -/
structure ParsesAll : Prop where
  notThrown : (environmentHandleSetVariables variableMap 0 received).thrown = false
  processed : (environmentHandleSetVariables variableMap 0 received).count = received.length
  described : ∀ before entry middle after V1, received = before ++ entry :: (middle ++ after) →
    entry.value.Describes V1 → entry.key ∉ middle.map RawVariable.key →
      (environmentHandleSetVariables variableMap 0 (before ++ entry :: middle)).variableMap.lookup entry.key =
        let current := (environmentHandleSetVariables variableMap 0 before).variableMap.current entry.key
        some
          { key := entry.key
            description := entry.value.text
            value := if current.value = "" then V1 else current.value }
  unlisted : ∀ key, key ∉ received.map RawVariable.key →
    (environmentHandleSetVariables variableMap 0 received).variableMap.lookup key = variableMap.lookup key

theorem lookup_foldl_receive (parsed : List RetroVariable) {key : String}
    (h : key ∉ parsed.map RetroVariable.key) :
    (parsed.foldl VariableMap.receive variableMap).lookup key = variableMap.lookup key := by
  induction parsed generalizing variableMap with
  | nil => rfl
  | cons r parsed ih =>
    obtain ⟨hr, hparsed⟩ := not_or.1 (List.mem_cons.not.1 h)
    rw [List.foldl_cons, ih _ hparsed, VariableMap.receive, VariableMap.lookup_assign, if_neg hr]

theorem key_pmap_parsed (h : ∀ entry ∈ received, entry.value.Parsable) :
    (received.pmap RawVariable.parsed h).map RetroVariable.key = received.map RawVariable.key := by
  rw [List.map_pmap]
  exact List.pmap_eq_map h

theorem described_of_parsable (before : List RawVariable) (entry : RawVariable) (middle : List RawVariable)
    (h : ∀ r ∈ before ++ entry :: middle, r.value.Parsable) {V1 : String} (hV1 : entry.value.Describes V1)
    (hmiddle : entry.key ∉ middle.map RawVariable.key) :
    (environmentHandleSetVariables variableMap 0 (before ++ entry :: middle)).variableMap.lookup entry.key =
      let current := (environmentHandleSetVariables variableMap 0 before).variableMap.current entry.key
      some
        { key := entry.key
          description := entry.value.text
          value := if current.value = "" then V1 else current.value } := by
  obtain ⟨hbefore, hrest⟩ := List.forall_mem_append.1 h
  obtain ⟨hentry, hmiddle'⟩ := List.forall_mem_cons.1 hrest
  have hfirst : (entry.parsed hentry).firstValue = V1 := by
    have hsome := entry.firstValue_parsed hentry
    rw [entry.value.firstValue_of_describes hV1] at hsome
    exact (Option.some.inj hsome).symm
  have hlast : entry.key ∉ (middle.pmap RawVariable.parsed hmiddle').map RetroVariable.key := by
    rwa [key_pmap_parsed]
  rw [environmentHandleSetVariables_parsed _ _ h, environmentHandleSetVariables_parsed _ _ hbefore]
  dsimp only
  rw [List.pmap_append, List.foldl_append, List.pmap_cons, List.foldl_cons, lookup_foldl_receive _ _ hlast,
    VariableMap.receive, VariableMap.lookup_assign, hfirst]
  exact if_pos rfl

/-- The loop does what it is to do exactly when each string has text, and more of it after its first
semicolon. -/
theorem parsesAll_iff : ParsesAll variableMap received ↔ ∀ entry ∈ received, entry.value.Parsable := by
  constructor
  · intro h
    exact (thrown_iff variableMap 0 received).1 h.notThrown
  · intro h
    have hhandled := environmentHandleSetVariables_parsed variableMap received h
    refine ⟨(thrown_iff variableMap 0 received).2 h, by rw [hhandled], ?_, ?_⟩
    · rintro before entry middle after V1 rfl hV1 hmiddle
      refine described_of_parsable variableMap before entry middle ?_ hV1 hmiddle
      intro r hr
      refine h r ?_
      simp only [List.mem_append, List.mem_cons] at hr ⊢
      tauto
    · intro key hkey
      rw [hhandled]
      exact lookup_foldl_receive variableMap _ (by rwa [key_pmap_parsed])

/-- A string that ends with its first semicolon is thrown at, and the entries after it are not reached. -/
theorem not_parsesAll_bare :
    ¬ ParsesAll []
      [⟨"core_renderer", ⟨"Renderer;", by decide⟩⟩, ⟨"core_speed", ⟨"Speed; full|half", by decide⟩⟩] := by
  intro h
  have hthrown := h.notThrown
  revert hthrown
  decide

end OptionParsing
end SweetHome
