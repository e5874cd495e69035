import Mathlib.Data.List.Basic

/-!
# Descriptor tables

A table of small numbers, each free or owned by an `ω`. A new entry takes the lowest free number, as
`open` and `dup` do; freeing a number that is free already changes nothing. `closeAll` closes a list
of numbers in order and tells whose descriptors that closed.
-/

namespace SweetHome

structure FdTable (ω : Type) where
  entries : List (Option ω)
deriving DecidableEq, Repr

namespace FdTable
variable {ω : Type}

def get (t : FdTable ω) (n : Nat) : Option ω := t.entries[n]?.join

def lowest (t : FdTable ω) : Nat := t.entries.findIdx (·.isNone)

def alloc (t : FdTable ω) (o : ω) : FdTable ω :=
  ⟨if t.lowest < t.entries.length then t.entries.set t.lowest (some o) else t.entries ++ [some o]⟩

def free (t : FdTable ω) (n : Nat) : FdTable ω := ⟨t.entries.set n none⟩

def closeAll : List Nat → FdTable ω → FdTable ω × List ω
  | [], t => (t, [])
  | n :: ns, t =>
    let (t', closed) := closeAll ns (t.free n)
    (t', (t.get n).toList ++ closed)

variable (t : FdTable ω) (o : ω) (m n : Nat)

theorem lowest_le : t.lowest ≤ t.entries.length := List.findIdx_le_length

@[simp] theorem get_lowest : t.get t.lowest = none := by
  rcases h : t.entries[t.lowest]? with _ | e
  · simp [get, h]
  · obtain ⟨hlt, rfl⟩ := List.getElem?_eq_some_iff.1 h
    have hnone : t.entries[t.lowest].isNone = true :=
      List.findIdx_getElem (p := fun e : Option ω => e.isNone) (w := hlt)
    simpa [get, h] using hnone

theorem get_alloc : (t.alloc o).get m = if m = t.lowest then some o else t.get m := by
  have hle := t.lowest_le
  unfold alloc get
  split
  · rw [List.getElem?_set]
    rcases eq_or_ne m t.lowest with rfl | hm
    · simp [*]
    · simp [hm, hm.symm]
  · have hlow : t.lowest = t.entries.length := by omega
    rcases Nat.lt_trichotomy m t.entries.length with hm | rfl | hm
    · rw [List.getElem?_append_left hm, if_neg (by omega)]
    · simp [hlow]
    · rw [List.getElem?_eq_none (by simp; omega), List.getElem?_eq_none (by omega), if_neg (by omega)]

@[simp] theorem get_alloc_lowest : (t.alloc o).get t.lowest = some o := by simp [get_alloc]

variable {t m} in
theorem get_alloc_of_some {o' : ω} (h : t.get m = some o') : (t.alloc o).get m = some o' := by
  rw [get_alloc, if_neg, h]
  rintro rfl
  rw [get_lowest] at h
  cases h

theorem get_free : (t.free n).get m = if m = n then none else t.get m := by
  unfold free get
  rw [List.getElem?_set]
  rcases eq_or_ne m n with rfl | h
  · by_cases hlt : m < t.entries.length <;> simp [hlt]
  · simp [h, h.symm]

@[simp] theorem get_free_self : (t.free n).get n = none := by simp [get_free]

variable {m n} in
@[simp] theorem get_free_of_ne (h : m ≠ n) : (t.free n).get m = t.get m := by simp [get_free, h]

theorem get_closeAll (ns : List Nat) :
    (closeAll ns t).1.get m = if m ∈ ns then none else t.get m := by
  induction ns generalizing t with
  | nil => rfl
  | cons n ns ih =>
    show (closeAll ns (t.free n)).1.get m = _
    rw [ih, get_free]
    by_cases hn : m = n <;> by_cases hmem : m ∈ ns <;> simp [hn, hmem]

/-- Closing distinct numbers closes the descriptors that the table has there. -/
theorem closed_closeAll {ns : List Nat} (h : ns.Nodup) : (closeAll ns t).2 = ns.filterMap t.get := by
  induction ns generalizing t with
  | nil => rfl
  | cons n ns ih =>
    obtain ⟨hn, hns⟩ := List.nodup_cons.1 h
    show (t.get n).toList ++ (closeAll ns (t.free n)).2 = _
    have hcongr : ns.filterMap (t.free n).get = ns.filterMap t.get :=
      List.filterMap_congr fun m hm => get_free_of_ne t fun heq => hn (heq ▸ hm)
    rw [ih _ hns, hcongr, List.filterMap_cons]
    cases t.get n <;> rfl

end FdTable
end SweetHome
