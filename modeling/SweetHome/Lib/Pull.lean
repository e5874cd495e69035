import Mathlib.Data.List.Basic

/-!
# Streams that are pulled

A producer makes items a block at a time, and `Pull` holds what it has made and nobody has taken. `Takes` says that
items are the next ones of the stream, and how many blocks were made for them. It does not depend on how the requests
are split up: `Takes.trans` puts any two of them together.
-/

namespace SweetHome

/-- A producer, and what it has made that nobody has taken. -/
@[ext] structure Pull (σ α : Type) where
  made : List α
  producer : σ

namespace Pull
variable {σ α β : Type} (produce : σ → List α × σ)

/-- What the next blocks hold, and the producer after them. -/
def blocks : Nat → σ → List α × σ
  | 0, p => ([], p)
  | n + 1, p => ((produce p).1 ++ (blocks n (produce p).2).1, (blocks n (produce p).2).2)

theorem blocks_add (n m : Nat) (p : σ) : blocks produce (n + m) p =
    ((blocks produce n p).1 ++ (blocks produce m (blocks produce n p).2).1,
      (blocks produce m (blocks produce n p).2).2) := by
  induction n generalizing p with
  | zero => rw [Nat.zero_add]; rfl
  | succ n ih => rw [Nat.succ_add, blocks, ih, blocks, List.append_assoc]

theorem length_blocks {size : Nat} (h : ∀ p, (produce p).1.length = size) (n : Nat) (p : σ) :
    (blocks produce n p).1.length = n * size := by
  induction n generalizing p with
  | zero => exact (Nat.zero_mul size).symm
  | succ n ih => rw [blocks, List.length_append, h, ih, Nat.succ_mul, Nat.add_comm]

/-- The same producer, with every item written out. -/
theorem blocks_flatMap (f : α → List β) (n : Nat) (p : σ) :
    blocks (fun p => ((produce p).1.flatMap f, (produce p).2)) n p =
      ((blocks produce n p).1.flatMap f, (blocks produce n p).2) := by
  induction n generalizing p with
  | zero => rfl
  | succ n ih => rw [blocks, ih, blocks, List.flatMap_append]

/-- `items` are the next ones, and `n` blocks were made for them. -/
structure Takes (s : Pull σ α) (n : Nat) (items : List α) (t : Pull σ α) : Prop where
  items : s.made ++ (blocks produce n s.producer).1 = items ++ t.made
  producer : t.producer = (blocks produce n s.producer).2

namespace Takes
variable {produce} {s t u : Pull σ α} {n m : Nat} {xs ys : List α}

theorem refl (s : Pull σ α) : Takes produce s 0 [] s := ⟨List.append_nil _, rfl⟩

theorem trans (h : Takes produce s n xs t) (h' : Takes produce t m ys u) :
    Takes produce s (n + m) (xs ++ ys) u := by
  constructor
  · rw [blocks_add, ← List.append_assoc, h.items, List.append_assoc, ← h.producer, h'.items, List.append_assoc]
  · rw [blocks_add, ← h.producer, h'.producer]

theorem of_made (p : σ) (xs ys : List α) : Takes produce ⟨xs ++ ys, p⟩ 0 xs ⟨ys, p⟩ := ⟨List.append_nil _, rfl⟩

/-- A block goes to the one who asks for it. -/
theorem through (p : σ) : Takes produce ⟨[], p⟩ 1 (produce p).1 ⟨[], (produce p).2⟩ := ⟨rfl, rfl⟩

/-- A block is put by. -/
theorem reload (p : σ) : Takes produce ⟨[], p⟩ 1 [] ⟨(produce p).1, (produce p).2⟩ := ⟨List.append_nil _, rfl⟩

theorem length {size : Nat} (hsize : ∀ p, (produce p).1.length = size) (h : Takes produce s n xs t) :
    s.made.length + n * size = xs.length + t.made.length := by
  rw [← length_blocks produce hsize n s.producer, ← List.length_append, h.items, List.length_append]

end Takes

end Pull

end SweetHome
