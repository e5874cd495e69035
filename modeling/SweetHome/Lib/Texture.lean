import Mathlib.Data.Fin.VecNotation
import Mathlib.Data.List.Basic
import Mathlib.Logic.Function.Basic

/-!
# Textures uploaded from memory

Loops that rewrite an array in place, one cell of `c` bytes after the other, and two-dimensional
textures that are filled from memory, whole or row by row, and sampled through a swizzle of their
channels. `forLoop_inv` is the rule of such a loop, `forLoop_cells` says what it leaves at every
address, and `texel_subImage` what an upload leaves at every texel.
-/

namespace SweetHome

/-- `for (i = 0; i < n; i++) body` -/
def forLoop {σ : Type} (n : Nat) (body : Nat → σ → σ) (s : σ) : σ :=
  (List.range n).foldl (fun s i => body i s) s

theorem forLoop_succ {σ : Type} (n : Nat) (body : Nat → σ → σ) (s : σ) :
    forLoop (n + 1) body s = body n (forLoop n body s) := by
  simp [forLoop, List.range_succ]

/-- What each turn of a loop preserves holds at its end. -/
theorem forLoop_inv {σ : Type} {P : Nat → σ → Prop} {n : Nat} {body : Nat → σ → σ} {s : σ} (hs : P 0 s)
    (hbody : ∀ i s, i < n → P i s → P (i + 1) (body i s)) : P n (forLoop n body s) := by
  induction n with
  | zero => exact hs
  | succ n ih =>
    rw [forLoop_succ]
    exact hbody n _ (Nat.lt_succ_self n) (ih fun i s hi => hbody i s (Nat.lt_succ_of_lt hi))

/-- A loop with a body that can fail. -/
def forLoop? {σ : Type} (n : Nat) (body : Nat → σ → Option σ) (s : σ) : Option σ :=
  (List.range n).foldlM (fun s i => body i s) s

theorem forLoop?_eq {σ : Type} {n : Nat} {body? : Nat → σ → Option σ} {body : Nat → σ → σ}
    (h : ∀ i s, i < n → body? i s = some (body i s)) (s : σ) : forLoop? n body? s = some (forLoop n body s) := by
  induction n with
  | zero => rfl
  | succ n ih =>
    have hn := ih fun i s hi => h i s (Nat.lt_succ_of_lt hi)
    rw [forLoop?] at hn ⊢
    rw [List.range_succ, List.foldlM_append, hn, forLoop_succ, ← h n _ (Nat.lt_succ_self n)]
    exact bind_pure (body? n (forLoop n body s))

/-- The rule of a loop whose body does not fail as long as what it preserves holds. -/
theorem forLoop?_inv {σ : Type} {P : Nat → σ → Prop} {n : Nat} {body : Nat → σ → Option σ} {s : σ} (hs : P 0 s)
    (hbody : ∀ i s, i < n → P i s → ∃ s', body i s = some s' ∧ P (i + 1) s') :
    ∃ s', forLoop? n body s = some s' ∧ P n s' := by
  induction n with
  | zero => exact ⟨s, rfl, hs⟩
  | succ n ih =>
    obtain ⟨s', hloop, hs'⟩ := ih fun i s hi => hbody i s (Nat.lt_succ_of_lt hi)
    obtain ⟨s'', hlast, hs''⟩ := hbody n s' (Nat.lt_succ_self n) hs'
    refine ⟨s'', ?_, hs''⟩
    rw [forLoop?] at hloop ⊢
    rw [List.range_succ, List.foldlM_append, hloop]
    change List.foldlM (fun s i => body i s) s' [n] = some s''
    rw [List.foldlM_cons, hlast]
    rfl

section
variable {β : Type} {c : Nat}

def cell (c : Nat) (m : Nat → β) (i : Nat) : Fin c → β := fun k => m (c * i + k)

/-- `body` rewrites the cell of its index by `f` and leaves the others. -/
def RewritesCell (c : Nat) (f : (Fin c → β) → Fin c → β) (body : Nat → (Nat → β) → Nat → β) : Prop :=
  ∀ i m, cell c (body i m) i = f (cell c m i) ∧
    ∀ k, k ≠ i → cell c (body i m) k = cell c m k

/-- A loop over the first `n` cells rewrites each of them once. -/
theorem forLoop_cells {f : (Fin c → β) → Fin c → β} {body : Nat → (Nat → β) → Nat → β}
    (h : RewritesCell c f body) (n : Nat) (m : Nat → β) (i : Nat) :
    cell c (forLoop n body m) i = if i < n then f (cell c m i) else cell c m i := by
  induction n with
  | zero => simp [forLoop]
  | succ n ih =>
    obtain ⟨hcell, hother⟩ := h n (forLoop n body m)
    rw [forLoop_succ]
    rcases eq_or_ne i n with rfl | hne
    · rw [hcell, ih, if_neg (lt_irrefl i), if_pos (Nat.lt_succ_self i)]
    · rw [hother i hne, ih]
      have hiff : i < n + 1 ↔ i < n := by omega
      simp only [hiff]

/-- Two cells change places, and the others stay. -/
def SwapsCells (c i j : Nat) (m m' : Nat → β) : Prop :=
  cell c m' i = cell c m j ∧ cell c m' j = cell c m i ∧ ∀ k, k ≠ i → k ≠ j → cell c m' k = cell c m k

/-- The place of `i` when the first `n` are turned around. -/
def opposite (n i : Nat) : Nat := if i < n then n - 1 - i else i

theorem opposite_of_lt {n i : Nat} (h : i < n) : opposite n i = n - 1 - i := if_pos h

theorem opposite_of_le {n i : Nat} (h : n ≤ i) : opposite n i = i := if_neg (Nat.not_lt.2 h)

theorem opposite_opposite (n i : Nat) : opposite n (opposite n i) = i := by
  rcases Nat.lt_or_ge i n with hlt | hge
  · rw [opposite_of_lt hlt, opposite_of_lt (by omega)]
    omega
  · rw [opposite_of_le hge, opposite_of_le hge]

/-- A loop that swaps each of the first cells with its opposite turns them around; the one in the middle of an odd
number stays. -/
theorem forLoop_reverse {n : Nat} {body : Nat → (Nat → β) → Nat → β}
    (h : ∀ i m, i < n / 2 → SwapsCells c i (n - 1 - i) m (body i m)) (m : Nat → β) (i : Nat) :
    cell c (forLoop (n / 2) body m) i = cell c m (opposite n i) := by
  have hloop : ∀ i, cell c (forLoop (n / 2) body m) i =
      cell c m (if i < n / 2 ∨ n ≤ i + n / 2 ∧ i < n then n - 1 - i else i) := by
    refine forLoop_inv (P := fun k m' => ∀ i, cell c m' i =
      cell c m (if i < k ∨ n ≤ i + k ∧ i < n then n - 1 - i else i)) (fun i => ?_) fun k m' hk hm' i => ?_
    · rw [if_neg (by omega)]
    · obtain ⟨hfirst, hsecond, hother⟩ := h k m' hk
      rcases eq_or_ne i k with rfl | hne
      · rw [hfirst, hm', if_neg (by omega), if_pos (by omega)]
      · rcases eq_or_ne i (n - 1 - k) with rfl | hne'
        · rw [hsecond, hm', if_neg (by omega), if_pos (by omega)]
          congr 1
          omega
        · rw [hother i hne hne', hm']
          congr 2
          exact propext ⟨by omega, by omega⟩
  rw [hloop]
  rcases Nat.lt_or_ge i n with hlt | hge
  · rw [opposite_of_lt hlt]
    split
    · rfl
    · congr 1
      omega
  · rw [opposite_of_le hge, if_neg (by omega)]

/-- A loop over the cells of a buffer leaves its bytes exactly if `f` fixes each cell it reaches. -/
theorem forLoop_eq_iff {f : (Fin c → β) → Fin c → β} {body : Nat → (Nat → β) → Nat → β} (hc : 0 < c)
    (h : RewritesCell c f body) {n size : Nat} (hn : c * n ≤ size) (m : Nat → β) :
    (∀ a < size, forLoop n body m a = m a) ↔ ∀ i < n, f (cell c m i) = cell c m i := by
  have hcells := forLoop_cells h n m
  constructor
  · intro hsame i hi
    have hcell := hcells i
    rw [if_pos hi] at hcell
    rw [← hcell]
    funext k
    apply hsame
    calc c * i + k < c * (i + 1) := by rw [Nat.mul_succ]; omega
      _ ≤ c * n := Nat.mul_le_mul_left c hi
      _ ≤ size := hn
  · intro hfix a _
    have hcell := congrFun (hcells (a / c)) ⟨a % c, Nat.mod_lt a hc⟩
    have hkeeps : (if a / c < n then f (cell c m (a / c)) else cell c m (a / c)) = cell c m (a / c) := by
      split
      · next hlt => exact hfix _ hlt
      · rfl
    rw [hkeeps] at hcell
    simpa [cell, Nat.div_add_mod] using hcell

end

/-! ### Textures -/

structure Rgb where
  red : Nat
  green : Nat
  blue : Nat
deriving DecidableEq, Repr

inductive Channel where
  | red
  | green
  | blue
deriving DecidableEq, Repr

def Rgb.get (p : Rgb) : Channel → Nat
  | .red => p.red
  | .green => p.green
  | .blue => p.blue

structure Swizzle where
  red : Channel
  green : Channel
  blue : Channel
deriving DecidableEq, Repr

def Swizzle.identity : Swizzle := ⟨.red, .green, .blue⟩

structure Texture where
  width : Nat
  height : Nat
  texel : Nat → Nat → Rgb
  swizzle : Swizzle

namespace Texture

def sample (t : Texture) (x y : Nat) : Rgb :=
  ⟨(t.texel x y).get t.swizzle.red, (t.texel x y).get t.swizzle.green, (t.texel x y).get t.swizzle.blue⟩

/-- New storage of a size, with contents that are not defined. -/
def image (undefined : Nat → Nat → Rgb) (width height : Nat) (t : Texture) : Texture :=
  { t with width := width, height := height, texel := undefined }

/-- The upload of `height` rows from the row `yoffset` on; texels outside of the texture stay. -/
def subImage (yoffset width height : Nat) (source : Nat → Nat → Rgb) (t : Texture) : Texture :=
  { t with
    texel := fun x y =>
      if x < width ∧ yoffset ≤ y ∧ y < yoffset + height ∧ x < t.width ∧ y < t.height then
        source x (y - yoffset)
      else t.texel x y }

def unpackStride (alignment rowLength width bytesPerPixel : Nat) : Nat :=
  let pixels := if rowLength > 0 then rowLength else width
  (pixels * bytesPerPixel + (alignment - 1)) / alignment * alignment

variable {t : Texture} {x y : Nat}

theorem texel_subImage {yoffset width height : Nat} (source : Nat → Nat → Rgb) (hx : x < width)
    (hy : yoffset ≤ y) (hy' : y < yoffset + height) (htx : x < t.width) (hty : y < t.height) :
    (t.subImage yoffset width height source).texel x y = source x (y - yoffset) :=
  if_pos ⟨hx, hy, hy', htx, hty⟩

theorem subImage_subImage (yoffset width height : Nat) (source : Nat → Nat → Rgb) (t : Texture) :
    (t.subImage yoffset width height source).subImage yoffset width height source =
      t.subImage yoffset width height source := by
  simp only [subImage, mk.injEq, true_and, and_true]
  funext x y
  split
  · rfl
  · rfl

/-- Rows uploaded one by one are uploaded at once. -/
theorem forLoop_rows (width : Nat) (source : Nat → Nat → Rgb) (n : Nat) (t : Texture) :
    forLoop n (fun i t => t.subImage i width 1 fun x _ => source x i) t =
      t.subImage 0 width n source := by
  induction n with
  | zero => simp [forLoop, subImage]
  | succ n ih =>
    rw [forLoop_succ, ih]
    simp only [subImage, mk.injEq, true_and, and_true]
    funext x y
    rcases Nat.lt_trichotomy y n with hlt | rfl | hgt
    · have hlt' : y < n + 1 := by omega
      have hrow : ¬ n ≤ y := by omega
      simp [hlt, hlt', hrow]
    · simp
    · have hn : ¬ y < n := by omega
      have hn' : ¬ y < n + 1 := by omega
      simp [hn, hn']

theorem unpackStride_of_dvd {alignment rowLength width bytesPerPixel : Nat} (h : 0 < alignment)
    (hdvd : alignment ∣ bytesPerPixel) :
    unpackStride alignment rowLength width bytesPerPixel =
      (if rowLength > 0 then rowLength else width) * bytesPerPixel := by
  obtain ⟨k, rfl⟩ := hdvd
  unfold unpackStride
  simp only
  generalize (if rowLength > 0 then rowLength else width) = p
  have hdiv : (p * (alignment * k) + (alignment - 1)) / alignment = p * k := by
    rw [show p * (alignment * k) = alignment * (p * k) by ac_rfl, Nat.mul_add_div h,
      Nat.div_eq_of_lt (by omega), Nat.add_zero]
  rw [hdiv]
  ac_rfl

end Texture
end SweetHome
