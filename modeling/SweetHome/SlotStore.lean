import SweetHome.SaveStates

/-!
# The files of the save slots

A slot has a state, `save_slot_k.sav`, and the picture of it, `save_slot_k.png`. A save replaces the state
first. The picture comes later: from a callback of the GL thread, or from the capture that the save
dialog has left in `temp_screenshot.png`; it may be missing, and cropping a small one throws. The two
files stay a pair exactly if each of these ways finds no older picture to leave behind, nothing is
cropped that is too small, and nothing but the save itself has touched the slot when its picture comes
(`coherent_iff`).
-/

namespace SweetHome.SlotStore
open Step
open SaveStates (quickSlot)

/-! ### Pictures -/

/-- What is behind the bytes of a capture. -/
inductive Image where
  | undecodable
  | bitmap (width height : Nat)
deriving DecidableEq, Repr

/-- `Bitmap.createBitmap` throws where the rectangle is not inside the source. -/
def createBitmap (source : Nat × Nat) (x y width height : Int) : Option (Int × Int) :=
  if 0 ≤ x ∧ 0 ≤ y ∧ x + width ≤ source.1 ∧ y + height ≤ source.2 then some (width, height) else none

/-- The crop of a screenshot for its slot. -/
def crop (fullBitmap : Nat × Nat) : Option (Int × Int) :=
  let cropWidth := 1080
  let cropHeight := 828
  let cropLeft := 0
  let cropTop := ((fullBitmap.2 : Int) - cropHeight).tdiv 2
  createBitmap fullBitmap cropLeft cropTop cropWidth cropHeight

theorem crop_isSome_iff (fullBitmap : Nat × Nat) :
    (crop fullBitmap).isSome ↔ 1080 ≤ fullBitmap.1 ∧ 828 ≤ fullBitmap.2 := by
  obtain ⟨width, height⟩ := fullBitmap
  have htdiv : ((height : Int) - 828).tdiv 2 =
      if 828 ≤ height then ((height : Int) - 828) / 2 else -((828 - (height : Int)) / 2) := by
    split
    · exact Int.tdiv_eq_ediv_of_nonneg (by omega)
    · have hneg : (height : Int) - 828 = -(828 - height) := by omega
      rw [hneg, Int.neg_tdiv, Int.tdiv_eq_ediv_of_nonneg (by omega)]
  unfold crop createBitmap
  simp only [htdiv]
  split <;> simp <;> omega

/-! ### The store -/

/-- The two files of a slot, each by the number of the save that wrote it. -/
structure Slot where
  sav : Option Nat := none
  png : Option Nat := none
deriving DecidableEq, Repr

/-- A quick save that waits for its picture, with the files that it has found. -/
structure Quicksave where
  op : Nat
  before : Slot
deriving DecidableEq, Repr

/-- What `captureScreenshotSafe` has been asked for; the callbacks come in the same order. -/
inductive Capture where
  | quicksave (q : Quicksave)
  | saveDialog
deriving DecidableEq, Repr

def Capture.quicksave? : Capture → Option Quicksave
  | quicksave q => some q
  | saveDialog => none

structure State where
  files : Fin 6 → Slot := fun _ => {}
  /-- `temp_screenshot.png` -/
  temp : Option Image := none
  captures : List Capture := []
  /-- Slots whose container fades out; the file goes when the animation ends. -/
  fading : List (Fin 6) := []
  saveDialogs : Nat := 0
  loadDialog : Bool := false
  ops : Nat := 0

inductive Action where
  | btnSave
  | showSaveDialog
  /-- The callback of the next capture; `none` are no bytes, or null. -/
  | screenshot (bytes : Option Image)
  | saveToSlot (slot : Fin 6)
  | quickDeleteBtn
  | dismissSaveDialog
  | showLoadDialog
  | deleteBtn (slot : Fin 6)
  | endAction (slot : Fin 6)
  | quickDeleteBtn2
  | dismissLoadDialog
deriving DecidableEq, Repr

inductive Event where
  /-- A save that has thrown, with the files of its slot before it and now. -/
  | aborted (before after : Slot)
deriving DecidableEq, Repr

namespace State

def quicksaves (s : State) : List Quicksave := s.captures.filterMap Capture.quicksave?

def setSlot (s : State) (slot : Fin 6) (files : Slot) : State :=
  { s with files := Function.update s.files slot files }

/-- An exception that nobody catches: the process dies, and with it the callbacks to come. -/
def crash (s : State) : State × List Event :=
  ({ s with captures := [], fading := [], saveDialogs := 0, loadDialog := false },
    s.quicksaves.map fun q => .aborted q.before (s.files quickSlot))

end State

def step : Step State Action Event
  | s, .btnSave =>
    if 0 < s.saveDialogs || s.loadDialog then none else
      let q : Quicksave := ⟨s.ops, s.files quickSlot⟩
      let s := s.setSlot quickSlot { s.files quickSlot with sav := some s.ops }
      some ({ s with captures := s.captures ++ [.quicksave q], ops := s.ops + 1 }, [])
  | s, .showSaveDialog =>
    if 0 < s.saveDialogs || s.loadDialog then none else
      some ({ s with captures := s.captures ++ [.saveDialog] }, [])
  | s, .screenshot bytes =>
    match s.captures with
    | [] => none
    | .saveDialog :: captures =>
      some ({ s with captures := captures, temp := bytes <|> s.temp, saveDialogs := s.saveDialogs + 1 }, [])
    | .quicksave q :: captures =>
      match bytes with
      | none | some .undecodable => some ({ s with captures := captures }, [])
      | some (.bitmap width height) =>
        match crop (width, height) with
        | none => some s.crash
        | some _ =>
          let s := s.setSlot quickSlot { s.files quickSlot with png := some q.op }
          some ({ s with captures := captures }, [])
  | s, .saveToSlot slot =>
    if 0 < s.saveDialogs then
      let before := s.files slot
      let op := s.ops
      let s := { s with ops := op + 1 }
      let dismissed := { s with saveDialogs := s.saveDialogs - 1 }
      match s.temp with
      | none => some (dismissed.setSlot slot { before with sav := some op }, [])
      | some .undecodable => some (dismissed.setSlot slot ⟨some op, some op⟩, [])
      | some (.bitmap width height) =>
        match crop (width, height) with
        | none =>
          let s := s.setSlot slot { before with sav := some op }
          some (s.crash.1, .aborted before (s.files slot) :: s.crash.2)
        | some _ => some (dismissed.setSlot slot ⟨some op, some op⟩, [])
    else none
  | s, .quickDeleteBtn => if 0 < s.saveDialogs then some (s.setSlot quickSlot {}, []) else none
  | s, .dismissSaveDialog => some ({ s with saveDialogs := s.saveDialogs - 1 }, [])
  | s, .showLoadDialog =>
    if 0 < s.saveDialogs || s.loadDialog then none else some ({ s with loadDialog := true }, [])
  | s, .deleteBtn slot =>
    if s.loadDialog && slot != quickSlot && (s.files slot).sav.isSome then
      some ({ s with fading := slot :: s.fading }, [])
    else none
  | s, .endAction slot =>
    if slot ∈ s.fading then
      some ({ s.setSlot slot { s.files slot with sav := none } with fading := s.fading.erase slot }, [])
    else none
  | s, .quickDeleteBtn2 =>
    if s.loadDialog then some (s.setSlot quickSlot { s.files quickSlot with sav := none }, []) else none
  | s, .dismissLoadDialog => some ({ s with loadDialog := false }, [])

/-! ### The law and the condition -/

/-- The picture of a slot is that of its state. -/
def Slot.Coherent (x : Slot) : Prop := ∀ op ∈ x.png, x.sav = some op

instance : DecidablePred Slot.Coherent := fun _ => inferInstanceAs (Decidable (∀ _ ∈ _, _))

/-- While a quick save waits for its picture, its slot is not settled. -/
def State.Settled (s : State) (slot : Fin 6) : Prop := slot = quickSlot → s.quicksaves = []

instance (s : State) : DecidablePred s.Settled := fun _ => inferInstanceAs (Decidable (_ → _))

def Event.Unchanged : Event → Prop
  | aborted before after => before = after

instance : DecidablePred Event.Unchanged
  | .aborted _ _ => inferInstanceAs (Decidable (_ = _))

/-- The files of each settled slot are a pair, and a save that throws leaves them as they were. -/
def Coherent (_ : State) (_ : Action) (t : State) (es : List Event) : Prop :=
  (∀ slot, t.Settled slot → (t.files slot).Coherent) ∧ ∀ e ∈ es, e.Unchanged

instance : ∀ s a t es, Decidable (Coherent s a t es) := fun _ _ _ _ =>
  inferInstanceAs (Decidable (_ ∧ _))

/-- A picture that can be cropped. -/
def Image.Large : Image → Prop
  | undecodable => True
  | bitmap width height => 1080 ≤ width ∧ 828 ≤ height

/-- The callback of the quick save `q`, with the captures that are still to come: the picture is large
enough, and none but `q` has written the slot, or there is no picture and no older one; where the
picture is too small, the slot has come back to what each waiting quick save had found. -/
def Finishes (s : State) (q : Quicksave) (captures : List Capture) : Option Image → Prop
  | none | some .undecodable =>
    captures.filterMap Capture.quicksave? = [] → (s.files quickSlot).Coherent
  | some (.bitmap width height) =>
    if 1080 ≤ width ∧ 828 ≤ height then
      captures.filterMap Capture.quicksave? = [] → (s.files quickSlot).sav = some q.op
    else (s.files quickSlot).Coherent ∧ ∀ r ∈ s.quicksaves, r.before = s.files quickSlot

def KeepsPairs (s : State) (a : Action) (_ : State) (_ : List Event) : Prop :=
  match a with
  | .screenshot bytes =>
    match s.captures with
    | .quicksave q :: captures => Finishes s q captures bytes
    | _ => True
  | .saveToSlot slot =>
    match s.temp with
    | none => s.Settled slot → (s.files slot).png = none
    | some image => image.Large
  | .endAction slot => s.Settled slot → (s.files slot).png = none
  | .quickDeleteBtn2 => s.Settled quickSlot → (s.files quickSlot).png = none
  | _ => True

/-! ### What a step does to the files -/

/-- The files of a slot come from saves that have begun. -/
structure Slot.Below (x : Slot) (ops : Nat) : Prop where
  sav : ∀ op ∈ x.sav, op < ops
  png : ∀ op ∈ x.png, op < ops

structure Inv (s : State) : Prop where
  coherent : ∀ slot, s.Settled slot → (s.files slot).Coherent
  below : ∀ slot, (s.files slot).Below s.ops
  waiting : ∀ q ∈ s.quicksaves, q.op < s.ops

theorem inv_init : Inv {} := by
  refine ⟨?_, fun _ => ⟨by simp, by simp⟩, by simp [State.quicksaves]⟩
  intro slot _ op hop
  cases hop

section
variable {s t : State} {a : Action} {es : List Event} {slot : Fin 6} {x : Slot}

theorem Slot.Below.mono {m n : Nat} (h : x.Below m) (hmn : m ≤ n) : x.Below n :=
  ⟨fun op hop => Nat.lt_of_lt_of_le (h.sav op hop) hmn, fun op hop => Nat.lt_of_lt_of_le (h.png op hop) hmn⟩

theorem crop_eq_none_iff (width height : Nat) :
    crop (width, height) = none ↔ ¬ (Image.bitmap width height).Large := by
  have h := crop_isSome_iff (width, height)
  rw [← Option.not_isSome_iff_eq_none, h]
  rfl

theorem crop_eq_some {width height : Nat} {cropped : Int × Int} (h : crop (width, height) = some cropped) :
    (Image.bitmap width height).Large := by
  by_contra hsmall
  rw [(crop_eq_none_iff width height).2 hsmall] at h
  cases h

theorem settled_of_ne (s : State) (h : slot ≠ quickSlot) : s.Settled slot := fun h' => absurd h' h

theorem settled_quickSlot : s.Settled quickSlot ↔ s.quicksaves = [] := ⟨fun h => h rfl, fun h _ => h⟩

theorem quicksaves_of_captures {c : Capture} {captures : List Capture} (h : s.captures = c :: captures) :
    s.quicksaves = c.quicksave?.toList ++ captures.filterMap Capture.quicksave? := by
  rw [State.quicksaves, h]
  cases c <;> rfl

/-- Where a step writes one slot, and the others are settled only if they were before, that slot decides. -/
theorem settled_update (slot : Fin 6) (x : Slot) (hi : Inv s)
    (hfiles : t.files = Function.update s.files slot x)
    (hother : ∀ other, other ≠ slot → t.Settled other → s.Settled other) :
    (∀ other, t.Settled other → (t.files other).Coherent) ↔ (t.Settled slot → x.Coherent) := by
  rw [hfiles]
  constructor
  · intro h hsettled
    simpa using h slot hsettled
  · intro h other hsettled
    by_cases hslot : other = slot
    · subst hslot
      simpa using h hsettled
    · rw [Function.update_of_ne hslot]
      exact hi.coherent other (hother other hslot hsettled)

theorem coherent_update (slot : Fin 6) (x : Slot) (hi : Inv s)
    (hfiles : t.files = Function.update s.files slot x)
    (hother : ∀ other, other ≠ slot → t.Settled other → s.Settled other) :
    Coherent s a t [] ↔ (t.Settled slot → x.Coherent) := by
  rw [← settled_update slot x hi hfiles hother]
  simp [Coherent]

theorem coherent_write (slot : Fin 6) (x : Slot) (hi : Inv s)
    (hfiles : t.files = Function.update s.files slot x) (hcaptures : t.captures = s.captures) :
    Coherent s a t [] ↔ (t.Settled slot → x.Coherent) := by
  refine coherent_update slot x hi hfiles ?_
  intro other _ hsettled hquick
  rw [State.quicksaves, ← hcaptures]
  exact hsettled hquick

/-- A step that writes no file and leaves no slot settled that was not. -/
theorem coherent_same (hi : Inv s) (hfiles : t.files = s.files)
    (hsettled : t.quicksaves = [] → s.quicksaves = []) : Coherent s a t [] := by
  refine ⟨?_, by simp⟩
  intro slot hslot
  rw [hfiles]
  exact hi.coherent slot fun hquick => hsettled (hslot hquick)

theorem coherent_both (op : Nat) : (⟨some op, some op⟩ : Slot).Coherent := by
  rintro _ ⟨⟩
  rfl

theorem coherent_empty : (⟨none, none⟩ : Slot).Coherent := by
  rintro _ ⟨⟩

/-- A new state makes a pair only where there is no picture of an older one. -/
theorem coherent_sav {n : Nat} (hbelow : x.Below n) : (⟨some n, x.png⟩ : Slot).Coherent ↔ x.png = none := by
  constructor
  · intro h
    rcases hpng : x.png with _ | op
    · rfl
    · have hop : n = op := Option.some.inj (h op hpng)
      have hlt := hbelow.png op hpng
      omega
  · intro hnone op hop
    cases hnone.symm.trans hop

/-- Without a state, only an empty slot is a pair. -/
theorem coherent_delete : (⟨none, x.png⟩ : Slot).Coherent ↔ x.png = none := by
  constructor
  · intro h
    rcases hpng : x.png with _ | op
    · rfl
    · cases h op hpng
  · intro hnone op hop
    cases hnone.symm.trans hop

theorem coherent_png (op : Nat) : (⟨x.sav, some op⟩ : Slot).Coherent ↔ x.sav = some op := by
  constructor
  · intro h
    exact h op rfl
  · rintro h _ ⟨⟩
    exact h

/-- What a step does: it is lawful exactly if it keeps the pairs, and then it keeps the invariant. -/
structure StepSpec (s : State) (a : Action) (t : State) (es : List Event) : Prop where
  coherent_iff : Coherent s a t es ↔ KeepsPairs s a t es
  inv : Coherent s a t es → Inv t

/-- Where a step has written one slot, all files still come from saves that have begun. -/
theorem inv_update (slot : Fin 6) (x : Slot) (hi : Inv s) (hcoherent : Coherent s a t es)
    (hfiles : t.files = Function.update s.files slot x) (hops : s.ops ≤ t.ops) (hx : x.Below t.ops)
    (hwaiting : ∀ q ∈ t.quicksaves, q.op < t.ops) : Inv t := by
  refine ⟨hcoherent.1, ?_, hwaiting⟩
  intro other
  rw [hfiles]
  by_cases hslot : other = slot
  · subst hslot
    simpa using hx
  · rw [Function.update_of_ne hslot]
    exact (hi.below other).mono hops

theorem inv_same (hi : Inv s) (hcoherent : Coherent s a t es) (hfiles : t.files = s.files)
    (hops : t.ops = s.ops) (hquicksaves : t.quicksaves ⊆ s.quicksaves) : Inv t := by
  refine ⟨hcoherent.1, ?_, ?_⟩
  · rw [hfiles, hops]
    exact hi.below
  · intro q hq
    rw [hops]
    exact hi.waiting q (hquicksaves hq)

theorem spec_write (slot : Fin 6) (x : Slot) (hi : Inv s)
    (hfiles : t.files = Function.update s.files slot x) (hcaptures : t.captures = s.captures)
    (hops : s.ops ≤ t.ops) (hx : x.Below t.ops)
    (hkeeps : (t.Settled slot → x.Coherent) ↔ KeepsPairs s a t []) : StepSpec s a t [] := by
  have hquicksaves : t.quicksaves = s.quicksaves := congrArg (List.filterMap Capture.quicksave?) hcaptures
  refine ⟨(coherent_write slot x hi hfiles hcaptures).trans hkeeps, fun hcoherent => ?_⟩
  refine inv_update slot x hi hcoherent hfiles hops hx ?_
  intro q hq
  rw [hquicksaves] at hq
  exact Nat.lt_of_lt_of_le (hi.waiting q hq) hops

theorem spec_same (hi : Inv s) (hfiles : t.files = s.files) (hops : t.ops = s.ops)
    (hquicksaves : t.quicksaves = s.quicksaves) (hkeeps : KeepsPairs s a t []) : StepSpec s a t [] := by
  have hcoherent : Coherent s a t [] := coherent_same hi hfiles fun hnone => hquicksaves.symm.trans hnone
  refine ⟨iff_of_true hcoherent hkeeps, fun hcoherent => ?_⟩
  exact inv_same hi hcoherent hfiles hops (hquicksaves ▸ List.Subset.refl _)

theorem below_both (op : Nat) : (⟨some op, some op⟩ : Slot).Below (op + 1) :=
  ⟨by rintro _ ⟨⟩; exact Nat.lt_succ_self op, by rintro _ ⟨⟩; exact Nat.lt_succ_self op⟩

theorem below_sav {n : Nat} (h : x.Below n) : (⟨some n, x.png⟩ : Slot).Below (n + 1) :=
  ⟨by rintro _ ⟨⟩; exact Nat.lt_succ_self n, (h.mono (Nat.le_succ n)).png⟩

theorem below_delete {n : Nat} (h : x.Below n) : (⟨none, x.png⟩ : Slot).Below n :=
  ⟨by rintro _ ⟨⟩, h.png⟩

theorem spec_screenshot {bytes : Option Image} (hi : Inv s)
    (h : step s (.screenshot bytes) = some (t, es)) : StepSpec s (.screenshot bytes) t es := by
  have hother : ∀ other : Fin 6, other ≠ quickSlot → t.Settled other → s.Settled other :=
    fun other hne _ => settled_of_ne s hne
  have hsame : s.files = Function.update s.files quickSlot (s.files quickSlot) :=
    (Function.update_eq_self quickSlot s.files).symm
  rcases hcaptures : s.captures with _ | ⟨q | -, captures⟩
  · simp [step, hcaptures] at h
  · have hquicksaves : s.quicksaves = q :: captures.filterMap Capture.quicksave? :=
      quicksaves_of_captures hcaptures
    have hrest : captures.filterMap Capture.quicksave? ⊆ s.quicksaves := by
      rw [hquicksaves]
      exact List.subset_cons_self _ _
    have hq : q.op < s.ops := by
      refine hi.waiting q ?_
      rw [hquicksaves]
      exact List.mem_cons_self ..
    have hkeeps : KeepsPairs s (.screenshot bytes) t es ↔ Finishes s q captures bytes := by
      simp only [KeepsPairs, hcaptures]
    simp only [step, hcaptures] at h
    rcases bytes with _ | _ | ⟨width, height⟩
    case none | some.undecodable =>
      obtain ⟨rfl, rfl⟩ := Prod.mk.inj (Option.some.inj h)
      refine ⟨Iff.trans ?_ hkeeps.symm, fun hcoherent => inv_same hi hcoherent rfl rfl hrest⟩
      refine (coherent_update quickSlot (s.files quickSlot) hi ?_ hother).trans
        (imp_congr settled_quickSlot Iff.rfl)
      exact hsame
    case some.bitmap =>
      rcases hcrop : crop (width, height) with _ | cropped
      · simp only [hcrop] at h
        obtain ⟨rfl, rfl⟩ := Prod.mk.inj (Option.some.inj h)
        have hsmall : ¬ (1080 ≤ width ∧ 828 ≤ height) := (crop_eq_none_iff width height).1 hcrop
        refine ⟨Iff.trans ?_ hkeeps.symm,
          fun hcoherent => inv_same hi hcoherent rfl rfl (List.nil_subset _)⟩
        rw [Finishes, if_neg hsmall]
        refine and_congr ((settled_update quickSlot (s.files quickSlot) hi ?_ hother).trans ?_) ?_
        · exact hsame
        · exact imp_iff_right (settled_quickSlot.2 rfl)
        · simp [Event.Unchanged]
      · simp only [hcrop] at h
        obtain ⟨rfl, rfl⟩ := Prod.mk.inj (Option.some.inj h)
        have hlarge : 1080 ≤ width ∧ 828 ≤ height := crop_eq_some hcrop
        have hbelow : (⟨(s.files quickSlot).sav, some q.op⟩ : Slot).Below s.ops :=
          ⟨(hi.below quickSlot).sav, by rintro _ ⟨⟩; exact hq⟩
        refine ⟨Iff.trans ?_ hkeeps.symm, fun hcoherent => ?_⟩
        · rw [Finishes, if_pos hlarge]
          exact (coherent_update quickSlot ⟨(s.files quickSlot).sav, some q.op⟩ hi rfl hother).trans
            (imp_congr settled_quickSlot (coherent_png q.op))
        · exact inv_update quickSlot _ hi hcoherent rfl (Nat.le_refl _) hbelow
            fun r hr => hi.waiting r (hrest hr)
  · simp only [step, hcaptures] at h
    obtain ⟨rfl, rfl⟩ := Prod.mk.inj (Option.some.inj h)
    exact spec_same hi rfl rfl (quicksaves_of_captures hcaptures).symm (by simp [KeepsPairs, hcaptures])

theorem spec_saveToSlot (hi : Inv s) (h : step s (.saveToSlot slot) = some (t, es)) :
    StepSpec s (.saveToSlot slot) t es := by
  have hsav := below_sav (hi.below slot)
  simp only [step] at h
  split at h
  · rcases htemp : s.temp with _ | _ | ⟨width, height⟩
    case none =>
      simp only [htemp] at h
      obtain ⟨rfl, rfl⟩ := Prod.mk.inj (Option.some.inj h)
      refine spec_write slot _ hi rfl rfl (Nat.le_succ _) hsav ?_
      simp only [KeepsPairs, htemp]
      exact imp_congr Iff.rfl (coherent_sav (hi.below slot))
    case some.undecodable =>
      simp only [htemp] at h
      obtain ⟨rfl, rfl⟩ := Prod.mk.inj (Option.some.inj h)
      refine spec_write slot _ hi rfl rfl (Nat.le_succ _) (below_both s.ops) ?_
      simp only [KeepsPairs, htemp]
      exact iff_of_true (fun _ => coherent_both s.ops) trivial
    case some.bitmap =>
      simp only [htemp] at h
      rcases hcrop : crop (width, height) with _ | cropped
      · simp only [hcrop] at h
        obtain ⟨rfl, rfl⟩ := Prod.mk.inj (Option.some.inj h)
        constructor
        case coherent_iff =>
          simp only [KeepsPairs, htemp]
          refine iff_of_false ?_ ((crop_eq_none_iff width height).1 hcrop)
          rintro ⟨-, hunchanged⟩
          have hslot := hunchanged _ (List.mem_cons_self ..)
          simp only [Event.Unchanged, State.setSlot, Function.update_self] at hslot
          have hnew : (s.files slot).sav = some s.ops := by rw [hslot]
          exact absurd ((hi.below slot).sav s.ops hnew) (Nat.lt_irrefl _)
        case inv =>
          intro hcoherent
          exact inv_update slot _ hi hcoherent rfl (Nat.le_succ _) hsav (by simp [State.quicksaves, State.crash])
      · simp only [hcrop] at h
        obtain ⟨rfl, rfl⟩ := Prod.mk.inj (Option.some.inj h)
        refine spec_write slot _ hi rfl rfl (Nat.le_succ _) (below_both s.ops) ?_
        simp only [KeepsPairs, htemp]
        exact iff_of_true (fun _ => coherent_both s.ops) (crop_eq_some hcrop)
  · cases h

theorem spec_btnSave (hi : Inv s) (h : step s .btnSave = some (t, es)) : StepSpec s .btnSave t es := by
  simp only [step] at h
  split at h
  · cases h
  · obtain ⟨rfl, rfl⟩ := Prod.mk.inj (Option.some.inj h)
    constructor
    case coherent_iff =>
      refine iff_of_true ?_ trivial
      refine (coherent_update quickSlot _ hi rfl fun other hne _ => settled_of_ne s hne).2 ?_
      -- the save waits for its picture
      intro hsettled
      simpa [State.quicksaves, Capture.quicksave?] using settled_quickSlot.1 hsettled
    case inv =>
      intro hcoherent
      refine inv_update quickSlot _ hi hcoherent rfl (Nat.le_succ _) (below_sav (hi.below quickSlot)) ?_
      intro q hq
      rw [State.quicksaves, List.filterMap_append, List.mem_append] at hq
      rcases hq with hq | hq
      · exact Nat.lt_trans (hi.waiting q hq) (Nat.lt_succ_self _)
      · rw [List.mem_singleton.1 hq]
        exact Nat.lt_succ_self _

theorem step_spec (hi : Inv s) (h : step s a = some (t, es)) : StepSpec s a t es := by
  cases a with
  | screenshot bytes => exact spec_screenshot hi h
  | saveToSlot slot => exact spec_saveToSlot hi h
  | btnSave => exact spec_btnSave hi h
  | showSaveDialog =>
    simp only [step] at h
    split at h
    · cases h
    · obtain ⟨rfl, rfl⟩ := Prod.mk.inj (Option.some.inj h)
      have hcaptures : [Capture.saveDialog].filterMap Capture.quicksave? = [] := rfl
      refine spec_same hi rfl rfl ?_ trivial
      rw [State.quicksaves, List.filterMap_append, hcaptures, List.append_nil]
      rfl
  | quickDeleteBtn =>
    simp only [step] at h
    split at h
    · obtain ⟨rfl, rfl⟩ := Prod.mk.inj (Option.some.inj h)
      refine spec_write quickSlot _ hi rfl rfl (Nat.le_refl _) ⟨by rintro _ ⟨⟩, by rintro _ ⟨⟩⟩ ?_
      exact iff_of_true (fun _ => coherent_empty) trivial
    · cases h
  | endAction slot =>
    simp only [step] at h
    split at h
    · obtain ⟨rfl, rfl⟩ := Prod.mk.inj (Option.some.inj h)
      refine spec_write slot _ hi rfl rfl (Nat.le_refl _) (below_delete (hi.below slot)) ?_
      exact imp_congr Iff.rfl coherent_delete
    · cases h
  | quickDeleteBtn2 =>
    simp only [step] at h
    split at h
    · obtain ⟨rfl, rfl⟩ := Prod.mk.inj (Option.some.inj h)
      refine spec_write quickSlot _ hi rfl rfl (Nat.le_refl _) (below_delete (hi.below quickSlot)) ?_
      exact imp_congr Iff.rfl coherent_delete
    · cases h
  | dismissSaveDialog | dismissLoadDialog =>
    obtain ⟨rfl, rfl⟩ := Prod.mk.inj (Option.some.inj h)
    exact spec_same hi rfl rfl rfl trivial
  | showLoadDialog =>
    simp only [step] at h
    split at h
    · cases h
    · obtain ⟨rfl, rfl⟩ := Prod.mk.inj (Option.some.inj h)
      exact spec_same hi rfl rfl rfl trivial
  | deleteBtn slot =>
    simp only [step] at h
    split at h
    · obtain ⟨rfl, rfl⟩ := Prod.mk.inj (Option.some.inj h)
      exact spec_same hi rfl rfl rfl trivial
    · cases h

end

/-- Over every run of saves and deletions, with every screenshot: the two files of each slot come from
the same save, and a save that throws leaves them, exactly if each step keeps the pairs. -/
theorem coherent_iff (as : List Action) :
    Along step Coherent {} as ↔ Along step KeepsPairs {} as := by
  refine along_iff (I := Inv) (fun hi h => (step_spec hi h).coherent_iff) ?_ inv_init as
  intro s t a es hi h hkeeps
  exact (step_spec hi h).inv ((step_spec hi h).coherent_iff.2 hkeeps)

/-- Slot 2 is saved with a large picture and deleted in the load dialog, which leaves the picture. -/
theorem deleteBtn_leaves_picture :
    ¬ Along step Coherent {} [.showSaveDialog, .screenshot (some (.bitmap 1920 1080)), .saveToSlot 2,
      .showLoadDialog, .deleteBtn 2, .endAction 2] := by
  decide

end SweetHome.SlotStore
