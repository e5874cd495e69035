import SweetHome.Input
import SweetHome.Lib.Run
import SweetHome.Lib.Window

/-!
# The key sequence

The buttons on the screen go through a window of the last ten codes, and a flag keeps the egg from being opened
twice. The flag is taken back by the button of the dialog only: once it has been dismissed with Back or by a touch
outside, nothing is recognised any more (`recognised_iff`).
-/

namespace SweetHome.KonamiCode
open Step Input

def ACTION_DOWN : Int := 0
def ACTION_UP : Int := 1
def ACTION_CANCEL : Int := 3

def konamiSequence : List Int :=
  [AKeyCode.dpadUp, AKeyCode.dpadUp, AKeyCode.dpadDown, AKeyCode.dpadDown, AKeyCode.dpadLeft,
    AKeyCode.dpadRight, AKeyCode.dpadLeft, AKeyCode.dpadRight, AKeyCode.buttonB, AKeyCode.buttonA]

inductive Dismissal where
  | button
  | back
  | outside
deriving DecidableEq, Repr

inductive Action where
  /-- A touch of the button with that code. -/
  | touch (action keyCode : Int)
  | dismiss (how : Dismissal)
deriving DecidableEq, Repr

inductive Event where
  | showYoshiEggDialog
  | sendKeyEvent (action keyCode : Int)
  | vibrate
deriving DecidableEq, Repr

structure State where
  konamiBuffer : List Int := []
  konamiActivated : Bool := false
  eggDialog : Bool := false
  /-- The codes of all presses. -/
  pressed : List Int := []
  /-- A dialog has been dismissed, but not by its button. -/
  slipped : Bool := false
deriving DecidableEq, Repr

/-- `shows` is whether `showYoshiEggDialog` returns. -/
def detect (isFinishing isDestroyed shows : Bool) (keyCode : Int) (s : State) : State × List Event :=
  let s := { s with konamiBuffer := Window.push konamiSequence.length s.konamiBuffer keyCode }
  if !s.konamiActivated && s.konamiBuffer == konamiSequence then
    if !isFinishing && !isDestroyed then
      -- touches come on the UI thread, which runs this at once
      if shows then ({ s with konamiActivated := true, eggDialog := true }, [.showYoshiEggDialog])
      else ({ s with konamiActivated := false }, [])
    else ({ s with konamiActivated := false }, [])
  else (s, [])

def handleKeyEvent (isFinishing isDestroyed shows : Bool) (action keyCode : Int) (s : State) : State × List Event :=
  if action = ACTION_DOWN then
    let (s, es) := detect isFinishing isDestroyed shows keyCode s
    (s, es ++ [.sendKeyEvent ACTION_DOWN keyCode, .vibrate])
  else if action = ACTION_UP ∨ action = ACTION_CANCEL then (s, [.sendKeyEvent ACTION_UP keyCode])
  else (s, [])

/-- The listener of the button runs when the dialog has been dismissed by it; there is no other listener. -/
def dismiss (how : Dismissal) (s : State) : State :=
  match how with
  | .button => { s with eggDialog := false, konamiActivated := false }
  | .back | .outside => { s with eggDialog := false, slipped := true }

/-- Steps of an Activity that is not finishing. -/
def step : Step State Action Event
  | s, .touch action keyCode =>
    some (handleKeyEvent false false true action keyCode
      { s with pressed := if action = ACTION_DOWN then s.pressed ++ [keyCode] else s.pressed })
  | s, .dismiss how => if s.eggDialog then some (dismiss how s, []) else none

/-! ### The law, and when it holds -/

/-- The last ten codes are the sequence. -/
def Completes (s : State) : Action → Prop
  | .touch action keyCode =>
    action = ACTION_DOWN ∧ (s.pressed ++ [keyCode]).rtake konamiSequence.length = konamiSequence
  | .dismiss _ => False

instance (s : State) : (a : Action) → Decidable (Completes s a)
  | .touch _ _ => inferInstanceAs (Decidable (_ ∧ _))
  | .dismiss _ => inferInstanceAs (Decidable False)

def Recognised (s : State) (a : Action) (_ : State) (es : List Event) : Prop :=
  .showYoshiEggDialog ∈ es ↔ Completes s a ∧ s.eggDialog = false

instance (s : State) (a : Action) (t : State) (es : List Event) : Decidable (Recognised s a t es) :=
  inferInstanceAs (Decidable (_ ↔ _))

/-- Once a dialog has been dismissed without its button, the sequence is not entered again. -/
def NotAgain (s : State) (a : Action) (_ : State) (_ : List Event) : Prop := s.slipped = true → ¬ Completes s a

/-- The flag is up as long as the dialog shows, and for good when it has slipped away. -/
structure Inv (s : State) : Prop where
  buffer : s.konamiBuffer = s.pressed.rtake konamiSequence.length
  activated : s.konamiActivated = (s.eggDialog || s.slipped)
  slipped : s.slipped = true → s.eggDialog = false

theorem inv_start : Inv {} := ⟨rfl, rfl, nofun⟩

variable {s t : State} {a : Action} {es : List Event}

def State.press (s : State) (keyCode : Int) : State :=
  { s with
    pressed := s.pressed ++ [keyCode]
    konamiBuffer := (s.pressed ++ [keyCode]).rtake konamiSequence.length }

theorem Inv.press (hs : Inv s) (keyCode : Int) : Inv (s.press keyCode) := ⟨rfl, hs.activated, hs.slipped⟩

theorem detect_eq (hs : Inv s) (keyCode : Int) :
    detect false false true keyCode { s with pressed := s.pressed ++ [keyCode] } =
      if Completes s (.touch ACTION_DOWN keyCode) ∧ s.konamiActivated = false then
        ({ s.press keyCode with konamiActivated := true, eggDialog := true }, [.showYoshiEggDialog])
      else (s.press keyCode, []) := by
  have hpush : Window.push konamiSequence.length s.konamiBuffer keyCode =
      (s.pressed ++ [keyCode]).rtake konamiSequence.length := by
    rw [hs.buffer, Window.push_rtake (by decide)]
  simp only [detect, hpush, Completes, true_and, and_comm (b := s.konamiActivated = false)]
  simp [State.press]

/-- What a step does: a press that completes the sequence while the flag is down opens the dialog, the other presses
are only remembered, and a dialog that shows is dismissed. -/
theorem step_cases (hs : Inv s) (h : step s a = some (t, es)) :
    (∃ keyCode, (Completes s a ∧ s.konamiActivated = false) ∧ .showYoshiEggDialog ∈ es ∧
      t = { s.press keyCode with konamiActivated := true, eggDialog := true }) ∨
    (¬ (Completes s a ∧ s.konamiActivated = false) ∧ .showYoshiEggDialog ∉ es ∧
      (t = s ∨ (∃ keyCode, t = s.press keyCode) ∨ s.eggDialog = true ∧ ∃ how, t = dismiss how s)) := by
  cases a with
  | touch action keyCode =>
    simp only [step, handleKeyEvent] at h
    by_cases hdown : action = ACTION_DOWN
    · subst hdown
      simp only [if_true, detect_eq hs] at h
      split at h
      · rename_i hcompletes
        obtain ⟨rfl, rfl⟩ := Prod.mk.inj (Option.some.inj h)
        exact .inl ⟨keyCode, hcompletes, by simp, rfl⟩
      · rename_i hnot
        obtain ⟨rfl, rfl⟩ := Prod.mk.inj (Option.some.inj h)
        exact .inr ⟨hnot, by simp, .inr (.inl ⟨keyCode, rfl⟩)⟩
    · simp only [if_neg hdown] at h
      refine .inr ⟨fun hcompletes => hdown hcompletes.1.1, ?_⟩
      split at h <;> obtain ⟨rfl, rfl⟩ := Prod.mk.inj (Option.some.inj h)
      · exact ⟨by simp, .inl rfl⟩
      · exact ⟨by simp, .inl rfl⟩
  | dismiss how =>
    simp only [step] at h
    split at h
    · rename_i hshowing
      obtain ⟨rfl, rfl⟩ := Prod.mk.inj (Option.some.inj h)
      exact .inr ⟨fun hcompletes => hcompletes.1, by simp, .inr (.inr ⟨hshowing, how, rfl⟩)⟩
    · cases h

theorem Inv.dismiss (hs : Inv s) (hshowing : s.eggDialog = true) (how : Dismissal) : Inv (dismiss how s) := by
  have hslipped : s.slipped = false := by
    rcases hslipped : s.slipped with _ | _
    · rfl
    · rw [hs.slipped hslipped] at hshowing
      cases hshowing
  have hactivated := hs.activated
  rw [hshowing, Bool.true_or] at hactivated
  cases how with
  | button => exact ⟨hs.buffer, by simp [KonamiCode.dismiss, hslipped], fun _ => rfl⟩
  | back | outside => exact ⟨hs.buffer, hactivated, fun _ => rfl⟩

theorem inv_step (hs : Inv s) (h : step s a = some (t, es)) : Inv t := by
  rcases step_cases hs h with ⟨keyCode, ⟨-, hdown⟩, -, rfl⟩ | ⟨-, -, rfl | ⟨keyCode, rfl⟩ | ⟨hshowing, how, rfl⟩⟩
  · have hactivated := hs.activated
    rw [hdown] at hactivated
    refine ⟨rfl, rfl, fun hslipped => ?_⟩
    rw [show s.slipped = true from hslipped, Bool.or_true] at hactivated
    cases hactivated
  · exact hs
  · exact hs.press keyCode
  · exact hs.dismiss hshowing how

/-- A press opens the dialog exactly if it completes the sequence and the flag is down. -/
theorem showYoshiEggDialog_mem_iff (hs : Inv s) (h : step s a = some (t, es)) :
    .showYoshiEggDialog ∈ es ↔ Completes s a ∧ s.konamiActivated = false := by
  rcases step_cases hs h with ⟨-, hcompletes, hopens, -⟩ | ⟨hnot, hopens, -⟩
  · exact iff_of_true hopens hcompletes
  · exact iff_of_false hopens hnot

theorem step_iff (hs : Inv s) (h : step s a = some (t, es)) : Recognised s a t es ↔ NotAgain s a t es := by
  rw [Recognised, showYoshiEggDialog_mem_iff hs h, NotAgain, hs.activated]
  rcases hslipped : s.slipped with _ | _
  · simp
  · -- the flag is up, and no dialog is showing
    simp [hs.slipped hslipped]

/-- The sequence is recognised every time in a run exactly if it is not entered again once a dialog has been
dismissed with Back or by a touch outside. -/
theorem recognised_iff (as : List Action) : Along step Recognised {} as ↔ Along step NotAgain {} as :=
  along_iff (G := Recognised) (C := NotAgain) step_iff (fun hs h _ => inv_step hs h) inv_start as

def enter : List Action := konamiSequence.map (.touch ACTION_DOWN)

/-- The dialog is dismissed with Back, and the sequence entered once more. -/
theorem not_recognised_back : ¬ Along step Recognised {} (enter ++ .dismiss .back :: enter) := by
  decide

/-- After its button, the dialog opens again. -/
example : Along step Recognised {} (enter ++ .dismiss .button :: enter) := by decide

end SweetHome.KonamiCode
