import LifeOS.Drivers.Keyboard
import LifeOS.Hmi.Pane

/-!
`console_poll_input`: what a key does, and which keys join the input ring.
-/

namespace LifeOS.Console
open LifeOS.Drivers LifeOS.Hmi LifeOS.Library.Strings

def moveView (key : Byte) (c : ConsoleState) : ConsoleState :=
  if key = keyUp ∧ c.sbView < c.sbCount.val then { c with sbView := c.sbView + 1 }
  else if key = keyDown ∧ c.sbView > 0 then { c with sbView := c.sbView - 1 }
  else c

def releaseCtrl (c : ConsoleState) : ConsoleState := { c with ctrl := false }

def scrollView (key : Byte) (c : ConsoleState) : ConsoleState :=
  releaseCtrl (renderView (moveView key c))

theorem moveView_eq (key : Byte) (c : ConsoleState) : ∃ view, moveView key c = { c with sbView := view } := by
  unfold moveView
  split
  · exact ⟨_, rfl⟩
  · split <;> exact ⟨_, rfl⟩

def clearCtrl (t : Terminal) : Terminal := t.onConsole releaseCtrl

/-- Up and Down scroll while Ctrl was just pressed or the view is above the bottom. -/
def Scrolls (key : Byte) (c : ConsoleState) : Prop :=
  (key = keyUp ∨ key = keyDown) ∧ (c.ctrl = true ∨ c.sbView ≠ 0)

instance (key : Byte) (c : ConsoleState) : Decidable (Scrolls key c) :=
  inferInstanceAs (Decidable (_ ∧ _))

/-- The keys that `console_poll_input` neither obeys itself nor drops. -/
def Queued (key : Byte) (c : ConsoleState) : Prop :=
  key ≠ 0#8 ∧ ¬Scrolls key c ∧ key ∉ [keyCtrl, keyAltR, keyFn, keyF1, keyF2, keyF3, keyF4]

instance (key : Byte) (c : ConsoleState) : Decidable (Queued key c) :=
  inferInstanceAs (Decidable (_ ∧ _))

/-- The rules of `console_poll_input` for a key: the terminal after it, and the character
that it queues, if any. -/
def pollRules (key : Byte) (t : Terminal) : Terminal × Option Byte :=
  if key = 0#8 then (t, none)
  else if key = keyCtrl then (t.onConsole (fun c => { c with ctrl := true }), none)
  else if Scrolls key t.con then (t.onConsole (scrollView key), none)
  else if key = keyAltR then
    (clearCtrl (if t.con.ctrl then paneMoveUp t else paneMoveLeft t), none)
  else if key = keyFn then
    (clearCtrl (if t.con.ctrl then paneMoveDown t else paneMoveRight t), none)
  else if key = keyF1 then (paneResizeWidth (-1) t, none)
  else if key = keyF2 then (paneResizeWidth 1 t, none)
  else if key = keyF3 then (paneResizeHeight (-1) t, none)
  else if key = keyF4 then (paneResizeHeight 1 t, none)
  else (t, some (if key = backspace ∨ key = 0x7F#8 then backspace else key))

/-- `console_poll_input`, given what `keyboard_read_char` returned. -/
def consolePollInput (key : Byte) (t : Terminal) : Terminal :=
  match pollRules key t with
  | (after, none) => after
  | (after, some ch) => after.onConsole (enqueue ch)

def resizedPanes (key : Byte) (p : Panes) : Panes :=
  if key = keyF1 then { p with width := resize (-1) p.width }
  else if key = keyF2 then { p with width := resize 1 p.width }
  else if key = keyF3 then { p with height := resize (-1) p.height }
  else { p with height := resize 1 p.height }

theorem moveBack_grid (a : Axis) : (moveBack a).grid = a.grid := by
  unfold moveBack
  split <;> rfl

theorem moveOn_grid (a : Axis) : (moveOn a).grid = a.grid := by
  unfold moveOn
  split <;> rfl

inductive Polled (key : Byte) (t : Terminal) : Terminal × Option Byte → Prop where
  | nothing (none_read : key = 0#8) : Polled key t (t, none)
  | control (ctrl : key = keyCtrl) : Polled key t (t.onConsole (fun c => { c with ctrl := true }), none)
  | scrolled (scrolls : Scrolls key t.con) : Polled key t (t.onConsole (scrollView key), none)
  | moved (move : key = keyAltR ∨ key = keyFn) (panes : Panes)
      (width : panes.width.grid = t.panes.width.grid) (height : panes.height.grid = t.panes.height.grid) :
      Polled key t (clearCtrl (paneDraw { t with panes := panes }), none)
  | resized (resize : key = keyF1 ∨ key = keyF2 ∨ key = keyF3 ∨ key = keyF4) :
      Polled key t (paneDraw { t with panes := resizedPanes key t.panes }, none)
  | queued (queued : Queued key t.con) :
      Polled key t (t, some (if key = backspace ∨ key = 0x7F#8 then backspace else key))

theorem pollRules_polled (key : Byte) (t : Terminal) : Polled key t (pollRules key t) := by
  unfold pollRules
  by_cases nothing : key = 0#8
  · rw [if_pos nothing]
    exact .nothing nothing
  rw [if_neg nothing]
  by_cases control : key = keyCtrl
  · rw [if_pos control]
    exact .control control
  rw [if_neg control]
  by_cases scrolls : Scrolls key t.con
  · rw [if_pos scrolls]
    exact .scrolled scrolls
  rw [if_neg scrolls]
  by_cases alt : key = keyAltR
  · rw [if_pos alt]
    split
    · exact .moved (Or.inl alt) _ rfl (moveBack_grid t.panes.height)
    · exact .moved (Or.inl alt) _ (moveBack_grid t.panes.width) rfl
  rw [if_neg alt]
  by_cases fn : key = keyFn
  · rw [if_pos fn]
    split
    · exact .moved (Or.inr fn) _ rfl (moveOn_grid t.panes.height)
    · exact .moved (Or.inr fn) _ (moveOn_grid t.panes.width) rfl
  rw [if_neg fn]
  have resized := @Polled.resized key t
  unfold resizedPanes at resized
  by_cases f1 : key = keyF1
  · rw [if_pos f1] at resized ⊢
    exact resized (Or.inl f1)
  rw [if_neg f1] at resized ⊢
  by_cases f2 : key = keyF2
  · rw [if_pos f2] at resized ⊢
    exact resized (Or.inr (Or.inl f2))
  rw [if_neg f2] at resized ⊢
  by_cases f3 : key = keyF3
  · rw [if_pos f3] at resized ⊢
    exact resized (Or.inr (Or.inr (Or.inl f3)))
  rw [if_neg f3] at resized ⊢
  by_cases f4 : key = keyF4
  · rw [if_pos f4]
    exact resized (Or.inr (Or.inr (Or.inr f4)))
  rw [if_neg f4]
  exact .queued ⟨nothing, scrolls, by simp [control, alt, fn, f1, f2, f3, f4]⟩

theorem poll_scrolls (key : Byte) (t : Terminal) (scrolls : Scrolls key t.con) :
    consolePollInput key t = t.onConsole (scrollView key) := by
  have plain : key ≠ 0#8 ∧ key ≠ keyCtrl := by
    rcases scrolls.1 with rfl | rfl <;> decide
  unfold consolePollInput pollRules
  rw [if_neg plain.1, if_neg plain.2, if_pos scrolls]

end LifeOS.Console
