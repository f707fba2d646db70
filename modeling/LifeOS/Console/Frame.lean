import LifeOS.Console.Input
import LifeOS.Console.Text

/-!
What output leaves alone: the ring of typed characters and the Ctrl flag, which belong to
`console_poll_input` and `console_getc`; and what those leave alone, the text.
-/

namespace LifeOS.Console
open LifeOS.Drivers LifeOS.Hmi LifeOS.Library.Loops LifeOS.Library.Strings

structure InputState where
  buf : Fin 128 → Byte
  head : Fin 128
  tail : Fin 128
  ctrl : Bool

def inputOf (c : ConsoleState) : InputState := ⟨c.inputBuf, c.inputHead, c.inputTail, c.ctrl⟩

@[simp]
theorem inputOf_updateCursor (c : ConsoleState) : inputOf (updateCursor c) = inputOf c := rfl

@[simp]
theorem inputOf_serialPutc (ch : Byte) (c : ConsoleState) : inputOf (serialPutc ch c) = inputOf c := rfl

@[simp]
theorem inputOf_renderView (c : ConsoleState) : inputOf (renderView c) = inputOf c := by
  rw [renderView_eq]
  rfl

@[simp]
theorem inputOf_ensureBottom (c : ConsoleState) : inputOf (ensureBottom c) = inputOf c := by
  unfold ensureBottom
  split
  · rw [inputOf_renderView]
    rfl
  · rfl

@[simp]
theorem inputOf_scrollScreen (c : ConsoleState) : inputOf (scrollScreen c) = inputOf c := by
  obtain ⟨slots, start, count, scrolled, _⟩ := scrollScreen_eq c
  rw [scrolled]
  rfl

@[simp]
theorem inputOf_nextRow (c : ConsoleState) : inputOf (nextRow c) = inputOf c := by
  unfold nextRow
  split
  · rfl
  · exact inputOf_scrollScreen c

@[simp]
theorem inputOf_plot (y : Fin 25) (x : Fin 80) (v : Cell) (c : ConsoleState) :
    inputOf (plot y x v c) = inputOf c := by
  unfold plot
  dsimp only
  split <;> rfl

@[simp]
theorem inputOf_storeCell (v : Cell) (c : ConsoleState) : inputOf (storeCell v c) = inputOf c := by
  rw [storeCell_eq, inputOf_plot]

@[simp]
theorem inputOf_cursorBack (c : ConsoleState) : inputOf (cursorBack c) = inputOf c := by
  unfold cursorBack
  split
  · rfl
  · split <;> rfl

@[simp]
theorem inputOf_consolePutc (ch : Byte) (c : ConsoleState) : inputOf (consolePutc ch c) = inputOf c := by
  have start : inputOf (ensureBottom (serialPutc ch c)) = inputOf c := by simp
  unfold consolePutc
  generalize ensureBottom (serialPutc ch c) = d at start ⊢
  have finish (e : ConsoleState) : inputOf (if e.sbView = 0 then updateCursor e else e) = inputOf e := by
    split <;> rfl
  dsimp only
  rw [finish, ← start]
  by_cases line : ch = newline
  · rw [if_pos line, inputOf_nextRow]
    rfl
  · rw [if_neg line]
    by_cases erase : ch = backspace
    · rw [if_pos erase, inputOf_storeCell, inputOf_cursorBack]
    · have stored := inputOf_storeCell (cellOf ch) d
      rw [if_neg erase]
      generalize storeCell (cellOf ch) d = e at stored ⊢
      split
      · exact stored
      · rw [inputOf_nextRow]
        exact stored

@[simp]
theorem inputOf_consoleWrite (s : List Byte) (c : ConsoleState) :
    inputOf (consoleWrite s c) = inputOf c := by
  induction s generalizing c with
  | nil => rfl
  | cons ch s ih => rw [consoleWrite, ih, inputOf_consolePutc]

@[simp]
theorem inputOf_consoleClear (c : ConsoleState) : inputOf (consoleClear c) = inputOf c := by
  unfold consoleClear
  rw [clear_rows]
  rfl

@[simp]
theorem inputOf_consoleSetCursor (x y : BitVec 8) (c : ConsoleState) :
    inputOf (consoleSetCursor x y c) = inputOf c := by
  unfold consoleSetCursor
  by_cases column : x.toNat < 80 <;> by_cases row : y.toNat < 25 <;>
    simp only [column, row, dite_true, dite_false] <;> rfl

@[simp]
theorem inputOf_drawLines (p : Panes) (c : ConsoleState) : inputOf (drawLines p c) = inputOf c := by
  have printed (ch : Byte) (d : ConsoleState) (held : inputOf d = inputOf c) :
      inputOf (consolePutc ch d) = inputOf c := by
    rw [inputOf_consolePutc, held]
  have moved (x y : BitVec 8) (d : ConsoleState) (held : inputOf d = inputOf c) :
      inputOf (consoleSetCursor x y d) = inputOf c := by
    rw [inputOf_consoleSetCursor, held]
  unfold drawLines
  apply moved
  apply forFin_preserves _ _ (fun d => inputOf d = inputOf c)
  · apply forFin_preserves _ _ (fun d => inputOf d = inputOf c)
    · apply forFin_preserves _ _ (fun d => inputOf d = inputOf c) _ rfl
      intro i d held
      apply forFin_preserves _ _ (fun d => inputOf d = inputOf c) _ held
      exact fun y e later => printed _ _ (moved _ _ e later)
    · intro j d held
      apply forFin_preserves _ _ (fun d => inputOf d = inputOf c) _ (moved _ _ d held)
      exact fun _ e later => printed _ e later
  · intro i d held
    apply forFin_preserves _ _ (fun d => inputOf d = inputOf c) _ held
    exact fun j e later => printed _ _ (moved _ _ e later)

@[simp]
theorem inputOf_shellShowPrompt (t : Terminal) : inputOf (shellShowPrompt t).con = inputOf t.con := by
  rw [shellShowPrompt_con, inputOf_consoleWrite]

@[simp]
theorem inputOf_paneDraw (t : Terminal) : inputOf (paneDraw t).con = inputOf t.con := by
  have drawn : inputOf (t.onConsole (fun c => drawLines t.panes (consoleClear c))).con = inputOf t.con := by
    change inputOf (drawLines t.panes (consoleClear t.con)) = inputOf t.con
    rw [inputOf_drawLines, inputOf_consoleClear]
  unfold paneDraw paneDrawInternal
  rw [if_pos rfl, inputOf_shellShowPrompt]
  exact drawn

@[simp]
theorem inputOf_scrollView (key : Byte) (c : ConsoleState) :
    inputOf (scrollView key c) = { inputOf c with ctrl := false } := by
  obtain ⟨view, moved⟩ := moveView_eq key c
  have released (e : ConsoleState) : inputOf (releaseCtrl e) = { inputOf e with ctrl := false } := rfl
  rw [scrollView, released, inputOf_renderView, moved]
  rfl

theorem textOf_scrollView (key : Byte) (c : ConsoleState) : textOf (scrollView key c) = textOf c := by
  obtain ⟨view, moved⟩ := moveView_eq key c
  have released (e : ConsoleState) : textOf (releaseCtrl e) = textOf e := rfl
  rw [scrollView, released, textOf_renderView, moved]
  rfl

theorem textOf_enqueue (ch : Byte) (c : ConsoleState) : textOf (enqueue ch c) = textOf c := by
  unfold enqueue
  dsimp only
  split <;> rfl

/-- The keys leave the ring alone; only the character that they return joins it. -/
theorem pollRules_ring (key : Byte) (t : Terminal) :
    ∃ ctrl, inputOf (pollRules key t).1.con = { inputOf t.con with ctrl := ctrl } := by
  have drawn (panes : Panes) : inputOf (paneDraw { t with panes := panes }).con = inputOf t.con :=
    inputOf_paneDraw _
  have cleared (u : Terminal) : inputOf (clearCtrl u).con = { inputOf u.con with ctrl := false } := rfl
  have polled := pollRules_polled key t
  generalize pollRules key t = result at polled ⊢
  cases polled with
  | nothing => exact ⟨t.con.ctrl, rfl⟩
  | control => exact ⟨true, rfl⟩
  | scrolled => exact ⟨false, inputOf_scrollView key t.con⟩
  | moved _ panes => exact ⟨false, by rw [cleared, drawn]⟩
  | resized => exact ⟨t.con.ctrl, drawn _⟩
  | queued => exact ⟨t.con.ctrl, rfl⟩

end LifeOS.Console
