import LifeOS.Console.Updates

/-!
The console as a text: stored lines, screen rows and a cursor, without the VGA buffer,
the view and the ports. The console's functions act on this text; what they do to the
VGA buffer is said by `Displayed`.
-/

namespace LifeOS.Console
open LifeOS.Library.Loops LifeOS.Library.Strings

def charOf (v : Cell) : Byte := v.setWidth 8

theorem charOf_cellOf (ch : Byte) : charOf (cellOf ch) = ch := by
  unfold charOf cellOf
  rw [BitVec.setWidth_or]
  apply BitVec.eq_of_getLsbD_eq
  intro i inside
  simp [BitVec.getLsbD_signExtend, inside]
  omega

structure Text where
  lines : List Row
  screen : Fin 25 → Row
  x : Fin 80
  y : Fin 25

def textOf (c : ConsoleState) : Text := ⟨stored c, c.screenBuffer, c.cursorX, c.cursorY⟩

namespace Text

/-- The top row joins the stored lines, of which the newest hundred stay. -/
def scroll (t : Text) : Text :=
  { t with lines := (t.lines ++ [t.screen 0]).drop (t.lines.length + 1 - 100),
           screen := scrolledUp t.screen }

def nextRow (t : Text) : Text :=
  if below : t.y.val + 1 < 25 then { t with y := ⟨t.y.val + 1, below⟩ } else { t.scroll with y := 24 }

def store (y : Fin 25) (x : Fin 80) (v : Cell) (t : Text) : Text :=
  { t with screen := Function.update t.screen y (Function.update (t.screen y) x v) }

def back (t : Text) : Text :=
  if 0 < t.x.val then { t with x := ⟨t.x.val - 1, by omega⟩ }
  else if 0 < t.y.val then { t with y := ⟨t.y.val - 1, by omega⟩, x := 79 }
  else t

def putc (ch : Byte) (t : Text) : Text :=
  if ch = newline then { t with x := 0 }.nextRow
  else if ch = backspace then t.back.store t.back.y t.back.x blank
  else
    let t := t.store t.y t.x (cellOf ch)
    if right : t.x.val + 1 < 80 then { t with x := ⟨t.x.val + 1, right⟩ } else { t with x := 0 }.nextRow

def write : List Byte → Text → Text
  | [], t => t
  | ch :: s, t => write s (t.putc ch)

theorem write_append (first second : List Byte) (t : Text) :
    write (first ++ second) t = write second (write first t) := by
  induction first generalizing t with
  | nil => rfl
  | cons ch first ih => exact ih (t.putc ch)

def clear : Text := ⟨[], fun _ _ => blank, 0, 0⟩

def setCursor (x y : BitVec 8) (t : Text) : Text :=
  let t := if inside : x.toNat < 80 then { t with x := ⟨x.toNat, inside⟩ } else t
  if inside : y.toNat < 25 then { t with y := ⟨y.toNat, inside⟩ } else t

end Text

@[simp]
theorem textOf_updateCursor (c : ConsoleState) : textOf (updateCursor c) = textOf c := rfl

@[simp]
theorem textOf_serialPutc (ch : Byte) (c : ConsoleState) : textOf (serialPutc ch c) = textOf c := rfl

/-- A redraw changes the VGA buffer, the cursor registers and an excessive view only. -/
theorem renderView_eq (c : ConsoleState) :
    renderView c = updateCursor
      { c with sbView := min c.sbView c.sbCount.val,
               vgaBuffer := fun r => viewRow (c.sbCount.val - min c.sbView c.sbCount.val + r.val) c } := by
  unfold renderView
  dsimp only
  rw [fill_vga_rows (fun row => viewRow (_ + row.val)) (fun _ _ _ => rfl)]
  by_cases excess : c.sbView > c.sbCount.val
  · simp only [if_pos excess]
    rw [Nat.min_eq_right (by omega), if_neg (by omega), Nat.sub_self]
    rfl
  · simp only [if_neg excess]
    rw [Nat.min_eq_left (by omega)]
    by_cases more : c.sbCount.val + 25 > 25 + c.sbView
    · rw [if_pos more, show c.sbCount.val + 25 - 25 - c.sbView = c.sbCount.val - c.sbView by omega]
    · rw [if_neg more, show c.sbCount.val - c.sbView = 0 by omega]

@[simp]
theorem textOf_renderView (c : ConsoleState) : textOf (renderView c) = textOf c := by
  rw [renderView_eq]
  rfl

@[simp]
theorem textOf_ensureBottom (c : ConsoleState) : textOf (ensureBottom c) = textOf c := by
  unfold ensureBottom
  split
  · rw [textOf_renderView]
    rfl
  · rfl

theorem textOf_scrollScreen (c : ConsoleState) : textOf (scrollScreen c) = (textOf c).scroll := by
  obtain ⟨slots, start, count, scrolled, ring⟩ := scrollScreen_eq c
  have length : (textOf c).lines.length = c.sbCount.val := stored_length c
  rw [scrolled]
  simp only [Text.scroll, length]
  simp only [textOf, stored] at ring ⊢
  rw [ring]

theorem textOf_row (y : Fin 25) (c : ConsoleState) :
    textOf { c with cursorY := y } = { textOf c with y := y } := rfl

theorem textOf_column (x : Fin 80) (c : ConsoleState) :
    textOf { c with cursorX := x } = { textOf c with x := x } := rfl

theorem textOf_nextRow (c : ConsoleState) : textOf (nextRow c) = (textOf c).nextRow := by
  unfold nextRow Text.nextRow
  by_cases below : c.cursorY.val + 1 < 25
  · rw [dif_pos below, dif_pos (show (textOf c).y.val + 1 < 25 from below)]
    rfl
  · rw [dif_neg below, dif_neg (show ¬(textOf c).y.val + 1 < 25 from below), textOf_row,
      textOf_scrollScreen]

theorem textOf_plot (y : Fin 25) (x : Fin 80) (v : Cell) (c : ConsoleState) :
    textOf (plot y x v c) = (textOf c).store y x v := by
  unfold plot
  dsimp only
  split <;> rfl

theorem storeCell_eq (v : Cell) (c : ConsoleState) : storeCell v c = plot c.cursorY c.cursorX v c := by
  unfold storeCell plot
  by_cases bottom : c.sbView = 0
  · rw [if_pos (show (setScreen _ _ v c).sbView = 0 from bottom),
      if_pos (show (setScreen _ _ v c).sbView = 0 from bottom)]
    simp [setScreen]
  · rw [if_neg (show ¬(setScreen _ _ v c).sbView = 0 from bottom),
      if_neg (show ¬(setScreen _ _ v c).sbView = 0 from bottom)]

theorem textOf_cursorBack (c : ConsoleState) : textOf (cursorBack c) = (textOf c).back := by
  unfold cursorBack Text.back
  by_cases right : 0 < c.cursorX.val
  · rw [if_pos right, if_pos (show 0 < (textOf c).x.val from right)]
    rfl
  · rw [if_neg right, if_neg (show ¬0 < (textOf c).x.val from right)]
    by_cases lower : 0 < c.cursorY.val
    · rw [if_pos lower, if_pos (show 0 < (textOf c).y.val from lower)]
      rfl
    · rw [if_neg lower, if_neg (show ¬0 < (textOf c).y.val from lower)]

/-- Printing acts on the text alone, wherever the view is. -/
@[simp]
theorem textOf_consolePutc (ch : Byte) (c : ConsoleState) :
    textOf (consolePutc ch c) = (textOf c).putc ch := by
  have start : textOf (ensureBottom (serialPutc ch c)) = textOf c := by simp
  unfold consolePutc
  generalize ensureBottom (serialPutc ch c) = d at start ⊢
  rw [← start]
  have finish (e : ConsoleState) : textOf (if e.sbView = 0 then updateCursor e else e) = textOf e := by
    split
    · exact textOf_updateCursor e
    · rfl
  dsimp only
  rw [finish]
  unfold Text.putc
  by_cases line : ch = newline
  · rw [if_pos line, if_pos line, textOf_nextRow, textOf_column]
  · rw [if_neg line, if_neg line]
    by_cases erase : ch = backspace
    · rw [if_pos erase, if_pos erase, storeCell_eq, textOf_plot, textOf_cursorBack]
      rw [← textOf_cursorBack]
      rfl
    · rw [if_neg erase, if_neg erase]
      have stored := (congrArg textOf (storeCell_eq (cellOf ch) d)).trans (textOf_plot _ _ _ d)
      generalize storeCell (cellOf ch) d = e at stored ⊢
      change textOf e = (textOf d).store (textOf d).y (textOf d).x (cellOf ch) at stored
      dsimp only
      rw [← stored]
      by_cases right : e.cursorX.val + 1 < 80
      · rw [dif_pos right, dif_pos (show (textOf e).x.val + 1 < 80 from right), textOf_column]
        rfl
      · rw [dif_neg right, dif_neg (show ¬(textOf e).x.val + 1 < 80 from right), textOf_nextRow,
          textOf_column]

@[simp]
theorem textOf_consoleWrite (s : List Byte) (c : ConsoleState) :
    textOf (consoleWrite s c) = (textOf c).write s := by
  induction s generalizing c with
  | nil => rfl
  | cons ch s ih => rw [consoleWrite, ih, textOf_consolePutc, Text.write]

@[simp]
theorem textOf_consoleClear (c : ConsoleState) : textOf (consoleClear c) = Text.clear := by
  unfold consoleClear
  rw [clear_rows]
  rfl

@[simp]
theorem textOf_consoleSetCursor (x y : BitVec 8) (c : ConsoleState) :
    textOf (consoleSetCursor x y c) = (textOf c).setCursor x y := by
  unfold consoleSetCursor Text.setCursor
  by_cases column : x.toNat < 80 <;> by_cases row : y.toNat < 25 <;> simp [column, row] <;> rfl

end LifeOS.Console
