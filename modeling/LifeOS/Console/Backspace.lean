import LifeOS.Console.Cells
import LifeOS.Console.Window

/-!
A backspace behind a printed character. In the document of stored lines and screen
rows the pair only blanks the cursor's cell; printing in the last cell of the screen
scrolls, which adds a row below and takes the oldest line of a full ring.
-/

namespace LifeOS.Console
open LifeOS.Library.Strings

def blankRow : Row := fun _ => blank

namespace Text

/-- The stored lines, oldest first, and the rows of the screen. -/
def rows (t : Text) : List Row := t.lines ++ List.ofFn t.screen

theorem rows_getElem? (t : Text) (k : Nat) : t.rows[k]? =
    if k < t.lines.length then t.lines[k]?
    else if inside : k - t.lines.length < 25 then some (t.screen ⟨k - t.lines.length, inside⟩) else none := by
  unfold rows
  by_cases old : k < t.lines.length
  · rw [List.getElem?_append_left old, if_pos old]
  · rw [List.getElem?_append_right (by omega), if_neg old, List.getElem?_ofFn]

theorem store_lines (t : Text) (y : Fin 25) (x : Fin 80) (v : Cell) : (t.store y x v).lines = t.lines := rfl

theorem store_screen (t : Text) (y : Fin 25) (x : Fin 80) (v : Cell) :
    (t.store y x v).screen = Function.update t.screen y (Function.update (t.screen y) x v) := rfl

theorem rows_store (t : Text) (y : Fin 25) (x : Fin 80) (v : Cell) :
    (t.store y x v).rows =
      t.rows.modify (t.lines.length + y.val) (fun row => Function.update row x v) := by
  apply List.ext_getElem?
  intro k
  rw [List.getElem?_modify, rows_getElem?, rows_getElem?, store_lines, store_screen]
  by_cases old : k < t.lines.length
  · have apart : ¬t.lines.length + y.val = k := by omega
    simp [old, apart]
  · by_cases inside : k - t.lines.length < 25
    · rw [if_neg old, if_neg old, dif_pos inside, dif_pos inside]
      by_cases here : t.lines.length + y.val = k
      · have row : (⟨k - t.lines.length, inside⟩ : Fin 25) = y := Fin.ext (by simp only; omega)
        rw [row, Function.update_self]
        simp [here]
      · have row : (⟨k - t.lines.length, inside⟩ : Fin 25) ≠ y := by
          intro same
          have value := congrArg Fin.val same
          simp only at value
          omega
        rw [Function.update_of_ne row]
        simp [here]
    · rw [if_neg old, if_neg old, dif_neg inside, dif_neg inside]
      simp

theorem ofFn_scrolledUp (screen : Fin 25 → Row) :
    screen 0 :: List.ofFn (scrolledUp screen) = List.ofFn screen ++ [blankRow] := by
  rw [List.ofFn_succ_last, List.ofFn_succ (f := screen), List.cons_append]
  rfl

/-- A scroll appends a blank row and drops the oldest line of a full ring. -/
theorem rows_scroll (t : Text) :
    t.scroll.rows = (t.rows ++ [blankRow]).drop (t.lines.length + 1 - 100) := by
  have room : t.lines.length + 1 - 100 ≤ (t.lines ++ [t.screen 0]).length := by
    rw [List.length_append, List.length_singleton]
    omega
  calc t.scroll.rows
      = (t.lines ++ [t.screen 0]).drop (t.lines.length + 1 - 100) ++ List.ofFn (scrolledUp t.screen) := rfl
    _ = (t.lines ++ [t.screen 0] ++ List.ofFn (scrolledUp t.screen)).drop (t.lines.length + 1 - 100) :=
        (List.drop_append_of_le_length room).symm
    _ = (t.rows ++ [blankRow]).drop (t.lines.length + 1 - 100) := by
        rw [rows, List.append_assoc, List.append_assoc, List.singleton_append, ofFn_scrolledUp]

theorem scroll_screen (t : Text) : t.scroll.screen = scrolledUp t.screen := rfl

theorem store_store (t : Text) (y : Fin 25) (x : Fin 80) (v w : Cell) :
    (t.store y x v).store y x w = t.store y x w := by
  simp [store]

def AtCorner (t : Text) : Prop := t.x.val = 79 ∧ t.y.val = 24

instance (t : Text) : Decidable t.AtCorner := inferInstanceAs (Decidable (_ ∧ _))

theorem putc_backspace (t : Text) : t.putc backspace = t.back.store t.back.y t.back.x blank := by
  unfold putc
  rw [if_neg (by decide), if_pos rfl]

theorem back_of_column (t : Text) (x : Fin 80) (inside : x.val + 1 < 80) :
    ({ t with x := ⟨x.val + 1, inside⟩ } : Text).back = { t with x := x } := by
  unfold back
  exact if_pos (Nat.succ_pos x.val)

theorem back_of_row (t : Text) (y : Fin 25) (below : y.val + 1 < 25) :
    ({ t with x := 0, y := ⟨y.val + 1, below⟩ } : Text).back = { t with x := 79, y := y } := by
  unfold back
  exact (if_neg (Nat.lt_irrefl 0)).trans (if_pos (Nat.succ_pos y.val))

theorem scroll_store (t : Text) (x : Fin 80) (v : Cell) :
    (t.store 24 x v).scroll = t.scroll.store 23 x v := by
  have top : (t.store 24 x v).screen 0 = t.screen 0 := by
    rw [store_screen, Function.update_of_ne (by decide)]
  have screen : scrolledUp (t.store 24 x v).screen = (t.scroll.store 23 x v).screen := by
    funext y
    rw [store_screen, store_screen, scroll_screen]
    by_cases here : y = 23
    · rw [here, Function.update_self]
      rfl
    · rw [Function.update_of_ne here]
      unfold scrolledUp
      by_cases upper : y.val < 24
      · have other : (⟨y.val + 1, by omega⟩ : Fin 25) ≠ 24 := by
          intro same
          have value : y.val + 1 = 24 := congrArg Fin.val same
          exact here (Fin.ext (show y.val = 23 by omega))
        rw [dif_pos upper, dif_pos upper, Function.update_of_ne other]
      · rw [dif_neg upper, dif_neg upper]
  calc (t.store 24 x v).scroll
      = { t with lines := (t.lines ++ [(t.store 24 x v).screen 0]).drop (t.lines.length + 1 - 100)
                 screen := scrolledUp (t.store 24 x v).screen } := rfl
    _ = t.scroll.store 23 x v := by
        rw [top, screen]
        rfl

theorem undone_inside (t : Text) (ch : Byte) (visible : ch ≠ newline ∧ ch ≠ backspace)
    (inside : ¬t.AtCorner) : (t.putc ch).putc backspace = t.store t.y t.x blank := by
  rw [putc_backspace]
  have back : (t.putc ch).back = t.store t.y t.x (cellOf ch) := by
    by_cases right : t.x.val + 1 < 80
    · rw [putc_inside t ch visible right]
      exact back_of_column _ t.x right
    · have below : t.y.val + 1 < 25 := by
        unfold AtCorner at inside
        omega
      have column : (79 : Fin 80) = t.x := Fin.ext (show 79 = t.x.val by omega)
      rw [putc_edge t ch visible right below]
      refine (back_of_row _ t.y below).trans ?_
      rw [column]
      rfl
  rw [back]
  exact store_store t t.y t.x (cellOf ch) blank

theorem putc_corner (t : Text) (ch : Byte) (visible : ch ≠ newline ∧ ch ≠ backspace)
    (corner : t.AtCorner) :
    t.putc ch = { (t.store t.y t.x (cellOf ch)).scroll with x := 0, y := 24 } := by
  have edge : ¬(t.store t.y t.x (cellOf ch)).x.val + 1 < 80 := by
    change ¬t.x.val + 1 < 80
    rw [corner.1]
    decide
  have bottom : ¬(t.store t.y t.x (cellOf ch)).y.val + 1 < 25 := by
    change ¬t.y.val + 1 < 25
    rw [corner.2]
    decide
  unfold putc
  rw [if_neg visible.1, if_neg visible.2]
  dsimp only
  rw [dif_neg edge]
  exact dif_neg bottom

/-- In the corner the blanked cell ends up one row higher, the cursor on it. -/
theorem undone_corner (t : Text) (ch : Byte) (visible : ch ≠ newline ∧ ch ≠ backspace)
    (corner : t.AtCorner) :
    (t.putc ch).putc backspace = { (t.store t.y t.x blank).scroll with x := 79, y := 23 } := by
  have column : t.x = 79 := Fin.ext corner.1
  have row : t.y = 24 := Fin.ext corner.2
  have back : (t.putc ch).back = { (t.store 24 79 (cellOf ch)).scroll with x := 79, y := 23 } := by
    rw [putc_corner t ch visible corner, column, row]
    exact back_of_row _ 23 (by decide)
  rw [putc_backspace, back, column, row, scroll_store, scroll_store]
  have twice := store_store t.scroll 23 79 (cellOf ch) blank
  exact congrArg (fun s : Text => ({ s with x := 79, y := 23 } : Text)) twice

end Text

/-- The oldest line leaves the document when a full ring takes another. -/
def droppedLines (c : ConsoleState) : Nat :=
  if (textOf c).AtCorner ∧ c.sbCount.val = 100 then 1 else 0

theorem textOf_lines_length (c : ConsoleState) : (textOf c).lines.length = c.sbCount.val :=
  stored_length c

/-- The text behind the pair: its column, its line in the old count and its rows. -/
structure Undone (t after : Text) (dropped : Nat) : Prop where
  column : after.x = t.x
  line : after.lines.length + after.y.val + dropped = t.lines.length + t.y.val
  rows : after.rows =
    (t.rows.modify (t.lines.length + t.y.val) (fun row => Function.update row t.x blank) ++
      if t.AtCorner then [blankRow] else []).drop dropped

theorem undone_of_inside (t : Text) (ch : Byte) (visible : ch ≠ newline ∧ ch ≠ backspace)
    (inside : ¬t.AtCorner) : Undone t ((t.putc ch).putc backspace) 0 := by
  rw [t.undone_inside ch visible inside]
  refine ⟨rfl, rfl, ?_⟩
  rw [Text.rows_store, if_neg inside, List.append_nil, List.drop_zero]

theorem undone_of_corner (t : Text) (ch : Byte) (visible : ch ≠ newline ∧ ch ≠ backspace)
    (corner : t.AtCorner) (bounded : t.lines.length ≤ 100) :
    Undone t ((t.putc ch).putc backspace) (t.lines.length + 1 - 100) := by
  have lines : (t.store t.y t.x blank).scroll.lines.length + (t.lines.length + 1 - 100) =
      t.lines.length + 1 := by
    change ((t.lines ++ [_]).drop (t.lines.length + 1 - 100)).length + _ = _
    rw [List.length_drop, List.length_append, List.length_singleton]
    omega
  rw [t.undone_corner ch visible corner]
  refine ⟨Fin.ext corner.1.symm, ?_, ?_⟩
  · change (t.store t.y t.x blank).scroll.lines.length + 23 + (t.lines.length + 1 - 100) = _
    rw [corner.2]
    omega
  · change (t.store t.y t.x blank).scroll.rows = _
    rw [Text.rows_scroll, Text.rows_store, Text.store_lines, if_pos corner]

theorem droppedLines_inside (c : ConsoleState) (inside : ¬(textOf c).AtCorner) : droppedLines c = 0 :=
  if_neg (fun both => inside both.1)

theorem droppedLines_corner (c : ConsoleState) (corner : (textOf c).AtCorner) :
    droppedLines c = c.sbCount.val + 1 - 100 := by
  unfold droppedLines
  by_cases full : c.sbCount.val = 100
  · rw [if_pos ⟨corner, full⟩, full]
  · rw [if_neg (fun both => full both.2)]
    omega

theorem consolePutc_undone (c : ConsoleState) (ch : Byte) (visible : ch ≠ newline ∧ ch ≠ backspace) :
    Undone (textOf c) (textOf (consolePutc backspace (consolePutc ch c))) (droppedLines c) := by
  rw [textOf_consolePutc, textOf_consolePutc]
  by_cases corner : (textOf c).AtCorner
  · have length := textOf_lines_length c
    rw [droppedLines_corner c corner, ← length]
    exact undone_of_corner (textOf c) ch visible corner (by omega)
  · rw [droppedLines_inside c corner]
    exact undone_of_inside (textOf c) ch visible corner

theorem Undone.console {before after : ConsoleState} {dropped : Nat}
    (undone : Undone (textOf before) (textOf after) dropped) :
    after.cursorX = before.cursorX ∧
    after.sbCount.val + after.cursorY.val + dropped = before.sbCount.val + before.cursorY.val ∧
    document after =
      ((document before).modify (before.sbCount.val + before.cursorY.val)
          (fun row => Function.update row before.cursorX blank) ++
        if (textOf before).AtCorner then [blankRow] else []).drop dropped := by
  have line := undone.line
  have rows := undone.rows
  rw [textOf_lines_length, textOf_lines_length] at line
  rw [textOf_lines_length] at rows
  exact ⟨undone.column, line, rows⟩

/-- Printing a character and a backspace puts the cursor back on its line and column
and blanks its cell; only from the last cell of the screen does the document grow, by
one blank row, and lose its oldest line when a hundred were stored. -/
theorem backspace_undoes_putc (c : ConsoleState) (ch : Byte) (visible : ch ≠ newline ∧ ch ≠ backspace) :
    (consolePutc backspace (consolePutc ch c)).cursorX = c.cursorX ∧
    (consolePutc backspace (consolePutc ch c)).sbCount.val +
        (consolePutc backspace (consolePutc ch c)).cursorY.val + droppedLines c =
      c.sbCount.val + c.cursorY.val ∧
    document (consolePutc backspace (consolePutc ch c)) =
      ((document c).modify (c.sbCount.val + c.cursorY.val) (fun row => Function.update row c.cursorX blank) ++
        if (textOf c).AtCorner then [blankRow] else []).drop (droppedLines c) :=
  (consolePutc_undone c ch visible).console

/-- A letter and a backspace on the cleared screen. -/
theorem letter_undone :
    (consolePutc backspace (consolePutc 0x61#8 (consoleInit Terminal.zeroed.con))).cursorX =
        (consoleInit Terminal.zeroed.con).cursorX ∧
      (consolePutc backspace (consolePutc 0x61#8 (consoleInit Terminal.zeroed.con))).sbCount.val +
          (consolePutc backspace (consolePutc 0x61#8 (consoleInit Terminal.zeroed.con))).cursorY.val +
          droppedLines (consoleInit Terminal.zeroed.con) =
        (consoleInit Terminal.zeroed.con).sbCount.val + (consoleInit Terminal.zeroed.con).cursorY.val :=
  have undone := backspace_undoes_putc (consoleInit Terminal.zeroed.con) 0x61#8 (by decide)
  ⟨undone.1, undone.2.1⟩

end LifeOS.Console
