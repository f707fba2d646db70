import Mathlib.Data.List.GetD
import LifeOS.Library.Runs
import LifeOS.Console.Frame

/-!
The console against an unbounded text. A sheet of lines grows with every character; the
screen shows its last 25 lines and the scrollback ring the hundred lines before them.
-/

namespace LifeOS.Console
open LifeOS.Drivers LifeOS.Library.Runs LifeOS.Library.Strings

/-- The text printed so far: the finished lines and the one being written. -/
structure Sheet where
  done : List (List Byte)
  last : List Byte

namespace Sheet

def empty : Sheet := ⟨[], []⟩

def lines (s : Sheet) : List (List Byte) := s.done ++ [s.last]

def finish (s : Sheet) : Sheet := ⟨s.lines, []⟩

/-- A newline, or the 80th character, starts the next line. -/
def type (ch : Byte) (s : Sheet) : Sheet :=
  if ch = newline then s.finish
  else if s.last.length + 1 < 80 then { s with last := s.last ++ [ch] }
  else { s with last := s.last ++ [ch] }.finish

def above (s : Sheet) : Nat := s.lines.length - 25

end Sheet

def charsOf (row : Row) : List Byte := List.ofFn (fun x => charOf (row x))

def padded (line : List Byte) : List Byte := line ++ List.replicate (80 - line.length) 0x20#8

theorem charsOf_blank : charsOf (fun _ => blank) = padded [] := by
  have space : charOf blank = 0x20#8 := charOf_cellOf 0x20#8
  simp only [charsOf, space, List.ofFn_const]
  rfl

theorem charsOf_update (row : Row) (x : Fin 80) (v : Cell) :
    charsOf (Function.update row x v) = (charsOf row).set x.val (charOf v) := by
  apply List.ext_getElem
  · simp [charsOf]
  · intro i inside _
    rw [List.getElem_set]
    simp only [charsOf, List.getElem_ofFn, Function.update_apply, Fin.ext_iff]
    by_cases here : x.val = i
    · simp [here]
    · simp [here, Ne.symm here]

theorem padded_set (line : List Byte) (ch : Byte) (room : line.length < 80) :
    (padded line).set line.length ch = padded (line ++ [ch]) := by
  have blanks : 80 - line.length = (80 - (line ++ [ch]).length) + 1 := by
    rw [List.length_append, List.length_singleton]
    omega
  unfold padded
  rw [List.set_append_right _ _ (Nat.le_refl _), blanks, Nat.sub_self, List.replicate_succ,
    List.set_cons_zero, List.append_assoc, List.singleton_append]

/-- The rows, the ring and the row of the cursor show the sheet. -/
structure ShowsLines (t : Text) (s : Sheet) : Prop where
  row : t.y.val + 1 = min s.lines.length 25
  screen : ∀ y : Fin 25, charsOf (t.screen y) = padded (s.lines.getD (s.above + y.val) [])
  ring : t.lines.map charsOf = ((s.lines.take s.above).drop (s.above - 100)).map padded

structure Shows (t : Text) (s : Sheet) : Prop where
  shown : ShowsLines t s
  column : t.x.val = s.last.length

theorem clear_shows : Shows Text.clear Sheet.empty := by
  refine ⟨⟨rfl, ?_, rfl⟩, rfl⟩
  intro y
  have empty : Sheet.empty.lines.getD (Sheet.empty.above + y.val) [] = [] := by
    cases h : Sheet.empty.above + y.val <;> simp [Sheet.empty, Sheet.lines]
  rw [empty]
  exact charsOf_blank

theorem finish_lines (s : Sheet) : s.finish.lines = s.lines ++ [[]] := rfl

theorem getD_finish (s : Sheet) (i : Nat) : s.finish.lines.getD i [] = s.lines.getD i [] := by
  rw [finish_lines]
  by_cases old : i < s.lines.length
  · rw [List.getD_append _ _ _ _ old]
  · rw [List.getD_append_right _ _ _ _ (by omega), List.getD_eq_default s.lines [] (by omega)]
    cases i - s.lines.length <;> simp

theorem ShowsLines.ring_length {t : Text} {s : Sheet} (shown : ShowsLines t s) :
    t.lines.length = min s.above 100 := by
  have lengths := congrArg List.length shown.ring
  have inside : s.above ≤ s.lines.length := Nat.sub_le _ _
  simp only [List.length_map, List.length_drop, List.length_take] at lengths
  omega

theorem ShowsLines.descended {t : Text} {s : Sheet} (shown : ShowsLines t s) (below : t.y.val + 1 < 25) :
    ShowsLines { t with x := 0, y := ⟨t.y.val + 1, below⟩ } s.finish := by
  have row := shown.row
  have length : s.finish.lines.length = s.lines.length + 1 := by
    rw [finish_lines, List.length_append, List.length_singleton]
  have same : s.finish.above = s.above := by
    unfold Sheet.above
    omega
  have none_above : s.above = 0 := by
    unfold Sheet.above
    omega
  refine ⟨?_, ?_, ?_⟩
  · change t.y.val + 1 + 1 = _
    omega
  · intro y
    rw [same, getD_finish]
    exact shown.screen y
  · have before := shown.ring
    rw [none_above] at before
    rw [same, none_above]
    exact before

theorem lastHundred_append {α : Type} (entries : List α) (new : α) :
    (entries.drop (entries.length - 100) ++ [new]).drop (min entries.length 100 + 1 - 100) =
      (entries ++ [new]).drop (entries.length + 1 - 100) := by
  by_cases room : entries.length < 100
  · rw [show min entries.length 100 + 1 - 100 = 0 by omega, show entries.length - 100 = 0 by omega,
      show entries.length + 1 - 100 = 0 by omega]
    rfl
  · have past : entries.length - 100 ≤ entries.length := Nat.sub_le _ _
    rw [show min entries.length 100 + 1 - 100 = 1 by omega,
      show entries.length + 1 - 100 = entries.length - 100 + 1 by omega, ← List.drop_drop,
      List.drop_append_of_le_length past]

theorem ShowsLines.scrolled {t : Text} {s : Sheet} (shown : ShowsLines t s) (bottom : ¬t.y.val + 1 < 25) :
    ShowsLines { t.scroll with x := 0, y := 24 } s.finish := by
  have row := shown.row
  have bound := t.y.isLt
  have length : s.finish.lines.length = s.lines.length + 1 := by
    rw [finish_lines, List.length_append, List.length_singleton]
  have more : s.finish.above = s.above + 1 := by
    unfold Sheet.above
    omega
  have inside : s.above < s.lines.length := by
    unfold Sheet.above
    omega
  refine ⟨?_, ?_, ?_⟩
  · change 24 + 1 = _
    omega
  · intro y
    rw [more, getD_finish]
    change charsOf (scrolledUp t.screen y) = _
    unfold scrolledUp
    by_cases upper : y.val < 24
    · rw [dif_pos upper, shown.screen, show s.above + (y.val + 1) = s.above + 1 + y.val by omega]
    · have beyond : s.lines.length ≤ s.above + 1 + y.val := by
        unfold Sheet.above
        omega
      rw [dif_neg upper, charsOf_blank, List.getD_eq_default _ _ beyond]
  · -- the top row of the screen is the line right behind the ring
    have top : charsOf (t.screen 0) = padded (s.lines.getD s.above []) := shown.screen 0
    have taken : s.finish.lines.take (s.above + 1) = s.lines.take s.above ++ [s.lines.getD s.above []] := by
      rw [finish_lines, List.take_append_of_le_length (by omega), List.take_add_one,
        List.getD_eq_getElem?_getD, List.getElem?_eq_getElem inside]
      rfl
    have count : (s.lines.take s.above).length = s.above := by
      rw [List.length_take]
      omega
    have appended := lastHundred_append (s.lines.take s.above) (s.lines.getD s.above [])
    rw [count] at appended
    change ((t.lines ++ [t.screen 0]).drop (t.lines.length + 1 - 100)).map charsOf = _
    rw [more, taken, ← appended, List.map_drop, List.map_append, shown.ring, List.map_singleton, top,
      shown.ring_length]
    simp only [List.map_drop, List.map_append, List.map_singleton]

theorem ShowsLines.nextRow {t : Text} {s : Sheet} (shown : ShowsLines t s) :
    Shows ({ t with x := 0 }.nextRow) s.finish := by
  by_cases below : t.y.val + 1 < 25
  · have next : ({ t with x := 0 } : Text).nextRow =
        { t with x := 0, y := ⟨t.y.val + 1, below⟩ } := dif_pos below
    rw [next]
    exact ⟨shown.descended below, rfl⟩
  · have next : ({ t with x := 0 } : Text).nextRow = { t.scroll with x := 0, y := 24 } := dif_neg below
    rw [next]
    exact ⟨shown.scrolled below, rfl⟩

theorem Shows.store {t : Text} {s : Sheet} (shows : Shows t s) (ch : Byte) (room : s.last.length < 80) :
    ShowsLines (t.store t.y t.x (cellOf ch)) { s with last := s.last ++ [ch] } := by
  have row := shows.shown.row
  have length : s.lines.length = s.done.length + 1 := by
    rw [Sheet.lines, List.length_append, List.length_singleton]
  have place : s.above + t.y.val = s.done.length := by
    unfold Sheet.above
    omega
  have grown : ({ s with last := s.last ++ [ch] } : Sheet).lines.length = s.lines.length := by
    simp [Sheet.lines]
  have same : ({ s with last := s.last ++ [ch] } : Sheet).above = s.above := by
    unfold Sheet.above
    rw [grown]
  refine ⟨?_, ?_, ?_⟩
  · rw [grown]
    exact row
  · intro y
    rw [same]
    change charsOf (Function.update t.screen t.y (Function.update (t.screen t.y) t.x (cellOf ch)) y) = _
    by_cases here : y = t.y
    · have last : s.lines.getD (s.above + t.y.val) [] = s.last := by simp [place, Sheet.lines]
      rw [here, Function.update_self, charsOf_update, shows.shown.screen, charOf_cellOf, shows.column,
        last, padded_set s.last ch room, place]
      simp [Sheet.lines]
    · have apart : y.val ≠ t.y.val := fun equal => here (Fin.ext equal)
      rw [Function.update_of_ne here, shows.shown.screen]
      congr 1
      unfold Sheet.lines
      by_cases earlier : s.above + y.val < s.done.length
      · rw [List.getD_append _ _ _ _ earlier, List.getD_append _ _ _ _ earlier]
      · have beyond : s.done.length + 1 ≤ s.above + y.val := by omega
        rw [List.getD_eq_default _ _ (by simpa using beyond), List.getD_eq_default _ _ (by simpa using beyond)]
  · have inside : s.above ≤ s.done.length := by omega
    have prefix_same : ({ s with last := s.last ++ [ch] } : Sheet).lines.take s.above =
        s.lines.take s.above := by
      unfold Sheet.lines
      rw [List.take_append_of_le_length inside, List.take_append_of_le_length inside]
    rw [same, prefix_same]
    exact shows.shown.ring

theorem putc_shows (ch : Byte) (t : Text) (s : Sheet) (plain : ch ≠ backspace) (shows : Shows t s) :
    Shows (t.putc ch) (s.type ch) := by
  have column := shows.column
  have bound := t.x.isLt
  unfold Text.putc Sheet.type
  by_cases line : ch = newline
  · rw [if_pos line, if_pos line]
    exact shows.shown.nextRow
  · rw [if_neg line, if_neg line, if_neg plain]
    have stored := shows.store ch (by omega)
    dsimp only
    by_cases right : t.x.val + 1 < 80
    · rw [dif_pos (show (t.store t.y t.x (cellOf ch)).x.val + 1 < 80 from right), if_pos (by omega)]
      refine ⟨⟨stored.row, stored.screen, stored.ring⟩, ?_⟩
      change t.x.val + 1 = (s.last ++ [ch]).length
      rw [List.length_append, List.length_singleton, column]
    · rw [dif_neg (show ¬(t.store t.y t.x (cellOf ch)).x.val + 1 < 80 from right), if_neg (by omega)]
      exact stored.nextRow

/-- A printed character other than a backspace, or a key that may scroll the view. -/
inductive Event where
  | putc (ch : {ch : Byte // ch ≠ backspace})
  | key (key : {key : Byte // key = keyUp ∨ key = keyDown ∨ key = keyCtrl})

def step : Event → Terminal → Terminal
  | .putc ch, t => t.onConsole (consolePutc ch.val)
  | .key key, t => consolePollInput key.val t

def Sheet.step : Event → Sheet → Sheet
  | .putc ch, s => s.type ch.val
  | .key _, s => s

theorem textOf_viewKey (key : Byte) (t : Terminal) (view : key = keyUp ∨ key = keyDown ∨ key = keyCtrl) :
    textOf (consolePollInput key t).con = textOf t.con := by
  by_cases scrolls : Scrolls key t.con
  · rw [poll_scrolls key t scrolls]
    exact textOf_scrollView key t.con
  · unfold consolePollInput pollRules
    rcases view with rfl | rfl | rfl
    · rw [if_neg (by decide), if_neg (by decide), if_neg scrolls, if_neg (by decide), if_neg (by decide),
        if_neg (by decide), if_neg (by decide), if_neg (by decide), if_neg (by decide)]
      exact textOf_enqueue _ _
    · rw [if_neg (by decide), if_neg (by decide), if_neg scrolls, if_neg (by decide), if_neg (by decide),
        if_neg (by decide), if_neg (by decide), if_neg (by decide), if_neg (by decide)]
      exact textOf_enqueue _ _
    · rw [if_neg (by decide), if_pos rfl]
      rfl

theorem step_shows (event : Event) (t : Terminal) (s : Sheet) (shows : Shows (textOf t.con) s) :
    Shows (textOf (step event t).con) (s.step event) := by
  cases event with
  | putc ch =>
    change Shows (textOf (consolePutc ch.val t.con)) (s.type ch.val)
    rw [textOf_consolePutc]
    exact putc_shows ch.val _ s ch.property shows
  | key key =>
    change Shows (textOf (consolePollInput key.val t).con) s
    rw [textOf_viewKey key.val t key.property]
    exact shows

theorem step_widths (event : Event) (s : Sheet)
    (fits : (∀ line ∈ s.done, line.length ≤ 80) ∧ s.last.length < 80) :
    (∀ line ∈ (s.step event).done, line.length ≤ 80) ∧ (s.step event).last.length < 80 := by
  obtain ⟨finished, open_line⟩ := fits
  have closed (last : List Byte) (short : last.length ≤ 80) :
      ∀ line ∈ s.done ++ [last], line.length ≤ 80 := by
    intro line member
    rcases List.mem_append.mp member with old | new
    · exact finished line old
    · rw [List.mem_singleton.mp new]
      exact short
  cases event with
  | key key => exact ⟨finished, open_line⟩
  | putc ch =>
    unfold Sheet.step Sheet.type
    dsimp only
    split
    · exact ⟨closed s.last open_line.le, Nat.zero_lt_succ 79⟩
    · split
      · exact ⟨finished, by simpa using ‹_›⟩
      · exact ⟨closed (s.last ++ [ch.val]) (by simp; omega), Nat.zero_lt_succ 79⟩

/-- The state of the console beside the lines of the text printed so far. -/
structure ShowsSheet (c : ConsoleState) (s : Sheet) : Prop where
  widths : ∀ line ∈ s.lines, line.length ≤ 80
  screen : (List.ofFn c.screenBuffer).map charsOf =
    (s.lines.drop (s.lines.length - 25)).map padded ++ List.replicate (25 - s.lines.length) (padded [])
  ring : (stored c).map charsOf =
    ((s.lines.take (s.lines.length - 25)).drop (s.lines.length - 25 - 100)).map padded
  count : c.sbCount.val = min 100 (s.lines.length - 25)
  column : c.cursorX.val = s.last.length
  row : c.cursorY.val = min s.lines.length 25 - 1

theorem Shows.showsSheet {c : ConsoleState} {s : Sheet} (shows : Shows (textOf c) s)
    (fits : (∀ line ∈ s.done, line.length ≤ 80) ∧ s.last.length < 80) : ShowsSheet c s := by
  have row := shows.shown.row
  have ring_length := shows.shown.ring_length
  refine ⟨?_, ?_, shows.shown.ring, ?_, shows.column, ?_⟩
  · intro line member
    rcases List.mem_append.mp member with old | new
    · exact fits.1 line old
    · rw [List.mem_singleton.mp new]
      exact fits.2.le
  · apply List.ext_getElem
    · simp only [List.length_map, List.length_ofFn, List.length_append, List.length_drop,
        List.length_replicate]
      omega
    · intro i inside _
      have small : i < 25 := by simpa using inside
      have shown := shows.shown.screen ⟨i, small⟩
      rw [List.getElem_map, List.getElem_ofFn]
      refine shown.trans ?_
      change padded (s.lines.getD (s.lines.length - 25 + i) []) = _
      by_cases old : i < (s.lines.drop (s.lines.length - 25)).length
      · have exists_line : s.lines.length - 25 + i < s.lines.length := by
          rw [List.length_drop] at old
          omega
        rw [List.getElem_append_left (by simpa using old), List.getElem_map, List.getElem_drop,
          List.getD_eq_getElem _ _ exists_line]
      · have beyond : s.lines.length ≤ s.lines.length - 25 + i := by
          rw [List.length_drop] at old
          omega
        rw [List.getElem_append_right (by simpa using old), List.getElem_replicate,
          List.getD_eq_default _ _ beyond]
  · have length := stored_length c
    change (stored c).length = _ at ring_length
    unfold Sheet.above at ring_length
    omega
  · change c.cursorY.val + 1 = _ at row
    omega

/-- After `console_clear`, whatever is printed and however the view is scrolled, screen,
scrollback and cursor show the text as one unbounded sheet of lines. -/
theorem console_shows_text (t : Terminal) (events : List Event) :
    ShowsSheet (run step events (t.onConsole consoleClear)).con (run Sheet.step events Sheet.empty) := by
  have start : Shows (textOf (t.onConsole consoleClear).con) Sheet.empty := by
    change Shows (textOf (consoleClear t.con)) Sheet.empty
    rw [textOf_consoleClear]
    exact clear_shows
  have shows := run_related step Sheet.step (fun t s => Shows (textOf t.con) s) step_shows events _ _ start
  have fits := run_invariant Sheet.step
    (fun s => (∀ line ∈ s.done, line.length ≤ 80) ∧ s.last.length < 80) step_widths events Sheet.empty
    ⟨by simp [Sheet.empty], by decide⟩
  exact shows.showsSheet fits

end LifeOS.Console
