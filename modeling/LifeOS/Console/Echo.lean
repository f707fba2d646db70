import LifeOS.Console.Cells
import LifeOS.Console.Editor

/-!
The edited line on the screen: what stands behind the prompt after each key, where the
cursor is, and where the output of an entered line begins. The shell remembers the
prompt's coordinates and moves the cursor within the prompt's row only, so a line that
leaves this row goes wrong.
-/

namespace LifeOS.Console
open LifeOS.Drivers LifeOS.Library.Runs LifeOS.Library.Strings

def Visible (ch : Byte) : Prop := ch ≠ newline ∧ ch ≠ backspace

def promptPlace (s : Shell) : Nat := s.promptY.toNat * 80 + s.promptX.toNat

def typedLine (s : Shell) : List Byte := s.cmdBuf.toList.take s.cmdLen

/-- The line behind the prompt, on a screen that has moved up by `rows` rows since the
prompt was printed. -/
structure LineShown (rows : Nat) (printed : Text) (s : Shell) (now : Text) : Prop where
  onScreen : 80 * rows ≤ promptPlace s
  room : promptPlace s - 80 * rows + s.cmdLen < 2000
  above : ∀ q, q + 80 * rows < promptPlace s → now.cellAt q = printed.cellAt (q + 80 * rows)
  line : ∀ k (inside : k < (typedLine s).length),
    now.cellAt (promptPlace s - 80 * rows + k) = cellOf ((typedLine s).get ⟨k, inside⟩)
  rest : ∀ q < 2000, promptPlace s - 80 * rows + s.cmdLen ≤ q →
    now.cellAt q = blank ∨ q + 80 * rows < 2000 ∧ now.cellAt q = printed.cellAt (q + 80 * rows)
  cursor : now.place = promptPlace s - 80 * rows + s.cmdPos

/-- The cursor goes to the first column of the row below `last`, which scrolls at the bottom. -/
def Below (last : Nat) (before after : Text) : Prop :=
  ∃ row : Fin 25, row.val = last ∧ after = { before with x := 0, y := row }.nextRow

/-- The terminal beside the reference editor and the screen as it was when the prompt had
been printed. -/
structure Echoing where
  terminal : Terminal
  editor : Editor
  printed : Text
  running : Bool

namespace Echoing

def start (t : Terminal) : Echoing :=
  let t := shellShowPrompt { t with shell := Shell.initial }
  ⟨t, Editor.fresh, textOf t.con, true⟩

/-- One key of `shell_task`, which does not come back from a command that halts. -/
def press (inv : ComputeInventory) (ch : Key) (s : Echoing) : Echoing :=
  match s.running, shellKey inv ch.val s.terminal with
  | true, some (.returned t) =>
    { terminal := t, editor := s.editor.key ch.val,
      printed := if ch.val = newline then textOf t.con else s.printed, running := true }
  | _, _ => { s with running := false }

def Ready (s : Echoing) : Prop :=
  s.running = true → ∃ rows, LineShown rows s.printed s.terminal.shell (textOf s.terminal.con)

/-- A newline leaves the line as it is and goes to the row below its last one. -/
def EntersBelow (ch : Key) (s : Echoing) : Prop :=
  s.running = true → ch.val = newline →
    ∃ rows cmd entered, enterLine s.terminal = some (cmd, entered) ∧
      LineShown rows s.printed s.terminal.shell (textOf s.terminal.con) ∧
      Below ((promptPlace s.terminal.shell - 80 * rows + (s.terminal.shell.cmdLen - 1)) / 80)
        (textOf s.terminal.con) (textOf entered.con)

/-- The point stays in the prompt's row and the line on the screen; a line is entered when
it ends in the prompt's row. -/
def Fits (ch : Key) (s : Echoing) : Prop :=
  s.running = true →
    if ch.val = newline then s.terminal.shell.promptX.toNat + s.editor.line.length ≤ 80
    else s.terminal.shell.promptX.toNat + (s.editor.key ch.val).point < 80 ∧
      promptPlace s.terminal.shell + (s.editor.key ch.val).line.length < 2000

instance (ch : Key) (s : Echoing) : Decidable (Fits ch s) :=
  inferInstanceAs (Decidable (s.running = true → if ch.val = newline then _ else _ ∧ _))

end Echoing

structure Typed (e : Editor) : Prop where
  line : ∀ ch ∈ e.line, Visible ch
  history : ∀ entry ∈ e.history, ∀ ch ∈ entry, Visible ch

theorem Typed.enter {e : Editor} (typed : Typed e) : Typed e.enter := by
  refine ⟨fun _ never => (List.not_mem_nil never).elim, ?_⟩
  unfold Editor.enter
  dsimp only
  split
  · exact typed.history
  · intro entry member
    rcases List.mem_cons.mp (List.mem_of_mem_take member) with new | old
    · exact new ▸ typed.line
    · exact typed.history entry old

theorem Typed.erase {e : Editor} (typed : Typed e) : Typed e.erase := by
  unfold Editor.erase
  split
  · exact ⟨fun c member => typed.line c (List.mem_of_mem_eraseIdx member), typed.history⟩
  · exact typed

theorem Typed.left {e : Editor} (typed : Typed e) : Typed e.left := by
  unfold Editor.left
  split
  · exact ⟨typed.line, typed.history⟩
  · exact typed

theorem Typed.right {e : Editor} (typed : Typed e) : Typed e.right := by
  unfold Editor.right
  split
  · exact ⟨typed.line, typed.history⟩
  · exact typed

theorem Typed.older {e : Editor} (typed : Typed e) : Typed e.older := by
  unfold Editor.older
  split
  · exact ⟨typed.history _ (List.getElem_mem _), typed.history⟩
  · exact typed

theorem Typed.newer {e : Editor} (typed : Typed e) : Typed e.newer := by
  unfold Editor.newer
  split
  · exact typed
  · exact ⟨fun _ never => (List.not_mem_nil never).elim, typed.history⟩
  · refine ⟨?_, typed.history⟩
    rename_i k _
    change ∀ c ∈ e.history.getD k [], Visible c
    rw [List.getD_eq_getElem?_getD]
    cases found : e.history[k]? with
    | none => exact fun _ never => (List.not_mem_nil never).elim
    | some entry => exact typed.history entry (List.mem_of_getElem? found)

theorem Typed.insert {e : Editor} (typed : Typed e) (ch : Byte) (visible : Visible ch) :
    Typed (e.insert ch) := by
  unfold Editor.insert
  split
  · refine ⟨?_, typed.history⟩
    intro c member
    rcases List.mem_append.mp member with before | behind
    · exact typed.line c (List.mem_of_mem_take before)
    · rcases List.mem_cons.mp behind with here | later
      · exact here ▸ visible
      · exact typed.line c (List.mem_of_mem_drop later)
  · exact ⟨typed.line, typed.history⟩

theorem Typed.key {e : Editor} (typed : Typed e) (ch : Byte) : Typed (e.key ch) := by
  unfold Editor.key
  by_cases enters : ch = newline
  · rw [if_pos enters]
    exact typed.enter
  rw [if_neg enters]
  by_cases erases : ch = backspace
  · rw [if_pos erases]
    exact typed.erase
  rw [if_neg erases]
  split
  · exact typed.left
  split
  · exact typed.right
  split
  · exact typed.older
  split
  · exact typed.newer
  · exact typed.insert ch ⟨enters, erases⟩

theorem redrawnText_spec (s : Shell) (t : Text) (column : s.promptX.toNat + s.cmdPos < 80)
    (row : s.promptY.toNat < 25) (visible : ∀ ch ∈ typedLine s, Visible ch)
    (old : promptPlace s + s.dispLen < 2000) (new : promptPlace s + (typedLine s).length < 2000) :
    (redrawnText s t).place = promptPlace s + s.cmdPos ∧
      (∀ k (inside : k < (typedLine s).length),
        (redrawnText s t).cellAt (promptPlace s + k) = cellOf ((typedLine s).get ⟨k, inside⟩)) ∧
      ∀ q < 2000, (q < promptPlace s ∨ promptPlace s + (typedLine s).length ≤ q) →
        (redrawnText s t).cellAt q =
          if promptPlace s ≤ q ∧ q < promptPlace s + s.dispLen then blank else t.cellAt q := by
  have start (u : Text) : (u.setCursor s.promptX s.promptY).place = promptPlace s :=
    place_setCursor u _ _ (by omega) row
  have blanks : (List.replicate s.dispLen 0x20#8).length = s.dispLen := List.length_replicate
  obtain ⟨_, cleared, spared⟩ := write_spec (List.replicate s.dispLen 0x20#8)
    (t.setCursor s.promptX s.promptY)
    (fun ch member => List.eq_of_mem_replicate member ▸ by decide) (by rw [start, blanks]; exact old)
  generalize cleaned : (t.setCursor s.promptX s.promptY).write (List.replicate s.dispLen 0x20#8) = clean
    at cleared spared
  obtain ⟨_, written, kept⟩ := write_spec (typedLine s) (clean.setCursor s.promptX s.promptY) visible
    (by rw [start]; exact new)
  generalize drawn : (clean.setCursor s.promptX s.promptY).write (typedLine s) = line at written kept
  rw [start] at cleared spared written kept
  have target : (BitVec.ofNat 8 (s.promptX.toNat + s.cmdPos)).toNat = s.promptX.toNat + s.cmdPos := by
    rw [BitVec.toNat_ofNat]
    omega
  have result : redrawnText s t =
      line.setCursor (BitVec.ofNat 8 (s.promptX.toNat + s.cmdPos)) s.promptY := by
    unfold redrawnText
    dsimp only
    rw [cleaned]
    exact congrArg (Text.setCursor _ _) drawn
  rw [result, place_setCursor line _ _ (by omega) row, target]
  refine ⟨?_, ?_, ?_⟩
  · unfold promptPlace
    omega
  · intro k inside
    rw [cellAt_setCursor]
    exact written k inside
  · intro q below outside
    rw [cellAt_setCursor, kept q below outside, cellAt_setCursor]
    by_cases erased : promptPlace s ≤ q ∧ q < promptPlace s + s.dispLen
    · rw [if_pos erased]
      have cell := cleared (q - promptPlace s) (by omega)
      rw [show promptPlace s + (q - promptPlace s) = q by omega] at cell
      rw [cell, List.get_eq_getElem, List.getElem_replicate]
      rfl
    · rw [if_neg erased, spared q below (by omega), cellAt_setCursor]

/-- The terminal shows the line of the editor, and the prompt is where it was printed. -/
structure Echo (printed : Text) (t : Terminal) (e : Editor) : Prop where
  edits : Edits t.shell e
  typed : Typed e
  shown : LineShown 0 printed t.shell (textOf t.con)
  displayed : t.shell.dispLen = e.line.length
  column : t.shell.promptX.toNat + e.point < 80
  row : t.shell.promptY.toNat < 25

theorem LineShown.congr {printed now after : Text} {before s : Shell} (shown : LineShown 0 printed before now)
    (x : s.promptX = before.promptX) (y : s.promptY = before.promptY) (line : typedLine s = typedLine before)
    (length : s.cmdLen = before.cmdLen) (cells : ∀ q, after.cellAt q = now.cellAt q)
    (cursor : after.place = promptPlace s + s.cmdPos) : LineShown 0 printed s after := by
  have place : promptPlace s = promptPlace before := by
    unfold promptPlace
    rw [x, y]
  refine ⟨Nat.zero_le _, ?_, ?_, ?_, ?_, cursor⟩
  · rw [place, length]
    exact shown.room
  · intro q behind
    rw [cells]
    rw [place] at behind
    exact shown.above q behind
  · rw [line]
    intro k inside
    rw [cells, place]
    exact shown.line k inside
  · intro q below behind
    rw [cells]
    rw [place, length] at behind
    exact shown.rest q below behind

theorem Edits.typedLine_eq {s : Shell} {e : Editor} (edits : Edits s e) : typedLine s = e.line := edits.line

theorem LineShown.redrawn {printed now : Text} {before s : Shell} {old new : Editor}
    (shown : LineShown 0 printed before now) (was : Edits before old)
    (displayed : before.dispLen = old.line.length) (replaces : Replaces before s new) (typed : Typed new)
    (column : s.promptX.toNat + new.point < 80) (row : s.promptY.toNat < 25)
    (room : promptPlace s + new.line.length < 2000) : LineShown 0 printed s (redrawnText s now) := by
  have place : promptPlace s = promptPlace before := by
    unfold promptPlace
    rw [replaces.promptX, replaces.promptY]
  have line := replaces.edits.typedLine_eq
  have length := replaces.edits.length
  have point := replaces.edits.point
  have before_room := shown.room
  have before_length := was.length
  obtain ⟨cursor, written, others⟩ := redrawnText_spec s now (by rw [point]; exact column) row
    (by rw [line]; exact typed.line) (by rw [place, replaces.dispLen]; omega) (by rw [line]; exact room)
  rw [line, place, replaces.dispLen] at others
  refine ⟨Nat.zero_le _, by omega, ?_, written, ?_, cursor⟩
  · intro q behind
    rw [place] at behind
    rw [others q (by omega) (.inl (by omega)), if_neg (by omega)]
    exact shown.above q behind
  · intro q below behind
    rw [place] at behind
    rw [others q below (.inr (by omega))]
    by_cases erased : promptPlace before ≤ q ∧ q < promptPlace before + before.dispLen
    · rw [if_pos erased]
      exact .inl rfl
    · rw [if_neg erased]
      exact shown.rest q below (by omega)

theorem Echo.lineKept {printed : Text} {t : Terminal} {old new : Editor} (echo : Echo printed t old)
    (typed : Typed new) (column : t.shell.promptX.toNat + new.point < 80) (s : Shell)
    (con : ConsoleState) (replaces : Replaces t.shell s new) (line : new.line = old.line)
    (cells : ∀ q, (textOf con).cellAt q = (textOf t.con).cellAt q)
    (cursor : (textOf con).place = promptPlace s + s.cmdPos) :
    Echo printed { t with shell := s, con := con } new := by
  have same : typedLine s = typedLine t.shell := by
    rw [replaces.edits.typedLine_eq, echo.edits.typedLine_eq, line]
  have length : s.cmdLen = t.shell.cmdLen := by
    rw [replaces.edits.length, echo.edits.length, line]
  refine ⟨replaces.edits, typed, ?_, ?_, ?_, ?_⟩
  · exact echo.shown.congr replaces.promptX replaces.promptY same length cells cursor
  · calc
      s.dispLen = t.shell.dispLen := replaces.dispLen
      _ = old.line.length := echo.displayed
      _ = new.line.length := congrArg List.length line.symm
  · exact replaces.promptX ▸ column
  · exact replaces.promptY ▸ echo.row

theorem Echo.redrawn {printed : Text} {t after : Terminal} {old new : Editor} (echo : Echo printed t old)
    (typed : Typed new) (column : t.shell.promptX.toNat + new.point < 80)
    (room : promptPlace t.shell + new.line.length < 2000) (s : Shell) (replaces : Replaces t.shell s new)
    (returned : redraw s t = some (.returned after)) : Echo printed after new := by
  have edits := replaces.edits
  have length := edits.length
  have short := edits.short
  obtain ⟨con, drawn, text⟩ := redraw_spec s t (by omega)
  rw [drawn] at returned
  obtain rfl := Outcome.returned.inj (Option.some.inj returned)
  have line : LineShown 0 printed s (textOf con) := by
    rw [text]
    apply echo.shown.redrawn echo.edits echo.displayed replaces typed
    · exact replaces.promptX ▸ column
    · exact replaces.promptY ▸ echo.row
    · unfold promptPlace
      rw [replaces.promptX, replaces.promptY]
      exact room
  refine ⟨?_, typed, ?_, length, ?_, ?_⟩
  · exact ⟨edits.line, edits.length, edits.short, edits.plain, edits.point, edits.inside, edits.nav,
      edits.shown, edits.history.congr rfl rfl rfl⟩
  · exact ⟨line.onScreen, line.room, line.above, line.line, line.rest, line.cursor⟩
  · exact replaces.promptX ▸ column
  · exact replaces.promptY ▸ echo.row

/-- The editing keys keep the line shown while the point stays in the prompt's row. -/
theorem Ends.echo {printed : Text} {t after : Terminal} {old new : Editor} {result : Option Outcome}
    (ends : Ends t old new result) (echo : Echo printed t old) (typed : Typed new)
    (column : t.shell.promptX.toNat + new.point < 80)
    (room : promptPlace t.shell + new.line.length < 2000)
    (returned : result = some (.returned after)) : Echo printed after new := by
  have row := echo.row
  cases ends with
  | still s replaces line point =>
    obtain rfl := Outcome.returned.inj (Option.some.inj returned)
    have place : s.cmdPos = t.shell.cmdPos := by
      rw [replaces.edits.point, echo.edits.point, point]
    apply echo.lineKept typed column s t.con replaces line (fun _ => rfl)
    rw [place]
    unfold promptPlace
    rw [replaces.promptX, replaces.promptY]
    exact echo.shown.cursor
  | pointed s replaces line =>
    obtain rfl := Outcome.returned.inj (Option.some.inj returned)
    have inRow : s.promptX.toNat + s.cmdPos < 80 := by
      rw [replaces.promptX, replaces.edits.point]
      exact column
    have target : (BitVec.ofNat 8 (s.promptX.toNat + s.cmdPos)).toNat = s.promptX.toNat + s.cmdPos := by
      rw [BitVec.toNat_ofNat]
      omega
    have moved := textOf_consoleSetCursor (BitVec.ofNat 8 (s.promptX.toNat + s.cmdPos)) s.promptY t.con
    apply echo.lineKept typed column s _ replaces line
    · intro q
      rw [moved]
      exact cellAt_setCursor _ _ _ q
    · rw [moved, place_setCursor _ _ _ (by omega) (replaces.promptY ▸ row), target]
      unfold promptPlace
      omega
  | redrawn s replaces => exact echo.redrawn typed column room s replaces returned

def prompted (con : ConsoleState) (s : Shell) : Shell :=
  { s with cmdLen := 0, cmdPos := 0, dispLen := 0, promptX := BitVec.ofNat 8 con.cursorX.val,
           promptY := BitVec.ofNat 8 con.cursorY.val }

theorem shellShowPrompt_shell (t : Terminal) :
    (shellShowPrompt t).shell = prompted (shellShowPrompt t).con t.shell := by
  rw [shellShowPrompt_con]
  unfold shellShowPrompt prompted
  dsimp only

theorem prompted_shown (con : ConsoleState) (s : Shell) (plain : typedLine (prompted con s) = []) :
    LineShown 0 (textOf con) (prompted con s) (textOf con) := by
  have place : (textOf con).place = promptPlace (prompted con s) := by
    change con.cursorY.val * 80 + con.cursorX.val =
      (BitVec.ofNat 8 con.cursorY.val).toNat * 80 + (BitVec.ofNat 8 con.cursorX.val).toNat
    rw [BitVec.toNat_ofNat, BitVec.toNat_ofNat]
    omega
  have inside := Text.place_inside (textOf con)
  refine ⟨Nat.zero_le _, ?_, fun _ _ => rfl, ?_, fun q below _ => .inr ⟨below, rfl⟩, place⟩
  · rw [← place]
    exact inside
  · rw [plain]
    exact fun _ never => (Nat.not_lt_zero _ never).elim

theorem prompt_echo (t : Terminal) (e : Editor) (edits : Edits (shellShowPrompt t).shell e)
    (typed : Typed e) (nothing : e.line = []) :
    Echo (textOf (shellShowPrompt t).con) (shellShowPrompt t) e := by
  have point : e.point = 0 := by
    have bound := edits.inside
    rw [nothing] at bound
    exact Nat.le_zero.mp bound
  have plain := edits.typedLine_eq.trans nothing
  rw [shellShowPrompt_shell] at plain
  refine ⟨edits, typed, ?_, ?_, ?_, ?_⟩
  · rw [shellShowPrompt_shell]
    exact prompted_shown _ t.shell plain
  · rw [shellShowPrompt_shell, nothing]
    rfl
  · rw [shellShowPrompt_shell, point]
    generalize (shellShowPrompt t).con = con
    change (BitVec.ofNat 8 con.cursorX.val).toNat + 0 < 80
    rw [BitVec.toNat_ofNat]
    omega
  · rw [shellShowPrompt_shell]
    generalize (shellShowPrompt t).con = con
    change (BitVec.ofNat 8 con.cursorY.val).toNat < 25
    rw [BitVec.toNat_ofNat]
    omega

theorem newline_prompts (inv : ComputeInventory) (t after : Terminal)
    (ran : shellKey inv newline t = some (.returned after)) : ∃ before, after = shellShowPrompt before := by
  unfold shellKey at ran
  rw [if_pos rfl] at ran
  cases entered : enterLine t with
  | none => simp [entered] at ran
  | some line =>
    cases executed : consoleExecuteCommand inv line.1 line.2 with
    | none => simp [entered, executed] at ran
    | some outcome =>
      cases outcome with
      | halted final => simp [entered, executed] at ran
      | returned before => exact ⟨before, by simpa [entered, executed] using ran.symm⟩

theorem Entered.text_eq {t entered : Terminal} {e : Editor} {cmd : List Byte} (enters : Entered t e cmd entered) :
    textOf entered.con = ((textOf t.con).setCursor
      (BitVec.ofNat 8 (t.shell.promptX.toNat + t.shell.dispLen)) t.shell.promptY).putc newline := by
  rw [enters.printed, textOf_consolePutc, textOf_consoleSetCursor]

/-- A newline after a move within the rows forgets the column of the move. -/
theorem putc_newline_setCursor (t : Text) (x y : BitVec 8) (row : y.toNat < 25) :
    (t.setCursor x y).putc newline = { t with x := 0, y := ⟨y.toNat, row⟩ }.nextRow := by
  unfold Text.putc Text.setCursor
  rw [if_pos rfl]
  rw [dif_pos row]
  split <;> rfl

theorem Echo.enters_below {printed : Text} {t : Terminal} {e : Editor} (echo : Echo printed t e)
    (fits : t.shell.promptX.toNat + e.line.length ≤ 80) :
    ∃ rows cmd entered, enterLine t = some (cmd, entered) ∧
      LineShown rows printed t.shell (textOf t.con) ∧
      Below ((promptPlace t.shell - 80 * rows + (t.shell.cmdLen - 1)) / 80) (textOf t.con)
        (textOf entered.con) := by
  have length := echo.edits.length
  have column := echo.column
  obtain ⟨cmd, entered, ran, enters⟩ := enterLine_spec t e echo.edits
  refine ⟨0, cmd, entered, ran, echo.shown, ⟨⟨t.shell.promptY.toNat, echo.row⟩, ?_, ?_⟩⟩
  · change t.shell.promptY.toNat = _
    unfold promptPlace
    rw [length]
    omega
  · rw [enters.text_eq]
    exact putc_newline_setCursor _ _ _ echo.row

namespace Echoing

def Faithful (s : Echoing) : Prop := s.running = true → Echo s.printed s.terminal s.editor

theorem Faithful.ready {s : Echoing} (faithful : s.Faithful) : s.Ready :=
  fun running => ⟨0, (faithful running).shown⟩

theorem Faithful.enters_below {s : Echoing} (faithful : s.Faithful) (ch : Key)
    (fits : Fits ch s) : EntersBelow ch s := by
  intro running enters
  have room := fits running
  rw [if_pos enters] at room
  exact (faithful running).enters_below room

theorem press_stopped (inv : ComputeInventory) (ch : Key) (s : Echoing)
    (stopped : s.running = false) : press inv ch s = { s with running := false } := by
  unfold press
  rw [stopped]

theorem press_returned (inv : ComputeInventory) (ch : Key) (s : Echoing) (t : Terminal)
    (running : s.running = true) (ran : shellKey inv ch.val s.terminal = some (.returned t)) :
    press inv ch s = { terminal := t, editor := s.editor.key ch.val,
                       printed := if ch.val = newline then textOf t.con else s.printed,
                       running := true } := by
  unfold press
  rw [running, ran]

theorem press_halted (inv : ComputeInventory) (ch : Key) (s : Echoing) (t : Terminal)
    (ran : shellKey inv ch.val s.terminal = some (.halted t)) : press inv ch s = { s with running := false } := by
  unfold press
  rw [ran]
  split
  · rename_i returned
    cases returned
  · rfl

/-- A key keeps the line shown when the new point stays in the prompt's row. -/
theorem press_faithful (inv : ComputeInventory) (ch : Key) (s : Echoing)
    (faithful : s.Faithful) (fits : Fits ch s) : (press inv ch s).Faithful := by
  cases running : s.running with
  | false =>
    rw [press_stopped inv ch s running]
    exact fun never => (Bool.false_ne_true never).elim
  | true =>
    have echo := faithful running
    have room := fits running
    have typed := echo.typed.key ch.val
    obtain ⟨outcome, ran, held⟩ := shellKey_reaches inv ch.val s.terminal s.editor ch.property echo.edits
    cases outcome with
    | halted t =>
      rw [press_halted inv ch s t ran]
      exact fun never => (Bool.false_ne_true never).elim
    | returned t =>
      rw [press_returned inv ch s t running ran]
      intro _
      dsimp only
      by_cases enters : ch.val = newline
      · rw [if_pos enters]
        rw [enters] at ran
        obtain ⟨before, rfl⟩ := newline_prompts inv s.terminal t ran
        have entered : s.editor.key ch.val = s.editor.enter := if_pos enters
        exact prompt_echo before _ (held _ rfl) typed (by rw [entered]; rfl)
      · rw [if_neg enters] at room ⊢
        have ends := shellKey_ends inv ch.val s.terminal s.editor ch.property echo.edits enters
        exact ends.echo echo typed room.1 room.2 ran

theorem start_faithful (t : Terminal) : (start t).Faithful := by
  intro _
  have typed : Typed Editor.fresh :=
    ⟨fun _ never => (List.not_mem_nil never).elim, fun _ never => (List.not_mem_nil never).elim⟩
  have edits : Edits (shellShowPrompt { t with shell := Shell.initial }).shell Editor.fresh := by
    rw [shellShowPrompt_shell]
    exact initial_edits _ _
  exact prompt_echo { t with shell := Shell.initial } Editor.fresh edits typed rfl

end Echoing

open Echoing

/-- While the point stays in the prompt's row, the screen shows the edited line after every
key, and every command's output begins below it. -/
theorem echo_in_prompt_row (inv : ComputeInventory) (t : Terminal) (keys : List Key)
    (fits : Along (press inv) Fits keys (start t)) :
    Throughout (press inv) Ready keys (start t) ∧ Along (press inv) EntersBelow keys (start t) := by
  have faithful := throughout_guarded (press inv) Fits Faithful (press_faithful inv) keys (start t)
    (start_faithful t) fits
  exact ⟨throughout_imp (press inv) Faithful Ready (fun _ => Faithful.ready) keys (start t) faithful,
    along_guarded (press inv) Fits EntersBelow Faithful (press_faithful inv)
      (fun ch _ kept room => kept.enters_below ch room) keys (start t) (start_faithful t) fits⟩

/-- `ho` corrected to `hi`, entered and recalled. -/
def correctedHi : List Key :=
  keysOf (ascii "ho" ++ [backspace] ++ ascii "i" ++ [keyLeft, keyRight, newline, keyUp])

theorem correctedHi_echoed :
    Throughout (press emptyInventory) Ready correctedHi (start Terminal.zeroed) ∧
      Along (press emptyInventory) EntersBelow correctedHi (start Terminal.zeroed) :=
  echo_in_prompt_row emptyInventory Terminal.zeroed correctedHi (by decide +kernel)

/-- A prompt that ends in the last column: the first letter leaves the row, and the cursor
goes back to the row's start. -/
theorem letter_at_edge_misplaces_cursor :
    ¬∀ (inv : ComputeInventory) (t : Terminal) (keys : List Key),
      Throughout (press inv) Ready keys (start t) ∧ Along (press inv) EntersBelow keys (start t) := by
  intro always
  obtain ⟨⟨_, ready⟩, _⟩ := always emptyInventory
    (Terminal.zeroed.onConsole (fun c => { c with cursorX := 71 })) [⟨0x61#8, by decide⟩]
  generalize pressed : press emptyInventory ⟨0x61#8, _⟩ (start _) = s at ready
  obtain ⟨running, place, target, top⟩ : s.running = true ∧ (textOf s.terminal.con).place = 0 ∧
      s.terminal.shell.cmdPos = 1 ∧ promptPlace s.terminal.shell = 79 := by
    rw [← pressed]
    decide +kernel
  obtain ⟨rows, shown⟩ := ready running
  have cursor := shown.cursor
  omega

end LifeOS.Console
