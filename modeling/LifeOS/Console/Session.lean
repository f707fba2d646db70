import LifeOS.Console.Report
import LifeOS.Console.Transcript

/-!
A session at the terminal as its serial line records it. The reference answers each event with
the bytes that are to be sent, from the edited line, the entered commands and the size of the
grid alone: it knows nothing of the screen, of `disp_len` and of the prompt's place.
-/

namespace LifeOS.Console
open LifeOS.Drivers LifeOS.Hmi LifeOS.Library.Loops LifeOS.Library.Strings

def helpText : List Byte :=
  ascii "Available commands:\n" ++ (ascii "  help  - Display this message\n" ++ (ascii "  clear - Clear the screen\n" ++
    (ascii "  info  - Display hardware information\n" ++ (ascii "  gui start - Enable quadrant layout\n" ++
      (ascii "  restart - Reboot the system\n" ++ (ascii "  shutdown - Power off the system\n" ++
        ascii "  exit  - Halt the system\n"))))))

structure Grid where
  columns : Nat
  rows : Nat
  guiActive : Bool

def gridOf (p : Panes) : Grid := ⟨p.width.grid, p.height.grid, p.guiActive⟩

namespace Grid

def drawn (g : Grid) : List Byte :=
  List.replicate ((g.columns - 1) * 25) lineVert ++ (List.replicate ((g.rows - 1) * 80) lineHorz ++
    List.replicate ((g.columns - 1) * (g.rows - 1)) lineCross) ++ prompt

def resized (delta : Int) (n : Nat) : Nat :=
  if delta > 0 then min (n + 1) 4 else if delta < 0 then max (n - 1) 1 else n

def call (g : Grid) : PaneOp → Option Grid
  | .resizeWidth delta => some { g with columns := resized delta g.columns }
  | .resizeHeight delta => some { g with rows := resized delta g.rows }
  | .moveLeft | .moveRight | .moveUp | .moveDown => some g
  | .guiStart => if g.guiActive then none else some ⟨2, 2, true⟩
  | .guiStop => if g.guiActive then some ⟨1, 1, false⟩ else none

def key (g : Grid) (key : Byte) : Option Grid :=
  if key = keyAltR ∨ key = keyFn then some g
  else if key = keyF1 then some { g with columns := resized (-1) g.columns }
  else if key = keyF2 then some { g with columns := resized 1 g.columns }
  else if key = keyF3 then some { g with rows := resized (-1) g.rows }
  else if key = keyF4 then some { g with rows := resized 1 g.rows }
  else none

end Grid

/-- The bytes of an answer, and what is left: nothing when the machine stops. -/
structure Answer (σ : Type) where
  text : List Byte
  left : Option σ

def answer (inv : ComputeInventory) (g : Grid) (line : List Byte) : Answer Grid :=
  if line = ascii "help" then ⟨helpText, some g⟩
  else if line = ascii "clear" then ⟨[], some g⟩
  else if line = ascii "info" then ⟨infoText inv, some g⟩
  else if line = ascii "restart" then ⟨ascii "Rebooting system...\n", none⟩
  else if line = ascii "shutdown" then ⟨ascii "Shutting down...\n", none⟩
  else if line = ascii "exit" then ⟨ascii "Halting system...\n", none⟩
  else if line = ascii "gui start" then
    match g.call .guiStart with
    | none => ⟨[], some g⟩
    | some after => ⟨after.drawn, some after⟩
  else if line = [] then ⟨[], some g⟩
  else ⟨ascii "Unknown command\n", some g⟩

def Editor.redraws (ch : Byte) (e : Editor) : Bool :=
  if ch = backspace then decide (0 < e.point)
  else if ch = keyLeft then false
  else if ch = keyRight then false
  else if ch = keyUp then decide (e.nextOlder < e.history.length)
  else if ch = keyDown then e.nav.isSome
  else decide (e.line.length < 127)

structure Desk where
  editor : Editor
  grid : Grid

namespace Desk

def press (inv : ComputeInventory) (ch : Byte) (d : Desk) : Answer Desk :=
  if ch = newline then
    let reply := answer inv d.grid d.editor.line
    match reply.left with
    | none => ⟨newline :: reply.text, none⟩
    | some grid => ⟨newline :: (reply.text ++ prompt), some ⟨d.editor.enter, grid⟩⟩
  else
    ⟨if d.editor.redraws ch then List.replicate d.editor.line.length 0x20#8 ++ (d.editor.key ch).line else [],
      some { d with editor := d.editor.key ch }⟩

def draw (d : Desk) : Option Grid → Answer Desk
  | none => ⟨[], some d⟩
  | some grid => ⟨grid.drawn, some ⟨d.editor.interrupt, grid⟩⟩

def respond (inv : ComputeInventory) (d : Desk) : PromptEvent → Answer Desk
  | .typed ch => d.press inv ch.val
  | .poll key => d.draw (d.grid.key key)
  | .pane op => d.draw (d.grid.call op)
  | .quadrants => ⟨prompt, some { d with editor := d.editor.interrupt }⟩

def session (inv : ComputeInventory) : List PromptEvent → Desk → Answer Desk
  | [], d => ⟨[], some d⟩
  | event :: events, d =>
    let reply := d.respond inv event
    match reply.left with
    | none => reply
    | some d => ⟨reply.text ++ (session inv events d).text, (session inv events d).left⟩

end Desk

/-- What an event does to the terminal; without the branches of `PromptEvent.step` that keep a
stopped machine as it is. -/
def PromptEvent.perform (inv : ComputeInventory) : PromptEvent → Terminal → Option Outcome
  | .typed ch, t => shellKey inv ch.val t
  | .poll key, t => some (.returned (consolePollInput key t))
  | .pane op, t => some (.returned (op.perform t))
  | .quadrants, t => some (.returned (consoleDrawQuadrants t))

def terminalRun (inv : ComputeInventory) : List PromptEvent → Terminal → Option Outcome
  | [], t => some (.returned t)
  | event :: events, t => do
    match ← event.perform inv t with
    | .returned t => terminalRun inv events t
    | .halted t => return .halted t

theorem prints_forFin {n : Nat} (body : Fin n → ConsoleState → ConsoleState) (k : Nat) (ch : Byte)
    (each : ∀ i c, Prints (List.replicate k ch) c (body i c)) (c : ConsoleState) :
    Prints (List.replicate (n * k) ch) c (forFin n body c) := by
  induction n with
  | zero =>
    rw [Nat.zero_mul, forFin_zero]
    exact prints_nothing rfl
  | succ n ih =>
    have before := ih (fun i => body i.castSucc) fun i c => each i.castSucc c
    have whole : List.replicate ((n + 1) * k) ch = List.replicate (n * k) ch ++ List.replicate k ch := by
      rw [List.replicate_append_replicate, Nat.succ_mul]
    rw [forFin_succ, whole]
    exact before.trans (each _ _)

theorem prints_each {n : Nat} (body : Fin n → ConsoleState → ConsoleState) (ch : Byte)
    (each : ∀ i c, Prints [ch] c (body i c)) (c : ConsoleState) :
    Prints (List.replicate n ch) c (forFin n body c) := by
  have printed := prints_forFin body 1 ch each c
  rw [Nat.mul_one] at printed
  exact printed

theorem prints_at (x y : BitVec 8) (ch : Byte) (c : ConsoleState) :
    Prints [ch] c (consolePutc ch (consoleSetCursor x y c)) :=
  (prints_setCursor x y c).trans (prints_putc ch _)

theorem prints_verticals (n : Nat) (x : Fin n → BitVec 8) (c : ConsoleState) :
    Prints (List.replicate (n * 25) lineVert) c (forFin n (fun i c =>
      forFin 25 (fun y c => consolePutc lineVert (consoleSetCursor (x i) (BitVec.ofNat 8 y.val) c)) c) c) :=
  prints_forFin _ 25 lineVert (fun _ c => prints_each _ lineVert (fun _ c => prints_at _ _ _ c) c) c

theorem prints_horizontals (n : Nat) (y : Fin n → BitVec 8) (c : ConsoleState) :
    Prints (List.replicate (n * 80) lineHorz) c (forFin n (fun j c =>
      forFin 80 (fun _ c => consolePutc lineHorz c) (consoleSetCursor 0#8 (y j) c)) c) := by
  apply prints_forFin
  intro j d
  exact (prints_setCursor 0#8 (y j) d).trans (prints_each _ lineHorz (fun _ c => prints_putc _ c) _)

theorem prints_crosses (n k : Nat) (x : Fin n → BitVec 8) (y : Fin k → BitVec 8) (c : ConsoleState) :
    Prints (List.replicate (n * k) lineCross) c (forFin n (fun i c =>
      forFin k (fun j c => consolePutc lineCross (consoleSetCursor (x i) (y j) c)) c) c) :=
  prints_forFin _ k lineCross (fun _ c => prints_each _ lineCross (fun _ c => prints_at _ _ _ c) c) c

theorem prints_drawLines (p : Panes) (c : ConsoleState) :
    Prints (List.replicate ((p.width.grid - 1) * 25) lineVert ++
      (List.replicate ((p.height.grid - 1) * 80) lineHorz ++
        List.replicate ((p.width.grid - 1) * (p.height.grid - 1)) lineCross)) c (drawLines p c) := by
  unfold drawLines
  dsimp only
  generalize positions p.width _ = xpos
  generalize positions p.height _ = ypos
  have verticals := prints_verticals _ (fun i => (boundary p.width xpos i).setWidth 8) c
  generalize forFin (p.width.grid - 1) _ c = d at verticals ⊢
  have horizontals := prints_horizontals _ (fun j => (boundary p.height ypos j).setWidth 8) d
  generalize forFin (p.height.grid - 1) _ d = e at horizontals ⊢
  have crosses := prints_crosses _ _ (fun i => (boundary p.width xpos i).setWidth 8)
    (fun j => (boundary p.height ypos j).setWidth 8) e
  refine verticals.trans (horizontals.trans ?_)
  rw [← List.append_nil (List.replicate (_ * _) lineCross)]
  exact crosses.trans (prints_setCursor _ _ _)

theorem prints_paneDraw (panes : Panes) (t : Terminal) :
    Prints (gridOf panes).drawn t.con (paneDraw { t with panes := panes }).con := by
  rw [paneDraw_eq, shellShowPrompt_con]
  exact ((prints_clear t.con).trans (prints_drawLines panes (consoleClear t.con))).trans (prints_write prompt _)

theorem paneDraw_panes (panes : Panes) (t : Terminal) : (paneDraw { t with panes := panes }).panes = panes := by
  rw [paneDraw_eq, shellShowPrompt_panes]
  rfl

theorem resize_grid (delta : Int) (a : Axis) : (resize delta a).grid = Grid.resized delta a.grid := by
  have few := a.few
  have inside := a.inside
  unfold resize Grid.resized
  split_ifs <;> first | omega | (dsimp only; omega)

/-- The reference knows which calls draw, and the grid that they draw. -/
theorem call_paneDraw (op : PaneOp) (t : Terminal) :
    match (gridOf t.panes).call op with
    | none => op.perform t = t
    | some grid => ∃ panes, op.perform t = paneDraw { t with panes := panes } ∧ gridOf panes = grid := by
  cases op with
  | resizeWidth delta =>
    exact ⟨{ t.panes with width := resize delta t.panes.width }, rfl,
      congrArg (fun columns => { gridOf t.panes with columns := columns }) (resize_grid delta t.panes.width)⟩
  | resizeHeight delta =>
    exact ⟨{ t.panes with height := resize delta t.panes.height }, rfl,
      congrArg (fun rows => { gridOf t.panes with rows := rows }) (resize_grid delta t.panes.height)⟩
  | moveLeft =>
    exact ⟨{ t.panes with width := moveBack t.panes.width }, rfl,
      congrArg (fun columns => { gridOf t.panes with columns := columns }) (moveBack_grid t.panes.width)⟩
  | moveRight =>
    exact ⟨{ t.panes with width := moveOn t.panes.width }, rfl,
      congrArg (fun columns => { gridOf t.panes with columns := columns }) (moveOn_grid t.panes.width)⟩
  | moveUp =>
    exact ⟨{ t.panes with height := moveBack t.panes.height }, rfl,
      congrArg (fun rows => { gridOf t.panes with rows := rows }) (moveBack_grid t.panes.height)⟩
  | moveDown =>
    exact ⟨{ t.panes with height := moveOn t.panes.height }, rfl,
      congrArg (fun rows => { gridOf t.panes with rows := rows }) (moveOn_grid t.panes.height)⟩
  | guiStart =>
    unfold Grid.call PaneOp.perform paneGuiStart gridOf
    dsimp only
    cases t.panes.guiActive with
    | true => exact if_pos rfl
    | false => exact ⟨_, if_neg Bool.false_ne_true, rfl⟩
  | guiStop =>
    unfold Grid.call PaneOp.perform paneGuiStop gridOf
    dsimp only
    cases t.panes.guiActive with
    | true => exact ⟨_, if_pos rfl, rfl⟩
    | false => exact if_neg Bool.false_ne_true

theorem showHelp_eq (c : ConsoleState) : showHelp c = consoleWrite helpText c := by
  simp only [showHelp, say, helpText, consoleWrite_append]

/-- The command printed the reply and went on as the reply says. -/
def Answers (reply : Answer Grid) (before : ConsoleState) : Outcome → Prop
  | .returned after => Prints reply.text before after.con ∧ reply.left = some (gridOf after.panes)
  | .halted after => Prints reply.text before after.con ∧ reply.left = none

theorem answers_returned {reply : List Byte} {f : ConsoleState → ConsoleState} (t : Terminal)
    (prints : Prints reply t.con (f t.con)) :
    Answers ⟨reply, some (gridOf t.panes)⟩ t.con (.returned (t.onConsole f)) := ⟨prints, rfl⟩

theorem answers_halted (line : String) (t : Terminal) :
    Answers ⟨ascii line, none⟩ t.con (.halted (t.onConsole (say line))) := ⟨prints_write (ascii line) t.con, rfl⟩

theorem command_answers (inv : ComputeInventory) (line : List Byte) (t : Terminal) :
    Answers (answer inv (gridOf t.panes) line) t.con (commandOutcome inv line t) := by
  unfold commandOutcome answer
  by_cases help : line = ascii "help"
  · rw [if_pos help, if_pos help]
    apply answers_returned
    rw [showHelp_eq]
    exact prints_write helpText t.con
  rw [if_neg help, if_neg help]
  by_cases clear : line = ascii "clear"
  · rw [if_pos clear, if_pos clear]
    exact answers_returned t (prints_clear t.con)
  rw [if_neg clear, if_neg clear]
  by_cases info : line = ascii "info"
  · rw [if_pos info, if_pos info]
    apply answers_returned
    rw [showInfo_eq]
    exact prints_write (infoText inv) t.con
  rw [if_neg info, if_neg info]
  by_cases restart : line = ascii "restart"
  · rw [if_pos restart, if_pos restart]
    exact answers_halted _ t
  rw [if_neg restart, if_neg restart]
  by_cases shutdown : line = ascii "shutdown"
  · rw [if_pos shutdown, if_pos shutdown]
    exact answers_halted _ t
  rw [if_neg shutdown, if_neg shutdown]
  by_cases exit : line = ascii "exit"
  · rw [if_pos exit, if_pos exit]
    exact answers_halted _ t
  rw [if_neg exit, if_neg exit]
  by_cases gui : line = ascii "gui start"
  · rw [if_pos gui, if_pos gui]
    have called := call_paneDraw .guiStart t
    change Answers _ t.con (.returned (PaneOp.perform .guiStart t))
    cases drawn : (gridOf t.panes).call .guiStart with
    | none =>
      rw [drawn] at called
      dsimp only at called ⊢
      rw [called]
      exact ⟨prints_nothing rfl, rfl⟩
    | some grid =>
      rw [drawn] at called
      obtain ⟨panes, performed, rfl⟩ := called
      dsimp only
      rw [performed]
      exact ⟨prints_paneDraw panes t, congrArg (fun p => some (gridOf p)) (paneDraw_panes panes t).symm⟩
  rw [if_neg gui, if_neg gui]
  by_cases empty : line = []
  · rw [if_pos empty, if_pos empty]
    exact ⟨prints_nothing rfl, rfl⟩
  · rw [if_neg empty, if_neg empty]
    exact answers_returned t (prints_write _ t.con)

theorem prints_redraw (s : Shell) (t : Terminal) (fits : s.cmdLen ≤ 128) :
    ∃ con, redraw s t = some (.returned { t with shell := { s with dispLen := s.cmdLen }, con := con }) ∧
      Prints (List.replicate s.dispLen 0x20#8 ++ s.cmdBuf.toList.take s.cmdLen) t.con con := by
  have blanks : Prints (List.replicate s.dispLen 0x20#8) t.con (forRange s.dispLen (fun _ c => consolePutc 0x20#8 c)
      (consoleSetCursor s.promptX s.promptY t.con)) :=
    (prints_setCursor s.promptX s.promptY t.con).trans (prints_each _ 0x20#8 (fun _ c => prints_putc _ c) _)
  obtain ⟨clean, cleans⟩ : ∃ clean, forRange s.dispLen (fun _ c => consolePutc 0x20#8 c)
      (consoleSetCursor s.promptX s.promptY t.con) = clean := ⟨_, rfl⟩
  rw [cleans] at blanks
  obtain ⟨drawn, ran, printed⟩ := forUp_total 0 s.cmdLen
    (fun i c => (load s.cmdBuf i).map (fun ch => consolePutc ch c))
    (fun i c => Prints (s.cmdBuf.toList.take i) clean c)
    (consoleSetCursor s.promptX s.promptY clean) (prints_setCursor s.promptX s.promptY clean)
    (by
      intro i c _ high held
      have inside : i < 128 := by omega
      have next : s.cmdBuf.toList.take (i + 1) = s.cmdBuf.toList.take i ++ [s.cmdBuf[i]] := by
        rw [List.take_add_one]
        simp [inside]
      refine ⟨consolePutc s.cmdBuf[i] c, ?_, ?_⟩
      · rw [load_inside s.cmdBuf i inside]
        rfl
      · rw [next]
        exact held.trans (prints_putc _ c))
  rw [Nat.zero_add] at printed
  have moved := (blanks.trans printed).trans
    (prints_setCursor (BitVec.ofNat 8 (s.promptX.toNat + s.cmdPos)) s.promptY drawn)
  rw [List.append_nil] at moved
  refine ⟨_, ?_, moved⟩
  unfold redraw redrawLine
  simp only [cleans, ran, Option.bind_eq_bind, Option.bind_some]
  rfl

theorem redraw_shell (s : Shell) (t after : Terminal) (ran : redraw s t = some (.returned after)) :
    after.shell = { s with dispLen := s.cmdLen } := by
  unfold redraw redrawLine at ran
  obtain ⟨drawn, printed, result⟩ := Option.map_eq_some_iff.mp ran
  obtain ⟨c, _, drawnEq⟩ := Option.bind_eq_some_iff.mp printed
  rw [← Outcome.returned.inj result, ← Option.some.inj drawnEq]

/-- How a key that stays on the line ends: with a redraw, or with nothing printed. -/
def Draws (redraws : Bool) (t : Terminal) (result : Option Outcome) : Prop :=
  if redraws then ∃ s, result = redraw s t ∧ s.dispLen = t.shell.dispLen
  else ∃ after, result = some (.returned after) ∧ Prints [] t.con after.con ∧ after.shell.dispLen = t.shell.dispLen

theorem still_draws (t : Terminal) (s : Shell) (same : s.dispLen = t.shell.dispLen) :
    Draws false t (some (.returned { t with shell := s })) := ⟨_, rfl, prints_nothing rfl, same⟩

theorem point_draws (t : Terminal) (s : Shell) (same : s.dispLen = t.shell.dispLen) :
    Draws false t (some (showPoint s t)) := ⟨_, rfl, prints_setCursor _ _ _, same⟩

theorem Ends.draws {t : Terminal} {old new : Editor} {result : Option Outcome} (ends : Ends t old new result)
    (longer : new.line.length ≠ old.line.length) : Draws true t result := by
  cases ends with
  | still s _ line => exact absurd (congrArg List.length line) longer
  | pointed s _ line => exact absurd (congrArg List.length line) longer
  | redrawn s replaces => exact ⟨s, rfl, replaces.dispLen⟩

theorem fetch_draws (entry : Option (List Byte)) (s : Shell) (t : Terminal) (outcome : Outcome)
    (same : s.dispLen = t.shell.dispLen) (ran : (entry.bind fun h => loadLine h s t) = some outcome) :
    Draws true t (entry.bind fun h => loadLine h s t) := by
  obtain ⟨object, found, loaded⟩ := Option.bind_eq_some_iff.mp ran
  rw [found, Option.bind_some]
  unfold loadLine at loaded ⊢
  obtain ⟨copied, read, _⟩ := Option.bind_eq_some_iff.mp loaded
  rw [read]
  exact ⟨_, rfl, same⟩

theorem eraseBefore_draws (t : Terminal) (e : Editor) (edits : Edits t.shell e) :
    Draws (decide (0 < e.point)) t (eraseBefore t) := by
  have ends := eraseBefore_ends t e edits
  have point := edits.point
  have inside := edits.inside
  by_cases moves : 0 < e.point
  · rw [decide_eq_true moves]
    apply ends.draws
    unfold Editor.erase
    rw [if_pos moves, List.length_eraseIdx_of_lt (by omega)]
    omega
  · rw [decide_eq_false moves]
    unfold eraseBefore
    rw [if_neg (show ¬t.shell.cmdPos > 0 by omega)]
    exact still_draws t t.shell rfl

theorem pointLeft_draws (t : Terminal) : Draws false t (some (pointLeft t)) := by
  unfold pointLeft
  split
  · exact point_draws t _ rfl
  · exact still_draws t t.shell rfl

theorem pointRight_draws (t : Terminal) : Draws false t (some (pointRight t)) := by
  unfold pointRight
  split
  · exact point_draws t _ rfl
  · exact still_draws t t.shell rfl

theorem olderEntry_draws (t : Terminal) (e : Editor) (edits : Edits t.shell e) :
    Draws (decide (e.nextOlder < e.history.length)) t (olderEntry t) := by
  obtain ⟨after, ran, _⟩ := (olderEntry_ends t e edits).returns
  have count := edits.history.count
  have nav := edits.nav
  have next : t.shell.historyNav + 1 = e.nextOlder := by
    rw [nav]
    unfold Editor.nextOlder navValue
    cases e.nav <;> simp
  unfold olderEntry at ran ⊢
  by_cases inside : e.nextOlder < e.history.length
  · have more : t.shell.historyCount > 0 ∧ t.shell.historyNav < t.shell.historyCount - 1 := by omega
    rw [if_pos more] at ran ⊢
    rw [decide_eq_true inside]
    exact fetch_draws _ _ t _ rfl ran
  · rw [decide_eq_false inside, if_neg (by omega)]
    exact still_draws t t.shell rfl

theorem newerEntry_draws (t : Terminal) (e : Editor) (edits : Edits t.shell e) :
    Draws e.nav.isSome t (newerEntry t) := by
  obtain ⟨after, ran, _⟩ := (newerEntry_ends t e edits).returns
  have nav := edits.nav
  unfold newerEntry at ran ⊢
  cases place : e.nav with
  | none =>
    rw [place] at nav
    rw [if_neg (by rw [nav]; decide)]
    exact still_draws t t.shell rfl
  | some k =>
    rw [place] at nav
    change t.shell.historyNav = (k : Int) at nav
    rw [if_pos (by omega)] at ran ⊢
    dsimp only at ran ⊢
    by_cases remains : t.shell.historyNav - 1 ≥ 0
    · rw [if_pos remains] at ran ⊢
      exact fetch_draws _ _ t _ rfl ran
    · rw [if_neg remains] at ran ⊢
      exact fetch_draws _ _ t _ rfl ran

theorem insertChar_draws (ch : Byte) (t : Terminal) (e : Editor) (edits : Edits t.shell e) (nonzero : ch ≠ 0#8) :
    Draws (decide (e.line.length < 127)) t (insertChar ch t) := by
  have ends := insertChar_ends ch t e edits nonzero
  have length := edits.length
  have inside := edits.inside
  by_cases room : e.line.length < 127
  · rw [decide_eq_true room]
    apply ends.draws
    unfold Editor.insert
    rw [if_pos room, List.length_append, List.length_take, List.length_cons, List.length_drop]
    omega
  · rw [decide_eq_false room]
    unfold insertChar
    rw [if_neg (show ¬t.shell.cmdLen < 127 by omega)]
    exact still_draws t _ rfl

theorem shellKey_draws (inv : ComputeInventory) (ch : Byte) (t : Terminal) (e : Editor) (nonzero : ch ≠ 0#8)
    (edits : Edits t.shell e) (stays : ch ≠ newline) : Draws (e.redraws ch) t (shellKey inv ch t) := by
  unfold shellKey Editor.redraws
  rw [if_neg stays]
  by_cases erases : ch = backspace
  · rw [if_pos erases, if_pos erases]
    exact eraseBefore_draws t e edits
  rw [if_neg erases, if_neg erases]
  by_cases goes_left : ch = keyLeft
  · rw [if_pos goes_left, if_pos goes_left]
    exact pointLeft_draws t
  rw [if_neg goes_left, if_neg goes_left]
  by_cases goes_right : ch = keyRight
  · rw [if_pos goes_right, if_pos goes_right]
    exact pointRight_draws t
  rw [if_neg goes_right, if_neg goes_right]
  by_cases goes_up : ch = keyUp
  · rw [if_pos goes_up, if_pos goes_up]
    exact olderEntry_draws t e edits
  rw [if_neg goes_up, if_neg goes_up]
  by_cases goes_down : ch = keyDown
  · rw [if_pos goes_down, if_pos goes_down]
    exact newerEntry_draws t e edits
  rw [if_neg goes_down, if_neg goes_down]
  exact insertChar_draws ch t e edits nonzero

theorem Editor.key_line (ch : Byte) (e : Editor) (stays : ch ≠ newline) (still : e.redraws ch = false) :
    (e.key ch).line = e.line := by
  unfold Editor.redraws at still
  unfold Editor.key
  rw [if_neg stays]
  by_cases erases : ch = backspace
  · rw [if_pos erases] at still ⊢
    exact congrArg Editor.line (if_neg (of_decide_eq_false still))
  rw [if_neg erases] at still ⊢
  by_cases goes_left : ch = keyLeft
  · rw [if_pos goes_left, Editor.left]
    split <;> rfl
  rw [if_neg goes_left] at still ⊢
  by_cases goes_right : ch = keyRight
  · rw [if_pos goes_right, Editor.right]
    split <;> rfl
  rw [if_neg goes_right] at still ⊢
  by_cases goes_up : ch = keyUp
  · rw [if_pos goes_up] at still ⊢
    exact congrArg Editor.line (dif_neg (of_decide_eq_false still))
  rw [if_neg goes_up] at still ⊢
  by_cases goes_down : ch = keyDown
  · rw [if_pos goes_down] at still ⊢
    unfold Editor.newer
    cases place : e.nav with
    | none => rfl
    | some k =>
      rw [place] at still
      cases still
  · rw [if_neg goes_down] at still ⊢
    rw [Editor.insert, if_neg (of_decide_eq_false still)]

structure Tracks (t : Terminal) (d : Desk) : Prop where
  edits : Edits t.shell d.editor
  displayed : t.shell.dispLen = d.editor.line.length
  panes : gridOf t.panes = d.grid

/-- The outcome printed the reply and goes on as the reply says. -/
def Matches (reply : Answer Desk) (before : ConsoleState) : Outcome → Prop
  | .returned after => Prints reply.text before after.con ∧ ∃ d, reply.left = some d ∧ Tracks after d
  | .halted after => Prints reply.text before after.con ∧ reply.left = none

theorem key_matches (inv : ComputeInventory) (ch : Byte) (t : Terminal) (d : Desk) (nonzero : ch ≠ 0#8)
    (tracks : Tracks t d) (stays : ch ≠ newline) :
    ∃ outcome, shellKey inv ch t = some outcome ∧ Matches (d.press inv ch) t.con outcome := by
  obtain ⟨after, ran, edits, panes⟩ := (shellKey_ends inv ch t d.editor nonzero tracks.edits stays).returns
  have draws := shellKey_draws inv ch t d.editor nonzero tracks.edits stays
  refine ⟨.returned after, ran, ?_⟩
  unfold Desk.press
  rw [if_neg stays]
  have still : gridOf after.panes = d.grid := (congrArg gridOf panes).trans tracks.panes
  rw [ran] at draws
  cases redrawn : d.editor.redraws ch with
  | true =>
    rw [redrawn] at draws
    obtain ⟨s, drawn, before⟩ := draws
    have shell := redraw_shell s t after drawn.symm
    have line := edits.line
    have length := edits.length
    have short := edits.short
    rw [shell] at line length
    obtain ⟨con, printed, prints⟩ := prints_redraw s t (by dsimp only at length; omega)
    have same := Outcome.returned.inj (Option.some.inj (drawn.trans printed))
    have display : s.dispLen = d.editor.line.length := before.trans tracks.displayed
    refine ⟨?_, _, rfl, edits, ?_, still⟩
    · rw [if_pos rfl, ← line, ← display, same]
      exact prints
    · rw [shell]
      exact length
  | false =>
    rw [redrawn] at draws
    obtain ⟨same, done, prints, display⟩ := draws
    rw [← Outcome.returned.inj (Option.some.inj done)] at prints display
    refine ⟨prints, _, rfl, edits, ?_, still⟩
    rw [display, tracks.displayed, Editor.key_line ch d.editor stays redrawn]

theorem newline_matches (inv : ComputeInventory) (t : Terminal) (d : Desk) (tracks : Tracks t d) :
    ∃ outcome, shellKey inv newline t = some outcome ∧ Matches (d.press inv newline) t.con outcome := by
  obtain ⟨cmd, entered, _, enters, ran⟩ := newline_eq inv t d.editor tracks.edits
  have prints : Prints [newline] t.con entered.con := by
    rw [enters.printed]
    exact prints_at _ _ newline t.con
  have answers := command_answers inv d.editor.line entered
  rw [enters.panes, tracks.panes] at answers
  have editing := commandOutcome_editing inv d.editor.line entered
  refine ⟨_, ran, ?_⟩
  unfold Desk.press
  rw [if_pos rfl]
  generalize commandOutcome inv d.editor.line entered = outcome at answers editing ⊢
  generalize answer inv d.grid d.editor.line = reply at answers ⊢
  dsimp only
  cases outcome with
  | halted after =>
    obtain ⟨output, stopped⟩ := answers
    rw [stopped]
    exact ⟨prints.trans output, rfl⟩
  | returned after =>
    obtain ⟨output, goes_on⟩ := answers
    rw [goes_on]
    have same := editing after rfl
    have edits : Edits (shellShowPrompt after).shell d.editor.enter :=
      prompted_edits after d.editor.enter (same.historyNav.trans enters.nav)
        (fun _ never => (Option.some_ne_none _ never.symm).elim)
        (enters.history.congr same.history same.historyCount same.historyIndex)
    refine ⟨?_, _, rfl, edits, rfl, ?_⟩
    · have prompted := (prints.trans output).trans (prints_write prompt after.con)
      rw [← shellShowPrompt_con] at prompted
      rw [List.append_assoc] at prompted
      exact prompted
    · rw [shellShowPrompt_panes]

theorem press_matches (inv : ComputeInventory) (ch : Key) (t : Terminal) (d : Desk)
    (tracks : Tracks t d) :
    ∃ outcome, shellKey inv ch.val t = some outcome ∧ Matches (d.press inv ch.val) t.con outcome := by
  by_cases enters : ch.val = newline
  · rw [enters]
    exact newline_matches inv t d tracks
  · exact key_matches inv ch.val t d ch.property tracks enters

theorem Tracks.interrupt {t : Terminal} {d : Desk} (tracks : Tracks t d) (f : ConsoleState → ConsoleState)
    (panes : Panes) :
    Tracks (shellShowPrompt (Terminal.onConsole f { t with panes := panes })) ⟨d.editor.interrupt, gridOf panes⟩ := by
  have edits := tracks.edits
  refine ⟨prompted_edits _ d.editor edits.nav edits.shown edits.history, rfl, ?_⟩
  rw [shellShowPrompt_panes]
  rfl

theorem call_matches (op : PaneOp) (t : Terminal) (d : Desk) (tracks : Tracks t d) :
    Matches (d.draw (d.grid.call op)) t.con (.returned (op.perform t)) := by
  have called := call_paneDraw op t
  rw [tracks.panes] at called
  generalize d.grid.call op = drawn at called ⊢
  cases drawn with
  | none =>
    dsimp only at called
    rw [called]
    exact ⟨prints_nothing rfl, d, rfl, tracks⟩
  | some grid =>
    obtain ⟨panes, performed, rfl⟩ := called
    have tracked := tracks.interrupt (fun c => drawLines panes (consoleClear c)) panes
    have prints := prints_paneDraw panes t
    rw [performed]
    rw [paneDraw_eq] at prints ⊢
    exact ⟨prints, _, rfl, tracked⟩

theorem onConsole_id (t : Terminal) : t = t.onConsole id := rfl

theorem clearCtrl_eq (t : Terminal) : clearCtrl t = t.onConsole releaseCtrl := rfl

/-- A key for the panes is one of their calls, with Ctrl released afterwards or left as it is. -/
theorem poll_call (key : Byte) (t : Terminal) (works : PaneKey key) :
    ∃ op f, consolePollInput key t = (PaneOp.perform op t).onConsole f ∧ (∀ c, sent (f c) = sent c) ∧
      ∀ g : Grid, g.key key = g.call op := by
  have plain : key ≠ 0#8 ∧ key ≠ keyCtrl ∧ ¬(key = keyUp ∨ key = keyDown) := by
    rcases works with rfl | rfl | rfl | rfl | rfl | rfl <;> decide
  unfold consolePollInput pollRules Grid.key
  rw [if_neg plain.1, if_neg plain.2.1, if_neg (fun scrolls => plain.2.2 scrolls.1)]
  rcases works with rfl | rfl | rfl | rfl | rfl | rfl
  · rw [if_pos rfl]
    dsimp only
    cases t.con.ctrl with
    | true =>
      rw [if_pos rfl]
      exact ⟨.moveUp, releaseCtrl, clearCtrl_eq (paneMoveUp t), fun _ => rfl, fun _ => rfl⟩
    | false =>
      rw [if_neg Bool.false_ne_true]
      exact ⟨.moveLeft, releaseCtrl, clearCtrl_eq (paneMoveLeft t), fun _ => rfl, fun _ => rfl⟩
  · rw [if_neg (by decide), if_pos rfl]
    dsimp only
    cases t.con.ctrl with
    | true =>
      rw [if_pos rfl]
      exact ⟨.moveDown, releaseCtrl, clearCtrl_eq (paneMoveDown t), fun _ => rfl, fun _ => rfl⟩
    | false =>
      rw [if_neg Bool.false_ne_true]
      exact ⟨.moveRight, releaseCtrl, clearCtrl_eq (paneMoveRight t), fun _ => rfl, fun _ => rfl⟩
  · rw [if_neg (by decide), if_neg (by decide), if_pos rfl]
    exact ⟨.resizeWidth (-1), id, onConsole_id (paneResizeWidth (-1) t), fun _ => rfl, fun _ => rfl⟩
  · rw [if_neg (by decide), if_neg (by decide), if_neg (by decide), if_pos rfl]
    exact ⟨.resizeWidth 1, id, onConsole_id (paneResizeWidth 1 t), fun _ => rfl, fun _ => rfl⟩
  · rw [if_neg (by decide), if_neg (by decide), if_neg (by decide), if_neg (by decide), if_pos rfl]
    exact ⟨.resizeHeight (-1), id, onConsole_id (paneResizeHeight (-1) t), fun _ => rfl, fun _ => rfl⟩
  · rw [if_neg (by decide), if_neg (by decide), if_neg (by decide), if_neg (by decide), if_neg (by decide), if_pos rfl]
    exact ⟨.resizeHeight 1, id, onConsole_id (paneResizeHeight 1 t), fun _ => rfl, fun _ => rfl⟩

theorem poll_console (key : Byte) (t : Terminal) (plain : ¬PaneKey key) :
    ∃ f, consolePollInput key t = t.onConsole f := by
  have polled := pollRules_polled key t
  unfold PaneKey at plain
  unfold consolePollInput
  generalize pollRules key t = result at polled ⊢
  cases polled with
  | nothing none_read => exact ⟨id, rfl⟩
  | control ctrl => exact ⟨_, rfl⟩
  | scrolled scrolls => exact ⟨_, rfl⟩
  | moved move => exact absurd (move.imp_right Or.inl) plain
  | resized resize => exact absurd (Or.inr (Or.inr resize)) plain
  | queued => exact ⟨_, rfl⟩

theorem Grid.key_plain (g : Grid) (key : Byte) (plain : ¬PaneKey key) : g.key key = none := by
  unfold PaneKey at plain
  unfold Grid.key
  rw [if_neg (by tauto), if_neg (by tauto), if_neg (by tauto), if_neg (by tauto), if_neg (by tauto)]

theorem poll_matches (key : Byte) (t : Terminal) (d : Desk) (tracks : Tracks t d) :
    Matches (d.draw (d.grid.key key)) t.con (.returned (consolePollInput key t)) := by
  by_cases works : PaneKey key
  · obtain ⟨op, f, polled, silent, drawn⟩ := poll_call key t works
    obtain ⟨prints, after, goes_on, tracked⟩ := call_matches op t d tracks
    rw [polled, drawn]
    exact ⟨(silent _).trans prints, after, goes_on, tracked.edits, tracked.displayed, tracked.panes⟩
  · obtain ⟨f, polled⟩ := poll_console key t works
    have prints := (poll_keeps key t works).2
    rw [d.grid.key_plain key works]
    rw [polled] at prints ⊢
    exact ⟨prints, d, rfl, tracks.edits, tracks.displayed, tracks.panes⟩

theorem sent_plot (y : Fin 25) (x : Fin 80) (v : Cell) (c : ConsoleState) : sent (plot y x v c) = sent c := by
  unfold plot
  dsimp only
  split <;> rfl

theorem sent_drawQuadrantLines (c : ConsoleState) : sent (drawQuadrantLines c) = sent c := by
  have vertical := forFin_preserves 25 (fun y d => plot y 40 (lineCell 0xB3#16) d) (fun d => sent d = sent c) c rfl
    (fun y d held => (sent_plot y 40 _ d).trans held)
  have horizontal := forFin_preserves 80 (fun x d => plot 12 x (lineCell 0xC4#16) d) (fun d => sent d = sent c) _ vertical
    (fun x d held => (sent_plot 12 x _ d).trans held)
  have cross := (sent_plot 12 40 (lineCell 0xC5#16) _).trans horizontal
  change sent (quadrantCells c) = sent c at cross
  unfold drawQuadrantLines
  generalize quadrantCells c = d at cross ⊢
  dsimp only
  split <;> exact cross

theorem quadrants_match (t : Terminal) (d : Desk) (tracks : Tracks t d) :
    Matches ⟨prompt, some { d with editor := d.editor.interrupt }⟩ t.con (.returned (consoleDrawQuadrants t)) := by
  have tracked := tracks.interrupt drawQuadrantLines t.panes
  rw [tracks.panes] at tracked
  refine ⟨?_, _, rfl, tracked⟩
  unfold consoleDrawQuadrants
  rw [shellShowPrompt_con]
  exact (prints_nothing (sent_drawQuadrantLines t.con)).trans (prints_write prompt _)

theorem event_matches (inv : ComputeInventory) (event : PromptEvent) (t : Terminal) (d : Desk) (tracks : Tracks t d) :
    ∃ outcome, event.perform inv t = some outcome ∧ Matches (d.respond inv event) t.con outcome := by
  cases event with
  | typed ch => exact press_matches inv ch t d tracks
  | poll key => exact ⟨_, rfl, poll_matches key t d tracks⟩
  | pane op => exact ⟨_, rfl, call_matches op t d tracks⟩
  | quadrants => exact ⟨_, rfl, quadrants_match t d tracks⟩

/-- The record of a whole run, from any state in which the reference is with the shell. -/
theorem session_matches (inv : ComputeInventory) (events : List PromptEvent) (t : Terminal) (d : Desk)
    (tracks : Tracks t d) :
    ∃ outcome, terminalRun inv events t = some outcome ∧ Matches (d.session inv events) t.con outcome := by
  induction events generalizing t d with
  | nil => exact ⟨.returned t, rfl, prints_nothing rfl, d, rfl, tracks⟩
  | cons event events ih =>
    obtain ⟨outcome, ran, reply⟩ := event_matches inv event t d tracks
    rw [terminalRun, ran]
    unfold Desk.session
    generalize d.respond inv event = answered at reply ⊢
    cases outcome with
    | halted after =>
      obtain ⟨prints, stopped⟩ := reply
      dsimp only
      rw [stopped]
      exact ⟨_, rfl, prints, stopped⟩
    | returned after =>
      obtain ⟨prints, next, goes_on, tracks⟩ := reply
      dsimp only
      rw [goes_on]
      obtain ⟨final, rest, matched⟩ := ih after next tracks
      refine ⟨final, rest, ?_⟩
      cases final with
      | returned last => exact ⟨prints.trans matched.1, matched.2⟩
      | halted last => exact ⟨prints.trans matched.1, matched.2⟩

/-- Whatever is typed at a new shell, and whatever keys are polled and panes are called in between,
the serial line carries the answers of the reference, and the machine stops when the reference
says so. -/
theorem terminal_session (inv : ComputeInventory) (t : Terminal) (events : List PromptEvent) :
    ∃ outcome, terminalRun inv events (shellShowPrompt { t with shell := Shell.initial }) = some outcome ∧
      Matches (Desk.session inv events ⟨Editor.fresh, gridOf t.panes⟩)
        (shellShowPrompt { t with shell := Shell.initial }).con outcome := by
  apply session_matches
  have panes := shellShowPrompt_panes { t with shell := Shell.initial }
  exact ⟨initial_edits _ _, rfl, congrArg gridOf panes⟩

end LifeOS.Console
