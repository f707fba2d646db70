import LifeOS.Hmi.Drawing

/-!
The pane manager over whole runs: whatever the calls and whatever the console holds when
one comes, the panes fill the screen and the drawing tiles it.
-/

namespace LifeOS.Hmi
open LifeOS.Console LifeOS.Library.Loops LifeOS.Library.Runs LifeOS.Library.Strings

/-- The lines of `pane_draw_internal`, its two arrays holding what the stack held. -/
def drawLinesFrom (widths heights : Fin 4 → BitVec 32) (p : Panes) (c : ConsoleState) : ConsoleState :=
  let xpos := positions p.width (layoutAxis 80#32 p.width widths)
  let ypos := positions p.height (layoutAxis 25#32 p.height heights)
  let c := forFin (p.width.grid - 1) (fun i c =>
    forFin 25 (fun y c =>
      consolePutc lineVert
        (consoleSetCursor ((boundary p.width xpos i).setWidth 8) (BitVec.ofNat 8 y.val) c)) c) c
  let c := forFin (p.height.grid - 1) (fun j c =>
    forFin 80 (fun _ c => consolePutc lineHorz c)
      (consoleSetCursor 0#8 ((boundary p.height ypos j).setWidth 8) c)) c
  let c := forFin (p.width.grid - 1) (fun i c =>
    forFin (p.height.grid - 1) (fun j c =>
      consolePutc lineCross
        (consoleSetCursor ((boundary p.width xpos i).setWidth 8)
          ((boundary p.height ypos j).setWidth 8) c)) c) c
  consoleSetCursor ((xpos (entry p.width ⟨p.width.active, activeColumn_inside p⟩) + 1#32).setWidth 8)
    ((ypos (entry p.height ⟨p.height.active, activeRow_inside p⟩) + 1#32).setWidth 8) c

theorem drawLinesFrom_eq (widths heights : Fin 4 → BitVec 32) (p : Panes) (c : ConsoleState) :
    drawLinesFrom widths heights p c = drawLines p c := by
  unfold drawLinesFrom drawLines
  rw [positions_independent 80#32 p.width widths (fun _ => 0#32),
    positions_independent 25#32 p.height heights (fun _ => 0#32)]

inductive PaneOp where
  | resizeWidth (delta : Int)
  | resizeHeight (delta : Int)
  | moveLeft
  | moveRight
  | moveUp
  | moveDown
  | guiStart
  | guiStop

def PaneOp.perform : PaneOp → Terminal → Terminal
  | .resizeWidth delta, t => paneResizeWidth delta t
  | .resizeHeight delta, t => paneResizeHeight delta t
  | .moveLeft, t => paneMoveLeft t
  | .moveRight, t => paneMoveRight t
  | .moveUp, t => paneMoveUp t
  | .moveDown, t => paneMoveDown t
  | .guiStart, t => paneGuiStart t
  | .guiStop, t => paneGuiStop t

/-- Only a start while the panes are active, and a stop while they are not, draw nothing. -/
def PaneOp.Redraws : PaneOp → Panes → Prop
  | .guiStart, p => p.guiActive = false
  | .guiStop, p => p.guiActive = true
  | _, _ => True

/-- A call, with the console and the shell as other code has left them by then. -/
structure PaneCall where
  op : PaneOp
  con : ConsoleState
  shell : Shell

def PaneCall.step (call : PaneCall) (t : Terminal) : Terminal :=
  call.op.perform ⟨call.con, call.shell, t.panes⟩

/-- The screen is tiled, and at most a prompt has been printed on it. -/
def Redrawn (after : Terminal) : Prop :=
  ∃ drawn : Terminal, Tiled drawn.panes drawn.con ∧ drawn.panes = after.panes ∧
    (after = drawn ∨ after = shellShowPrompt drawn)

/-- The grid, the active pane and the sizes, whatever the arrays held. -/
structure PanesFit (p : Panes) : Prop where
  width_grid : 1 ≤ p.width.grid ∧ p.width.grid ≤ 4
  height_grid : 1 ≤ p.height.grid ∧ p.height.grid ≤ 4
  active : p.width.active < p.width.grid ∧ p.height.active < p.height.grid
  widths : ∀ first, (∀ size ∈ sizes 80#32 p.width first, 0 < size) ∧ (sizes 80#32 p.width first).sum = 80
  heights : ∀ first, (∀ size ∈ sizes 25#32 p.height first, 0 < size) ∧ (sizes 25#32 p.height first).sum = 25

theorem panesFit (p : Panes) : PanesFit p := by
  refine ⟨⟨Nat.lt_of_le_of_lt (Nat.zero_le _) p.width.inside, p.width.few⟩,
    ⟨Nat.lt_of_le_of_lt (Nat.zero_le _) p.height.inside, p.height.few⟩,
    ⟨p.width.inside, p.height.inside⟩, ?_, ?_⟩
  · intro first
    rw [sizes_independent 80#32 p.width first (fun _ => 0#32)]
    exact ⟨(laidOut_columns p.width).positive, (laidOut_columns p.width).whole⟩
  · intro first
    rw [sizes_independent 25#32 p.height first (fun _ => 0#32)]
    exact ⟨(laidOut_rows p.height).positive, (laidOut_rows p.height).whole⟩

theorem paneDrawInternal_redrawn (showPrompt : Bool) (t : Terminal) :
    Redrawn (paneDrawInternal showPrompt t) := by
  have tiled := drawLines_tiled t.panes t.con
  refine ⟨t.onConsole (fun c => drawLines t.panes (consoleClear c)), tiled, ?_, ?_⟩
  · unfold paneDrawInternal
    dsimp only
    split <;> rfl
  · cases showPrompt with
    | true => exact Or.inr rfl
    | false => exact Or.inl rfl

theorem paneDraw_redrawn (t : Terminal) : Redrawn (paneDraw t) := paneDrawInternal_redrawn true t

theorem perform_paneDraw (op : PaneOp) (t : Terminal) (redraws : op.Redraws t.panes) :
    ∃ panes, op.perform t = paneDraw { t with panes := panes } := by
  cases op with
  | resizeWidth delta => exact ⟨{ t.panes with width := resize delta t.panes.width }, rfl⟩
  | resizeHeight delta => exact ⟨{ t.panes with height := resize delta t.panes.height }, rfl⟩
  | moveLeft => exact ⟨{ t.panes with width := moveBack t.panes.width }, rfl⟩
  | moveRight => exact ⟨{ t.panes with width := moveOn t.panes.width }, rfl⟩
  | moveUp => exact ⟨{ t.panes with height := moveBack t.panes.height }, rfl⟩
  | moveDown => exact ⟨{ t.panes with height := moveOn t.panes.height }, rfl⟩
  | guiStart =>
    have idle : ¬t.panes.guiActive = true := by
      rw [show t.panes.guiActive = false from redraws]
      decide
    exact ⟨_, if_neg idle⟩
  | guiStop => exact ⟨_, if_pos (show t.panes.guiActive = true from redraws)⟩

theorem perform_redrawn (op : PaneOp) (t : Terminal) (redraws : op.Redraws t.panes) :
    Redrawn (op.perform t) := by
  obtain ⟨panes, drawn⟩ := perform_paneDraw op t redraws
  rw [drawn]
  exact paneDraw_redrawn _

theorem perform_idle (op : PaneOp) (t : Terminal) (idle : ¬op.Redraws t.panes) : op.perform t = t := by
  cases op with
  | resizeWidth | resizeHeight | moveLeft | moveRight | moveUp | moveDown => exact (idle trivial).elim
  | guiStart => exact if_pos (Bool.of_not_eq_false idle)
  | guiStop => exact if_neg idle

/-- A state of the pane manager: what fits, and what every call makes of it. -/
structure PanesKept (t : Terminal) : Prop where
  fit : PanesFit t.panes
  redraws : ∀ call : PaneCall, call.op.Redraws t.panes → Redrawn (call.step t)
  idle : ∀ call : PaneCall, ¬call.op.Redraws t.panes → call.step t = ⟨call.con, call.shell, t.panes⟩

/-- After `pane_init` and any calls the panes fit, every redraw tiles the cleared screen
without scrolling, and the drawing does not depend on the uninitialised arrays. -/
theorem panes_tile (t : Terminal) (calls : List PaneCall) :
    Redrawn (paneInit t) ∧ PanesKept (run PaneCall.step calls (paneInit t)) ∧
      ∀ widths heights p c, Tiled p (drawLinesFrom widths heights p (consoleClear c)) := by
  refine ⟨paneDrawInternal_redrawn false _, ⟨panesFit _, ?_, ?_⟩, ?_⟩
  · exact fun call redraws => perform_redrawn call.op _ redraws
  · exact fun call idle => perform_idle call.op _ idle
  · intro widths heights p c
    rw [drawLinesFrom_eq]
    exact drawLines_tiled p c

end LifeOS.Hmi
