import LifeOS.Console.Screen

/-!
The console with the static data of the shell and of the panes, which call each other:
a pane redraw prints the shell's prompt, and the shell and the panes print to the console.
-/

namespace LifeOS
open Console Library.Strings

structure Shell where
  history : Vector (Vector Byte 128) 8
  historyCount : Nat
  historyIndex : Nat
  historyNav : Int
  cmdBuf : Vector Byte 128
  cmdLen : Nat
  cmdPos : Nat
  dispLen : Nat
  promptX : BitVec 8
  promptY : BitVec 8

def Shell.initial : Shell where
  history := Vector.replicate 8 (Vector.replicate 128 0#8)
  historyCount := 0
  historyIndex := 0
  historyNav := -1
  cmdBuf := Vector.replicate 128 0#8
  cmdLen := 0
  cmdPos := 0
  dispLen := 0
  promptX := 0#8
  promptY := 0#8

/-- One direction of the pane grid: the number of panes and the active one. -/
structure Axis where
  grid : Nat
  active : Nat
  few : grid ≤ 4
  inside : active < grid

/-- The static data of `kernel/hmi/pane.c`: `grid_w` and `active_x` are `width`,
`grid_h` and `active_y` are `height`. -/
structure Panes where
  width : Axis
  height : Axis
  guiActive : Bool

structure Terminal where
  con : ConsoleState
  shell : Shell
  panes : Panes

def Terminal.zeroed : Terminal where
  con :=
    { cursorX := 0, cursorY := 0, screenBuffer := fun _ _ => 0#16, scrollback := fun _ _ => 0#16,
      sbStart := 0, sbCount := 0, sbView := 0, vgaBuffer := fun _ _ => 0#16,
      inputBuf := fun _ => 0#8, inputHead := 0, inputTail := 0, ctrl := false,
      ports := ⟨0#8, fun _ => 0#8, []⟩ }
  shell := Shell.initial
  panes := ⟨⟨1, 0, by decide, by decide⟩, ⟨1, 0, by decide, by decide⟩, false⟩

def Terminal.onConsole (f : ConsoleState → ConsoleState) (t : Terminal) : Terminal :=
  { t with con := f t.con }

def prompt : List Byte := ascii "LifeOS> "

def shellShowPrompt (t : Terminal) : Terminal :=
  let con := consoleWrite prompt t.con
  { t with
    con := con,
    shell := { t.shell with cmdLen := 0, cmdPos := 0, dispLen := 0,
                            promptX := BitVec.ofNat 8 con.cursorX.val,
                            promptY := BitVec.ofNat 8 con.cursorY.val } }

theorem shellShowPrompt_con (t : Terminal) : (shellShowPrompt t).con = consoleWrite prompt t.con := by
  unfold shellShowPrompt
  dsimp only

theorem shellShowPrompt_panes (t : Terminal) : (shellShowPrompt t).panes = t.panes := by
  unfold shellShowPrompt
  dsimp only

theorem prompt_cons : prompt = 0x4C#8 :: ascii "ifeOS> " := by
  simp [prompt, ascii]

def consoleDrawQuadrants (t : Terminal) : Terminal :=
  shellShowPrompt (t.onConsole drawQuadrantLines)

end LifeOS
