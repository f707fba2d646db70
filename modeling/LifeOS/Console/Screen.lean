import Mathlib.Algebra.GroupWithZero.Nat
import LifeOS.Library.Loops
import LifeOS.Library.Strings

/-!
The text console of `kernel/console/console.c`: the screen copy, the scrollback ring,
the VGA buffer, the cursor registers and the serial port. `vga_color` is never
assigned after its initialisation, so it is a constant.
-/

namespace LifeOS.Console
open LifeOS.Library.Loops LifeOS.Library.Strings

instance rowCount : NeZero 25 := ⟨by decide⟩
instance columnCount : NeZero 80 := ⟨by decide⟩
instance ringSize : NeZero 100 := ⟨by decide⟩
instance ringCounts : NeZero 101 := ⟨by decide⟩
instance inputSize : NeZero 128 := ⟨by decide⟩

abbrev Cell := BitVec 16

abbrev Row := Fin 80 → Cell

def vgaColor : Byte := 0x07#8

/-- `((uint16_t)vga_color << 8) | c`; a plain `char` is signed, so `c` is sign-extended. -/
def cellOf (c : Byte) : Cell := (vgaColor.zeroExtend 16 <<< 8) ||| c.signExtend 16

def blank : Cell := cellOf 0x20#8

/-- The CRT controller's registers and everything written to the serial port. -/
structure Ports where
  crtcIndex : Byte
  crtc : Byte → Byte
  serial : List (BitVec 16 × Byte)

def outb (port : BitVec 16) (val : Byte) (p : Ports) : Ports :=
  if port = 0x3D4#16 then { p with crtcIndex := val }
  else if port = 0x3D5#16 then { p with crtc := Function.update p.crtc p.crtcIndex val }
  else { p with serial := p.serial ++ [(port, val)] }

/-- The static data of the file, with `ctrl` of `console_poll_input` and with the cell `y * VGA_COLS + x`
of `vga_buffer` at row `y` and column `x`. -/
structure ConsoleState where
  cursorX : Fin 80
  cursorY : Fin 25
  screenBuffer : Fin 25 → Row
  scrollback : Fin 100 → Row
  sbStart : Fin 100
  sbCount : Fin 101
  sbView : Nat
  vgaBuffer : Fin 25 → Row
  inputBuf : Fin 128 → Byte
  inputHead : Fin 128
  inputTail : Fin 128
  ctrl : Bool
  ports : Ports

def setScreen (y : Fin 25) (x : Fin 80) (v : Cell) (c : ConsoleState) : ConsoleState :=
  { c with screenBuffer := Function.update c.screenBuffer y (Function.update (c.screenBuffer y) x v) }

def setVga (y : Fin 25) (x : Fin 80) (v : Cell) (c : ConsoleState) : ConsoleState :=
  { c with vgaBuffer := Function.update c.vgaBuffer y (Function.update (c.vgaBuffer y) x v) }

def setScrollback (i : Fin 100) (x : Fin 80) (v : Cell) (c : ConsoleState) : ConsoleState :=
  { c with scrollback := Function.update c.scrollback i (Function.update (c.scrollback i) x v) }

def serialPort : BitVec 16 := 0x3F8#16

def serialInit (c : ConsoleState) : ConsoleState :=
  let p := outb (serialPort + 1#16) 0x00#8 c.ports
  let p := outb (serialPort + 3#16) 0x80#8 p
  let p := outb (serialPort + 0#16) 0x01#8 p
  let p := outb (serialPort + 1#16) 0x00#8 p
  let p := outb (serialPort + 3#16) 0x03#8 p
  let p := outb (serialPort + 2#16) 0xC7#8 p
  { c with ports := outb (serialPort + 4#16) 0x0B#8 p }

/-- The wait for the transmitter leaves no trace. -/
def serialPutc (ch : Byte) (c : ConsoleState) : ConsoleState :=
  { c with ports := outb serialPort ch c.ports }

/-- `cursor_y * VGA_COLS + cursor_x`. -/
def cursorPos (c : ConsoleState) : BitVec 16 := BitVec.ofNat 16 (c.cursorY.val * 80 + c.cursorX.val)

def updateCursor (c : ConsoleState) : ConsoleState :=
  let pos := cursorPos c
  let p := outb 0x3D4#16 14#8 c.ports
  let p := outb 0x3D5#16 ((pos >>> 8).setWidth 8) p
  let p := outb 0x3D4#16 15#8 p
  { c with ports := outb 0x3D5#16 ((pos &&& 0xFF#16).setWidth 8) p }

def scrollbackPush (line : Row) (c : ConsoleState) : ConsoleState :=
  let idx := Fin.ofNat 100 (c.sbStart.val + c.sbCount.val)
  let c := forFin 80 (fun x c => setScrollback idx x (line x) c) c
  if room : c.sbCount.val < 100 then { c with sbCount := ⟨c.sbCount.val + 1, by omega⟩ }
  else { c with sbStart := Fin.ofNat 100 (c.sbStart.val + 1) }

/-- The row shown for the line `idx` of the scrollback followed by the screen. -/
def viewRow (idx : Nat) (c : ConsoleState) : Row :=
  if idx < c.sbCount.val then c.scrollback (Fin.ofNat 100 (c.sbStart.val + idx))
  else if inside : idx - c.sbCount.val < 25 then c.screenBuffer ⟨idx - c.sbCount.val, inside⟩
  else fun _ => blank

def renderView (c : ConsoleState) : ConsoleState :=
  let total := c.sbCount.val + 25
  let c := if c.sbView > c.sbCount.val then { c with sbView := c.sbCount.val } else c
  let start := if total > 25 + c.sbView then total - 25 - c.sbView else 0
  let c := forFin 25 (fun row c =>
    forFin 80 (fun x c => setVga row x (viewRow (start + row.val) c x) c) c) c
  updateCursor c

def copyToVga (c : ConsoleState) : ConsoleState :=
  forFin 25 (fun y c => forFin 80 (fun x c => setVga y x (c.screenBuffer y x) c) c) c

def scrollScreen (c : ConsoleState) : ConsoleState :=
  let c := scrollbackPush (c.screenBuffer 0) c
  let c := forFin 24 (fun y c =>
    forFin 80 (fun x c => setScreen y.castSucc x (c.screenBuffer y.succ x) c) c) c
  let c := forFin 80 (fun x c => setScreen 24 x blank c) c
  if c.sbView = 0 then copyToVga c else c

def ensureBottom (c : ConsoleState) : ConsoleState :=
  if c.sbView ≠ 0 then renderView { c with sbView := 0 } else c

def consoleClear (c : ConsoleState) : ConsoleState :=
  let c := forFin 25 (fun y c =>
    forFin 80 (fun x c => setVga y x blank (setScreen y x blank c)) c) c
  updateCursor { c with sbStart := 0, sbCount := 0, sbView := 0, cursorX := 0, cursorY := 0 }

/-- `if (++cursor_y >= VGA_ROWS) { scroll_screen(); cursor_y = VGA_ROWS - 1; }`. The
scroll does not read the cursor. -/
def nextRow (c : ConsoleState) : ConsoleState :=
  if below : c.cursorY.val + 1 < 25 then { c with cursorY := ⟨c.cursorY.val + 1, below⟩ }
  else { scrollScreen c with cursorY := 24 }

def storeCell (v : Cell) (c : ConsoleState) : ConsoleState :=
  let c := setScreen c.cursorY c.cursorX v c
  if c.sbView = 0 then setVga c.cursorY c.cursorX (c.screenBuffer c.cursorY c.cursorX) c else c

def cursorBack (c : ConsoleState) : ConsoleState :=
  if 0 < c.cursorX.val then { c with cursorX := ⟨c.cursorX.val - 1, by omega⟩ }
  else if 0 < c.cursorY.val then { c with cursorY := ⟨c.cursorY.val - 1, by omega⟩, cursorX := 79 }
  else c

def newline : Byte := 0x0A#8

def backspace : Byte := 0x08#8

def consolePutc (ch : Byte) (c : ConsoleState) : ConsoleState :=
  let c := ensureBottom (serialPutc ch c)
  let c :=
    if ch = newline then nextRow { c with cursorX := 0 }
    else if ch = backspace then storeCell blank (cursorBack c)
    else
      let c := storeCell (cellOf ch) c
      if right : c.cursorX.val + 1 < 80 then { c with cursorX := ⟨c.cursorX.val + 1, right⟩ }
      else nextRow { c with cursorX := 0 }
  if c.sbView = 0 then updateCursor c else c

/-- `while (*s) console_putc(*s++);` on the bytes of a string. -/
def consoleWrite : List Byte → ConsoleState → ConsoleState
  | [], c => c
  | ch :: s, c => consoleWrite s (consolePutc ch c)

def consoleInit (c : ConsoleState) : ConsoleState :=
  let c := serialInit c
  let p := outb 0x3D4#16 0x0C#8 c.ports
  let p := outb 0x3D5#16 0x00#8 p
  let p := outb 0x3D4#16 0x0D#8 p
  let p := outb 0x3D5#16 0x00#8 p
  consoleClear { c with ports := p }

/-- The end of `console_poll_input`: a character joins the ring unless it is full. -/
def enqueue (ch : Byte) (c : ConsoleState) : ConsoleState :=
  let nextHead := Fin.ofNat 128 (c.inputHead.val + 1)
  if nextHead ≠ c.inputTail then
    { c with inputBuf := Function.update c.inputBuf c.inputHead ch, inputHead := nextHead }
  else c

def consoleGetc (c : ConsoleState) : Byte × ConsoleState :=
  if c.inputHead = c.inputTail then (0#8, c)
  else (c.inputBuf c.inputTail, { c with inputTail := Fin.ofNat 128 (c.inputTail.val + 1) })

def consoleSetCursor (x y : BitVec 8) (c : ConsoleState) : ConsoleState :=
  let c := if inside : x.toNat < 80 then { c with cursorX := ⟨x.toNat, inside⟩ } else c
  let c := if inside : y.toNat < 25 then { c with cursorY := ⟨y.toNat, inside⟩ } else c
  updateCursor c

/-- A line-drawing cell of `console_draw_quadrants`, whose constant is an int. -/
def lineCell (v : BitVec 16) : Cell := (vgaColor.zeroExtend 16 <<< 8) ||| v

def plot (y : Fin 25) (x : Fin 80) (v : Cell) (c : ConsoleState) : ConsoleState :=
  let c := setScreen y x v c
  if c.sbView = 0 then setVga y x v c else c

def quadrantCells (c : ConsoleState) : ConsoleState :=
  let c := forFin 25 (fun y c => plot y 40 (lineCell 0xB3#16) c) c
  let c := forFin 80 (fun x c => plot 12 x (lineCell 0xC4#16) c) c
  plot 12 40 (lineCell 0xC5#16) c

/-- `console_draw_quadrants` up to the prompt. -/
def drawQuadrantLines (c : ConsoleState) : ConsoleState :=
  let c := { quadrantCells c with cursorX := 1, cursorY := 13 }
  if c.sbView = 0 then updateCursor c else c

end LifeOS.Console
