import LifeOS.Library.Strings

/-!
The PS/2 keyboard driver of `drivers/keyboard/keyboard.c`: scancodes of set 1 become
characters and key codes, one byte a call.
-/

namespace LifeOS.Drivers
open LifeOS.Library.Strings

def keyUp : Byte := 0x80#8
def keyDown : Byte := 0x81#8
def keyLeft : Byte := 0x82#8
def keyRight : Byte := 0x83#8
def keyF1 : Byte := 0x84#8
def keyF2 : Byte := 0x85#8
def keyF3 : Byte := 0x86#8
def keyF4 : Byte := 0x87#8
def keyCtrl : Byte := 0x88#8
def keyAltR : Byte := 0x89#8
def keyFn : Byte := 0x8A#8

def scancodeEntries : List (Byte × Char) :=
  [(0x1E#8, 'a'), (0x30#8, 'b'), (0x2E#8, 'c'), (0x20#8, 'd'), (0x12#8, 'e'), (0x21#8, 'f'),
    (0x22#8, 'g'), (0x23#8, 'h'), (0x17#8, 'i'), (0x24#8, 'j'), (0x25#8, 'k'), (0x26#8, 'l'),
    (0x32#8, 'm'), (0x31#8, 'n'), (0x18#8, 'o'), (0x19#8, 'p'), (0x10#8, 'q'), (0x13#8, 'r'),
    (0x1F#8, 's'), (0x14#8, 't'), (0x16#8, 'u'), (0x2F#8, 'v'), (0x11#8, 'w'), (0x2D#8, 'x'),
    (0x15#8, 'y'), (0x2C#8, 'z'), (0x02#8, '1'), (0x03#8, '2'), (0x04#8, '3'), (0x05#8, '4'),
    (0x06#8, '5'), (0x07#8, '6'), (0x08#8, '7'), (0x09#8, '8'), (0x0A#8, '9'), (0x0B#8, '0'),
    (0x39#8, ' '), (0x1C#8, '\n'), (0x0F#8, '\t'), (0x0E#8, '\x08')]

def scancodeAscii (sc : Byte) : Byte :=
  match scancodeEntries.lookup sc with
  | some ch => BitVec.ofNat 8 ch.toNat
  | none => 0#8

def handleExtended (sc : Byte) : Byte :=
  if sc = 0x48#8 then keyUp
  else if sc = 0x50#8 then keyDown
  else if sc = 0x4B#8 then keyLeft
  else if sc = 0x4D#8 then keyRight
  else if sc = 0x38#8 then keyAltR
  else if sc = 0x5D#8 then keyFn
  else 0#8

def handlePlain (sc : Byte) : Byte :=
  if sc &&& 0x80#8 ≠ 0#8 then 0#8
  else if sc = 0x3B#8 then keyF1
  else if sc = 0x3C#8 then keyF2
  else if sc = 0x3D#8 then keyF3
  else if sc = 0x3E#8 then keyF4
  else if sc = 0x1D#8 then keyCtrl
  else if sc = 0x38#8 then keyAltR
  else if 128 ≤ sc.toNat then 0#8
  else scancodeAscii sc

/-- The bytes the controller holds, in order of arrival, and `have_e0`. -/
structure Keyboard where
  pending : List Byte
  haveE0 : Bool

/-- `keyboard_read_char`: zero when no byte is waiting. -/
def keyboardReadChar (k : Keyboard) : Byte × Keyboard :=
  match k.pending with
  | [] => (0#8, k)
  | sc :: rest =>
      if sc = 0xE0#8 then (0#8, ⟨rest, true⟩)
      else if k.haveE0 then (handleExtended sc, ⟨rest, false⟩)
      else (handlePlain sc, ⟨rest, false⟩)

end LifeOS.Drivers
