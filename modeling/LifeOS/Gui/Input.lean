import LifeOS.Console.Screen
import LifeOS.Gui.Framebuffer
import LifeOS.Library.Strings

/-!
The input line of `gui/gui.c`: `gui_handle_key` edits a line of at most 127 characters
and draws it anew in the middle of the frame.
-/

namespace LifeOS.Gui
open LifeOS.Console LifeOS.Library.Loops LifeOS.Library.Strings

abbrev Font := Byte → Fin 8 → Byte

def fbDrawRect (x y w h : Int) (color : BitVec 32) (fb : Frame) : Frame :=
  forRange h.toNat (fun j fb => forRange w.toNat (fun i fb => fbDrawPixel (x + i) (y + j) color fb) fb) fb

def fbDrawChar (font : Font) (c : Byte) (x y : Int) (color : BitVec 32) (fb : Frame) : Frame :=
  forFin 8 (fun row fb =>
    forFin 8 (fun col fb =>
      if font c row &&& (1#8 <<< col.val) ≠ 0#8 then fbDrawPixel (x + col.val) (y + row.val) color fb
      else fb) fb) fb

/-- The static data of `gui/gui.c`, with the frame it draws to. -/
structure InputLine where
  inputBuf : Vector Byte 128
  inputLen : Fin 128
  fb : Frame

def redraw (font : Font) (g : InputLine) : InputLine :=
  let fb := fbClear 0xFFFFFFFF#32 g.fb
  let baseline : Int := (fbHeight * 2 / 3 : Nat)
  let textW := g.inputLen.val * 8
  let startX : Int := (fbWidth / 2 : Nat) - (textW / 2 : Nat)
  let fb := fbDrawRect 0 (baseline - 8) fbWidth 16 0xFFFFFFFF#32 fb
  let fb := forFin g.inputLen.val (fun i fb =>
    fbDrawChar font (g.inputBuf.get ⟨i.val, by omega⟩) (startX + i.val * 8) (baseline - 8) 0xFF000000#32 fb) fb
  { g with fb := fb }

/-- The edit of `gui_handle_key`; `char` is signed, so key codes from 0x80 on are below the space. -/
def editLine (c : Byte) (g : InputLine) : InputLine :=
  if c = backspace then
    if 0 < g.inputLen.val then { g with inputLen := ⟨g.inputLen.val - 1, by omega⟩ } else g
  else if visible : (0x20#8).sle c ∧ g.inputLen.val < 127 then
    { g with inputBuf := g.inputBuf.set g.inputLen.val c
             inputLen := ⟨g.inputLen.val + 1, by omega⟩ }
  else g

def guiHandleKey (font : Font) (c : Byte) (g : InputLine) : InputLine :=
  let g := editLine c g
  redraw font { g with inputBuf := g.inputBuf.set g.inputLen.val 0#8 }

def InputLine.initial (fb : Frame) : InputLine := ⟨Vector.replicate 128 0#8, 0, fb⟩

def InputLine.line (g : InputLine) : List Byte := g.inputBuf.toList.take g.inputLen.val

theorem line_length (g : InputLine) : g.line.length = g.inputLen.val := by
  have bound := g.inputLen.isLt
  rw [InputLine.line, List.length_take, Vector.length_toList]
  omega

theorem redraw_line (font : Font) (g : InputLine) : (redraw font g).line = g.line := rfl

theorem line_terminate (g : InputLine) :
    ({ g with inputBuf := g.inputBuf.set g.inputLen.val 0#8 } : InputLine).line = g.line := by
  unfold InputLine.line
  rw [Vector.toList_set, List.take_set_of_le (Nat.le_refl _)]

theorem guiHandleKey_line_edit (font : Font) (c : Byte) (g : InputLine) :
    (guiHandleKey font c g).line = (editLine c g).line :=
  (redraw_line font _).trans (line_terminate (editLine c g))

theorem guiHandleKey_line (font : Font) (c : Byte) (g : InputLine) :
    (guiHandleKey font c g).line =
      if c = backspace then g.line.dropLast
      else if (0x20#8).sle c ∧ g.line.length < 127 then g.line ++ [c]
      else g.line := by
  have length := line_length g
  rw [guiHandleKey_line_edit, length]
  unfold editLine
  by_cases erase : c = backspace
  · rw [if_pos erase, if_pos erase]
    by_cases some_text : 0 < g.inputLen.val
    · rw [if_pos some_text, List.dropLast_eq_take, length]
      unfold InputLine.line
      rw [List.take_take, Nat.min_eq_left (by omega)]
    · have empty : g.line = [] := List.eq_nil_of_length_eq_zero (by omega)
      rw [if_neg some_text, empty]
      rfl
  · rw [if_neg erase, if_neg erase]
    by_cases visible : (0x20#8).sle c ∧ g.inputLen.val < 127
    · rw [dif_pos visible, if_pos visible]
      have inside : g.inputLen.val < g.inputBuf.toList.length := by simp
      change (g.inputBuf.set g.inputLen.val c).toList.take (g.inputLen.val + 1) = _
      rw [Vector.toList_set, List.take_add_one, List.take_set_of_le (Nat.le_refl _),
        List.getElem?_set_self inside]
      rfl
    · rw [dif_neg visible, if_neg visible]

end LifeOS.Gui
