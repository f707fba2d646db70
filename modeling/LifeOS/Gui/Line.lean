import LifeOS.Gui.Machine
import LifeOS.Library.Runs

/-!
`gui_handle_key` and the redraw of `gui/gui.c` on the static data of the file, every access to
`input_buf` checked. The data it reaches are those of an `InputLine`.
-/

namespace LifeOS.Gui.Machine
open LifeOS.Console LifeOS.Library.Ints LifeOS.Library.Loops LifeOS.Library.Runs LifeOS.Library.Strings

structure InputData where
  inputBuf : Vector Byte 128
  inputLen : Unsigned
  fb : Frame

def width : Unsigned := BitVec.ofNat 32 fbWidth

def height : Unsigned := BitVec.ofNat 32 fbHeight

/-- `(h * 2) / 3` -/
def baseline : Unsigned := height * 2#32 / 3#32

/-- `(int)(w / 2) - (int)(text_w / 2)` -/
def startX (inputLen : Unsigned) : Option CInt :=
  (CInt.ofUnsigned (width / 2#32)).sub (CInt.ofUnsigned (inputLen * 8#32 / 2#32))

def charCall (inputBuf : Vector Byte 128) (start : CInt) (i : Unsigned) : Option (Byte × CInt × CInt) := do
  let c ← load inputBuf i.toNat
  return (c, CInt.ofUnsigned (start.toUnsigned + i * 8#32), CInt.ofUnsigned (baseline - 8#32))

def redrawBy {σ : Type} (plot : Nat → BitVec 32 → σ → Option σ) (font : Glyphs) (inputBuf : Vector Byte 128)
    (inputLen : Unsigned) (s : σ) : Option σ := do
  let s ← fbClearBy plot 0xFFFFFFFF#32 s
  let start ← startX inputLen
  let s ← fbDrawRectBy plot 0 (.ofUnsigned (baseline - 8#32)) (.ofUnsigned width) 16 0xFFFFFFFF#32 s
  forUp 0 inputLen.toNat (fun i s => do
    let (c, x, y) ← charCall inputBuf start (BitVec.ofNat 32 i)
    fbDrawCharBy plot font c x y 0xFF000000#32 s) s

def redraw (font : Glyphs) (g : InputData) : Option InputData := do
  let fb ← redrawBy storePixel font g.inputBuf g.inputLen g.fb
  return { g with fb := fb }

/-- `char` is signed, so key codes from 0x80 on are below the space. -/
def editLine (c : Byte) (g : InputData) : Option InputData :=
  if c = backspace then
    if 0#32 < g.inputLen then some { g with inputLen := g.inputLen - 1#32 } else some g
  else if (0x20#8).sle c ∧ g.inputLen < 127#32 then do
    let inputBuf ← store g.inputBuf g.inputLen.toNat c
    return { g with inputBuf := inputBuf, inputLen := g.inputLen + 1#32 }
  else some g

def guiHandleKey (font : Glyphs) (c : Byte) (g : InputData) : Option InputData := do
  let g ← editLine c g
  let inputBuf ← store g.inputBuf g.inputLen.toNat 0#8
  redraw font { g with inputBuf := inputBuf }

def handleKeys (font : Glyphs) : List Byte → InputData → Option InputData
  | [], g => some g
  | c :: keys, g => (guiHandleKey font c g).bind (handleKeys font keys)

def InputData.initial (fb : Frame) : InputData := ⟨Vector.replicate 128 0#8, 0#32, fb⟩

def data (g : InputLine) : InputData := ⟨g.inputBuf, BitVec.ofNat 32 g.inputLen.val, g.fb⟩

def Legible (g : InputLine) : Prop := ∀ c ∈ g.line, c.toNat < 128

theorem data_inputLen (g : InputLine) : (data g).inputLen.toNat = g.inputLen.val := by
  have bound := g.inputLen.isLt
  change g.inputLen.val % 2 ^ 32 = _
  omega

theorem editLine_eq (c : Byte) (g : InputLine) : editLine c (data g) = some (data (Gui.editLine c g)) := by
  have bound := g.inputLen.isLt
  have length := data_inputLen g
  unfold editLine Gui.editLine
  have filled : 0#32 < (data g).inputLen ↔ 0 < g.inputLen.val := by
    rw [BitVec.lt_def, length]
    rfl
  by_cases erase : c = backspace
  · rw [if_pos erase, if_pos erase]
    by_cases some_text : 0 < g.inputLen.val
    · rw [if_pos (filled.mpr some_text), if_pos some_text]
      have shorter : (data g).inputLen - 1#32 = BitVec.ofNat 32 (g.inputLen.val - 1) := by
        unfold data
        dsimp only
        bv_omega
      rw [shorter]
      rfl
    · rw [if_neg (fun more => some_text (filled.mp more)), if_neg some_text]
  · rw [if_neg erase, if_neg erase]
    have few : (data g).inputLen < 127#32 ↔ g.inputLen.val < 127 := by
      rw [BitVec.lt_def, length]
      rfl
    by_cases visible : (0x20#8).sle c ∧ g.inputLen.val < 127
    · have longer : (data g).inputLen + 1#32 = BitVec.ofNat 32 (g.inputLen.val + 1) := by
        unfold data
        dsimp only
        bv_omega
      rw [if_pos ⟨visible.1, few.mpr visible.2⟩, dif_pos visible, length, longer, store_inside _ _ _ bound]
      rfl
    · rw [if_neg (fun both => visible ⟨both.1, few.mp both.2⟩), dif_neg visible]

theorem startX_place (n : Nat) (few : n < 128) :
    ∃ start, startX (BitVec.ofNat 32 n) = some start ∧ start.val = 512 - 4 * n := by
  have middle : (CInt.ofUnsigned (width / 2#32)).val = 512 := by decide
  have half : (BitVec.ofNat 32 n * 8#32 / 2#32).toNat = 4 * n := by
    change n % 2 ^ 32 * 8 % 2 ^ 32 / 2 = 4 * n
    omega
  have left : (CInt.ofUnsigned (BitVec.ofNat 32 n * 8#32 / 2#32)).val = 4 * n := by
    rw [CInt.ofUnsigned_val _ (by omega), half]
    rfl
  have fits : Fits ((CInt.ofUnsigned (width / 2#32)).val -
      (CInt.ofUnsigned (BitVec.ofNat 32 n * 8#32 / 2#32)).val) := by
    rw [middle, left]
    unfold Fits
    omega
  refine ⟨_, CInt.sub_fits fits, ?_⟩
  dsimp only
  rw [middle, left]

theorem charCall_place (inputBuf : Vector Byte 128) (start : CInt) (n i : Nat) (few : n < 128) (inside : i < n)
    (place : start.val = 512 - 4 * n) :
    ∃ x y, charCall inputBuf start (BitVec.ofNat 32 i) = some (inputBuf.get ⟨i, by omega⟩, x, y) ∧
      x.val = 512 - 4 * n + 8 * i ∧ y.val = 504 := by
  have index : (BitVec.ofNat 32 i).toNat = i := by
    change i % 2 ^ 32 = i
    omega
  have sum : (start.toUnsigned + BitVec.ofNat 32 i * 8#32).toNat = (512 - 4 * n) + 8 * i := by
    rw [start.toUnsigned_eq (by omega)]
    change (start.val.toNat % 2 ^ 32 + i % 2 ^ 32 * 8 % 2 ^ 32) % 2 ^ 32 = _
    omega
  refine ⟨CInt.ofUnsigned (start.toUnsigned + BitVec.ofNat 32 i * 8#32),
    CInt.ofUnsigned (baseline - 8#32), ?_, ?_, ?_⟩
  · unfold charCall
    rw [index, load_inside _ i (by omega)]
    rfl
  · rw [CInt.ofUnsigned_val _ (by omega), sum]
    omega
  · decide

theorem line_getElem (g : InputLine) (i : Nat) (few : i < g.inputLen.val) (inside : i < g.line.length) :
    g.line[i] = g.inputBuf.get ⟨i, by omega⟩ := by
  have whole : i < g.inputBuf.toList.length := by
    rw [Vector.length_toList]
    omega
  have same : g.inputBuf.toList[i] = g.inputBuf.get ⟨i, by omega⟩ := Vector.getElem_toList whole
  exact List.getElem_take.trans same

theorem get_mem_line (g : InputLine) (i : Nat) (few : i < g.inputLen.val) :
    g.inputBuf.get ⟨i, by omega⟩ ∈ g.line := by
  have inside : i < g.line.length := by
    rw [line_length]
    exact few
  exact line_getElem g i few inside ▸ List.getElem_mem inside

def drawCharacter (font : Font) (g : InputLine) (i : Nat) (fb : Frame) : Frame :=
  if inside : i < g.inputLen.val then
    Gui.fbDrawChar font (g.inputBuf.get ⟨i, by omega⟩) (512 - 4 * g.inputLen.val + 8 * i) 504 0xFF000000#32 fb
  else fb

theorem redraw_fb (font : Font) (g : InputLine) :
    (Gui.redraw font g).fb = forRange g.inputLen.val (drawCharacter font g)
      (Gui.fbDrawRect 0 504 1024 16 0xFFFFFFFF#32 (Gui.fbClear 0xFFFFFFFF#32 g.fb)) := by
  have rounds : (fun (i : Fin g.inputLen.val) => drawCharacter font g i.val) = fun (i : Fin g.inputLen.val) fb =>
      Gui.fbDrawChar font (g.inputBuf.get ⟨i.val, by omega⟩)
        (((fbWidth / 2 : Nat) : Int) - ((g.inputLen.val * 8 / 2 : Nat) : Int) + i.val * 8)
        (((fbHeight * 2 / 3 : Nat) : Int) - 8) 0xFF000000#32 fb := by
    funext i fb
    have column : (512 : Int) - 4 * g.inputLen.val + 8 * i.val =
        ((fbWidth / 2 : Nat) : Int) - ((g.inputLen.val * 8 / 2 : Nat) : Int) + i.val * 8 := by
      change _ = (512 : Int) - ((g.inputLen.val * 8 / 2 : Nat) : Int) + i.val * 8
      omega
    unfold drawCharacter
    rw [dif_pos i.isLt, column]
    rfl
  unfold forRange
  rw [rounds]
  rfl

theorem characters_draws (font : Font) (g : InputLine) :
    Draws (forRange g.inputLen.val (drawCharacter font g))
      (textShape font g.line (512 - 4 * g.inputLen.val) 504) 0xFF000000#32 := by
  have each (i : Fin g.inputLen.val) : Draws (drawCharacter font g i.val)
      (glyph font (g.inputBuf.get ⟨i.val, by omega⟩) (512 - 4 * g.inputLen.val + 8 * i.val) 504) 0xFF000000#32 := by
    unfold drawCharacter
    simp only [dif_pos i.isLt]
    exact fbDrawChar_draws font _ _ _ _
  apply (Draws.loop each).congr
  intro p
  rw [Set.mem_iUnion]
  constructor
  · rintro ⟨i, member⟩
    have inside : i.val < g.line.length := by
      rw [line_length]
      exact i.isLt
    rw [← line_getElem g i.val i.isLt inside] at member
    exact ⟨i.val, inside, member⟩
  · rintro ⟨k, inside, member⟩
    have few : k < g.inputLen.val := line_length g ▸ inside
    rw [line_getElem g k few inside] at member
    exact ⟨⟨k, few⟩, member⟩

theorem redraw_shows (font : Font) (g : InputLine) : Shows font g.line (Gui.redraw font g).fb := by
  intro px py column row
  have white := Draws.andThen (fbClear_draws 0xFFFFFFFF#32) (fbDrawRect_draws 0 504 1024 16 0xFFFFFFFF#32)
  have typed := clipped_of_draws (characters_draws font g)
    (Gui.fbDrawRect 0 504 1024 16 0xFFFFFFFF#32 (Gui.fbClear 0xFFFFFFFF#32 g.fb))
  rw [redraw_fb, line_length]
  refine ⟨typed.inside px py column row, ?_⟩
  intro away
  rw [typed.outside px py column row away]
  apply (clipped_of_draws white g.fb).inside px py column row
  exact Or.inl ⟨by dsimp only; omega, by dsimp only; omega⟩

theorem redraw_beyond (font : Font) (g : InputLine) (k : Nat) (beyond : fbHeight * fbWidth ≤ k) :
    (Gui.redraw font g).fb k = g.fb k := by
  have white := Draws.andThen (fbClear_draws 0xFFFFFFFF#32) (fbDrawRect_draws 0 504 1024 16 0xFFFFFFFF#32)
  rw [redraw_fb]
  exact ((clipped_of_draws (characters_draws font g) _).beyond k beyond).trans
    ((clipped_of_draws white g.fb).beyond k beyond)

theorem redraw_again (font : Font) (g : InputLine) (shows : Shows font g.line g.fb) :
    (Gui.redraw font g).fb = g.fb := by
  funext k
  by_cases inside : k < fbHeight * fbWidth
  · exact (redraw_shows font g).unique shows k inside
  · exact redraw_beyond font g k (Nat.le_of_not_lt inside)

theorem redrawBy_eq (font : Glyphs) (g : InputLine) (legible : Legible g) :
    redrawBy storePixel font (data g).inputBuf (data g).inputLen g.fb = some (Gui.redraw (rows font) g).fb := by
  have few := g.inputLen.isLt
  obtain ⟨start, started, place⟩ := startX_place g.inputLen.val few
  have upper : (CInt.ofUnsigned (baseline - 8#32)).val = 504 := by decide
  have across : (CInt.ofUnsigned width).val = 1024 := by decide
  have cleared := fbDrawRect_eq 0 (.ofUnsigned (baseline - 8#32)) (.ofUnsigned width)
    16 (by rw [across]; decide) (by rw [upper]; decide) 0xFFFFFFFF#32
    (Gui.fbClear 0xFFFFFFFF#32 g.fb)
  have typed := forUp_eq g.inputLen.val
    (fun i fb => (charCall g.inputBuf start (BitVec.ofNat 32 i)).bind fun call =>
      fbDrawChar font call.1 call.2.1 call.2.2 0xFF000000#32 fb)
    (drawCharacter (rows font) g)
    (Gui.fbDrawRect 0 504 1024 16 0xFFFFFFFF#32 (Gui.fbClear 0xFFFFFFFF#32 g.fb))
    (by
      intro i fb inside
      obtain ⟨x, y, called, column, row⟩ := charCall_place g.inputBuf start g.inputLen.val i few inside place
      unfold drawCharacter
      rw [called, Option.bind_some, dif_pos inside]
      have drawn := fbDrawChar_eq font (g.inputBuf.get ⟨i, by omega⟩) x y
        (legible _ (get_mem_line g i inside)) (by rw [column]; unfold Fits; omega) (by rw [row]; decide)
        0xFF000000#32 fb
      rw [column, row] at drawn
      exact drawn)
  rw [← redraw_fb] at typed
  rw [upper, across] at cleared
  change fbDrawRect _ _ _ _ _ _ = some (Gui.fbDrawRect 0 504 1024 16 0xFFFFFFFF#32 _) at cleared
  unfold redrawBy
  rw [data_inputLen]
  change (fbClear 0xFFFFFFFF#32 g.fb).bind _ = _
  rw [fbClear_eq, Option.bind_some]
  change (startX (BitVec.ofNat 32 g.inputLen.val)).bind _ = _
  rw [started, Option.bind_some]
  change (fbDrawRect _ _ _ _ _ _).bind _ = _
  rw [cleared, Option.bind_some]
  exact typed

theorem redraw_eq (font : Glyphs) (g : InputLine) (legible : Legible g) :
    redraw font (data g) = some (data (Gui.redraw (rows font) g)) := by
  have drawn := redrawBy_eq font g legible
  unfold redraw
  change (redrawBy storePixel font (data g).inputBuf (data g).inputLen g.fb).bind _ = _
  rw [drawn, Option.bind_some]
  rfl

theorem toNat_lt_of_visible (c : Byte) (visible : (0x20#8).sle c) : c.toNat < 128 := by
  have all : ∀ c : Byte, (0x20#8).sle c → c.toNat < 128 := by decide +kernel
  exact all c visible

theorem legible_key (font : Font) (c : Byte) (g : InputLine) (legible : Legible g) :
    Legible (Gui.guiHandleKey font c g) := by
  intro d member
  rw [guiHandleKey_line] at member
  split_ifs at member with erase visible
  · exact legible d (List.dropLast_subset _ member)
  · rcases List.mem_append.mp member with before | last
    · exact legible d before
    · rw [List.mem_singleton.mp last]
      exact toNat_lt_of_visible c visible.1
  · exact legible d member

theorem terminated_eq (font : Glyphs) (g : InputLine) (legible : Legible g) :
    ((store (data g).inputBuf (data g).inputLen.toNat 0#8).bind fun inputBuf =>
      redraw font { data g with inputBuf := inputBuf }) =
    some (data (Gui.redraw (rows font)
      { g with inputBuf := g.inputBuf.set g.inputLen.val 0#8 g.inputLen.isLt })) := by
  have readable : Legible { g with inputBuf := g.inputBuf.set g.inputLen.val 0#8 g.inputLen.isLt } := by
    intro d member
    rw [line_terminate] at member
    exact legible d member
  have drawn := redraw_eq font { g with inputBuf := g.inputBuf.set g.inputLen.val 0#8 g.inputLen.isLt } readable
  have stored : ({ data g with inputBuf := g.inputBuf.set g.inputLen.val 0#8 g.inputLen.isLt } : InputData) =
      data { g with inputBuf := g.inputBuf.set g.inputLen.val 0#8 g.inputLen.isLt } := rfl
  rw [data_inputLen, store_inside (data g).inputBuf _ _ g.inputLen.isLt, Option.bind_some, ← drawn, ← stored]
  rfl

theorem guiHandleKey_eq (font : Glyphs) (c : Byte) (g : InputLine) (legible : Legible g) :
    guiHandleKey font c (data g) = some (data (Gui.guiHandleKey (rows font) c g)) := by
  have readable : Legible (Gui.editLine c g) := by
    intro d member
    apply legible_key (rows font) c g legible d
    rw [guiHandleKey_line_edit]
    exact member
  unfold guiHandleKey
  rw [editLine_eq, Option.bind_eq_bind, Option.bind_some]
  exact terminated_eq font _ readable

theorem handleKeys_eq (font : Glyphs) (keys : List Byte) (g : InputLine) (legible : Legible g) :
    handleKeys font keys (data g) = some (data (run (Gui.guiHandleKey (rows font)) keys g)) := by
  induction keys generalizing g with
  | nil => rfl
  | cons c keys ih =>
    rw [handleKeys, guiHandleKey_eq font c g legible, Option.bind_some]
    exact ih _ (legible_key (rows font) c g legible)

/-- The editor that the line follows, on `char` values from -128 to 127. -/
def referenceKey (line : List Byte) (c : Byte) : List Byte :=
  if 0x20 ≤ c.toInt ∧ c.toInt ≤ 0x7F ∧ line.length < 127 then line ++ [c]
  else if c = backspace then line.dropLast
  else line

theorem line_key (font : Font) (c : Byte) (g : InputLine) :
    (Gui.guiHandleKey font c g).line = referenceKey g.line c := by
  have all : ∀ c : Byte, ((0x20#8).sle c ↔ 0x20 ≤ c.toInt ∧ c.toInt ≤ 0x7F) ∧
      (c = backspace → ¬(0x20#8).sle c) := by
    decide +kernel
  obtain ⟨visible, erases⟩ := all c
  have test : 0x20 ≤ c.toInt ∧ c.toInt ≤ 0x7F ∧ g.line.length < 127 ↔ (0x20#8).sle c ∧ g.line.length < 127 := by
    rw [visible, and_assoc]
  rw [guiHandleKey_line, referenceKey, if_congr test rfl rfl]
  by_cases erase : c = backspace
  · rw [if_pos erase, if_neg (fun both => erases erase both.1), if_pos erase]
  · rw [if_neg erase, if_neg erase]

theorem run_line (font : Font) (keys : List Byte) (g : InputLine) :
    (run (Gui.guiHandleKey font) keys g).line = keys.foldl referenceKey g.line := by
  induction keys generalizing g with
  | nil => rfl
  | cons c keys ih =>
    rw [run, ih, line_key]
    rfl

def InputData.line (g : InputData) : List Byte := g.inputBuf.toList.take g.inputLen.toNat

def CellInside (g : InputData) (start : CInt) (i : Nat) : Prop :=
  ∃ c x y, charCall g.inputBuf start (BitVec.ofNat 32 i) = some (c, x, y) ∧ c.toNat < 128 ∧
    (0 ≤ x.val ∧ x.val + 8 ≤ fbWidth) ∧ 0 ≤ y.val ∧ y.val + 8 ≤ fbHeight

theorem legible_initial (fb : Frame) : Legible (InputLine.initial fb) :=
  fun _ member => absurd member List.not_mem_nil

def Terminated (g : InputLine) : Prop := g.inputBuf.get g.inputLen = 0#8

theorem terminated_key (font : Font) (c : Byte) (g : InputLine) : Terminated (Gui.guiHandleKey font c g) := by
  have last (e : InputLine) : (e.inputBuf.set e.inputLen.val 0#8).get e.inputLen = 0#8 :=
    Vector.getElem_set_self e.inputLen.isLt
  exact last (Gui.editLine c g)

theorem terminated_initial (fb : Frame) : Terminated (InputLine.initial fb) := by
  change (Vector.replicate 128 0#8).get (0 : Fin 128) = 0#8
  decide

theorem cells_inside (g : InputLine) (legible : Legible g) :
    ∃ start, startX (data g).inputLen = some start ∧
      ∀ i < (data g).inputLen.toNat, CellInside (data g) start i := by
  have few := g.inputLen.isLt
  obtain ⟨start, started, place⟩ := startX_place g.inputLen.val few
  refine ⟨start, started, ?_⟩
  intro i inside
  rw [data_inputLen] at inside
  obtain ⟨x, y, called, column, row⟩ := charCall_place g.inputBuf start g.inputLen.val i few inside place
  refine ⟨_, x, y, called, legible _ (get_mem_line g i inside), ?_, ?_⟩
  · rw [column]
    change 0 ≤ _ ∧ _ ≤ (1024 : Int)
    omega
  · rw [row]
    decide

theorem key_shows (font : Font) (c : Byte) (g : InputLine) :
    Shows font (Gui.guiHandleKey font c g).line (Gui.guiHandleKey font c g).fb :=
  redraw_shows font { Gui.editLine c g with
    inputBuf := (Gui.editLine c g).inputBuf.set (Gui.editLine c g).inputLen.val 0#8 }

/-- Any keys leave the line of the reference editor and its terminator, with every access inside
the buffer, the font and the framebuffer, and the cells of the line on the screen. The last key
leaves the line on the screen. -/
theorem keys_edit_line (font : Glyphs) (keys : List Byte) (fb : Frame) :
    ∃ g, handleKeys font keys (.initial fb) = some g ∧ g.line = keys.foldl referenceKey [] ∧
      load g.inputBuf g.inputLen.toNat = some 0#8 ∧
      (∃ start, startX g.inputLen = some start ∧ ∀ i < g.inputLen.toNat, CellInside g start i) ∧
      (keys ≠ [] → Shows (rows font) g.line g.fb) := by
  have handled := handleKeys_eq font keys (InputLine.initial fb) (legible_initial fb)
  have line := run_line (rows font) keys (InputLine.initial fb)
  have legible := run_invariant (Gui.guiHandleKey (rows font)) Legible (legible_key (rows font)) keys _
    (legible_initial fb)
  have terminated := run_invariant (Gui.guiHandleKey (rows font)) Terminated
    (fun c g _ => terminated_key (rows font) c g) keys _ (terminated_initial fb)
  have shown : keys ≠ [] → Shows (rows font) (run (Gui.guiHandleKey (rows font)) keys (InputLine.initial fb)).line
      (run (Gui.guiHandleKey (rows font)) keys (InputLine.initial fb)).fb := by
    intro some_key
    cases keys with
    | nil => exact absurd rfl some_key
    | cons c keys =>
      exact run_invariant (Gui.guiHandleKey (rows font)) (fun g => Shows (rows font) g.line g.fb)
        (fun c g _ => key_shows (rows font) c g) keys _ (key_shows (rows font) c _)
  generalize run (Gui.guiHandleKey (rows font)) keys (InputLine.initial fb) = g at handled line legible terminated shown
  have same : (data g).line = g.line := by
    rw [InputData.line, data_inputLen]
    rfl
  refine ⟨data g, handled, same.trans line, ?_, cells_inside g legible, ?_⟩
  · rw [data_inputLen, load_inside _ _ g.inputLen.isLt]
    exact congrArg some terminated
  · rw [same]
    exact shown

end LifeOS.Gui.Machine
