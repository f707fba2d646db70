import Mathlib.Data.List.GetD
import LifeOS.Gui.Line

/-!
The font of `gui/font8x8_basic.h`. Its visible characters have distinct glyphs, so a line
that the GUI has drawn can be read back from the framebuffer.
-/

namespace LifeOS.Gui
open LifeOS.Library.Strings

def visibleGlyphs : List (List Nat) :=
  [[0x00, 0x00, 0x00, 0x00, 0x00, 0x00, 0x00, 0x00], [0x18, 0x3C, 0x3C, 0x18, 0x18, 0x00, 0x18, 0x00],
    [0x36, 0x36, 0x00, 0x00, 0x00, 0x00, 0x00, 0x00], [0x36, 0x36, 0x7F, 0x36, 0x7F, 0x36, 0x36, 0x00],
    [0x0C, 0x3E, 0x03, 0x1E, 0x30, 0x1F, 0x0C, 0x00], [0x00, 0x63, 0x33, 0x18, 0x0C, 0x66, 0x63, 0x00],
    [0x1C, 0x36, 0x1C, 0x6E, 0x3B, 0x33, 0x6E, 0x00], [0x06, 0x06, 0x03, 0x00, 0x00, 0x00, 0x00, 0x00],
    [0x18, 0x0C, 0x06, 0x06, 0x06, 0x0C, 0x18, 0x00], [0x06, 0x0C, 0x18, 0x18, 0x18, 0x0C, 0x06, 0x00],
    [0x00, 0x66, 0x3C, 0xFF, 0x3C, 0x66, 0x00, 0x00], [0x00, 0x0C, 0x0C, 0x3F, 0x0C, 0x0C, 0x00, 0x00],
    [0x00, 0x00, 0x00, 0x00, 0x00, 0x0C, 0x0C, 0x06], [0x00, 0x00, 0x00, 0x3F, 0x00, 0x00, 0x00, 0x00],
    [0x00, 0x00, 0x00, 0x00, 0x00, 0x0C, 0x0C, 0x00], [0x60, 0x30, 0x18, 0x0C, 0x06, 0x03, 0x01, 0x00],
    [0x3E, 0x63, 0x73, 0x7B, 0x6F, 0x67, 0x3E, 0x00], [0x0C, 0x0E, 0x0C, 0x0C, 0x0C, 0x0C, 0x3F, 0x00],
    [0x1E, 0x33, 0x30, 0x1C, 0x06, 0x33, 0x3F, 0x00], [0x1E, 0x33, 0x30, 0x1C, 0x30, 0x33, 0x1E, 0x00],
    [0x38, 0x3C, 0x36, 0x33, 0x7F, 0x30, 0x78, 0x00], [0x3F, 0x03, 0x1F, 0x30, 0x30, 0x33, 0x1E, 0x00],
    [0x1C, 0x06, 0x03, 0x1F, 0x33, 0x33, 0x1E, 0x00], [0x3F, 0x33, 0x30, 0x18, 0x0C, 0x0C, 0x0C, 0x00],
    [0x1E, 0x33, 0x33, 0x1E, 0x33, 0x33, 0x1E, 0x00], [0x1E, 0x33, 0x33, 0x3E, 0x30, 0x18, 0x0E, 0x00],
    [0x00, 0x0C, 0x0C, 0x00, 0x00, 0x0C, 0x0C, 0x00], [0x00, 0x0C, 0x0C, 0x00, 0x00, 0x0C, 0x0C, 0x06],
    [0x18, 0x0C, 0x06, 0x03, 0x06, 0x0C, 0x18, 0x00], [0x00, 0x00, 0x3F, 0x00, 0x00, 0x3F, 0x00, 0x00],
    [0x06, 0x0C, 0x18, 0x30, 0x18, 0x0C, 0x06, 0x00], [0x1E, 0x33, 0x30, 0x18, 0x0C, 0x00, 0x0C, 0x00],
    [0x3E, 0x63, 0x7B, 0x7B, 0x7B, 0x03, 0x1E, 0x00], [0x0C, 0x1E, 0x33, 0x33, 0x3F, 0x33, 0x33, 0x00],
    [0x3F, 0x66, 0x66, 0x3E, 0x66, 0x66, 0x3F, 0x00], [0x3C, 0x66, 0x03, 0x03, 0x03, 0x66, 0x3C, 0x00],
    [0x1F, 0x36, 0x66, 0x66, 0x66, 0x36, 0x1F, 0x00], [0x7F, 0x46, 0x16, 0x1E, 0x16, 0x46, 0x7F, 0x00],
    [0x7F, 0x46, 0x16, 0x1E, 0x16, 0x06, 0x0F, 0x00], [0x3C, 0x66, 0x03, 0x03, 0x73, 0x66, 0x7C, 0x00],
    [0x33, 0x33, 0x33, 0x3F, 0x33, 0x33, 0x33, 0x00], [0x1E, 0x0C, 0x0C, 0x0C, 0x0C, 0x0C, 0x1E, 0x00],
    [0x78, 0x30, 0x30, 0x30, 0x33, 0x33, 0x1E, 0x00], [0x67, 0x66, 0x36, 0x1E, 0x36, 0x66, 0x67, 0x00],
    [0x0F, 0x06, 0x06, 0x06, 0x46, 0x66, 0x7F, 0x00], [0x63, 0x77, 0x7F, 0x7F, 0x6B, 0x63, 0x63, 0x00],
    [0x63, 0x67, 0x6F, 0x7B, 0x73, 0x63, 0x63, 0x00], [0x1C, 0x36, 0x63, 0x63, 0x63, 0x36, 0x1C, 0x00],
    [0x3F, 0x66, 0x66, 0x3E, 0x06, 0x06, 0x0F, 0x00], [0x1E, 0x33, 0x33, 0x33, 0x3B, 0x1E, 0x38, 0x00],
    [0x3F, 0x66, 0x66, 0x3E, 0x36, 0x66, 0x67, 0x00], [0x1E, 0x33, 0x07, 0x0E, 0x38, 0x33, 0x1E, 0x00],
    [0x3F, 0x2D, 0x0C, 0x0C, 0x0C, 0x0C, 0x1E, 0x00], [0x33, 0x33, 0x33, 0x33, 0x33, 0x33, 0x3F, 0x00],
    [0x33, 0x33, 0x33, 0x33, 0x33, 0x1E, 0x0C, 0x00], [0x63, 0x63, 0x63, 0x6B, 0x7F, 0x77, 0x63, 0x00],
    [0x63, 0x63, 0x36, 0x1C, 0x1C, 0x36, 0x63, 0x00], [0x33, 0x33, 0x33, 0x1E, 0x0C, 0x0C, 0x1E, 0x00],
    [0x7F, 0x63, 0x31, 0x18, 0x4C, 0x66, 0x7F, 0x00], [0x1E, 0x06, 0x06, 0x06, 0x06, 0x06, 0x1E, 0x00],
    [0x03, 0x06, 0x0C, 0x18, 0x30, 0x60, 0x40, 0x00], [0x1E, 0x18, 0x18, 0x18, 0x18, 0x18, 0x1E, 0x00],
    [0x08, 0x1C, 0x36, 0x63, 0x00, 0x00, 0x00, 0x00], [0x00, 0x00, 0x00, 0x00, 0x00, 0x00, 0x00, 0xFF],
    [0x0C, 0x0C, 0x18, 0x00, 0x00, 0x00, 0x00, 0x00], [0x00, 0x00, 0x1E, 0x30, 0x3E, 0x33, 0x6E, 0x00],
    [0x07, 0x06, 0x06, 0x3E, 0x66, 0x66, 0x3B, 0x00], [0x00, 0x00, 0x1E, 0x33, 0x03, 0x33, 0x1E, 0x00],
    [0x38, 0x30, 0x30, 0x3E, 0x33, 0x33, 0x6E, 0x00], [0x00, 0x00, 0x1E, 0x33, 0x3F, 0x03, 0x1E, 0x00],
    [0x1C, 0x36, 0x06, 0x0F, 0x06, 0x06, 0x0F, 0x00], [0x00, 0x00, 0x6E, 0x33, 0x33, 0x3E, 0x30, 0x1F],
    [0x07, 0x06, 0x36, 0x6E, 0x66, 0x66, 0x67, 0x00], [0x0C, 0x00, 0x0E, 0x0C, 0x0C, 0x0C, 0x1E, 0x00],
    [0x30, 0x00, 0x30, 0x30, 0x30, 0x33, 0x33, 0x1E], [0x07, 0x06, 0x66, 0x36, 0x1E, 0x36, 0x67, 0x00],
    [0x0E, 0x0C, 0x0C, 0x0C, 0x0C, 0x0C, 0x1E, 0x00], [0x00, 0x00, 0x33, 0x7F, 0x7F, 0x6B, 0x63, 0x00],
    [0x00, 0x00, 0x1F, 0x33, 0x33, 0x33, 0x33, 0x00], [0x00, 0x00, 0x1E, 0x33, 0x33, 0x33, 0x1E, 0x00],
    [0x00, 0x00, 0x3B, 0x66, 0x66, 0x3E, 0x06, 0x0F], [0x00, 0x00, 0x6E, 0x33, 0x33, 0x3E, 0x30, 0x78],
    [0x00, 0x00, 0x3B, 0x6E, 0x66, 0x06, 0x0F, 0x00], [0x00, 0x00, 0x3E, 0x03, 0x1E, 0x30, 0x1F, 0x00],
    [0x08, 0x0C, 0x3E, 0x0C, 0x0C, 0x2C, 0x18, 0x00], [0x00, 0x00, 0x33, 0x33, 0x33, 0x33, 0x6E, 0x00],
    [0x00, 0x00, 0x33, 0x33, 0x33, 0x1E, 0x0C, 0x00], [0x00, 0x00, 0x63, 0x6B, 0x7F, 0x7F, 0x36, 0x00],
    [0x00, 0x00, 0x63, 0x36, 0x1C, 0x36, 0x63, 0x00], [0x00, 0x00, 0x33, 0x33, 0x33, 0x3E, 0x30, 0x1F],
    [0x00, 0x00, 0x3F, 0x19, 0x0C, 0x26, 0x3F, 0x00], [0x38, 0x0C, 0x0C, 0x07, 0x0C, 0x0C, 0x38, 0x00],
    [0x18, 0x18, 0x18, 0x00, 0x18, 0x18, 0x18, 0x00], [0x07, 0x0C, 0x0C, 0x38, 0x0C, 0x0C, 0x07, 0x00],
    [0x6E, 0x3B, 0x00, 0x00, 0x00, 0x00, 0x00, 0x00], [0x00, 0x00, 0x00, 0x00, 0x00, 0x00, 0x00, 0x00]]

/-- `font8x8_basic`: the 32 control characters are blank. -/
def font8x8Basic : Machine.Glyphs :=
  Vector.ofFn fun c => Vector.ofFn fun row =>
    if c.val < 32 then 0#8 else BitVec.ofNat 8 ((visibleGlyphs.getD (c.val - 32) []).getD row.val 0)

theorem get_ofFn {α : Type} {n : Nat} (f : Fin n → α) (i : Fin n) : (Vector.ofFn f).get i = f i :=
  Vector.getElem_ofFn i.isLt

theorem rows_font8x8Basic (c : Byte) (row : Fin 8) (visible : 0x20 ≤ c.toNat ∧ c.toNat < 0x80) :
    Machine.rows font8x8Basic c row =
      BitVec.ofNat 8 ((visibleGlyphs.getD (c.toNat - 32) []).getD row.val 0) := by
  unfold Machine.rows font8x8Basic
  rw [dif_pos visible.2, get_ofFn, get_ofFn]
  exact if_neg (by dsimp only; omega)

def Printable (c : Byte) : Prop := 0x20 ≤ c.toNat ∧ c.toNat < 0x7F

def printables : List Byte := (List.range 95).map fun i => BitVec.ofNat 8 (0x20 + i)

theorem mem_printables (c : Byte) : c ∈ printables ↔ Printable c := by
  unfold printables Printable
  rw [List.mem_map]
  constructor
  · rintro ⟨i, inside, rfl⟩
    rw [List.mem_range] at inside
    rw [BitVec.toNat_ofNat]
    omega
  · intro bounds
    refine ⟨c.toNat - 32, List.mem_range.mpr (by omega), ?_⟩
    apply BitVec.eq_of_toNat_eq
    rw [BitVec.toNat_ofNat]
    omega

theorem glyph_bytes : ∀ glyph ∈ visibleGlyphs, glyph.length = 8 ∧ ∀ bits ∈ glyph, bits < 256 := by
  decide +kernel

/-- The glyphs from the space to the tilde; the one of character 127 is that of the space. -/
theorem glyphs_nodup : (visibleGlyphs.take 95).Nodup := by
  decide +kernel

theorem printable_eq_of_rows {c d : Byte} (visible : Printable c) (other : Printable d)
    (same : ∀ row, Machine.rows font8x8Basic c row = Machine.rows font8x8Basic d row) : c = d := by
  have count : visibleGlyphs.length = 96 := rfl
  obtain ⟨low, high⟩ := visible
  obtain ⟨low', high'⟩ := other
  have first : c.toNat - 32 < visibleGlyphs.length := by omega
  have second : d.toNat - 32 < visibleGlyphs.length := by omega
  obtain ⟨size, small⟩ := glyph_bytes _ (List.getElem_mem first)
  obtain ⟨size', small'⟩ := glyph_bytes _ (List.getElem_mem second)
  have glyphs : visibleGlyphs[c.toNat - 32] = visibleGlyphs[d.toNat - 32] := by
    apply List.ext_getElem (size.trans size'.symm)
    intro row inside inside'
    have here := congrArg BitVec.toNat (same ⟨row, size ▸ inside⟩)
    rw [rows_font8x8Basic c _ (by omega), rows_font8x8Basic d _ (by omega), BitVec.toNat_ofNat,
      BitVec.toNat_ofNat, List.getD_eq_getElem _ _ first, List.getD_eq_getElem _ _ second,
      List.getD_eq_getElem _ _ inside, List.getD_eq_getElem _ _ inside'] at here
    have bits := small _ (List.getElem_mem inside)
    have bits' := small' _ (List.getElem_mem inside')
    omega
  have place : c.toNat - 32 = d.toNat - 32 := by
    have inside : c.toNat - 32 < (visibleGlyphs.take 95).length := by rw [List.length_take]; omega
    have inside' : d.toNat - 32 < (visibleGlyphs.take 95).length := by rw [List.length_take]; omega
    have taken : (visibleGlyphs.take 95)[c.toNat - 32] = (visibleGlyphs.take 95)[d.toNat - 32] := by
      rw [List.getElem_take, List.getElem_take]
      exact glyphs
    exact glyphs_nodup.getElem_inj_iff.mp taken
  exact BitVec.eq_of_toNat_eq (by omega)

def Matches (fb : Frame) (x : Nat) (c : Byte) : Prop :=
  ∀ row col : Fin 8, (Machine.rows font8x8Basic c row).getLsbD col.val = true ↔
    fb (pixelIndex (x + col.val) (504 + row.val)) = 0xFF000000#32

instance (fb : Frame) (x : Nat) (c : Byte) : Decidable (Matches fb x c) :=
  inferInstanceAs (Decidable (∀ _ _ : Fin 8, _ ↔ _))

def readCell (fb : Frame) (x : Nat) : Option Byte := printables.find? (fun c => Matches fb x c)

def readCells (fb : Frame) : Nat → Nat → Option (List Byte)
  | 0, _ => some []
  | n + 1, x => (readCell fb x).bind fun c => (readCells fb n (x + 8)).map (c :: ·)

def readLine (n : Nat) (fb : Frame) : Option (List Byte) := readCells fb n (512 - 4 * n)

theorem readCell_eq (fb : Frame) (x : Nat) (c : Byte) (visible : Printable c) (shown : Matches fb x c) :
    readCell fb x = some c := by
  have present : (readCell fb x).isSome := by
    unfold readCell
    rw [List.find?_isSome]
    exact ⟨c, (mem_printables c).mpr visible, decide_eq_true shown⟩
  obtain ⟨d, found⟩ := Option.isSome_iff_exists.mp present
  have drawn := List.find?_some found
  rw [decide_eq_true_eq] at drawn
  have member := (mem_printables d).mp (List.mem_of_find?_eq_some found)
  have same : d = c := by
    apply printable_eq_of_rows member visible
    intro row
    apply BitVec.eq_of_getLsbD_eq
    intro col inside
    exact Bool.eq_iff_iff.mpr ((drawn row ⟨col, inside⟩).trans (shown row ⟨col, inside⟩).symm)
  rw [found, same]

theorem readCells_eq (fb : Frame) (line : List Byte) (x : Nat) (visible : ∀ c ∈ line, Printable c)
    (shown : ∀ i, ∀ inside : i < line.length, Matches fb (x + 8 * i) (line)[i]) :
    readCells fb line.length x = some line := by
  induction line generalizing x with
  | nil => rfl
  | cons c line ih =>
    have here := shown 0 (Nat.zero_lt_succ _)
    rw [Nat.mul_zero, Nat.add_zero] at here
    have first := readCell_eq fb x c (visible c List.mem_cons_self) here
    have others := ih (x + 8) (fun d member => visible d (List.mem_cons_of_mem c member)) (by
      intro i inside
      have next := shown (i + 1) (Nat.succ_lt_succ inside)
      rw [show x + 8 + 8 * i = x + 8 * (i + 1) by omega]
      exact next)
    rw [List.length_cons, readCells, first, Option.bind_some, others]
    rfl

/-- A pixel of the cell of the character `i` belongs to the text exactly by the glyph of this character. -/
theorem mem_textShape_cell (font : Font) (line : List Byte) (x y : Int) (i : Nat) (inside : i < line.length)
    (row col : Fin 8) :
    (x + 8 * i + col.val, y + row.val) ∈ textShape font line x y ↔ (font (line)[i] row).getLsbD col.val = true := by
  unfold textShape glyph
  simp only [Set.mem_ofPred_eq, Prod.mk.injEq]
  constructor
  · rintro ⟨k, _, row', col', bit, across, down⟩
    obtain rfl : k = i := by omega
    obtain rfl : row' = row := Fin.ext (by omega)
    obtain rfl : col' = col := Fin.ext (by omega)
    exact bit
  · intro bit
    exact ⟨i, inside, row, col, bit, rfl, rfl⟩

theorem readLine_of_shows (line : List Byte) (fb : Frame) (short : line.length < 128)
    (visible : ∀ c ∈ line, Printable c) (shown : Shows (Machine.rows font8x8Basic) line fb) :
    readLine line.length fb = some line := by
  apply readCells_eq fb line _ visible
  intro i inside row col
  have pixel := shown (512 - 4 * line.length + 8 * i + col.val) (504 + row.val)
    (by change _ < 1024; omega) (by change _ < 768; omega)
  have place : (((512 - 4 * line.length + 8 * i + col.val : Nat) : Int), ((504 + row.val : Nat) : Int)) =
      ((512 - 4 * line.length : Int) + 8 * i + col.val, (504 : Int) + row.val) :=
    Prod.ext (by dsimp only; omega) (by dsimp only; omega)
  rw [place, mem_textShape_cell (Machine.rows font8x8Basic) line _ 504 i inside row col] at pixel
  constructor
  · exact pixel.1
  · intro black
    by_contra white
    exact absurd (black.symm.trans (pixel.2 white)) (by decide)

end LifeOS.Gui
