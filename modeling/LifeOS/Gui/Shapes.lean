import LifeOS.Gui.Input
import LifeOS.Library.Paint
import Mathlib.Data.Set.Lattice

/-!
What the drawing functions of `gui/framebuffer.c` colour, as sets of points of an unbounded
plane of which the screen shows a part.
-/

namespace LifeOS.Gui
open LifeOS.Library.Loops LifeOS.Library.Paint LifeOS.Library.Strings

abbrev Shape := Set (Int × Int)

/-- The index belongs to a pixel of the screen inside the shape. -/
def OnScreen (shape : Shape) (k : Nat) : Prop :=
  ∃ px py : Nat, px < fbWidth ∧ py < fbHeight ∧ k = pixelIndex px py ∧ ((px : Int), (py : Int)) ∈ shape

/-- The operation colours the part of the shape on the screen and nothing else. -/
abbrev Draws (f : Frame → Frame) (shape : Shape) (color : BitVec 32) : Prop :=
  Paints (fun fb k => fb k) (fun _ => ()) f (OnScreen shape) color

def point (x y : Int) : Shape := {p | p = (x, y)}

def rectangle (x y w h : Int) : Shape := {p | (x ≤ p.1 ∧ p.1 < x + w) ∧ y ≤ p.2 ∧ p.2 < y + h}

/-- The set bits of a glyph with its corner at a point, the lowest bit on the left. -/
def glyph (font : Font) (c : Byte) (x y : Int) : Shape :=
  {p | ∃ row col : Fin 8, (font c row).getLsbD col.val = true ∧ p = (x + col.val, y + row.val)}

def textShape (font : Font) (s : List Byte) (x y : Int) : Shape :=
  {p | ∃ k, ∃ inside : k < s.length, p ∈ glyph font s[k] (x + 8 * k) y}

/-- The screen of the GUI: the line in black in the middle, and white elsewhere. -/
def Shows (font : Font) (line : List Byte) (fb : Frame) : Prop :=
  ∀ px py : Nat, px < fbWidth → py < fbHeight →
    (((px : Int), (py : Int)) ∈ textShape font line (512 - 4 * line.length) 504 →
        fb (pixelIndex px py) = 0xFF000000#32) ∧
      (((px : Int), (py : Int)) ∉ textShape font line (512 - 4 * line.length) 504 →
        fb (pixelIndex px py) = 0xFFFFFFFF#32)

theorem pixelIndex_surj (k : Nat) (inside : k < fbHeight * fbWidth) :
    ∃ px py : Nat, px < fbWidth ∧ py < fbHeight ∧ k = pixelIndex px py := by
  have few : k < 786432 := inside
  refine ⟨k % 1024, k / 1024, Nat.mod_lt _ (by decide), ?_, ?_⟩
  · change _ < 768
    omega
  · change k = k / 1024 * 1024 + k % 1024
    omega

theorem pixelIndex_inside (px py : Nat) (column : px < fbWidth) (row : py < fbHeight) :
    pixelIndex px py < fbHeight * fbWidth := by
  change px < 1024 at column
  change py < 768 at row
  change py * 1024 + px < 768 * 1024
  omega

theorem Shows.congr {font : Font} {line : List Byte} {fb other : Frame} (shows : Shows font line fb)
    (same : ∀ k < fbHeight * fbWidth, fb k = other k) : Shows font line other := by
  intro px py column row
  rw [← same _ (pixelIndex_inside px py column row)]
  exact shows px py column row

theorem Shows.unique {font : Font} {line : List Byte} {fb other : Frame} (shows : Shows font line fb)
    (again : Shows font line other) (k : Nat) (inside : k < fbHeight * fbWidth) : fb k = other k := by
  obtain ⟨px, py, column, row, rfl⟩ := pixelIndex_surj k inside
  obtain ⟨black, white⟩ := shows px py column row
  obtain ⟨black', white'⟩ := again px py column row
  by_cases text : ((px : Int), (py : Int)) ∈ textShape font line (512 - 4 * line.length) 504
  · exact (black text).trans (black' text).symm
  · exact (white text).trans (white' text).symm

def fbDrawText (font : Font) : List Byte → Int → Int → BitVec 32 → Frame → Frame
  | [], _, _, _, fb => fb
  | c :: s, x, y, color, fb => fbDrawText font s (x + 8) y color (fbDrawChar font c x y color fb)

theorem onScreen_pixel (shape : Shape) (px py : Nat) (column : px < fbWidth) (row : py < fbHeight) :
    OnScreen shape (pixelIndex px py) ↔ ((px : Int), (py : Int)) ∈ shape := by
  constructor
  · rintro ⟨qx, qy, column', _, place, member⟩
    change px < 1024 at column
    change qx < 1024 at column'
    change py * 1024 + px = qy * 1024 + qx at place
    obtain rfl : qx = px := by omega
    obtain rfl : qy = py := by omega
    exact member
  · exact fun member => ⟨px, py, column, row, rfl, member⟩

theorem not_onScreen_beyond (shape : Shape) (k : Nat) (beyond : fbHeight * fbWidth ≤ k) : ¬OnScreen shape k := by
  rintro ⟨px, py, column, row, rfl, _⟩
  change px < 1024 at column
  change py < 768 at row
  change 768 * 1024 ≤ py * 1024 + px at beyond
  omega

theorem Draws.congr {f : Frame → Frame} {shape other : Shape} {color : BitVec 32} (draws : Draws f shape color)
    (same : ∀ p, p ∈ shape ↔ p ∈ other) : Draws f other color := Set.ext same ▸ draws

theorem Draws.nothing {color : BitVec 32} : Draws (fun fb => fb) ∅ color := by
  apply Paints.nothing.congr
  intro k
  exact ⟨False.elim, fun ⟨_, _, _, _, _, never⟩ => never⟩

theorem Draws.andThen {f g : Frame → Frame} {first second : Shape} {color : BitVec 32}
    (before : Draws f first color) (behind : Draws g second color) :
    Draws (fun fb => g (f fb)) (first ∪ second) color := by
  apply (Paints.andThen before behind).congr
  intro k
  constructor
  · rintro (⟨px, py, column, row, place, member⟩ | ⟨px, py, column, row, place, member⟩)
    · exact ⟨px, py, column, row, place, Or.inl member⟩
    · exact ⟨px, py, column, row, place, Or.inr member⟩
  · rintro ⟨px, py, column, row, place, member | member⟩
    · exact Or.inl ⟨px, py, column, row, place, member⟩
    · exact Or.inr ⟨px, py, column, row, place, member⟩

theorem Draws.loop {n : Nat} {body : Fin n → Frame → Frame} {shape : Fin n → Shape} {color : BitVec 32}
    (each : ∀ i, Draws (body i) (shape i) color) :
    Draws (fun fb => forFin n body fb) (⋃ i, shape i) color := by
  apply (Paints.loop each).congr
  intro k
  constructor
  · rintro ⟨i, px, py, column, row, place, member⟩
    exact ⟨px, py, column, row, place, Set.mem_iUnion.mpr ⟨i, member⟩⟩
  · rintro ⟨px, py, column, row, place, member⟩
    obtain ⟨i, here⟩ := Set.mem_iUnion.mp member
    exact ⟨i, px, py, column, row, place, here⟩

theorem fbDrawPixel_draws (x y : Int) (color : BitVec 32) : Draws (fbDrawPixel x y color) (point x y) color := by
  have drawn (fb : Frame) (k : Nat) :
      (OnScreen (point x y) k → fbDrawPixel x y color fb k = color) ∧
        (¬OnScreen (point x y) k → fbDrawPixel x y color fb k = fb k) := by
    unfold fbDrawPixel
    by_cases clipped : x < 0 ∨ y < 0 ∨ x ≥ fbWidth ∨ y ≥ fbHeight
    · rw [if_pos clipped]
      refine ⟨?_, fun _ => rfl⟩
      rintro ⟨px, py, column, row, _, here⟩
      obtain ⟨rfl, rfl⟩ := Prod.mk.inj here
      omega
    · rw [if_neg clipped]
      constructor
      · rintro ⟨px, py, _, _, rfl, here⟩
        obtain ⟨rfl, rfl⟩ := Prod.mk.inj here
        exact setPixel_self _ color fb
      · intro away
        apply setPixel_other
        rintro rfl
        refine away ⟨x.toNat, y.toNat, by omega, by omega, rfl, ?_⟩
        exact Prod.ext (Int.toNat_of_nonneg (by omega)) (Int.toNat_of_nonneg (by omega))
  exact ⟨fun fb k => (drawn fb k).1, fun fb k => (drawn fb k).2, fun _ => rfl⟩

theorem setPixel_draws (x y : Nat) (column : x < fbWidth) (row : y < fbHeight) (color : BitVec 32) :
    Draws (setPixel (pixelIndex x y) color) (point x y) color := by
  have pixel := fbDrawPixel_draws x y color
  have shown : fbDrawPixel x y color = setPixel (pixelIndex x y) color := by
    funext fb
    unfold fbDrawPixel
    rw [if_neg (by omega), Int.toNat_natCast, Int.toNat_natCast]
  rw [shown] at pixel
  exact pixel

theorem fbClear_draws (color : BitVec 32) : Draws (fbClear color) (rectangle 0 0 fbWidth fbHeight) color := by
  have rows (y : Fin fbHeight) := Draws.loop (fun x : Fin fbWidth => setPixel_draws x.val y.val x.isLt y.isLt color)
  apply (Draws.loop rows).congr
  rintro ⟨px, py⟩
  simp only [Set.mem_iUnion, point, rectangle, Set.mem_ofPred_eq, Prod.mk.injEq]
  constructor
  · rintro ⟨y, x, rfl, rfl⟩
    omega
  · rintro ⟨⟨left, right⟩, top, bottom⟩
    exact ⟨⟨py.toNat, by omega⟩, ⟨px.toNat, by omega⟩, by dsimp only; omega, by dsimp only; omega⟩

theorem fbDrawRect_draws (x y w h : Int) (color : BitVec 32) :
    Draws (fbDrawRect x y w h color) (rectangle x y w h) color := by
  have rows (j : Fin h.toNat) := Draws.loop (fun i : Fin w.toNat => fbDrawPixel_draws (x + i.val) (y + j.val) color)
  apply (Draws.loop rows).congr
  rintro ⟨px, py⟩
  simp only [Set.mem_iUnion, point, rectangle, Set.mem_ofPred_eq, Prod.mk.injEq]
  constructor
  · rintro ⟨j, i, rfl, rfl⟩
    omega
  · rintro ⟨⟨left, right⟩, top, bottom⟩
    exact ⟨⟨(py - y).toNat, by omega⟩, ⟨(px - x).toNat, by omega⟩, by dsimp only; omega, by dsimp only; omega⟩

theorem bit_test (bits : Byte) (col : Fin 8) : bits &&& (1#8 <<< col.val) ≠ 0#8 ↔ bits.getLsbD col.val = true := by
  have all : ∀ (bits : Byte) (col : Fin 8), bits &&& (1#8 <<< col.val) ≠ 0#8 ↔ bits.getLsbD col.val = true := by
    decide +kernel
  exact all bits col

theorem fbDrawChar_draws (font : Font) (c : Byte) (x y : Int) (color : BitVec 32) :
    Draws (fbDrawChar font c x y color) (glyph font c x y) color := by
  have bits (row col : Fin 8) : Draws
      (fun fb =>
        if font c row &&& (1#8 <<< col.val) ≠ 0#8 then fbDrawPixel (x + col.val) (y + row.val) color fb else fb)
      {p | (font c row).getLsbD col.val = true ∧ p = (x + col.val, y + row.val)} color := by
    by_cases bit : font c row &&& (1#8 <<< col.val) ≠ 0#8
    · simp only [if_pos bit]
      apply (fbDrawPixel_draws (x + col.val) (y + row.val) color).congr
      intro p
      exact ⟨fun here => ⟨(bit_test _ _).mp bit, here⟩, fun both => both.2⟩
    · simp only [if_neg bit]
      apply Draws.nothing.congr
      intro p
      exact ⟨fun never => never.elim, fun both => bit ((bit_test _ _).mpr both.1)⟩
  apply (Draws.loop (fun row => Draws.loop (bits row))).congr
  intro p
  simp only [Set.mem_iUnion, Set.mem_ofPred_eq, glyph]

theorem fbDrawText_draws (font : Font) (s : List Byte) (x y : Int) (color : BitVec 32) :
    Draws (fbDrawText font s x y color) (textShape font s x y) color := by
  induction s generalizing x with
  | nil =>
    apply Draws.nothing.congr
    intro p
    exact ⟨fun never => never.elim, fun ⟨k, inside, _⟩ => absurd inside (Nat.not_lt_zero k)⟩
  | cons c s ih =>
    apply (Draws.andThen (fbDrawChar_draws font c x y color) (ih (x + 8))).congr
    intro p
    constructor
    · rintro (first | ⟨k, inside, member⟩)
      · exact ⟨0, Nat.succ_pos _, by simpa using first⟩
      · refine ⟨k + 1, Nat.succ_lt_succ inside, ?_⟩
        rw [show x + 8 * ((k + 1 : Nat) : Int) = x + 8 + 8 * k by omega]
        exact member
    · rintro ⟨k, inside, member⟩
      cases k with
      | zero => exact Or.inl (by simpa using member)
      | succ k =>
        refine Or.inr ⟨k, Nat.lt_of_succ_lt_succ inside, ?_⟩
        rw [show x + 8 + 8 * (k : Int) = x + 8 * ((k + 1 : Nat) : Int) by omega]
        exact member

end LifeOS.Gui
