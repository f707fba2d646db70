import LifeOS.Library.Paint
import LifeOS.Library.Runs
import LifeOS.Console.Cells
import LifeOS.Hmi.Layout

/-!
The drawing of the panes: printed through a terminal that wraps and scrolls, the lines
still tile the screen and nothing scrolls away.
-/

namespace LifeOS.Hmi
open LifeOS.Console LifeOS.Library.Loops LifeOS.Library.Paint LifeOS.Library.Runs
  LifeOS.Library.Strings

def chars (t : Text) (place : Fin 25 × Fin 80) : Byte := charOf (t.screen place.1 place.2)

theorem chars_store (t : Text) (y : Fin 25) (x : Fin 80) (ch : Byte) (place : Fin 25 × Fin 80) :
    chars (t.store y x (cellOf ch)) place = if place = (y, x) then ch else chars t place := by
  obtain ⟨row, column⟩ := place
  unfold chars Text.store
  dsimp only
  by_cases here : row = y
  · rw [here, Function.update_self]
    by_cases there : column = x
    · rw [there, Function.update_self, if_pos rfl, charOf_cellOf]
    · rw [Function.update_of_ne there, if_neg (fun same => there (Prod.mk.inj same).2)]
  · rw [Function.update_of_ne here, if_neg (fun same => here (Prod.mk.inj same).1)]

theorem print_paints (x y : BitVec 8) (ch : Byte) (visible : ch ≠ newline ∧ ch ≠ backspace)
    (column : x.toNat + 1 < 80) (row : y.toNat < 25) :
    Paints chars Text.lines (fun t => (t.setCursor x y).putc ch)
      (fun place => place.1.val = y.toNat ∧ place.2.val = x.toNat) ch := by
  have printed (t : Text) (place : Fin 25 × Fin 80) : chars ((t.setCursor x y).putc ch) place =
      if place = (⟨y.toNat, row⟩, ⟨x.toNat, by omega⟩) then ch else chars t place := by
    rw [setCursor_inside t x y (by omega) row, putc_inside _ ch visible column]
    exact chars_store _ _ _ ch place
  have region (place : Fin 25 × Fin 80) :
      place.1.val = y.toNat ∧ place.2.val = x.toNat ↔ place = (⟨y.toNat, row⟩, ⟨x.toNat, by omega⟩) := by
    simp only [Prod.ext_iff, Fin.ext_iff]
  refine ⟨?_, ?_, ?_⟩
  · intro t place member
    rw [printed, if_pos ((region place).mp member)]
  · intro t place never
    rw [printed, if_neg (fun same => never ((region place).mpr same))]
  · intro t
    rw [setCursor_inside t x y (by omega) row, putc_inside _ ch visible column]
    rfl

/-- Eighty characters from the start of a row fill it; the wrap behind the last one stays on
the screen. -/
theorem row_paints (y : BitVec 8) (ch : Byte) (visible : ch ≠ newline ∧ ch ≠ backspace)
    (below : y.toNat + 1 < 25) :
    Paints chars Text.lines (fun t => forFin 80 (fun _ t => t.putc ch) (t.setCursor 0#8 y))
      (fun place => place.1.val = y.toNat) ch := by
  have filled (t : Text) := forFin_invariant 80 (fun _ (t : Text) => t.putc ch)
    (fun m u => (∀ place : Fin 25 × Fin 80, chars u place =
        if place.1.val = y.toNat ∧ place.2.val < m then ch else chars t place) ∧
      u.lines = t.lines ∧ (m < 80 → u.x.val = m ∧ u.y.val = y.toNat)) (t.setCursor 0#8 y)
    (by
      rw [setCursor_inside t 0#8 y (by decide) (by omega)]
      exact ⟨fun place => (if_neg (by omega)).symm, rfl, fun _ => ⟨rfl, rfl⟩⟩)
    (by
      intro i u ⟨shown, kept, cursor⟩
      obtain ⟨column, row⟩ := cursor i.isLt
      have stored (place : Fin 25 × Fin 80) : chars (u.store u.y u.x (cellOf ch)) place =
          if place.1.val = y.toNat ∧ place.2.val < i.val + 1 then ch else chars t place := by
        rw [chars_store, shown]
        by_cases here : place = (u.y, u.x)
        · rw [if_pos here, here, if_pos ⟨row, show u.x.val < i.val + 1 by omega⟩]
        · have apart : ¬(place.1.val = y.toNat ∧ place.2.val = i.val) := by
            intro ⟨same, same'⟩
            exact here (Prod.ext (Fin.ext (same.trans row.symm)) (Fin.ext (same'.trans column.symm)))
          rw [if_neg here]
          have before : (place.1.val = y.toNat ∧ place.2.val < i.val + 1) ↔
              (place.1.val = y.toNat ∧ place.2.val < i.val) := by omega
          simp only [before]
      by_cases inside : u.x.val + 1 < 80
      · rw [putc_inside u ch visible inside]
        exact ⟨stored, kept, fun _ => ⟨congrArg (· + 1) column, row⟩⟩
      · rw [putc_edge u ch visible inside (by omega)]
        exact ⟨stored, kept, fun more => absurd more (by omega)⟩)
  refine ⟨?_, ?_, fun t => (filled t).2.1⟩
  · intro t place member
    exact ((filled t).1 place).trans (if_pos ⟨member, place.2.isLt⟩)
  · intro t place never
    exact ((filled t).1 place).trans (if_neg (fun both => never both.1))

/-- The column where pane `i` of the width starts, and the row for the height. -/
def columnEdge (p : Panes) (i : Nat) : Nat := edge 80#32 p.width i

def rowEdge (p : Panes) (i : Nat) : Nat := edge 25#32 p.height i

def OnColumn (p : Panes) (x : Nat) : Prop := ∃ i, 0 < i ∧ i < p.width.grid ∧ x = columnEdge p i

def OnRow (p : Panes) (y : Nat) : Prop := ∃ i, 0 < i ∧ i < p.height.grid ∧ y = rowEdge p i

def columnArg (p : Panes) (i : Fin (p.width.grid - 1)) : BitVec 8 :=
  (boundary p.width (positions p.width (layoutAxis 80#32 p.width (fun _ => 0#32))) i).setWidth 8

def rowArg (p : Panes) (j : Fin (p.height.grid - 1)) : BitVec 8 :=
  (boundary p.height (positions p.height (layoutAxis 25#32 p.height (fun _ => 0#32))) j).setWidth 8

theorem columnArg_toNat (p : Panes) (i : Fin (p.width.grid - 1)) :
    (columnArg p i).toNat = columnEdge p (i.val + 1) ∧ columnEdge p (i.val + 1) + 1 < 80 := by
  obtain ⟨place, few⟩ := (laidOut_columns p.width).boundaries i
  refine ⟨?_, few⟩
  unfold columnArg columnEdge
  rw [BitVec.toNat_setWidth, place]
  exact Nat.mod_eq_of_lt (by change _ + 1 < 80 at few; omega)

theorem rowArg_toNat (p : Panes) (j : Fin (p.height.grid - 1)) :
    (rowArg p j).toNat = rowEdge p (j.val + 1) ∧ rowEdge p (j.val + 1) + 1 < 25 := by
  obtain ⟨place, few⟩ := (laidOut_rows p.height).boundaries j
  refine ⟨?_, few⟩
  unfold rowArg rowEdge
  rw [BitVec.toNat_setWidth, place]
  exact Nat.mod_eq_of_lt (by change _ + 1 < 25 at few; omega)

theorem onColumn_iff (p : Panes) (x : Nat) :
    OnColumn p x ↔ ∃ i : Fin (p.width.grid - 1), x = (columnArg p i).toNat := by
  constructor
  · intro ⟨i, positive, inside, place⟩
    refine ⟨⟨i - 1, by omega⟩, ?_⟩
    rw [(columnArg_toNat p _).1, place, Nat.sub_add_cancel positive]
  · intro ⟨i, place⟩
    exact ⟨i.val + 1, by omega, by omega, place.trans (columnArg_toNat p i).1⟩

theorem onRow_iff (p : Panes) (y : Nat) :
    OnRow p y ↔ ∃ j : Fin (p.height.grid - 1), y = (rowArg p j).toNat := by
  constructor
  · intro ⟨j, positive, inside, place⟩
    refine ⟨⟨j - 1, by omega⟩, ?_⟩
    rw [(rowArg_toNat p _).1, place, Nat.sub_add_cancel positive]
  · intro ⟨j, place⟩
    exact ⟨j.val + 1, by omega, by omega, place.trans (rowArg_toNat p j).1⟩

def verticals (p : Panes) (t : Text) : Text :=
  forFin (p.width.grid - 1) (fun i t =>
    forFin 25 (fun y t => (t.setCursor (columnArg p i) (BitVec.ofNat 8 y.val)).putc lineVert) t) t

def horizontals (p : Panes) (t : Text) : Text :=
  forFin (p.height.grid - 1) (fun j t =>
    forFin 80 (fun _ t => t.putc lineHorz) (t.setCursor 0#8 (rowArg p j))) t

def crosses (p : Panes) (t : Text) : Text :=
  forFin (p.width.grid - 1) (fun i t =>
    forFin (p.height.grid - 1) (fun j t => (t.setCursor (columnArg p i) (rowArg p j)).putc lineCross) t) t

theorem verticals_paints (p : Panes) :
    Paints chars Text.lines (verticals p) (fun place => OnColumn p place.2.val) lineVert := by
  have columns (i : Fin (p.width.grid - 1)) := Paints.loop (fun y : Fin 25 =>
    print_paints (columnArg p i) (BitVec.ofNat 8 y.val) lineVert (by decide)
      (by rw [(columnArg_toNat p i).1]; exact (columnArg_toNat p i).2)
      (by rw [BitVec.toNat_ofNat]; omega))
  apply (Paints.loop columns).congr
  intro place
  rw [onColumn_iff]
  constructor
  · intro ⟨i, _, _, column⟩
    exact ⟨i, column⟩
  · intro ⟨i, column⟩
    refine ⟨i, place.1, ?_, column⟩
    rw [BitVec.toNat_ofNat]
    omega

theorem horizontals_paints (p : Panes) :
    Paints chars Text.lines (horizontals p) (fun place => OnRow p place.1.val) lineHorz := by
  have rows (j : Fin (p.height.grid - 1)) := row_paints (rowArg p j) lineHorz (by decide)
    (by rw [(rowArg_toNat p j).1]; exact (rowArg_toNat p j).2)
  apply (Paints.loop rows).congr
  intro place
  rw [onRow_iff]

theorem crosses_paints (p : Panes) :
    Paints chars Text.lines (crosses p) (fun place => OnRow p place.1.val ∧ OnColumn p place.2.val)
      lineCross := by
  have corners (i : Fin (p.width.grid - 1)) := Paints.loop (fun j : Fin (p.height.grid - 1) =>
    print_paints (columnArg p i) (rowArg p j) lineCross (by decide)
      (by rw [(columnArg_toNat p i).1]; exact (columnArg_toNat p i).2)
      (by have few := rowArg_toNat p j; omega))
  apply (Paints.loop corners).congr
  intro place
  rw [onColumn_iff, onRow_iff]
  constructor
  · intro ⟨i, j, row, column⟩
    exact ⟨⟨j, row⟩, ⟨i, column⟩⟩
  · intro ⟨⟨j, row⟩, ⟨i, column⟩⟩
    exact ⟨i, j, row, column⟩

theorem activeColumn_inside (p : Panes) : p.width.active < p.width.grid := p.width.inside

theorem activeRow_inside (p : Panes) : p.height.active < p.height.grid := p.height.inside

def cornerX (p : Panes) : BitVec 8 :=
  (positions p.width (layoutAxis 80#32 p.width (fun _ => 0#32))
    (entry p.width ⟨p.width.active, activeColumn_inside p⟩) + 1#32).setWidth 8

def cornerY (p : Panes) : BitVec 8 :=
  (positions p.height (layoutAxis 25#32 p.height (fun _ => 0#32))
    (entry p.height ⟨p.height.active, activeRow_inside p⟩) + 1#32).setWidth 8

theorem cornerX_toNat (p : Panes) :
    (cornerX p).toNat = columnEdge p p.width.active + 1 ∧ columnEdge p p.width.active + 1 < 80 := by
  obtain ⟨place, few⟩ := (laidOut_columns p.width).start
  refine ⟨?_, few⟩
  change _ + 1 < 80 at few
  unfold cornerX columnEdge
  rw [BitVec.toNat_setWidth, BitVec.toNat_add, place]
  change (_ + 1) % 2 ^ 32 % 2 ^ 8 = _
  omega

theorem cornerY_toNat (p : Panes) :
    (cornerY p).toNat = rowEdge p p.height.active + 1 ∧ rowEdge p p.height.active + 1 < 25 := by
  obtain ⟨place, few⟩ := (laidOut_rows p.height).start
  refine ⟨?_, few⟩
  change _ + 1 < 25 at few
  unfold cornerY rowEdge
  rw [BitVec.toNat_setWidth, BitVec.toNat_add, place]
  change (_ + 1) % 2 ^ 32 % 2 ^ 8 = _
  omega

/-- The drawing acts on the text as the three loops and the final move of the cursor. -/
theorem textOf_drawLines (p : Panes) (c : ConsoleState) :
    textOf (drawLines p c) =
      (crosses p (horizontals p (verticals p (textOf c)))).setCursor (cornerX p) (cornerY p) := by
  have printed (x y : BitVec 8) (ch : Byte) (d : ConsoleState) :
      textOf (consolePutc ch (consoleSetCursor x y d)) = ((textOf d).setCursor x y).putc ch := by
    rw [textOf_consolePutc, textOf_consoleSetCursor]
  unfold drawLines
  rw [textOf_consoleSetCursor]
  congr 1
  apply forFin_map textOf
  · apply forFin_map textOf
    · apply forFin_map textOf _ _ _ _ _ rfl
      exact fun i d => forFin_map textOf _ _ _ _ _ rfl (fun y d => printed _ _ _ d)
    · intro j d
      apply forFin_map textOf _ _ _ _ _ (textOf_consoleSetCursor _ _ d)
      exact fun _ d => textOf_consolePutc _ d
  · exact fun i d => forFin_map textOf _ _ _ _ _ rfl (fun j d => printed _ _ _ d)

structure Tiled (p : Panes) (c : ConsoleState) : Prop where
  cross : ∀ y x, OnRow p y.val → OnColumn p x.val → charOf (c.screenBuffer y x) = lineCross
  vertical : ∀ y x, ¬OnRow p y.val → OnColumn p x.val → charOf (c.screenBuffer y x) = lineVert
  horizontal : ∀ y x, OnRow p y.val → ¬OnColumn p x.val → charOf (c.screenBuffer y x) = lineHorz
  empty : ∀ y x, ¬OnRow p y.val → ¬OnColumn p x.val → charOf (c.screenBuffer y x) = 0x20#8
  unscrolled : c.sbCount = 0
  column : c.cursorX.val = columnEdge p p.width.active + 1
  row : c.cursorY.val = rowEdge p p.height.active + 1

theorem drawLines_tiled (p : Panes) (c : ConsoleState) : Tiled p (drawLines p (consoleClear c)) := by
  have drawn := textOf_drawLines p (consoleClear c)
  rw [textOf_consoleClear, setCursor_inside _ _ _
    ((cornerX_toNat p).1 ▸ (cornerX_toNat p).2) ((cornerY_toNat p).1 ▸ (cornerY_toNat p).2)] at drawn
  have screen : (drawLines p (consoleClear c)).screenBuffer =
      (crosses p (horizontals p (verticals p Text.clear))).screen := congrArg Text.screen drawn
  have crossed := crosses_paints p
  have ruled := horizontals_paints p
  have lined := verticals_paints p
  have shown (y : Fin 25) (x : Fin 80) : charOf ((drawLines p (consoleClear c)).screenBuffer y x) =
      chars (crosses p (horizontals p (verticals p Text.clear))) (y, x) := by
    rw [screen]
    rfl
  refine ⟨?_, ?_, ?_, ?_, ?_, ?_, ?_⟩
  · intro y x row column
    rw [shown, crossed.inside _ (y, x) ⟨row, column⟩]
  · intro y x row column
    rw [shown, crossed.outside _ (y, x) (fun both => row both.1), ruled.outside _ (y, x) row,
      lined.inside _ (y, x) column]
  · intro y x row column
    rw [shown, crossed.outside _ (y, x) (fun both => column both.2), ruled.inside _ (y, x) row]
  · intro y x row column
    rw [shown, crossed.outside _ (y, x) (fun both => row both.1), ruled.outside _ (y, x) row,
      lined.outside _ (y, x) column]
    exact charOf_cellOf 0x20#8
  · have lines : stored (drawLines p (consoleClear c)) = [] := by
      have kept := congrArg Text.lines drawn
      exact kept.trans ((crossed.kept _).trans ((ruled.kept _).trans (lined.kept _)))
    have length := stored_length (drawLines p (consoleClear c))
    rw [lines, List.length_nil] at length
    exact Fin.ext length.symm
  · exact (congrArg (fun t : Text => t.x.val) drawn).trans (cornerX_toNat p).1
  · exact (congrArg (fun t : Text => t.y.val) drawn).trans (cornerY_toNat p).1

end LifeOS.Hmi
