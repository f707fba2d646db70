import LifeOS.Console.Text

/-!
The displayed window: which lines the VGA buffer shows and where the cursor register
points. Output returns to the bottom before it prints, so it needs the screen to be
shown only when the view is there.
-/

namespace LifeOS.Console
open LifeOS.Library.Loops LifeOS.Library.Strings

def cursorRegister (p : Ports) : BitVec 16 := p.crtc 14#8 ++ p.crtc 15#8

/-- At the bottom view the VGA buffer shows the screen. -/
def Steady (c : ConsoleState) : Prop := c.sbView = 0 → c.vgaBuffer = c.screenBuffer

structure Bottom (c : ConsoleState) : Prop where
  view : c.sbView = 0
  shown : c.vgaBuffer = c.screenBuffer

/-- The VGA buffer shows the window `sb_view` lines above the bottom. -/
structure Displayed (c : ConsoleState) : Prop where
  bounded : c.sbView ≤ c.sbCount.val
  rows : ∀ r : Fin 25, c.vgaBuffer r = viewRow (c.sbCount.val - c.sbView + r.val) c
  register : cursorRegister c.ports = cursorPos c

private theorem high_low (v : BitVec 16) :
    (v >>> 8).setWidth 8 ++ (v &&& 0xFF#16).setWidth 8 = v := by
  have low : (v &&& 0xFF#16).setWidth 8 = v.extractLsb' 0 8 := by
    apply BitVec.eq_of_toNat_eq
    have mask : (v &&& 0xFF#16).toNat = v.toNat % 256 := by
      rw [BitVec.toNat_and]
      exact Nat.and_two_pow_sub_one_eq_mod v.toNat 8
    rw [BitVec.toNat_setWidth, mask, BitVec.extractLsb'_toNat]
    simp
  have high : (v >>> 8).setWidth 8 = v.extractLsb' 8 8 := rfl
  rw [low, high]
  have joined : v.extractLsb' 8 8 ++ v.extractLsb' 0 8 = v.extractLsb' 0 (8 + 8) :=
    BitVec.extractLsb'_append_extractLsb'_eq_extractLsb' rfl
  rw [joined]
  exact BitVec.extractLsb'_eq_self

theorem updateCursor_register (c : ConsoleState) :
    cursorRegister (updateCursor c).ports = cursorPos c := by
  have shape : cursorRegister (updateCursor c).ports =
      (cursorPos c >>> 8).setWidth 8 ++ (cursorPos c &&& 0xFF#16).setWidth 8 := by
    simp [cursorRegister, updateCursor, outb, Function.update]
  rw [shape, high_low]

theorem viewRow_screen (c : ConsoleState) (r : Fin 25) :
    viewRow (c.sbCount.val + r.val) c = c.screenBuffer r := by
  have offset : c.sbCount.val + r.val - c.sbCount.val = r.val := by omega
  unfold viewRow
  rw [if_neg (by omega)]
  simp only [offset, dif_pos r.isLt]

theorem Bottom.displayed {c : ConsoleState} (bottom : Bottom c)
    (register : cursorRegister c.ports = cursorPos c) : Displayed c := by
  refine ⟨by rw [bottom.view]; omega, ?_, register⟩
  intro r
  rw [bottom.view, Nat.sub_zero, viewRow_screen, bottom.shown]

theorem Bottom.updateCursor {c : ConsoleState} (bottom : Bottom c) : Displayed (updateCursor c) := by
  have kept : Bottom (Console.updateCursor c) := ⟨bottom.view, bottom.shown⟩
  exact kept.displayed (updateCursor_register c)

theorem Displayed.steady {c : ConsoleState} (shown : Displayed c) : Steady c := by
  intro view
  funext r
  rw [shown.rows r, view, Nat.sub_zero, viewRow_screen]

theorem renderView_displayed (c : ConsoleState) : Displayed (renderView c) := by
  rw [renderView_eq]
  refine ⟨?_, fun _ => rfl, ?_⟩
  · exact Nat.min_le_right _ _
  · exact updateCursor_register _

theorem ensureBottom_bottom (c : ConsoleState) (steady : Steady c) : Bottom (ensureBottom c) := by
  unfold ensureBottom
  by_cases above : c.sbView ≠ 0
  · rw [if_pos above]
    have shown := renderView_displayed { c with sbView := 0 }
    have view : (renderView { c with sbView := 0 }).sbView = 0 := by
      rw [renderView_eq]
      simp only [updateCursor, Nat.zero_min]
    exact ⟨view, shown.steady view⟩
  · rw [if_neg above]
    have view : c.sbView = 0 := not_not.mp above
    exact ⟨view, steady view⟩

theorem Bottom.plot {c : ConsoleState} (bottom : Bottom c) (y : Fin 25) (x : Fin 80) (v : Cell) :
    Bottom (plot y x v c) := by
  have view := bottom.view
  have shown := bottom.shown
  unfold Console.plot
  dsimp only
  rw [if_pos (show (setScreen y x v c).sbView = 0 from view)]
  refine ⟨view, ?_⟩
  simp only [setVga, setScreen, shown]

theorem Bottom.scrollScreen {c : ConsoleState} (bottom : Bottom c) : Bottom (scrollScreen c) := by
  obtain ⟨slots, start, count, scrolled, _⟩ := scrollScreen_eq c
  rw [scrolled]
  exact ⟨bottom.view, if_pos bottom.view⟩

theorem Bottom.nextRow {c : ConsoleState} (bottom : Bottom c) : Bottom (nextRow c) := by
  unfold Console.nextRow
  split
  · exact ⟨bottom.view, bottom.shown⟩
  · have scrolled := bottom.scrollScreen
    generalize Console.scrollScreen c = e at scrolled ⊢
    exact ⟨scrolled.view, scrolled.shown⟩

theorem Bottom.cursorBack {c : ConsoleState} (bottom : Bottom c) : Bottom (cursorBack c) := by
  unfold Console.cursorBack
  split
  · exact ⟨bottom.view, bottom.shown⟩
  · split <;> exact ⟨bottom.view, bottom.shown⟩

theorem consolePutc_bottom (ch : Byte) (c : ConsoleState) (steady : Steady c) :
    Bottom (consolePutc ch c) ∧ Displayed (consolePutc ch c) := by
  have start : Bottom (ensureBottom (serialPutc ch c)) := ensureBottom_bottom _ steady
  unfold consolePutc
  generalize ensureBottom (serialPutc ch c) = d at start ⊢
  have finish (e : ConsoleState) (bottom : Bottom e) :
      Bottom (if e.sbView = 0 then updateCursor e else e) ∧
        Displayed (if e.sbView = 0 then updateCursor e else e) := by
    rw [if_pos bottom.view]
    exact ⟨⟨bottom.view, bottom.shown⟩, bottom.updateCursor⟩
  apply finish
  by_cases line : ch = newline
  · rw [if_pos line]
    have moved : Bottom { d with cursorX := 0 } := ⟨start.view, start.shown⟩
    exact moved.nextRow
  · rw [if_neg line]
    by_cases erase : ch = backspace
    · rw [if_pos erase, storeCell_eq]
      exact start.cursorBack.plot _ _ _
    · rw [if_neg erase]
      have stored : Bottom (storeCell (cellOf ch) d) := by
        rw [storeCell_eq]
        exact start.plot _ _ _
      generalize storeCell (cellOf ch) d = e at stored ⊢
      dsimp only
      split
      · exact ⟨stored.view, stored.shown⟩
      · have moved : Bottom { e with cursorX := 0 } := ⟨stored.view, stored.shown⟩
        exact moved.nextRow

theorem consoleWrite_displayed (s : List Byte) (c : ConsoleState) (shown : Displayed c) :
    Displayed (consoleWrite s c) := by
  induction s generalizing c with
  | nil => exact shown
  | cons ch s ih => exact ih _ (consolePutc_bottom ch c shown.steady).2

/-- A text that prints at least one character restores the window. -/
theorem consoleWrite_restores (ch : Byte) (s : List Byte) (c : ConsoleState) (steady : Steady c) :
    Displayed (consoleWrite (ch :: s) c) :=
  consoleWrite_displayed s _ (consolePutc_bottom ch c steady).2

theorem consoleClear_displayed (c : ConsoleState) : Displayed (consoleClear c) := by
  unfold consoleClear
  rw [clear_rows]
  have cleared : Bottom { c with
      screenBuffer := fun _ _ => blank, vgaBuffer := fun _ _ => blank, sbStart := 0, sbCount := 0, sbView := 0,
      cursorX := 0, cursorY := 0 } := ⟨rfl, rfl⟩
  exact cleared.updateCursor

theorem consoleInit_displayed (c : ConsoleState) : Displayed (consoleInit c) :=
  consoleClear_displayed _

theorem consoleSetCursor_displayed (x y : BitVec 8) (c : ConsoleState) (shown : Displayed c) :
    Displayed (consoleSetCursor x y c) := by
  have moved (e : ConsoleState) (same : ∃ cx cy, e = { c with cursorX := cx, cursorY := cy }) :
      Displayed (updateCursor e) := by
    obtain ⟨cx, cy, rfl⟩ := same
    exact ⟨shown.bounded, shown.rows, updateCursor_register _⟩
  unfold consoleSetCursor
  by_cases column : x.toNat < 80 <;> by_cases row : y.toNat < 25 <;>
    simp only [column, row, dite_true, dite_false] <;> exact moved _ ⟨_, _, rfl⟩

theorem enqueue_displayed (ch : Byte) (c : ConsoleState) (shown : Displayed c) :
    Displayed (enqueue ch c) := by
  unfold enqueue
  dsimp only
  split
  · exact ⟨shown.bounded, shown.rows, shown.register⟩
  · exact shown

/-- Drawing the quadrant lines keeps the screen shown at the bottom view; above it the
window is stale until the prompt is printed. -/
theorem drawQuadrantLines_steady (c : ConsoleState) (steady : Steady c) :
    Steady (drawQuadrantLines c) := by
  have plotted (y : Fin 25) (x : Fin 80) (v : Cell) (e : ConsoleState) (held : Steady e) :
      Steady (plot y x v e) := by
    intro view
    have before : e.sbView = 0 := by
      unfold plot at view
      by_cases bottom : e.sbView = 0
      · exact bottom
      · dsimp only at view
        rw [if_neg (show ¬(setScreen y x v e).sbView = 0 from bottom)] at view
        exact view
    exact (Bottom.plot ⟨before, held before⟩ y x v).shown
  have vertical := forFin_preserves 25 (fun y c => plot y 40 (lineCell 0xB3#16) c) Steady c steady
    (fun y e held => plotted y 40 _ e held)
  have horizontal := forFin_preserves 80 (fun x c => plot 12 x (lineCell 0xC4#16) c) Steady _ vertical
    (fun x e held => plotted 12 x _ e held)
  have cross := plotted 12 40 (lineCell 0xC5#16) _ horizontal
  change Steady (quadrantCells c) at cross
  unfold drawQuadrantLines
  generalize quadrantCells c = e at cross ⊢
  dsimp only
  split <;> exact cross

end LifeOS.Console
