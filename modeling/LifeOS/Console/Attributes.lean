import LifeOS.Console.Frame
import LifeOS.Console.Window

/-!
The attribute byte of the cells. A plain `char` is sign-extended before it is stored, so a
character from 0x80 on overwrites the colour; every other store keeps it.
-/

namespace LifeOS.Console
open LifeOS.Drivers LifeOS.Hmi LifeOS.Library.Loops LifeOS.Library.Runs LifeOS.Library.Strings

def tint (v : Cell) : Byte := v.extractLsb' 8 8

def TintedRow (row : Row) : Prop := ∀ x, tint (row x) = vgaColor

/-- The cells of the screen, of the stored lines and of the VGA buffer have the colour. -/
structure Tinted (c : ConsoleState) : Prop where
  screen : ∀ y, TintedRow (c.screenBuffer y)
  lines : ∀ row ∈ stored c, TintedRow row
  vga : ∀ y, TintedRow (c.vgaBuffer y)

/-- A character that is not negative as a `char`. -/
def Plain (ch : Byte) : Prop := ch.toNat < 128

instance (ch : Byte) : Decidable (Plain ch) := inferInstanceAs (Decidable (_ < _))

/-- The cell of a character is the colour above the character exactly for these. -/
theorem cellOf_eq_iff (ch : Byte) : cellOf ch = vgaColor ++ ch ↔ Plain ch := by
  revert ch
  decide +kernel

theorem tint_cellOf (ch : Byte) (plain : Plain ch) : tint (cellOf ch) = vgaColor := by
  rw [(cellOf_eq_iff ch).mpr plain]
  exact BitVec.extractLsb'_append_eq_left

theorem tintedRow_blank : TintedRow (fun _ => blank) :=
  fun _ => tint_cellOf 0x20#8 (by decide)

theorem tintedRow_update (row : Row) (x : Fin 80) (v : Cell) (tinted : TintedRow row)
    (value : tint v = vgaColor) : TintedRow (Function.update row x v) := by
  intro z
  by_cases here : z = x
  · rw [here, Function.update_self]
    exact value
  · rw [Function.update_of_ne here]
    exact tinted z

namespace Text

structure Tinted (t : Text) : Prop where
  screen : ∀ y, TintedRow (t.screen y)
  lines : ∀ row ∈ t.lines, TintedRow row

theorem clear_tinted : Text.clear.Tinted :=
  ⟨fun _ => tintedRow_blank, fun _ member => (List.not_mem_nil member).elim⟩

theorem Tinted.scroll {t : Text} (tinted : t.Tinted) : t.scroll.Tinted := by
  refine ⟨?_, ?_⟩
  · intro y
    change TintedRow (scrolledUp t.screen y)
    unfold scrolledUp
    split
    · exact tinted.screen _
    · exact tintedRow_blank
  · intro row member
    rcases List.mem_append.mp (List.mem_of_mem_drop member) with old | top
    · exact tinted.lines row old
    · rw [List.mem_singleton.mp top]
      exact tinted.screen 0

theorem Tinted.cursor {t : Text} (tinted : t.Tinted) (x : Fin 80) (y : Fin 25) :
    Tinted { t with x := x, y := y } := ⟨tinted.screen, tinted.lines⟩

theorem Tinted.nextRow {t : Text} (tinted : t.Tinted) : t.nextRow.Tinted := by
  unfold Text.nextRow
  split
  · exact tinted.cursor t.x _
  · exact tinted.scroll.cursor t.scroll.x 24

theorem Tinted.store {t : Text} (tinted : t.Tinted) (y : Fin 25) (x : Fin 80) (v : Cell)
    (value : tint v = vgaColor) : (t.store y x v).Tinted := by
  refine ⟨?_, tinted.lines⟩
  intro z
  change TintedRow (Function.update t.screen y (Function.update (t.screen y) x v) z)
  by_cases here : z = y
  · rw [here, Function.update_self]
    exact tintedRow_update _ _ _ (tinted.screen y) value
  · rw [Function.update_of_ne here]
    exact tinted.screen z

theorem Tinted.back {t : Text} (tinted : t.Tinted) : t.back.Tinted := by
  unfold Text.back
  split
  · exact tinted.cursor _ t.y
  · split
    · exact tinted.cursor 79 _
    · exact tinted

theorem Tinted.putc {t : Text} (tinted : t.Tinted) (ch : Byte) (plain : Plain ch) :
    (t.putc ch).Tinted := by
  unfold Text.putc
  by_cases line : ch = newline
  · rw [if_pos line]
    exact (tinted.cursor 0 t.y).nextRow
  rw [if_neg line]
  by_cases erase : ch = backspace
  · rw [if_pos erase]
    exact tinted.back.store _ _ blank (tint_cellOf 0x20#8 (by decide))
  rw [if_neg erase]
  have stored := tinted.store t.y t.x (cellOf ch) (tint_cellOf ch plain)
  generalize t.store t.y t.x (cellOf ch) = s at stored
  dsimp only
  split
  · exact stored.cursor _ s.y
  · exact (stored.cursor 0 s.y).nextRow

theorem Tinted.setCursor {t : Text} (tinted : t.Tinted) (x y : BitVec 8) : (t.setCursor x y).Tinted := by
  unfold Text.setCursor
  by_cases column : x.toNat < 80 <;> by_cases row : y.toNat < 25 <;>
    simp only [column, row, dite_true, dite_false] <;> exact ⟨tinted.screen, tinted.lines⟩

end Text

theorem textOf_consoleWrite_tinted (s : List Byte) (c : ConsoleState) (plain : ∀ ch ∈ s, Plain ch)
    (tinted : (textOf c).Tinted) : (textOf (consoleWrite s c)).Tinted := by
  induction s generalizing c with
  | nil => exact tinted
  | cons ch s ih =>
    apply ih _ (fun ch member => plain ch (List.mem_cons_of_mem _ member))
    rw [textOf_consolePutc]
    exact tinted.putc ch (plain ch List.mem_cons_self)

theorem prompt_plain : ∀ ch ∈ prompt, Plain ch := by
  simp only [prompt, ascii]
  decide

theorem shellShowPrompt_tinted (t : Terminal) (tinted : (textOf t.con).Tinted) :
    (textOf (shellShowPrompt t).con).Tinted := by
  rw [shellShowPrompt_con]
  exact textOf_consoleWrite_tinted prompt t.con prompt_plain tinted

def Lone (p : Panes) : Prop := p.width.grid = 1 ∧ p.height.grid = 1

theorem drawLines_lone (p : Panes) (c : ConsoleState) (lone : Lone p) :
    ∃ x y, drawLines p c = consoleSetCursor x y c := by
  obtain ⟨⟨wide, column, few, inside⟩, ⟨high, row, few', inside'⟩, gui⟩ := p
  obtain ⟨one, one'⟩ := lone
  dsimp only at one one'
  subst one one'
  unfold drawLines
  dsimp only
  rw [forFin_zero, forFin_zero, forFin_zero]
  exact ⟨_, _, rfl⟩

theorem paneDrawInternal_tinted (showPrompt : Bool) (t : Terminal) (lone : Lone t.panes) :
    (textOf (paneDrawInternal showPrompt t).con).Tinted := by
  obtain ⟨x, y, drawn⟩ := drawLines_lone t.panes (consoleClear t.con) lone
  have cleared : (textOf (t.onConsole (fun c => drawLines t.panes (consoleClear c))).con).Tinted := by
    change (textOf (drawLines t.panes (consoleClear t.con))).Tinted
    rw [drawn, textOf_consoleSetCursor, textOf_consoleClear]
    exact Text.clear_tinted.setCursor x y
  unfold paneDrawInternal
  dsimp only
  split
  · exact shellShowPrompt_tinted _ cleared
  · exact cleared

def Narrows (delta : Int) (a : Axis) : Prop := a.grid = 1 ∧ delta ≤ 0 ∨ a.grid = 2 ∧ delta < 0

instance (delta : Int) (a : Axis) : Decidable (Narrows delta a) := inferInstanceAs (Decidable (_ ∨ _))

theorem resize_grid_of_narrows (delta : Int) (a : Axis) (narrows : Narrows delta a) :
    (resize delta a).grid = 1 := by
  unfold resize
  rcases narrows with ⟨one, still⟩ | ⟨two, less⟩
  · rw [dif_neg (by omega), dif_neg (by omega)]
    exact one
  · rw [dif_neg (by omega), dif_pos (by omega)]
    split <;> change a.grid - 1 = 1 <;> omega

/-- The call stores no negative character and draws no line. -/
def StoresPlain : Op → Terminal → Prop
  | .putc ch, _ => Plain ch
  | .write s, _ => ∀ ch ∈ s.text, Plain ch
  | .paneDraw, t | .paneDrawNoPrompt, t | .paneMoveLeft, t | .paneMoveRight, t | .paneMoveUp, t
  | .paneMoveDown, t => Lone t.panes
  | .paneResizeWidth delta, t => Narrows delta t.panes.width ∧ t.panes.height.grid = 1
  | .paneResizeHeight delta, t => t.panes.width.grid = 1 ∧ Narrows delta t.panes.height
  | .paneGuiStart, t => t.panes.guiActive = true
  | .pollInput key, t =>
      (key = keyAltR ∨ key = keyFn → Lone t.panes) ∧
      (key = keyF1 ∨ key = keyF2 ∨ key = keyF3 ∨ key = keyF4 → Lone (resizedPanes key t.panes))
  | .clear, _ | .setCursor _ _, _ | .drawQuadrants, _ | .paneInit, _ | .paneGuiStop, _ => True

theorem tint_lineCell (v : BitVec 16) (low : v = 0xB3#16 ∨ v = 0xC4#16 ∨ v = 0xC5#16) :
    tint (lineCell v) = vgaColor := by
  rcases low with rfl | rfl | rfl <;> decide

theorem drawQuadrantLines_tinted (c : ConsoleState) (tinted : (textOf c).Tinted) :
    (textOf (drawQuadrantLines c)).Tinted := by
  have plotted (y : Fin 25) (x : Fin 80) (v : BitVec 16) (low : v = 0xB3#16 ∨ v = 0xC4#16 ∨ v = 0xC5#16)
      (d : ConsoleState) (held : (textOf d).Tinted) : (textOf (plot y x (lineCell v) d)).Tinted := by
    rw [textOf_plot]
    exact held.store y x _ (tint_lineCell v low)
  have vertical := forFin_preserves 25 (fun y c => plot y 40 (lineCell 0xB3#16) c)
    (fun d => (textOf d).Tinted) c tinted (fun y d held => plotted y 40 _ (Or.inl rfl) d held)
  have horizontal := forFin_preserves 80 (fun x c => plot 12 x (lineCell 0xC4#16) c)
    (fun d => (textOf d).Tinted) _ vertical (fun x d held => plotted 12 x _ (Or.inr (Or.inl rfl)) d held)
  have cells : (textOf (quadrantCells c)).Tinted := plotted 12 40 _ (Or.inr (Or.inr rfl)) _ horizontal
  unfold drawQuadrantLines
  generalize quadrantCells c = e at cells
  dsimp only
  split <;> exact cells.cursor 1 13

theorem consolePollInput_tinted (key : Byte) (t : Terminal) (tinted : (textOf t.con).Tinted)
    (plain : StoresPlain (.pollInput key) t) : (textOf (consolePollInput key t).con).Tinted := by
  have polled := pollRules_polled key t
  unfold consolePollInput
  generalize pollRules key t = result at polled ⊢
  cases polled with
  | nothing | control => exact tinted
  | scrolled =>
    change (textOf (scrollView key t.con)).Tinted
    rw [textOf_scrollView]
    exact tinted
  | moved move panes width height =>
    have lone := plain.1 move
    have drawn : (textOf (paneDraw { t with panes := panes }).con).Tinted :=
      paneDrawInternal_tinted true _ ⟨width.trans lone.1, height.trans lone.2⟩
    generalize paneDraw { t with panes := panes } = u at drawn ⊢
    exact drawn
  | resized resize => exact paneDrawInternal_tinted true _ (plain.2 resize)
  | queued =>
    change (textOf (enqueue _ t.con)).Tinted
    rw [textOf_enqueue]
    exact tinted

theorem perform_tinted (op : Op) (t : Terminal) (tinted : (textOf t.con).Tinted)
    (plain : StoresPlain op t) : (textOf (perform op t).con).Tinted := by
  cases op with
  | putc ch =>
    change (textOf (consolePutc ch t.con)).Tinted
    rw [textOf_consolePutc]
    exact tinted.putc ch plain
  | write s => exact textOf_consoleWrite_tinted s.text t.con plain tinted
  | clear =>
    change (textOf (consoleClear t.con)).Tinted
    rw [textOf_consoleClear]
    exact Text.clear_tinted
  | setCursor x y =>
    change (textOf (consoleSetCursor x y t.con)).Tinted
    rw [textOf_consoleSetCursor]
    exact tinted.setCursor x y
  | drawQuadrants => exact shellShowPrompt_tinted _ (drawQuadrantLines_tinted t.con tinted)
  | pollInput key => exact consolePollInput_tinted key t tinted plain
  | paneInit => exact paneDrawInternal_tinted false _ ⟨rfl, rfl⟩
  | paneDraw => exact paneDrawInternal_tinted true t plain
  | paneDrawNoPrompt => exact paneDrawInternal_tinted false t plain
  | paneResizeWidth delta =>
    exact paneDrawInternal_tinted true _ ⟨resize_grid_of_narrows delta _ plain.1, plain.2⟩
  | paneResizeHeight delta =>
    exact paneDrawInternal_tinted true _ ⟨plain.1, resize_grid_of_narrows delta _ plain.2⟩
  | paneMoveLeft => exact paneDrawInternal_tinted true _ ⟨(moveBack_grid _).trans plain.1, plain.2⟩
  | paneMoveRight => exact paneDrawInternal_tinted true _ ⟨(moveOn_grid _).trans plain.1, plain.2⟩
  | paneMoveUp => exact paneDrawInternal_tinted true _ ⟨plain.1, (moveBack_grid _).trans plain.2⟩
  | paneMoveDown => exact paneDrawInternal_tinted true _ ⟨plain.1, (moveOn_grid _).trans plain.2⟩
  | paneGuiStart =>
    unfold perform Hmi.paneGuiStart
    dsimp only
    rw [if_pos (show t.panes.guiActive = true from plain)]
    exact tinted
  | paneGuiStop =>
    unfold perform Hmi.paneGuiStop
    dsimp only
    split
    · exact paneDrawInternal_tinted true _ ⟨rfl, rfl⟩
    · exact tinted

theorem Displayed.tinted {c : ConsoleState} (shown : Displayed c) (tinted : (textOf c).Tinted) : Tinted c := by
  refine ⟨tinted.screen, tinted.lines, ?_⟩
  intro r
  rw [shown.rows r]
  have place := document_getElem? c (c.sbCount.val - c.sbView + r.val) (by have := shown.bounded; omega)
  rcases List.mem_append.mp (List.mem_of_getElem? place) with old | row
  · exact tinted.lines _ old
  · obtain ⟨y, same⟩ := (List.mem_ofFn' _ _).mp row
    rw [← same]
    exact tinted.screen y

/-- While no negative character is stored, every cell keeps the colour; and a character is
stored as itself under the colour exactly when it is not negative. -/
theorem cells_keep_colour (t : Terminal) (ops : List Op)
    (plain : Along perform StoresPlain ops (t.onConsole consoleInit)) :
    Throughout perform (fun t => Tinted t.con) ops (t.onConsole consoleInit) ∧
      ∀ ch, cellOf ch = vgaColor ++ ch ↔ Plain ch := by
  refine ⟨?_, cellOf_eq_iff⟩
  have cleared : (textOf (t.onConsole consoleInit).con).Tinted := by
    change (textOf (consoleInit t.con)).Tinted
    unfold consoleInit
    rw [textOf_consoleClear]
    exact Text.clear_tinted
  have held := throughout_guarded perform StoresPlain
    (fun t => Displayed t.con ∧ (textOf t.con).Tinted)
    (fun op t good plain => ⟨perform_displayed op t good.1, perform_tinted op t good.2 plain⟩)
    ops _ ⟨consoleInit_displayed t.con, cleared⟩ plain
  exact throughout_imp perform _ _ (fun t good => good.1.tinted good.2) ops _ held

/-- A line of text, a newline and a clear. -/
theorem hello_keeps_colour :
    Throughout perform (fun t => Tinted t.con) [.write (.ofBytes (ascii "Hello\n")), .putc 0x7E#8, .clear]
      (Terminal.zeroed.onConsole consoleInit) ∧ ∀ ch, cellOf ch = vgaColor ++ ch ↔ Plain ch := by
  apply cells_keep_colour
  refine ⟨?_, show Plain 0x7E#8 by decide, trivial, trivial⟩
  change ∀ ch ∈ (CString.ofBytes (ascii "Hello\n")).text, Plain ch
  rw [CString.text_ofBytes _ (by decide)]
  decide

/-- The vertical line of the panes loses the colour. -/
theorem line_loses_colour :
    ¬∀ (t : Terminal) (ops : List Op),
      Throughout perform (fun t => Tinted t.con) ops (t.onConsole consoleInit) := by
  intro always
  obtain ⟨_, tinted⟩ := always Terminal.zeroed [.putc lineVert]
  have screen := tinted.screen 0 0
  have printed : textOf (perform (.putc lineVert) (Terminal.zeroed.onConsole consoleInit)).con =
      Text.clear.putc lineVert := by
    change textOf (consolePutc lineVert (consoleInit Terminal.zeroed.con)) = _
    rw [textOf_consolePutc, consoleInit, textOf_consoleClear]
  have cell := congrArg (fun text => tint (text.screen 0 0)) printed
  exact absurd (cell.symm.trans screen) (by decide)

end LifeOS.Console
