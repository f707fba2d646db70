import LifeOS.Library.Runs
import LifeOS.Console.Input
import LifeOS.Console.View

/-!
The displayed window over whole runs: whatever is printed, cleared, scrolled or drawn,
the VGA buffer shows the 25 lines that lie `sb_view` lines above the bottom.
-/

namespace LifeOS.Console
open LifeOS.Drivers LifeOS.Hmi LifeOS.Library.Loops LifeOS.Library.Runs LifeOS.Library.Strings

/-- The calls that reach the console. A polled key is what the keyboard driver returned. -/
inductive Op where
  | putc (ch : Byte)
  | write (s : CString)
  | clear
  | setCursor (x y : BitVec 8)
  | drawQuadrants
  | pollInput (key : Byte)
  | paneInit
  | paneDraw
  | paneDrawNoPrompt
  | paneResizeWidth (delta : Int)
  | paneResizeHeight (delta : Int)
  | paneMoveLeft
  | paneMoveRight
  | paneMoveUp
  | paneMoveDown
  | paneGuiStart
  | paneGuiStop

def perform : Op → Terminal → Terminal
  | .putc ch, t => t.onConsole (consolePutc ch)
  | .write s, t => t.onConsole (consoleWrite s.text)
  | .clear, t => t.onConsole consoleClear
  | .setCursor x y, t => t.onConsole (consoleSetCursor x y)
  | .drawQuadrants, t => consoleDrawQuadrants t
  | .pollInput key, t => consolePollInput key t
  | .paneInit, t => Hmi.paneInit t
  | .paneDraw, t => Hmi.paneDraw t
  | .paneDrawNoPrompt, t => Hmi.paneDrawNoPrompt t
  | .paneResizeWidth delta, t => Hmi.paneResizeWidth delta t
  | .paneResizeHeight delta, t => Hmi.paneResizeHeight delta t
  | .paneMoveLeft, t => Hmi.paneMoveLeft t
  | .paneMoveRight, t => Hmi.paneMoveRight t
  | .paneMoveUp, t => Hmi.paneMoveUp t
  | .paneMoveDown, t => Hmi.paneMoveDown t
  | .paneGuiStart, t => Hmi.paneGuiStart t
  | .paneGuiStop, t => Hmi.paneGuiStop t

/-- The scrollback lines, oldest first, and the rows of the screen. -/
def document (c : ConsoleState) : List Row := stored c ++ List.ofFn c.screenBuffer

theorem document_getElem? (c : ConsoleState) (idx : Nat) (inside : idx < c.sbCount.val + 25) :
    (document c)[idx]? = some (viewRow idx c) := by
  have length := stored_length c
  unfold document viewRow
  by_cases old : idx < c.sbCount.val
  · have within : idx < (stored c).length := length ▸ old
    rw [List.getElem?_append_left within, List.getElem?_eq_getElem within, if_pos old]
    exact congrArg some (Library.Ring.contents_getElem _ _ _ _ within)
  · have row : idx - c.sbCount.val < 25 := by omega
    rw [List.getElem?_append_right (by omega), length, if_neg old, dif_pos row, List.getElem?_ofFn,
      dif_pos row]

/-- The rows on display as a window of the document, with the cursor of the display at the cursor. -/
structure ShowsWindow (c : ConsoleState) : Prop where
  bounded : c.sbView ≤ c.sbCount.val
  rows : ∀ r : Fin 25, (document c)[c.sbCount.val - c.sbView + r.val]? = some (c.vgaBuffer r)
  register : cursorRegister c.ports = BitVec.ofNat 16 (c.cursorY.val * 80 + c.cursorX.val)

theorem Displayed.showsWindow {c : ConsoleState} (shown : Displayed c) : ShowsWindow c := by
  have bounded := shown.bounded
  refine ⟨bounded, ?_, shown.register⟩
  intro r
  rw [document_getElem? c _ (by omega), shown.rows r]

theorem shellShowPrompt_displayed (t : Terminal) (steady : Steady t.con) :
    Displayed (shellShowPrompt t).con := by
  rw [shellShowPrompt_con, prompt_cons]
  exact consoleWrite_restores _ _ t.con steady

theorem drawLines_displayed (p : Panes) (c : ConsoleState) (shown : Displayed c) :
    Displayed (drawLines p c) := by
  have printed (ch : Byte) (d : ConsoleState) (held : Displayed d) : Displayed (consolePutc ch d) :=
    (consolePutc_bottom ch d held.steady).2
  unfold drawLines
  apply consoleSetCursor_displayed
  apply forFin_preserves _ _ Displayed
  · apply forFin_preserves _ _ Displayed
    · apply forFin_preserves _ _ Displayed _ shown
      intro i d held
      apply forFin_preserves _ _ Displayed _ held
      intro y e later
      exact printed _ _ (consoleSetCursor_displayed _ _ e later)
    · intro j d held
      apply forFin_preserves _ _ Displayed _ (consoleSetCursor_displayed _ _ d held)
      intro _ e later
      exact printed _ e later
  · intro i d held
    apply forFin_preserves _ _ Displayed _ held
    intro j e later
    exact printed _ _ (consoleSetCursor_displayed _ _ e later)

/-- A pane redraw starts from a cleared console, so nothing is asked of the old one. -/
theorem paneDrawInternal_displayed (showPrompt : Bool) (t : Terminal) :
    Displayed (paneDrawInternal showPrompt t).con := by
  have drawn : Displayed (t.onConsole (fun c => drawLines t.panes (consoleClear c))).con :=
    drawLines_displayed _ _ (consoleClear_displayed t.con)
  unfold paneDrawInternal
  dsimp only
  split
  · exact shellShowPrompt_displayed _ drawn.steady
  · exact drawn

theorem paneDraw_displayed (t : Terminal) : Displayed (paneDraw t).con :=
  paneDrawInternal_displayed true t

theorem scrollView_displayed (key : Byte) (c : ConsoleState) : Displayed (scrollView key c) := by
  have released (e : ConsoleState) (shown : Displayed e) : Displayed (releaseCtrl e) :=
    ⟨shown.bounded, shown.rows, shown.register⟩
  unfold scrollView
  exact released _ (renderView_displayed _)

theorem clearCtrl_displayed (t : Terminal) (shown : Displayed t.con) : Displayed (clearCtrl t).con :=
  ⟨shown.bounded, shown.rows, shown.register⟩

theorem consolePollInput_displayed (key : Byte) (t : Terminal) (shown : Displayed t.con) :
    Displayed (consolePollInput key t).con := by
  have polled := pollRules_polled key t
  unfold consolePollInput
  generalize pollRules key t = result at polled ⊢
  cases polled with
  | nothing => exact shown
  | control => exact ⟨shown.bounded, shown.rows, shown.register⟩
  | scrolled => exact scrollView_displayed key t.con
  | moved => exact clearCtrl_displayed _ (paneDraw_displayed _)
  | resized => exact paneDraw_displayed _
  | queued => exact enqueue_displayed _ _ shown

theorem perform_displayed (op : Op) (t : Terminal) (shown : Displayed t.con) :
    Displayed (perform op t).con := by
  cases op with
  | putc ch => exact (consolePutc_bottom ch t.con shown.steady).2
  | write s => exact consoleWrite_displayed s.text t.con shown
  | clear => exact consoleClear_displayed t.con
  | setCursor x y => exact consoleSetCursor_displayed x y t.con shown
  | drawQuadrants => exact shellShowPrompt_displayed _ (drawQuadrantLines_steady t.con shown.steady)
  | pollInput key => exact consolePollInput_displayed key t shown
  | paneInit | paneDrawNoPrompt => exact paneDrawInternal_displayed false _
  | paneDraw | paneResizeWidth | paneResizeHeight | paneMoveLeft | paneMoveRight | paneMoveUp
  | paneMoveDown => exact paneDraw_displayed _
  | paneGuiStart =>
    unfold perform Hmi.paneGuiStart
    dsimp only
    split
    · exact shown
    · exact paneDraw_displayed _
  | paneGuiStop =>
    unfold perform Hmi.paneGuiStop
    dsimp only
    split
    · exact paneDraw_displayed _
    · exact shown

/-- Only the view, the Ctrl flag, the VGA buffer and the cursor registers differ. -/
def OnlyView (before after : Terminal) : Prop :=
  ∃ view rows index crtc,
    after = { before with con :=
      { before.con with sbView := view, ctrl := false, vgaBuffer := rows,
                        ports := { before.con.ports with crtcIndex := index, crtc := crtc } } } ∧
    ∀ register, register ≠ 14#8 → register ≠ 15#8 → crtc register = before.con.ports.crtc register

theorem renderView_moved (c : ConsoleState) (view : Nat) :
    ∃ shown rows crtc, renderView { c with sbView := view } =
        { c with sbView := shown, vgaBuffer := rows,
                 ports := { c.ports with crtcIndex := 15#8, crtc := crtc } } ∧
      ∀ register, register ≠ 14#8 → register ≠ 15#8 → crtc register = c.ports.crtc register := by
  rw [renderView_eq]
  refine ⟨_, _, _, rfl, ?_⟩
  intro register high low
  exact (Function.update_of_ne low _ _).trans (Function.update_of_ne high _ _)

theorem scrollView_onlyView (key : Byte) (t : Terminal) :
    OnlyView t (t.onConsole (scrollView key)) := by
  obtain ⟨con, shell, panes⟩ := t
  obtain ⟨view, moved⟩ := moveView_eq key con
  obtain ⟨shown, rows, crtc, rendered, kept⟩ := renderView_moved con view
  refine ⟨shown, rows, 15#8, crtc, ?_, kept⟩
  rw [Terminal.onConsole, scrollView, moved, rendered, releaseCtrl]

theorem scrolling_run (keys : List Byte) (t : Terminal)
    (scrolling : Along consolePollInput (fun key t => Scrolls key t.con) keys t) (shown : Displayed t.con) :
    textOf (run consolePollInput keys t).con = textOf t.con ∧
      Displayed (run consolePollInput keys t).con := by
  induction keys generalizing t with
  | nil => exact ⟨rfl, shown⟩
  | cons key keys ih =>
    obtain ⟨now, later⟩ := scrolling
    obtain ⟨same, final⟩ := ih _ later (consolePollInput_displayed key t shown)
    refine ⟨?_, final⟩
    obtain ⟨view, rows, index, crtc, stepped, _⟩ := scrollView_onlyView key t
    rw [run, same, poll_scrolls key t now, stepped]
    rfl

structure WindowKept (t : Terminal) : Prop where
  window : ShowsWindow t.con
  scroll : ∀ key, Scrolls key t.con → OnlyView t (consolePollInput key t)
  resume : ∀ keys, Along consolePollInput (fun key t => Scrolls key t.con) keys t → ∀ ch,
    let scrolled := consolePutc ch (run consolePollInput keys t).con
    let direct := consolePutc ch t.con
    scrolled.screenBuffer = direct.screenBuffer ∧ stored scrolled = stored direct ∧
      scrolled.cursorX = direct.cursorX ∧ scrolled.cursorY = direct.cursorY ∧
      scrolled.vgaBuffer = direct.vgaBuffer ∧
      cursorRegister scrolled.ports = cursorRegister direct.ports

theorem Displayed.windowKept {t : Terminal} (shown : Displayed t.con) : WindowKept t := by
  refine ⟨shown.showsWindow, ?_, ?_⟩
  · intro key scrolls
    rw [poll_scrolls key t scrolls]
    exact scrollView_onlyView key t
  · intro keys scrolling ch
    obtain ⟨same, final⟩ := scrolling_run keys t scrolling shown
    have texts : textOf (consolePutc ch (run consolePollInput keys t).con) =
        textOf (consolePutc ch t.con) := by
      rw [textOf_consolePutc, textOf_consolePutc, same]
    obtain ⟨bottomA, displayedA⟩ := consolePutc_bottom ch _ final.steady
    obtain ⟨bottomB, displayedB⟩ := consolePutc_bottom ch _ shown.steady
    generalize consolePutc ch (run consolePollInput keys t).con = scrolled at *
    generalize consolePutc ch t.con = direct at *
    have screens : scrolled.screenBuffer = direct.screenBuffer := congrArg Text.screen texts
    have columns : scrolled.cursorX = direct.cursorX := congrArg Text.x texts
    have rows : scrolled.cursorY = direct.cursorY := congrArg Text.y texts
    refine ⟨screens, congrArg Text.lines texts, columns, rows, ?_, ?_⟩
    · rw [bottomA.shown, bottomB.shown, screens]
    · rw [displayedA.register, displayedB.register, cursorPos, cursorPos, columns, rows]

/-- In every state reached from `console_init` the display shows its window, scrolling
changes nothing but the view, and printing after scrolling is printing without it. -/
theorem window_kept (t : Terminal) (ops : List Op) :
    WindowKept (run perform ops (t.onConsole consoleInit)) := by
  have start : Displayed (t.onConsole consoleInit).con := consoleInit_displayed t.con
  have shown := run_invariant perform (fun t => Displayed t.con) perform_displayed ops _ start
  exact shown.windowKept

end LifeOS.Console
