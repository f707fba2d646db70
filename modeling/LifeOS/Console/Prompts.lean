import LifeOS.Console.Recall
import LifeOS.Console.Serial
import LifeOS.Library.Occurrences

/-!
The prompts that an entered line or a pane key prints. The shell prints one behind every
command, and so does every redraw of the panes.
-/

namespace LifeOS.Console
open LifeOS.Drivers LifeOS.Hmi LifeOS.Library.Occurrences LifeOS.Library.Runs LifeOS.Library.Strings

/-- A newline for `shell_task`, or a pane key for `console_poll_input`. -/
inductive PromptAction where
  | enter
  | pane (key : Byte) (works : PaneKey key)

def PromptAction.perform (inv : ComputeInventory) : PromptAction → Terminal → Option Outcome
  | .enter, t => shellKey inv newline t
  | .pane key _, t => some (.returned (consolePollInput key t))

/-- The prompt is printed once, behind everything else, and its end is remembered. -/
structure PromptedOnce (before after : Terminal) : Prop where
  once : ∃ own, Prints (own ++ prompt) before.con after.con ∧ occurrences prompt (own ++ prompt) = 1
  x : after.shell.promptX.toNat = after.con.cursorX.val
  y : after.shell.promptY.toNat = after.con.cursorY.val

/-- The prompt stands in the active pane, from its first interior cell on. -/
structure InActivePane (t : Terminal) : Prop where
  shown : ∀ k (inside : k < prompt.length), (textOf t.con).cellAt
    ((rowEdge t.panes t.panes.height.active + 1) * 80 + (columnEdge t.panes t.panes.width.active + 1) + k) =
      cellOf (prompt.get ⟨k, inside⟩)
  column : t.con.cursorX.val = columnEdge t.panes t.panes.width.active + 1 + prompt.length
  row : t.con.cursorY.val = rowEdge t.panes t.panes.height.active + 1

def StartsGui (t : Terminal) : Prop := typedLine t.shell = ascii "gui start" ∧ t.panes.guiActive = false

def PromptAction.Redraws : PromptAction → Terminal → Prop
  | .enter, t => StartsGui t
  | .pane _ _, _ => True

structure Prompts (action : PromptAction) (before after : Terminal) : Prop where
  prompted : PromptedOnce before after
  place : action.Redraws before → InActivePane after

theorem mark_behind_prompt (own : List Byte) (none_marked : promptMark ∉ own) :
    occurrences prompt (own ++ prompt) = 1 := by
  have some_prompt := occurrences_append_le prompt own prompt
  have few := occurrences_le_of_unmarked prompt own prompt 6 promptMark (by decide) none_marked
  have one : occurrences prompt prompt = 1 := by decide
  have marks : prompt.count promptMark = 1 := by decide
  omega

theorem showPrompt_once (before t : Terminal) (unmarked : Unmarked before.con t.con) :
    PromptedOnce before (shellShowPrompt t) := by
  obtain ⟨own, none_marked, prints⟩ := unmarked
  have printed := prints.trans (prints_write prompt t.con)
  rw [← shellShowPrompt_con] at printed
  have shell := shellShowPrompt_shell t
  generalize shellShowPrompt t = after at printed shell ⊢
  refine ⟨⟨own, printed, mark_behind_prompt own none_marked⟩, ?_, ?_⟩
  · rw [shell]
    change (BitVec.ofNat 8 after.con.cursorX.val).toNat = after.con.cursorX.val
    rw [BitVec.toNat_ofNat]
    omega
  · rw [shell]
    change (BitVec.ofNat 8 after.con.cursorY.val).toNat = after.con.cursorY.val
    rw [BitVec.toNat_ofNat]
    omega

theorem drawn_unmarked (p : Panes) (c : ConsoleState) : Unmarked c (drawLines p (consoleClear c)) :=
  (unmarked_nothing (prints_clear c)).trans (unmarked_drawLines p _)

theorem paneDraw_once (t : Terminal) : PromptedOnce t (paneDraw t) := by
  rw [paneDraw_eq]
  exact showPrompt_once t _ (drawn_unmarked t.panes t.con)

/-- The active pane leaves room for the prompt on its first interior row. -/
theorem prompt_fits (a : Axis) : edge 80#32 a a.active + 1 + 8 < 80 := by
  apply axis_cases (fun a => edge 80#32 a a.active + 1 + 8 < 80) <;> decide +kernel

theorem prompt_visible : ∀ ch ∈ prompt, ch ≠ newline ∧ ch ≠ backspace := by decide

theorem showPrompt_inside (t : Terminal)
    (column : t.con.cursorX.val = columnEdge t.panes t.panes.width.active + 1)
    (row : t.con.cursorY.val = rowEdge t.panes t.panes.height.active + 1) : InActivePane (shellShowPrompt t) := by
  have fits : columnEdge t.panes t.panes.width.active + 1 + 8 < 80 := prompt_fits t.panes.width
  have low := (cornerY_toNat t.panes).2
  have length : prompt.length = 8 := by decide
  have start : (textOf t.con).place = (rowEdge t.panes t.panes.height.active + 1) * 80 +
      (columnEdge t.panes t.panes.width.active + 1) := by
    unfold Text.place
    change t.con.cursorY.val * 80 + t.con.cursorX.val = _
    rw [column, row]
  obtain ⟨moved, shown, _⟩ := write_spec prompt (textOf t.con) prompt_visible (by omega)
  have text := textOf_consoleWrite prompt t.con
  rw [← shellShowPrompt_con] at text
  rw [← text, start] at moved shown
  have panes := shellShowPrompt_panes t
  generalize shellShowPrompt t = after at text moved shown panes ⊢
  have place : after.con.cursorY.val * 80 + after.con.cursorX.val = _ := moved
  rw [length] at place
  refine ⟨?_, ?_, ?_⟩ <;> rw [panes]
  · exact shown
  · omega
  · omega

theorem paneDraw_inside (t : Terminal) : InActivePane (paneDraw t) := by
  have tiled := drawLines_tiled t.panes t.con
  rw [paneDraw_eq]
  exact showPrompt_inside _ tiled.column tiled.row

/-- A pane key redraws, and at most the Ctrl flag changes behind the prompt. -/
theorem paneKey_prompts (key : Byte) (works : PaneKey key) (t : Terminal) :
    PromptedOnce t (consolePollInput key t) ∧ InActivePane (consolePollInput key t) := by
  have polled := pollRules_polled key t
  unfold consolePollInput
  unfold PaneKey at works
  generalize pollRules key t = result at polled ⊢
  cases polled with
  | nothing none_read => exact absurd works (by subst none_read; decide)
  | control ctrl => exact absurd works (by subst ctrl; decide)
  | scrolled scrolls => exact absurd works (by rcases scrolls.1 with rfl | rfl <;> decide)
  | queued queued =>
    rcases works with rfl | rfl | rfl | rfl | rfl | rfl <;> exact absurd (by simp) queued.2.2
  | moved move panes =>
    obtain ⟨once, x, y⟩ := paneDraw_once { t with panes := panes }
    obtain ⟨shown, column, row⟩ := paneDraw_inside { t with panes := panes }
    generalize paneDraw { t with panes := panes } = after at once x y shown column row ⊢
    exact ⟨⟨once, x, y⟩, ⟨shown, column, row⟩⟩
  | resized resize =>
    have once := paneDraw_once { t with panes := resizedPanes key t.panes }
    have inside := paneDraw_inside { t with panes := resizedPanes key t.panes }
    generalize paneDraw { t with panes := resizedPanes key t.panes } = after at once inside ⊢
    exact ⟨⟨once.once, once.x, once.y⟩, inside⟩

theorem Entered.unmarked {t entered : Terminal} {e : Editor} {cmd : List Byte} (enters : Entered t e cmd entered) :
    Unmarked t.con entered.con := by
  rw [enters.printed]
  exact (unmarked_nothing (prints_setCursor _ _ t.con)).trans (unmarked_putc newline (by decide) _)

/-- A command that returns prints no mark, but for the prompt of a redraw. -/
theorem commandOutcome_unmarked (inv : ComputeInventory) (line : List Byte) (t after : Terminal)
    (still : ¬(line = ascii "gui start" ∧ t.panes.guiActive = false))
    (returned : commandOutcome inv line t = .returned after) : Unmarked t.con after.con := by
  have silent : Unmarked t.con t.con := unmarked_nothing (prints_nothing rfl)
  have output (f : ConsoleState → ConsoleState) (unmarked : Unmarked t.con (f t.con))
      (same : Outcome.returned (t.onConsole f) = .returned after) : Unmarked t.con after.con := by
    rw [← Outcome.returned.inj same]
    exact unmarked
  unfold commandOutcome at returned
  split_ifs at returned with help clear info restart shutdown exit gui empty
  · exact output showHelp (unmarked_showHelp t.con) returned
  · exact output consoleClear (unmarked_nothing (prints_clear t.con)) returned
  · exact output (showInfo inv) (unmarked_showInfo inv t.con) returned
  · cases returned
  · cases returned
  · cases returned
  · have active : t.panes.guiActive = true := by
      by_contra idle
      exact still ⟨gui, Bool.eq_false_iff.mpr idle⟩
    have same : paneGuiStart t = t := if_pos active
    rw [same] at returned
    exact Outcome.returned.inj returned ▸ silent
  · exact Outcome.returned.inj returned ▸ silent
  · exact output _ (unmarked_say _ (by decide +kernel) t.con) returned

theorem paneDraw_prints (t : Terminal) : ∃ lines, Prints (lines ++ prompt) t.con (paneDraw t).con := by
  obtain ⟨lines, _, prints⟩ := drawn_unmarked t.panes t.con
  have printed := prints.trans (prints_write prompt (drawLines t.panes (consoleClear t.con)))
  rw [paneDraw_eq, shellShowPrompt_con]
  exact ⟨lines, printed⟩

theorem guiStart_twice (before entered : Terminal) (unmarked : Unmarked before.con entered.con)
    (idle : entered.panes.guiActive = false) : ¬PromptedOnce before (shellShowPrompt (paneGuiStart entered)) := by
  intro ⟨⟨own, printed, once⟩, _, _⟩
  have started : ¬entered.panes.guiActive = true := by
    rw [idle]
    decide
  have drawn : ∃ panes, paneGuiStart entered = paneDraw { entered with panes := panes } := ⟨_, if_neg started⟩
  obtain ⟨panes, drawn⟩ := drawn
  obtain ⟨first, _, prints⟩ := unmarked
  obtain ⟨lines, redrawn⟩ := paneDraw_prints { entered with panes := panes }
  rw [← drawn] at redrawn
  have second := prints_write prompt (paneGuiStart entered).con
  rw [← shellShowPrompt_con] at second
  have all := (prints.trans redrawn).trans second
  have same := printed.unique all
  rw [same, ← List.append_assoc, List.append_assoc] at once
  have twice := occurrences_append_le prompt (first ++ lines) (prompt ++ prompt)
  have two : occurrences prompt (prompt ++ prompt) = 2 := by decide
  omega

theorem commandOutcome_guiStart (inv : ComputeInventory) (t : Terminal) :
    commandOutcome inv (ascii "gui start") t = .returned (paneGuiStart t) := by
  unfold commandOutcome
  rw [if_neg (by decide +kernel), if_neg (by decide +kernel), if_neg (by decide +kernel), if_neg (by decide +kernel),
    if_neg (by decide +kernel), if_neg (by decide +kernel), if_pos rfl]

theorem enter_prompts_iff (inv : ComputeInventory) (t after : Terminal) (e : Editor) (edits : Edits t.shell e)
    (returned : shellKey inv newline t = some (.returned after)) :
    Prompts .enter t after ↔ ¬StartsGui t := by
  obtain ⟨cmd, entered, _, enters, result⟩ := newline_eq inv t e edits
  have unmarked := enters.unmarked
  have panes := enters.panes
  have line : typedLine t.shell = e.line := edits.line
  have outcome := Option.some.inj (result.symm.trans returned)
  unfold StartsGui
  rw [line, ← panes]
  cases executed : commandOutcome inv e.line entered with
  | halted mid =>
    rw [executed] at outcome
    cases outcome
  | returned mid =>
    rw [executed] at outcome
    have final : shellShowPrompt mid = after := Outcome.returned.inj outcome
    rw [← final]
    constructor
    · intro prompts starts
      rw [starts.1, commandOutcome_guiStart] at executed
      rw [← Outcome.returned.inj executed] at prompts
      exact guiStart_twice t entered unmarked starts.2 prompts.prompted
    · intro still
      have quiet := commandOutcome_unmarked inv e.line entered mid still executed
      refine ⟨showPrompt_once t mid (unmarked.trans quiet), ?_⟩
      intro redraws
      have starts : StartsGui t := redraws
      unfold StartsGui at starts
      rw [line, ← panes] at starts
      exact absurd starts still

/-- An action prompts once, at the right place, unless it starts the panes: then the redraw and
the shell prompt both. -/
theorem prompts_iff (inv : ComputeInventory) (t : Terminal) (events : List PromptEvent) (action : PromptAction)
    (after : Terminal) (running : (run (PromptEvent.step inv) events (Recalling.start t)).running = true)
    (returned : action.perform inv (run (PromptEvent.step inv) events (Recalling.start t)).terminal =
      some (.returned after)) :
    Prompts action (run (PromptEvent.step inv) events (Recalling.start t)).terminal after ↔
      (action = .enter → ¬StartsGui (run (PromptEvent.step inv) events (Recalling.start t)).terminal) := by
  obtain ⟨e, remembers⟩ := run_remembers inv events t running
  cases action with
  | enter =>
    rw [enter_prompts_iff inv _ after e remembers.edits returned]
    exact ⟨fun still _ => still, fun still => still rfl⟩
  | pane key works =>
    have same := Outcome.returned.inj (Option.some.inj returned)
    obtain ⟨once, inside⟩ := paneKey_prompts key works
      (run (PromptEvent.step inv) events (Recalling.start t)).terminal
    rw [← same]
    exact iff_of_true ⟨once, fun _ => inside⟩ nofun

theorem corrected_hi_prompts :
    ∃ after, PromptAction.perform emptyInventory .enter
        (run (PromptEvent.step emptyInventory) (correctedHi.map .typed) (Recalling.start Terminal.zeroed)).terminal =
          some (.returned after) ∧
      Prompts .enter
        (run (PromptEvent.step emptyInventory) (correctedHi.map .typed) (Recalling.start Terminal.zeroed)).terminal
        after := by
  obtain ⟨remembers, alive, _⟩ :=
    (start_remembers Terminal.zeroed).keys emptyInventory rfl correctedHi correctedHi_goesOn
  have line : (run edit correctedHi Editor.fresh).line = ascii "hi" := by decide +kernel
  obtain ⟨after, returned, _⟩ := newline_returns emptyInventory _ _ remembers.edits (by decide +kernel)
  refine ⟨after, returned, ?_⟩
  refine (prompts_iff emptyInventory Terminal.zeroed (correctedHi.map .typed) .enter after alive returned).mpr ?_
  intro _ starts
  have typed := remembers.edits.line.symm.trans starts.1
  rw [line] at typed
  exact absurd typed (by decide +kernel)

def guiStartKeys : List Key := keysOf (ascii "gui start")

/-- `gui start` on the first prompt prints two prompts. -/
theorem gui_start_prompts_twice :
    ∃ after, shellKey emptyInventory newline (run (PromptEvent.step emptyInventory) (guiStartKeys.map .typed)
        (Recalling.start Terminal.zeroed)).terminal = some (.returned after) ∧
      ¬PromptedOnce (run (PromptEvent.step emptyInventory) (guiStartKeys.map .typed)
        (Recalling.start Terminal.zeroed)).terminal after := by
  obtain ⟨remembers, _, kept⟩ := (start_remembers Terminal.zeroed).keys emptyInventory rfl guiStartKeys
    (by decide +kernel)
  have panes := kept (by decide +kernel)
  generalize run (PromptEvent.step emptyInventory) (guiStartKeys.map .typed) (Recalling.start Terminal.zeroed) = s at *
  obtain ⟨cmd, entered, _, enters, result⟩ := newline_eq emptyInventory s.terminal _ remembers.edits
  have line : (run edit guiStartKeys Editor.fresh).line =
      ascii "gui start" := by decide +kernel
  rw [line, commandOutcome_guiStart] at result
  have idle : entered.panes.guiActive = false := by
    rw [enters.panes, panes]
    rfl
  exact ⟨_, result, guiStart_twice s.terminal entered enters.unmarked idle⟩

end LifeOS.Console
