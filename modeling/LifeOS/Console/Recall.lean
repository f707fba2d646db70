import LifeOS.Console.Echo
import LifeOS.Console.Input
import LifeOS.Hmi.Grid

/-!
The history behind a prompt. The shell, `console_poll_input` and the pane manager all
display prompts, which empty the line; `history_nav` is reset by the shell's own branches.
-/

namespace LifeOS.Console
open LifeOS.Drivers LifeOS.Hmi LifeOS.Library.Runs LifeOS.Library.Strings

/-- A character for `shell_task`, a key for `console_poll_input`, a call of the pane manager,
or `console_draw_quadrants`. -/
inductive PromptEvent where
  | typed (ch : Key)
  | poll (key : Byte)
  | pane (op : PaneOp)
  | quadrants

/-- The terminal with the command entered last; `running` until a command stops the machine. -/
structure Recalling where
  terminal : Terminal
  newest : Option (List Byte)
  running : Bool

def Recalling.start (t : Terminal) : Recalling :=
  ⟨shellShowPrompt { t with shell := Shell.initial }, none, true⟩

def Recalling.entered (ch : Byte) (s : Recalling) : Option (List Byte) :=
  if ch = newline ∧ typedLine s.terminal.shell ≠ [] then some (typedLine s.terminal.shell) else s.newest

def PromptEvent.step (inv : ComputeInventory) : PromptEvent → Recalling → Recalling
  | .typed ch, s =>
      match s.running, shellKey inv ch.val s.terminal with
      | true, some (.returned t) => ⟨t, s.entered ch.val, true⟩
      | _, _ => { s with running := false }
  | .poll key, s => { s with terminal := consolePollInput key s.terminal }
  | .pane op, s => { s with terminal := op.perform s.terminal }
  | .quadrants, s => { s with terminal := consoleDrawQuadrants s.terminal }

def PaneKey (key : Byte) : Prop :=
  key = keyAltR ∨ key = keyFn ∨ key = keyF1 ∨ key = keyF2 ∨ key = keyF3 ∨ key = keyF4

def PromptEvent.Redisplays : PromptEvent → Recalling → Prop
  | .typed ch, _ => ch.val = newline
  | .poll key, _ => PaneKey key
  | .pane op, s => op.Redraws s.terminal.panes
  | .quadrants, _ => True

/-- Behind the prompt the line is empty, Up loads the command entered last, and Down loads
nothing. -/
structure FreshPrompt (inv : ComputeInventory) (s : Recalling) : Prop where
  empty : typedLine s.terminal.shell = []
  up : ∀ line ∈ s.newest, ∃ after, shellKey inv keyUp s.terminal = some (.returned after) ∧
    typedLine after.shell = line
  down : ∃ after, shellKey inv keyDown s.terminal = some (.returned after) ∧ typedLine after.shell = []

/-- The history is not being browsed, or it shows the newest entry and the one before it is
the same. -/
def AtNewest (s : Shell) : Prop :=
  s.historyNav = -1 ∨
    s.historyNav = 0 ∧ 2 ≤ s.historyCount ∧ (historyGet 1 s).map text = (historyGet 0 s).map text

/-- The shell resets `history_nav` itself; the other events find it as it is. -/
def PromptEvent.Unbrowsed : PromptEvent → Recalling → Prop
  | .typed _, _ => True
  | _, s => AtNewest s.terminal.shell

def Editor.AtNewest (e : Editor) : Prop :=
  e.nav = none ∨ e.nav = some 0 ∧ 2 ≤ e.history.length ∧ e.history[1]? = e.history[0]?

/-- The terminal holds what the reference says, and the command entered last heads its history. -/
structure Remembers (s : Recalling) (e : Editor) : Prop where
  edits : Edits s.terminal.shell e
  newest : e.history.head? = s.newest
  entries : [] ∉ e.history

theorem historyGet_text {s : Shell} {e : Editor} (edits : Edits s e) (k : Nat) (inside : k < e.history.length) :
    (historyGet k s).map text = e.history[k]? := by
  obtain ⟨object, found, _, same⟩ := historyGet_spec s e.history edits.history k inside
  rw [found, Option.map_some, same, List.getElem?_eq_getElem inside]
  rfl

theorem atNewest_iff {s : Shell} {e : Editor} (edits : Edits s e) : AtNewest s ↔ e.AtNewest := by
  have nav := edits.nav
  have count := edits.history.count
  have idle : s.historyNav = -1 ↔ e.nav = none := by
    rw [nav]
    cases e.nav <;> simp [navValue]
  have first : s.historyNav = 0 ↔ e.nav = some 0 := by
    rw [nav]
    cases e.nav <;> simp [navValue]
  unfold AtNewest Editor.AtNewest
  rw [idle, first, count]
  apply or_congr_right
  apply and_congr_right
  intro _
  apply and_congr_right
  intro several
  have older := historyGet_text edits 1 (by omega)
  have newer := historyGet_text edits 0 (by omega)
  change (historyGet 1 s).map text = _ at older
  change (historyGet 0 s).map text = _ at newer
  rw [older, newer]

theorem loaded_line (inv : ComputeInventory) (t : Terminal) (e : Editor) (edits : Edits t.shell e) (line : List Byte) :
    ((∃ after, shellKey inv keyUp t = some (.returned after) ∧ typedLine after.shell = line) ↔
        e.older.line = line) ∧
      ((∃ after, shellKey inv keyDown t = some (.returned after) ∧ typedLine after.shell = line) ↔
        e.newer.line = line) := by
  have loads (ch : Byte) (nonzero : ch ≠ 0#8) (stays : ch ≠ newline) :
      (∃ after, shellKey inv ch t = some (.returned after) ∧ typedLine after.shell = line) ↔
        (e.key ch).line = line := by
    obtain ⟨after, ran, held, _⟩ := (shellKey_ends inv ch t e nonzero edits stays).returns
    have shown : typedLine after.shell = (e.key ch).line := held.line
    constructor
    · rintro ⟨other, same, rfl⟩
      rw [ran] at same
      rw [← Outcome.returned.inj (Option.some.inj same), shown]
    · intro same
      exact ⟨after, ran, shown.trans same⟩
  exact ⟨loads keyUp (by decide) (by decide), loads keyDown (by decide) (by decide)⟩

/-- On an empty line Up loads the newest entry and Down loads nothing, unless an older entry
is the one shown. -/
theorem Editor.atNewest_iff (e : Editor) (empty : e.line = []) (entries : [] ∉ e.history)
    (shown : ∀ k, e.nav = some k → k < e.history.length) :
    e.AtNewest ↔ (∀ line ∈ e.history.head?, e.older.line = line) ∧ e.newer.line = [] := by
  obtain ⟨line, point, history, nav⟩ := e
  dsimp only at empty entries shown
  subst empty
  cases nav with
  | none =>
    cases history with
    | nil => simp [AtNewest, newer]
    | cons first rest => simp [AtNewest, older, newer, nextOlder, fetch]
  | some k =>
    have inside := shown k rfl
    cases k with
    | zero =>
      cases history with
      | nil => simp at inside
      | cons first rest =>
        cases rest with
        | nil =>
          have other : first ≠ [] := fun same => entries (by simp [same])
          simp [AtNewest, older, newer, nextOlder, fetch, other]
        | cons second rest => simp [AtNewest, older, newer, nextOlder, fetch]
    | succ k =>
      have member : history.getD k [] ∈ history := by
        rw [List.getD_eq_getElem?_getD, List.getElem?_eq_getElem (by omega)]
        exact List.getElem_mem _
      have other : history.getD k [] ≠ [] := fun same => entries (same ▸ member)
      have later : ¬Editor.AtNewest ⟨[], point, history, some (k + 1)⟩ := by simp [AtNewest]
      exact iff_of_false later (fun both => other both.2)

theorem freshPrompt_iff (inv : ComputeInventory) (s : Recalling) (e : Editor) (remembers : Remembers s e)
    (empty : e.line = []) : FreshPrompt inv s ↔ e.AtNewest := by
  obtain ⟨edits, newest, entries⟩ := remembers
  have keys := loaded_line inv s.terminal e edits
  rw [e.atNewest_iff empty entries edits.shown, newest]
  constructor
  · intro ⟨_, up, down⟩
    exact ⟨fun line entry => (keys line).1.mp (up line entry), (keys []).2.mp down⟩
  · intro ⟨up, down⟩
    exact ⟨edits.line.trans empty, fun line entry => (keys line).1.mpr (up line entry), (keys []).2.mpr down⟩

theorem Remembers.prompt {s : Recalling} {e : Editor} (remembers : Remembers s e) (f : Terminal → Terminal)
    (same : ∀ t : Terminal, (f t).shell = t.shell) :
    Remembers { s with terminal := shellShowPrompt (f s.terminal) } e.interrupt := by
  have edits := remembers.edits
  have shell := same s.terminal
  refine ⟨?_, remembers.newest, remembers.entries⟩
  exact prompted_edits (f s.terminal) e (shell ▸ edits.nav) edits.shown (shell ▸ edits.history)

theorem Remembers.paneDraw {s : Recalling} {e : Editor} (remembers : Remembers s e) (panes : Panes) :
    Remembers { s with terminal := Hmi.paneDraw { s.terminal with panes := panes } } e.interrupt := by
  have prompted := remembers.prompt
    (fun t => ({ t with panes := panes } : Terminal).onConsole (fun c => drawLines panes (consoleClear c)))
    (fun _ => rfl)
  rw [paneDraw_eq]
  exact prompted

theorem Remembers.onConsole {s : Recalling} {e : Editor} (remembers : Remembers s e)
    (f : ConsoleState → ConsoleState) : Remembers { s with terminal := s.terminal.onConsole f } e :=
  ⟨remembers.edits, remembers.newest, remembers.entries⟩

theorem Remembers.poll {s : Recalling} {e : Editor} (remembers : Remembers s e) (key : Byte) :
    (PaneKey key → Remembers { s with terminal := consolePollInput key s.terminal } e.interrupt) ∧
      (¬PaneKey key → Remembers { s with terminal := consolePollInput key s.terminal } e) := by
  have polled := pollRules_polled key s.terminal
  unfold consolePollInput PaneKey
  generalize pollRules key s.terminal = result at polled ⊢
  cases polled with
  | nothing none_read => exact ⟨fun pane => absurd pane (by subst none_read; decide), fun _ => remembers⟩
  | control ctrl =>
    exact ⟨fun pane => absurd pane (by subst ctrl; decide), fun _ => remembers.onConsole _⟩
  | scrolled scrolls =>
    refine ⟨fun pane => absurd pane ?_, fun _ => remembers.onConsole _⟩
    rcases scrolls.1 with rfl | rfl <;> decide
  | moved move panes =>
    have drawn := remembers.paneDraw panes
    generalize Hmi.paneDraw { s.terminal with panes := panes } = t at drawn ⊢
    exact ⟨fun _ => drawn.onConsole (fun c => { c with ctrl := false }), fun never => absurd (by tauto) never⟩
  | resized resize =>
    have drawn := remembers.paneDraw (resizedPanes key s.terminal.panes)
    generalize Hmi.paneDraw { s.terminal with panes := resizedPanes key s.terminal.panes } = t at drawn ⊢
    exact ⟨fun _ => drawn, fun never => absurd (by tauto) never⟩
  | queued queued =>
    refine ⟨fun pane => absurd pane ?_, fun _ => remembers.onConsole _⟩
    rintro (rfl | rfl | rfl | rfl | rfl | rfl) <;> exact queued.2.2 (by simp)

theorem Remembers.pane {s : Recalling} {e : Editor} (remembers : Remembers s e) (op : PaneOp) :
    (op.Redraws s.terminal.panes → Remembers { s with terminal := op.perform s.terminal } e.interrupt) ∧
      (¬op.Redraws s.terminal.panes → Remembers { s with terminal := op.perform s.terminal } e) := by
  refine ⟨fun redraws => ?_, fun idle => ?_⟩
  · obtain ⟨panes, drawn⟩ := perform_paneDraw op s.terminal redraws
    rw [drawn]
    exact remembers.paneDraw panes
  · rw [perform_idle op s.terminal idle]
    exact remembers

theorem Editor.key_history (e : Editor) (ch : Byte) (stays : ch ≠ newline) : (e.key ch).history = e.history := by
  unfold key
  rw [if_neg stays]
  unfold erase left right older newer insert fetch
  split_ifs <;> first | rfl | (split <;> rfl)

theorem Remembers.typed {inv : ComputeInventory} {s : Recalling} {e : Editor} (remembers : Remembers s e)
    (ch : Key) (t : Terminal) (ran : shellKey inv ch.val s.terminal = some (.returned t)) :
    Remembers ⟨t, s.entered ch.val, true⟩ (e.key ch.val) := by
  obtain ⟨edits, newest, entries⟩ := remembers
  obtain ⟨outcome, result, held⟩ := shellKey_reaches inv ch.val s.terminal e ch.property edits
  have after : Edits t.shell (e.key ch.val) := held t (Option.some.inj (result.symm.trans ran))
  have line : typedLine s.terminal.shell = e.line := edits.line
  unfold Recalling.entered
  rw [line]
  by_cases enters : ch.val = newline
  · have key : e.key ch.val = e.enter := if_pos enters
    rw [key] at after ⊢
    refine ⟨after, ?_, ?_⟩
    · unfold Editor.enter
      dsimp only
      by_cases nothing : e.line = []
      · rw [if_pos nothing, if_neg (fun both => both.2 nothing)]
        exact newest
      · rw [if_neg nothing, if_pos ⟨enters, nothing⟩]
        rfl
    · unfold Editor.enter
      dsimp only
      split
      · exact entries
      · rename_i something
        intro member
        rcases List.mem_cons.mp (List.mem_of_mem_take member) with here | older
        · exact something here.symm
        · exact entries older
  · have history := e.key_history ch.val enters
    refine ⟨after, ?_, ?_⟩
    · rw [if_neg (fun both => enters both.1), history]
      exact newest
    · rw [history]
      exact entries

theorem typed_step (inv : ComputeInventory) (ch : Key) (s : Recalling)
    (running : (PromptEvent.step inv (.typed ch) s).running = true) :
    s.running = true ∧ ∃ t, shellKey inv ch.val s.terminal = some (.returned t) ∧
      PromptEvent.step inv (.typed ch) s = ⟨t, s.entered ch.val, true⟩ := by
  unfold PromptEvent.step at running ⊢
  dsimp only at running ⊢
  split at running
  · rename_i t alive ran
    exact ⟨alive, t, ran, rfl⟩
  · cases running

theorem running_step (inv : ComputeInventory) (event : PromptEvent) (s : Recalling)
    (running : (event.step inv s).running = true) : s.running = true := by
  cases event with
  | typed ch => exact (typed_step inv ch s running).1
  | poll | pane | quadrants =>
    unfold PromptEvent.step at running
    exact running

/-- What an event leaves to the reference, and what the place in the history is behind a prompt. -/
structure Follows (inv : ComputeInventory) (event : PromptEvent) (s : Recalling) (after : Editor) : Prop where
  remembers : Remembers (event.step inv s) after
  empty : event.Redisplays s → after.line = []
  place : event.Redisplays s → (after.AtNewest ↔ event.Unbrowsed s)

theorem Remembers.next {inv : ComputeInventory} {s : Recalling} {e : Editor} (remembers : Remembers s e)
    (event : PromptEvent) (running : (event.step inv s).running = true) : ∃ after, Follows inv event s after := by
  have place := atNewest_iff remembers.edits
  cases event with
  | typed ch =>
    obtain ⟨_, t, ran, stepped⟩ := typed_step inv ch s running
    have held := remembers.typed ch t ran
    rw [← stepped] at held
    have enters (newline_typed : ch.val = newline) : e.key ch.val = e.enter := if_pos newline_typed
    refine ⟨e.key ch.val, held, ?_, ?_⟩
    · intro newline_typed
      rw [enters newline_typed]
      rfl
    · intro newline_typed
      rw [enters newline_typed]
      exact iff_of_true (Or.inl rfl) trivial
  | poll key =>
    obtain ⟨prompted, kept⟩ := remembers.poll key
    by_cases pane : PaneKey key
    · exact ⟨e.interrupt, prompted pane, fun _ => rfl, fun _ => place.symm⟩
    · exact ⟨e, kept pane, fun redisplays => absurd redisplays pane, fun redisplays => absurd redisplays pane⟩
  | pane op =>
    obtain ⟨prompted, kept⟩ := remembers.pane op
    by_cases redraws : op.Redraws s.terminal.panes
    · exact ⟨e.interrupt, prompted redraws, fun _ => rfl, fun _ => place.symm⟩
    · exact ⟨e, kept redraws, fun other => absurd other redraws, fun other => absurd other redraws⟩
  | quadrants =>
    exact ⟨e.interrupt, remembers.prompt (fun t => t.onConsole drawQuadrantLines) (fun _ => rfl), fun _ => rfl,
      fun _ => place.symm⟩

theorem start_remembers (t : Terminal) : Remembers (Recalling.start t) Editor.fresh :=
  ⟨initial_edits _ _, rfl, List.not_mem_nil⟩

theorem run_remembers (inv : ComputeInventory) (events : List PromptEvent) (t : Terminal)
    (running : (run (PromptEvent.step inv) events (Recalling.start t)).running = true) :
    ∃ e, Remembers (run (PromptEvent.step inv) events (Recalling.start t)) e :=
  run_invariant (PromptEvent.step inv) (fun s => s.running = true → ∃ e, Remembers s e)
    (by
      intro event s held later
      obtain ⟨e, remembers⟩ := held (running_step inv event s later)
      obtain ⟨after, follows⟩ := remembers.next event later
      exact ⟨after, follows.remembers⟩)
    events _ (fun _ => ⟨_, start_remembers t⟩) running

theorem Remembers.press (inv : ComputeInventory) {s : Recalling} {e : Editor} (remembers : Remembers s e)
    (alive : s.running = true) (ch : Key) (goes : GoesOn ch e) :
    Remembers (PromptEvent.step inv (.typed ch) s) (edit ch e) ∧
      (PromptEvent.step inv (.typed ch) s).running = true ∧
      (ch.val ≠ newline → (PromptEvent.step inv (.typed ch) s).terminal.panes = s.terminal.panes) := by
  obtain ⟨t, ran, _⟩ := shellKey_returns inv ch s.terminal e remembers.edits goes
  have held := remembers.typed ch t ran
  have stepped : PromptEvent.step inv (.typed ch) s = ⟨t, s.entered ch.val, true⟩ := by
    unfold PromptEvent.step
    dsimp only
    rw [alive, ran]
  rw [stepped]
  refine ⟨held, rfl, fun stays => ?_⟩
  obtain ⟨after, same, _, panes⟩ :=
    (shellKey_ends inv ch.val s.terminal e ch.property remembers.edits stays).returns
  rw [ran] at same
  rw [Outcome.returned.inj (Option.some.inj same)]
  exact panes

theorem Remembers.keys (inv : ComputeInventory) {s : Recalling} {e : Editor} (remembers : Remembers s e)
    (alive : s.running = true) (keys : List Key) (goes : Along edit GoesOn keys e) :
    Remembers (run (PromptEvent.step inv) (keys.map .typed) s) (run edit keys e) ∧
      (run (PromptEvent.step inv) (keys.map .typed) s).running = true ∧
      ((∀ ch ∈ keys, ch.val ≠ newline) →
        (run (PromptEvent.step inv) (keys.map .typed) s).terminal.panes = s.terminal.panes) := by
  induction keys generalizing s e with
  | nil => exact ⟨remembers, alive, fun _ => rfl⟩
  | cons ch keys ih =>
    obtain ⟨next, runs, kept⟩ := remembers.press inv alive ch goes.1
    obtain ⟨last, still, same⟩ := ih next runs goes.2
    refine ⟨last, still, fun stays => ?_⟩
    exact (same (fun c member => stays c (List.mem_cons_of_mem ch member))).trans (kept (stays ch List.mem_cons_self))

theorem correctedHi_goesOn : Along edit GoesOn correctedHi Editor.fresh := by decide +kernel

/-- A prompt recalls the command entered last exactly if the shell displays it, or the history
is at its newest entry. -/
theorem fresh_prompt_iff (inv : ComputeInventory) (t : Terminal) (events : List PromptEvent) (event : PromptEvent)
    (running : (event.step inv (run (PromptEvent.step inv) events (Recalling.start t))).running = true)
    (redisplays : event.Redisplays (run (PromptEvent.step inv) events (Recalling.start t))) :
    FreshPrompt inv (event.step inv (run (PromptEvent.step inv) events (Recalling.start t))) ↔
      event.Unbrowsed (run (PromptEvent.step inv) events (Recalling.start t)) := by
  obtain ⟨e, remembers⟩ := run_remembers inv events t (running_step inv event _ running)
  obtain ⟨after, follows⟩ := remembers.next event running
  exact (freshPrompt_iff inv _ after follows.remembers (follows.empty redisplays)).trans (follows.place redisplays)

theorem corrected_hi_recalled :
    FreshPrompt emptyInventory (PromptEvent.step emptyInventory (.typed ⟨newline, by decide⟩)
      (run (PromptEvent.step emptyInventory) (correctedHi.map .typed) (Recalling.start Terminal.zeroed))) := by
  obtain ⟨remembers, alive, _⟩ :=
    (start_remembers Terminal.zeroed).keys emptyInventory rfl correctedHi correctedHi_goesOn
  obtain ⟨_, still, _⟩ := remembers.press emptyInventory alive ⟨newline, by decide⟩ (by decide +kernel)
  exact (fresh_prompt_iff emptyInventory Terminal.zeroed (correctedHi.map .typed) (.typed ⟨newline, by decide⟩)
    still rfl).mpr trivial

/-- The command `a` is entered and recalled, and a pane key gives up the line: Up stays on an
empty line. -/
theorem recalled_line_lost :
    ¬FreshPrompt emptyInventory (run (PromptEvent.step emptyInventory)
      [.typed ⟨0x61#8, by decide⟩, .typed ⟨newline, by decide⟩, .typed ⟨keyUp, by decide⟩, .pane .moveLeft]
      (Recalling.start Terminal.zeroed)) := by
  obtain ⟨third, _⟩ := (start_remembers Terminal.zeroed).keys emptyInventory rfl
    [⟨0x61#8, by decide⟩, ⟨newline, by decide⟩, ⟨keyUp, by decide⟩] (by decide +kernel)
  have last := (third.pane .moveLeft).1 trivial
  intro fresh
  have place := (freshPrompt_iff emptyInventory _ _ last rfl).mp fresh
  rcases place with idle | ⟨_, several, _⟩
  · exact absurd idle (by decide)
  · exact absurd several (by decide)

end LifeOS.Console
