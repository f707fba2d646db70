import LifeOS.Console.Queue
import LifeOS.Console.Shell
import LifeOS.Gui.Line
import LifeOS.Sched.Kmain

/-!
The three tasks of `kmain` on one keyboard. `idle_task` only yields and `gui_task` reads
the keyboard for its own line, so the ring that `shell_task` waits on is never filled.
-/

namespace LifeOS.Kernel
open LifeOS.Console LifeOS.Drivers LifeOS.Gui LifeOS.Library.Runs LifeOS.Library.Strings
open LifeOS.Library.Memory (Addr)
open LifeOS.Sched (Task Scheduler Placed kmain taskPage turnsFrom switchedTo initial kmain_switches)

/-- What `console_poll_input` would owe the shell for the keys read so far: the terminal
that its rules act on, and the characters they queue while there is room. -/
structure Owed where
  terminal : Terminal
  keys : List Byte

/-- The machine between two turns, with the characters that `console_getc` has returned. -/
structure System where
  terminal : Terminal
  keyboard : Keyboard
  gui : InputLine
  running : Task
  halted : Bool
  returned : List Byte
  owed : Owed

def Owed.read (key : Byte) (room : Bool) (owed : Owed) : Owed :=
  match pollRules key owed.terminal with
  | (after, some ch) => ⟨after, if room then owed.keys ++ [ch] else owed.keys⟩
  | (after, none) => ⟨after, owed.keys⟩

def Owed.handle (inv : ComputeInventory) (ch : Byte) (owed : Owed) : Owed :=
  match shellKey inv ch owed.terminal with
  | some (.returned t) => { owed with terminal := t }
  | _ => owed

/-- One iteration of `shell_task`; an access outside its arrays ends the run as `halted`. -/
def shellTurn (inv : ComputeInventory) (s : System) : System :=
  let (ch, con) := consoleGetc s.terminal.con
  let t := { s.terminal with con := con }
  if ch = 0#8 then { s with terminal := t }
  else
    let s := { s with returned := s.returned ++ [ch], owed := s.owed.handle inv ch }
    match shellKey inv ch t with
    | some (.returned t) => { s with terminal := t }
    | some (.halted t) => { s with terminal := t, halted := true }
    | none => { s with terminal := t, halted := true }

def guiTurn (font : Font) (s : System) : System :=
  let (c, keyboard) := keyboardReadChar s.keyboard
  { s with keyboard := keyboard
           gui := if c ≠ 0#8 then guiHandleKey font c s.gui else s.gui
           owed := s.owed.read c ((waiting s.terminal.con).length ≠ 127) }

def turn (font : Font) (inv : ComputeInventory) (s : System) : System :=
  match s.running with
  | .idleTask => s
  | .shellTask => shellTurn inv s
  | .guiTask => guiTurn font s

/-- A byte reaches the controller, or the running task takes its turn. -/
inductive Event where
  | arrive (sc : Byte)
  | turn

def step (font : Font) (inv : ComputeInventory) : Event → System → System
  | .arrive sc, s => { s with keyboard := { s.keyboard with pending := s.keyboard.pending ++ [sc] } }
  | .turn, s =>
      if s.halted then s else { turn font inv s with running := s.running.next }

/-- `sched_start` behind `kernel_init`, which leaves a terminal with an empty ring. -/
def start (t : Terminal) (fb : Frame) : System where
  terminal := t.onConsole (fun c => { c with inputHead := 0, inputTail := 0 })
  keyboard := ⟨[], false⟩
  gui := InputLine.initial fb
  running := .idleTask
  halted := false
  returned := []
  owed := ⟨t.onConsole (fun c => { c with inputHead := 0, inputTail := 0 }), []⟩

/-- The shell has or gets the keys it is owed, in order and once. -/
def Delivered (s : System) : Prop := s.returned ++ waiting s.terminal.con = s.owed.keys

/-- The turn reads no key that `console_poll_input` would queue. -/
def NothingTyped : Event → System → Prop
  | .arrive _, _ => True
  | .turn, s => s.halted = false → s.running = .guiTask →
      (pollRules (keyboardReadChar s.keyboard).1 s.owed.terminal).2 = none

def Quiet (s : System) : Prop := s.returned = [] ∧ waiting s.terminal.con = []

theorem start_quiet (t : Terminal) (fb : Frame) : Quiet (start t fb) := by
  have length : (waiting (start t fb).terminal.con).length = (0 + 128 - 0) % 128 := waiting_length _
  exact ⟨rfl, List.length_eq_zero_iff.mp length⟩

theorem start_delivered (t : Terminal) (fb : Frame) : Delivered (start t fb) := by
  obtain ⟨none_returned, none_waiting⟩ := start_quiet t fb
  rw [Delivered, none_returned, none_waiting]
  rfl

theorem shellTurn_quiet (inv : ComputeInventory) (s : System) (quiet : Quiet s) : shellTurn inv s = s := by
  unfold shellTurn
  rw [getc_empty s.terminal.con quiet.2]
  exact if_pos rfl

theorem turn_quiet (font : Font) (inv : ComputeInventory) (s : System) (quiet : Quiet s) :
    Quiet (turn font inv s) := by
  unfold turn
  cases s.running with
  | idleTask => exact quiet
  | shellTask =>
    dsimp only
    rw [shellTurn_quiet inv s quiet]
    exact quiet
  | guiTask => exact quiet

theorem step_quiet (font : Font) (inv : ComputeInventory) (event : Event) (s : System) (quiet : Quiet s) :
    Quiet (step font inv event s) := by
  cases event with
  | arrive sc => exact quiet
  | turn =>
    unfold step
    dsimp only
    split
    · exact quiet
    · exact turn_quiet font inv s quiet

def keyRead : Event → System → Byte
  | .arrive _, _ => 0#8
  | .turn, s =>
      if s.halted then 0#8
      else match s.running with
        | .guiTask => (keyboardReadChar s.keyboard).1
        | _ => 0#8

theorem step_gui (font : Font) (inv : ComputeInventory) (event : Event) (s : System) (quiet : Quiet s) :
    (step font inv event s).gui =
      if keyRead event s ≠ 0#8 then guiHandleKey font (keyRead event s) s.gui else s.gui := by
  have still (key : keyRead event s = 0#8) (same : (step font inv event s).gui = s.gui) :
      (step font inv event s).gui =
        if keyRead event s ≠ 0#8 then guiHandleKey font (keyRead event s) s.gui else s.gui := by
    rw [key, if_neg (not_not_intro rfl), same]
  cases event with
  | arrive sc => rfl
  | turn =>
    by_cases stopped : s.halted = true
    · exact still (if_pos stopped) (congrArg System.gui (if_pos stopped))
    · have stepped : step font inv .turn s = { turn font inv s with running := s.running.next } := if_neg stopped
      have key : keyRead .turn s = match s.running with
        | .guiTask => (keyboardReadChar s.keyboard).1
        | _ => 0#8 := if_neg stopped
      have turned : (step font inv .turn s).gui = (turn font inv s).gui := by
        rw [stepped]
      unfold turn at turned
      cases running : s.running with
      | idleTask =>
        rw [running] at key turned
        exact still key turned
      | shellTask =>
        rw [running] at key turned
        dsimp only at turned
        rw [shellTurn_quiet inv s quiet] at turned
        exact still key turned
      | guiTask =>
        rw [running] at key turned
        rw [key, turned]
        rfl

theorem step_legible (font : Font) (inv : ComputeInventory) (event : Event) (s : System) (quiet : Quiet s)
    (legible : Machine.Legible s.gui) : Machine.Legible (step font inv event s).gui := by
  rw [step_gui font inv event s quiet]
  split_ifs
  · exact Machine.legible_key font _ s.gui legible
  · exact legible

theorem run_legible (font : Font) (inv : ComputeInventory) (t : Terminal) (fb : Frame) (events : List Event) :
    Machine.Legible (run (step font inv) events (start t fb)).gui := by
  have kept := run_invariant (step font inv) (fun s => Quiet s ∧ Machine.Legible s.gui)
    (fun event s held => ⟨step_quiet _ inv event s held.1, step_legible _ inv event s held.1 held.2⟩)
    events (start t fb) ⟨start_quiet t fb, Machine.legible_initial fb⟩
  exact kept.2

/-- In every run the next key of the GUI stays inside its buffer, the font and the framebuffer,
and does what the turn does. -/
theorem gui_turn_checked (font : Machine.Glyphs) (inv : ComputeInventory) (t : Terminal) (fb : Frame)
    (events : List Event) (c : Byte) :
    Machine.guiHandleKey font c
        (Machine.data (run (step (Machine.rows font) inv) events (start t fb)).gui) =
      some (Machine.data (guiHandleKey (Machine.rows font) c
        (run (step (Machine.rows font) inv) events (start t fb)).gui)) :=
  Machine.guiHandleKey_eq font c _ (run_legible (Machine.rows font) inv t fb events)

def ran (font : Font) (inv : ComputeInventory) : List Event → System → List Task
  | [], _ => []
  | .arrive sc :: events, s => ran font inv events (step font inv (.arrive sc) s)
  | .turn :: events, s =>
      if s.halted then ran font inv events s
      else s.running :: ran font inv events (step font inv .turn s)

def turnCount : List Event → Nat
  | [] => 0
  | .arrive _ :: events => turnCount events
  | .turn :: events => turnCount events + 1

theorem turn_active (font : Font) (inv : ComputeInventory) (s : System) (quiet : Quiet s)
    (active : s.halted = false) : (turn font inv s).halted = false := by
  unfold turn
  cases s.running with
  | idleTask => exact active
  | shellTask =>
    dsimp only
    rw [shellTurn_quiet inv s quiet]
    exact active
  | guiTask => exact active

theorem ran_eq (font : Font) (inv : ComputeInventory) (events : List Event) (s : System) (quiet : Quiet s)
    (active : s.halted = false) : ran font inv events s = turnsFrom s.running (turnCount events) := by
  induction events generalizing s with
  | nil => rfl
  | cons event events ih =>
    have next := step_quiet font inv event s quiet
    cases event with
    | arrive sc => exact ih _ next active
    | turn =>
      have stepped : step font inv .turn s = { turn font inv s with running := s.running.next } := by
        unfold step
        dsimp only
        rw [active]
        rfl
      have later := ih _ next (by rw [stepped]; exact turn_active font inv s quiet active)
      have running : (step font inv .turn s).running = s.running.next := by rw [stepped]
      rw [running] at later
      unfold ran
      rw [active, later]
      rfl

/-- The turns of a run are those that the scheduler's list and `sched_yield` give. -/
theorem ran_as_switched (font : Font) (inv : ComputeInventory) (t : Terminal) (fb : Frame)
    (events : List Event) (boot : Addr) (s : Scheduler) (entry : Task → Addr) (saved : Addr)
    (saves : List Addr) (placed : Placed boot s) (room : s.nextFreePage.toNat + 24576 < 2 ^ 64)
    (count : turnCount events = saves.length + 1) :
    (ran font inv events (start t fb)).map (taskPage s.nextFreePage) =
      switchedTo boot (kmain entry s.nextFreePage saved ++ saves.map .yield) (initial s) := by
  rw [kmain_switches boot entry s saved saves placed room,
    ran_eq font inv events (start t fb) (start_quiet t fb) rfl, count]
  rfl

theorem delivered_iff {s : System} (quiet : Quiet s) : Delivered s ↔ s.owed.keys = [] := by
  rw [Delivered, quiet.1, quiet.2, List.append_nil, eq_comm]

theorem read_keys (key : Byte) (owed : Owed) (none_owed : owed.keys = []) :
    (owed.read key true).keys = [] ↔ (pollRules key owed.terminal).2 = none := by
  unfold Owed.read
  cases rules : pollRules key owed.terminal with
  | mk after queued =>
    cases queued with
    | none => simp [none_owed]
    | some ch => simp

/-- A turn keeps the shell served exactly when it reads nothing that is owed to it. -/
theorem step_delivered_iff (font : Font) (inv : ComputeInventory) (event : Event) (s : System)
    (quiet : Quiet s) (delivered : Delivered s) :
    Delivered (step font inv event s) ↔ NothingTyped event s := by
  have none_owed := (delivered_iff quiet).mp delivered
  cases event with
  | arrive sc => exact ⟨fun _ => trivial, fun _ => delivered⟩
  | turn =>
    rw [delivered_iff (step_quiet font inv .turn s quiet)]
    unfold step NothingTyped
    dsimp only
    by_cases halted : s.halted = true
    · rw [if_pos halted, halted]
      exact ⟨fun _ => nofun, fun _ => none_owed⟩
    · have active : s.halted = false := Bool.eq_false_iff.mpr halted
      rw [if_neg halted]
      change (turn font inv s).owed.keys = [] ↔ _
      unfold turn
      cases running : s.running with
      | idleTask => exact ⟨fun _ _ => nofun, fun _ => none_owed⟩
      | shellTask =>
        dsimp only
        rw [shellTurn_quiet inv s quiet]
        exact ⟨fun _ _ => nofun, fun _ => none_owed⟩
      | guiTask =>
        have room : (waiting s.terminal.con).length ≠ 127 := by
          rw [quiet.2]
          decide
        have exactly := read_keys (keyboardReadChar s.keyboard).1 s.owed none_owed
        rw [← decide_eq_true room] at exactly
        exact exactly.trans ⟨fun nothing _ _ => nothing, fun nothing => nothing active rfl⟩

/-- Through every run the shell gets its keys exactly as long as nobody types any. -/
theorem keys_delivered_iff (font : Font) (inv : ComputeInventory) (t : Terminal) (fb : Frame)
    (events : List Event) :
    Throughout (step font inv) Delivered events (start t fb) ↔
      Along (step font inv) NothingTyped events (start t fb) :=
  throughout_iff_along_of (step font inv) Quiet NothingTyped Delivered (step_quiet font inv)
    (step_delivered_iff font inv) events (start t fb) (start_quiet t fb) (start_delivered t fb)

/-- An `a` on the keyboard goes to the line of the GUI; the shell is owed it for ever. -/
theorem letter_kept_from_shell :
    ¬∀ font inv t fb events, Throughout (step font inv) Delivered events (start t fb) := by
  intro always
  have held := always (fun _ _ => 0#8) emptyInventory Terminal.zeroed (fun _ => 0#32)
    [.arrive 0x1E#8, .turn, .turn, .turn]
  have last := throughout_last _ _ _ _ held
  have quiet := run_invariant (step (fun _ _ => 0#8) emptyInventory) Quiet (step_quiet _ _)
    [.arrive 0x1E#8, .turn, .turn, .turn] _ (start_quiet Terminal.zeroed (fun _ => 0#32))
  have nothing := (delivered_iff quiet).mp last
  exact absurd nothing (by decide +kernel)

end LifeOS.Kernel
