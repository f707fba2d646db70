import LifeOS.Drivers.Scancodes
import LifeOS.Gui.Glyphs
import LifeOS.Kernel

/-!
What the running system makes of the bytes that reach the keyboard controller: `gui_task`
reads each of them once, in order, within three turns a byte, and the framebuffer shows the
line of the keys they decode to.
-/

namespace LifeOS.Kernel
open LifeOS.Console LifeOS.Drivers LifeOS.Gui LifeOS.Library.Runs LifeOS.Library.Strings
open LifeOS.Gui.Machine (referenceKey run_line)
open LifeOS.Sched (Task)

def arrived : List Event → List Byte
  | [] => []
  | .arrive sc :: events => sc :: arrived events
  | .turn :: events => arrived events

theorem arrived_append (front back : List Event) : arrived (front ++ back) = arrived front ++ arrived back := by
  induction front with
  | nil => rfl
  | cons event front ih =>
    cases event with
    | arrive sc => exact congrArg (sc :: ·) ih
    | turn => exact ih

/-- Of the bytes `fed` to the controller the GUI has read `read`, and the others wait. -/
structure Followed (font : Font) (first : InputLine) (fed read : List Byte) (s : System) : Prop where
  bytes : fed = read ++ s.keyboard.pending
  driver : (readAll read idle).2 = ⟨[], s.keyboard.haveE0⟩
  line : s.gui = run (guiHandleKey font) (readAll read idle).1 first

theorem readChar_front (sc : Byte) (rest : List Byte) (haveE0 : Bool) :
    keyboardReadChar ⟨sc :: rest, haveE0⟩ =
        ((keyboardReadChar ⟨[sc], haveE0⟩).1, ⟨rest, (keyboardReadChar ⟨[sc], haveE0⟩).2.haveE0⟩) ∧
      (keyboardReadChar ⟨[sc], haveE0⟩).2.pending = [] := by
  unfold keyboardReadChar
  dsimp only
  split_ifs <;> exact ⟨rfl, rfl⟩

theorem readAll_next (read : List Byte) (sc : Byte) (haveE0 : Bool)
    (driver : (readAll read idle).2 = ⟨[], haveE0⟩) :
    readAll (read ++ [sc]) idle =
      ((readAll read idle).1 ++ KeyEvent.mapped (keyboardReadChar ⟨[sc], haveE0⟩).1,
        ⟨[], (keyboardReadChar ⟨[sc], haveE0⟩).2.haveE0⟩) := by
  have emptied := congrArg Prod.snd (readChar_front sc [] haveE0).1
  rw [readAll_append, driver]
  change ((readAll read idle).1 ++ (KeyEvent.mapped (keyboardReadChar ⟨[sc], haveE0⟩).1 ++ []),
    (keyboardReadChar ⟨[sc], haveE0⟩).2) = _
  rw [List.append_nil]
  exact Prod.ext rfl emptied

theorem guiTurn_line (font : Font) (c : Byte) (g : InputLine) :
    (if c ≠ 0#8 then guiHandleKey font c g else g) = run (guiHandleKey font) (KeyEvent.mapped c) g := by
  unfold KeyEvent.mapped
  by_cases silent : c = 0#8
  · rw [if_neg (fun mapped => mapped silent), if_pos silent]
    rfl
  · rw [if_pos silent, if_neg silent]
    rfl

theorem guiTurn_followed (font : Font) (first : InputLine) (fed read : List Byte) (s : System)
    (followed : Followed font first fed read s) :
    Followed font first fed (read ++ s.keyboard.pending.take 1) (guiTurn font s) := by
  obtain ⟨bytes, driver, line⟩ := followed
  unfold guiTurn
  cases waits : s.keyboard with
  | mk pending haveE0 =>
    rw [waits] at bytes driver
    dsimp only at bytes driver
    cases pending with
    | nil =>
      rw [List.take_nil, List.append_nil]
      exact ⟨bytes, driver, line⟩
    | cons sc rest =>
      have next := readAll_next read sc haveE0 driver
      rw [(readChar_front sc rest haveE0).1]
      dsimp only
      rw [List.take_succ_cons, List.take_zero]
      refine ⟨?_, ?_, ?_⟩
      · rw [bytes, List.append_assoc]
        rfl
      · rw [next]
      · dsimp only
        rw [next, guiTurn_line, line, run_append]

def untilGui : Task → Nat
  | .idleTask => 3
  | .shellTask => 2
  | .guiTask => 1

/-- The turns until `target` bytes have been read, when so many have arrived. -/
def turnsLeft (target : Nat) (read : List Byte) (running : Task) : Nat :=
  if read.length < target then 3 * (target - read.length - 1) + untilGui running else 0

theorem turnsLeft_pass (target : Nat) (read : List Byte) (running : Task) (other : running ≠ .guiTask) :
    turnsLeft target read running.next ≤ turnsLeft target read running - 1 := by
  have nearer : untilGui running.next = untilGui running - 1 ∧ 1 < untilGui running := by
    cases running with
    | idleTask | shellTask => decide
    | guiTask => exact absurd rfl other
  unfold turnsLeft
  split <;> omega

theorem turnsLeft_read (target : Nat) (read pending : List Byte)
    (present : target ≤ (read ++ pending).length) :
    turnsLeft target (read ++ pending.take 1) .idleTask ≤ turnsLeft target read .guiTask - 1 := by
  have first : untilGui .idleTask = 3 := rfl
  have last : untilGui .guiTask = 1 := rfl
  rw [List.length_append] at present
  unfold turnsLeft
  rw [List.length_append, List.length_take, first, last]
  split_ifs <;> omega

structure Undisturbed (first s : System) : Prop where
  quiet : Quiet s
  active : s.halted = false
  terminal : s.terminal = first.terminal

theorem turn_terminal (font : Font) (inv : ComputeInventory) (s : System) (quiet : Quiet s) :
    (turn font inv s).terminal = s.terminal := by
  unfold turn
  cases s.running with
  | idleTask => rfl
  | shellTask =>
    dsimp only
    rw [shellTurn_quiet inv s quiet]
  | guiTask => rfl

theorem step_turn (font : Font) (inv : ComputeInventory) (s : System) (active : s.halted = false) :
    step font inv .turn s = { turn font inv s with running := s.running.next } := by
  unfold step
  dsimp only
  rw [active]
  rfl

theorem step_undisturbed (font : Font) (inv : ComputeInventory) (first : System) (event : Event) (s : System)
    (held : Undisturbed first s) : Undisturbed first (step font inv event s) := by
  have quiet := step_quiet font inv event s held.quiet
  cases event with
  | arrive sc => exact ⟨quiet, held.active, held.terminal⟩
  | turn =>
    refine ⟨quiet, ?_, ?_⟩
    · rw [step_turn font inv s held.active]
      exact turn_active font inv s held.quiet held.active
    · rw [step_turn font inv s held.active]
      exact (turn_terminal font inv s held.quiet).trans held.terminal

/-- A step reads on, and a turn brings every byte that has arrived one turn nearer. -/
theorem step_followed (font : Font) (inv : ComputeInventory) (start : System) (first : InputLine)
    (fed read : List Byte) (event : Event) (s : System) (held : Undisturbed start s)
    (followed : Followed font first fed read s) :
    ∃ later, Followed font first (fed ++ arrived [event]) (read ++ later) (step font inv event s) ∧
      ∀ target ≤ fed.length, turnsLeft target (read ++ later) (step font inv event s).running ≤
        turnsLeft target read s.running - turnCount [event] := by
  have unread : Followed font first fed (read ++ []) s := (List.append_nil read).symm ▸ followed
  cases event with
  | arrive sc =>
    refine ⟨[], ⟨?_, unread.driver, unread.line⟩, ?_⟩
    · rw [followed.bytes, List.append_nil, List.append_assoc]
      rfl
    · intro target _
      rw [List.append_nil]
      exact Nat.le_refl _
  | turn =>
    rw [step_turn font inv s held.active]
    change ∃ later, Followed font first (fed ++ []) _ _ ∧ _
    rw [List.append_nil]
    have passed (other : s.running ≠ .guiTask) (target : Nat) :
        turnsLeft target (read ++ []) s.running.next ≤ turnsLeft target read s.running - turnCount [.turn] := by
      rw [List.append_nil]
      exact turnsLeft_pass target read s.running other
    unfold turn
    cases running : s.running with
    | idleTask =>
      rw [running] at passed
      exact ⟨[], ⟨unread.bytes, unread.driver, unread.line⟩, fun target _ => passed nofun target⟩
    | shellTask =>
      rw [running] at passed
      dsimp only
      rw [shellTurn_quiet inv s held.quiet]
      exact ⟨[], ⟨unread.bytes, unread.driver, unread.line⟩, fun target _ => passed nofun target⟩
    | guiTask =>
      have further := guiTurn_followed font first fed read s followed
      refine ⟨s.keyboard.pending.take 1, ⟨further.bytes, further.driver, further.line⟩, ?_⟩
      intro target present
      exact turnsLeft_read target read s.keyboard.pending (followed.bytes ▸ present)

theorem run_followed (font : Font) (inv : ComputeInventory) (start : System) (first : InputLine)
    (events : List Event) (fed read : List Byte) (s : System) (held : Undisturbed start s)
    (followed : Followed font first fed read s) :
    ∃ later, Followed font first (fed ++ arrived events) (read ++ later) (run (step font inv) events s) ∧
      ∀ target ≤ fed.length,
        turnsLeft target (read ++ later) (run (step font inv) events s).running ≤
          turnsLeft target read s.running - turnCount events := by
  induction events generalizing fed read s with
  | nil =>
    refine ⟨[], ?_, ?_⟩
    · rw [arrived, List.append_nil, List.append_nil]
      exact followed
    · intro target _
      rw [List.append_nil]
      exact Nat.le_refl _
  | cons event events ih =>
    obtain ⟨now, next, nearer⟩ := step_followed font inv start first fed read event s held followed
    obtain ⟨later, last, near⟩ := ih _ _ _ (step_undisturbed font inv start event s held) next
    have split : arrived (event :: events) = arrived [event] ++ arrived events := arrived_append [event] events
    have turns : turnCount (event :: events) = turnCount [event] + turnCount events := by
      cases event with
      | arrive sc => exact (Nat.zero_add _).symm
      | turn => exact Nat.add_comm _ 1
    refine ⟨now ++ later, ?_, ?_⟩
    · rw [split, ← List.append_assoc, ← List.append_assoc]
      exact last
    · intro target present
      have here := nearer target present
      have there := near target (by rw [List.length_append]; omega)
      rw [← List.append_assoc, turns]
      change turnsLeft target _ (run (step font inv) events (step font inv event s)).running ≤ _
      omega

def guiInit (font : Font) (fb : Frame) : InputLine := redraw font (InputLine.initial fb)

theorem keys_shown (font : Font) (keys : List Byte) (fb : Frame) :
    Shows font (run (guiHandleKey font) keys (guiInit font fb)).line
      (run (guiHandleKey font) keys (guiInit font fb)).fb := by
  apply run_invariant (guiHandleKey font) (fun g => Shows font g.line g.fb)
  · exact fun c g _ => Machine.key_shows font c g
  · exact Machine.redraw_shows font (InputLine.initial fb)

/-- The machine that `sched_start` finds behind `gui_init`. -/
def booted (font : Font) (t : Terminal) (fb : Frame) : System := start t (guiInit font fb).fb

theorem booted_undisturbed (font : Font) (t : Terminal) (fb : Frame) :
    Undisturbed (booted font t fb) (booted font t fb) :=
  ⟨start_quiet t _, rfl, rfl⟩

theorem run_undisturbed (font : Font) (inv : ComputeInventory) (t : Terminal) (fb : Frame) (events : List Event) :
    Undisturbed (booted font t fb) (run (step font inv) events (booted font t fb)) :=
  run_invariant (step font inv) (Undisturbed (booted font t fb))
    (step_undisturbed font inv (booted font t fb)) events _ (booted_undisturbed font t fb)

theorem booted_followed (font : Font) (inv : ComputeInventory) (t : Terminal) (fb : Frame) (events : List Event) :
    ∃ read, Followed font (guiInit font fb) (arrived events) read
      (run (step font inv) events (booted font t fb)) := by
  obtain ⟨read, followed, _⟩ := run_followed font inv (booted font t fb) (guiInit font fb) events [] [] _
    (booted_undisturbed font t fb) ⟨rfl, rfl, rfl⟩
  exact ⟨read, followed⟩

/-- What the machine shows of the bytes `fed`, of which it has read `read`: the line of the
reference editor on the keys that they decode to. -/
structure Displayed (font : Font) (first : System) (fed read : List Byte) (s : System) : Prop where
  bytes : fed = read ++ s.keyboard.pending
  driver : (readAll read idle).2 = ⟨[], s.keyboard.haveE0⟩
  line : s.gui.line = (readAll read idle).1.foldl referenceKey []
  screen : Shows font s.gui.line s.gui.fb
  terminal : s.terminal = first.terminal
  unserved : s.returned = []
  active : s.halted = false

theorem displayed_of_followed (font : Font) (fb : Frame) (first : System) (fed read : List Byte) (s : System)
    (held : Undisturbed first s) (followed : Followed font (guiInit font fb) fed read s) :
    Displayed font first fed read s := by
  refine ⟨followed.bytes, followed.driver, ?_, ?_, held.terminal, held.quiet.1, held.active⟩
  · rw [followed.line]
    exact run_line font (readAll read idle).1 (guiInit font fb)
  · rw [followed.line]
    exact keys_shown font (readAll read idle).1 fb

/-- In every run the GUI has read the bytes that arrived in order, up to those that wait, and its
line and its screen are those of the keys they decode to; the text terminal stays as it was. -/
theorem typing_displayed (font : Font) (inv : ComputeInventory) (t : Terminal) (fb : Frame)
    (events : List Event) :
    ∃ read, Displayed font (booted font t fb) (arrived events) read
      (run (step font inv) events (booted font t fb)) := by
  obtain ⟨read, followed⟩ := booted_followed font inv t fb events
  exact ⟨read, displayed_of_followed font fb _ _ read _ (run_undisturbed font inv t fb events) followed⟩

/-- Three turns for each byte that waits are enough, whatever arrives meanwhile. -/
theorem waiting_read (font : Font) (inv : ComputeInventory) (t : Terminal) (fb : Frame)
    (front back : List Event)
    (turns : 3 * (run (step font inv) front (booted font t fb)).keyboard.pending.length ≤ turnCount back) :
    ∃ read, Followed font (guiInit font fb) (arrived (front ++ back)) read
        (run (step font inv) (front ++ back) (booted font t fb)) ∧
      arrived front <+: read := by
  obtain ⟨read, followed⟩ := booted_followed font inv t fb front
  have held := run_undisturbed font inv t fb front
  rw [run_append, arrived_append]
  generalize run (step font inv) front (booted font t fb) = s at turns followed held
  obtain ⟨later, last, near⟩ := run_followed font inv (booted font t fb) (guiInit font fb) back _ _ s held followed
  have soon := near (arrived front).length (Nat.le_refl _)
  have whole := congrArg List.length followed.bytes
  rw [List.length_append] at whole
  have late : untilGui s.running ≤ 3 := by
    cases s.running <;> decide
  have some_turn : 0 < untilGui (run (step font inv) back s).running := by
    cases (run (step font inv) back s).running <;> decide
  have all : (arrived front).length ≤ (read ++ later).length := by
    unfold turnsLeft at soon
    split_ifs at soon <;> omega
  have reads : read ++ later <+: arrived front ++ arrived back := ⟨_, last.bytes.symm⟩
  exact ⟨_, last, List.prefix_of_prefix_length_le ⟨_, rfl⟩ reads all⟩

theorem decoded_events (keys : List KeyEvent) (others : .pause ∉ keys) :
    readAll (keys.flatMap KeyEvent.bytes) idle = (keys.flatMap KeyEvent.typed, idle) := by
  have same : keys.flatMap KeyEvent.read = keys.flatMap KeyEvent.typed := by
    apply List.flatMap_congr
    intro event member
    apply event.read_eq_typed
    rintro rfl
    exact others member
  rw [KeyEvent.readAll_events, same]

/-- The events reach the controller in any interleaving with the turns. Some turns behind the last
of them the line is that of the reference editor on the keys pressed, and the screen shows it. -/
theorem events_displayed (font : Font) (inv : ComputeInventory) (t : Terminal) (fb : Frame)
    (keys : List KeyEvent) (others : .pause ∉ keys) (front back : List Event)
    (typed : arrived front = keys.flatMap KeyEvent.bytes) (silent : arrived back = [])
    (turns : 3 * (run (step font inv) front (booted font t fb)).keyboard.pending.length ≤ turnCount back) :
    ∃ s, run (step font inv) (front ++ back) (booted font t fb) = s ∧ s.keyboard = idle ∧
      s.gui.line = (keys.flatMap KeyEvent.typed).foldl referenceKey [] ∧ Shows font s.gui.line s.gui.fb := by
  obtain ⟨read, followed, reads⟩ := waiting_read font inv t fb front back turns
  have displayed := displayed_of_followed font fb _ _ read _ (run_undisturbed font inv t fb (front ++ back)) followed
  have whole := displayed.bytes
  rw [arrived_append, silent, List.append_nil] at whole
  have all : read = arrived front := List.IsPrefix.eq_of_length ⟨_, whole.symm⟩
    (Nat.le_antisymm (List.IsPrefix.length_le ⟨_, whole.symm⟩) reads.length_le)
  have none_waits : (run (step font inv) (front ++ back) (booted font t fb)).keyboard.pending = [] := by
    rw [all] at whole
    exact List.append_cancel_left ((List.append_nil _).trans whole).symm
  have decoded := (decoded_events keys others)
  rw [← typed, ← all] at decoded
  have driver := displayed.driver
  rw [decoded] at driver
  refine ⟨_, rfl, ?_, ?_, displayed.screen⟩
  · rw [idle, (Keyboard.mk.inj driver).2, ← none_waits]
  · rw [displayed.line, decoded]

/-- The key `a`, pressed and released while the tasks take turns. -/
theorem letter_displayed :
    ∃ s, run (step (Machine.rows font8x8Basic) emptyInventory)
        ([.arrive 0x1E#8, .turn, .arrive 0x9E#8] ++ List.replicate 6 .turn)
        (booted (Machine.rows font8x8Basic) Terminal.zeroed (fun _ => 0#32)) = s ∧
      s.keyboard = idle ∧ s.gui.line = [0x61#8] ∧ Shows (Machine.rows font8x8Basic) s.gui.line s.gui.fb := by
  have held := events_displayed (Machine.rows font8x8Basic) emptyInventory Terminal.zeroed (fun _ => 0#32)
    [.press ⟨0x1E#8, by decide, by decide⟩, .release ⟨0x1E#8, by decide, by decide⟩] (by simp)
    [.arrive 0x1E#8, .turn, .arrive 0x9E#8] (List.replicate 6 .turn) rfl rfl (Nat.le_refl 6)
  exact held

theorem readChar_key (k : Keyboard) : (keyboardReadChar k).1 ≠ 0x7F#8 := by
  have codes : ∀ sc : Byte, handlePlain sc ≠ 0x7F#8 ∧ handleExtended sc ≠ 0x7F#8 := by decide +kernel
  have none_read : 0#8 ≠ 0x7F#8 := by decide
  unfold keyboardReadChar
  cases k.pending with
  | nil => exact none_read
  | cons sc rest =>
    dsimp only
    split_ifs
    · exact none_read
    · exact (codes sc).2
    · exact (codes sc).1

theorem readAll_keys (bytes : List Byte) (k : Keyboard) : ∀ c ∈ (readAll bytes k).1, c ≠ 0x7F#8 := by
  have mapped (key c : Byte) (member : c ∈ KeyEvent.mapped key) : c = key := by
    unfold KeyEvent.mapped at member
    split_ifs at member
    · exact absurd member List.not_mem_nil
    · exact List.mem_singleton.mp member
  induction bytes generalizing k with
  | nil => exact fun c member => absurd member List.not_mem_nil
  | cons sc bytes ih =>
    intro c member
    rcases List.mem_append.mp member with now | later
    · rw [mapped _ c now]
      exact readChar_key _
    · exact ih _ c later

theorem printable_line (keys line : List Byte) (known : ∀ c ∈ keys, c ≠ 0x7F#8)
    (visible : ∀ c ∈ line, Printable c) : ∀ c ∈ keys.foldl referenceKey line, Printable c := by
  have bounds : ∀ c : Byte, 0x20 ≤ c.toInt ∧ c.toInt ≤ 0x7F → c ≠ 0x7F#8 → 0x20 ≤ c.toNat ∧ c.toNat < 0x7F := by
    decide +kernel
  induction keys generalizing line with
  | nil => exact visible
  | cons key keys ih =>
    apply ih _ (fun c member => known c (List.mem_cons_of_mem key member))
    intro c member
    rw [referenceKey] at member
    split_ifs at member with appended erased
    · rcases List.mem_append.mp member with before | last
      · exact visible c before
      · rw [List.mem_singleton.mp last]
        exact bounds key ⟨appended.1, appended.2.1⟩ (known key List.mem_cons_self)
    · exact visible c (List.dropLast_subset _ member)
    · exact visible c member

/-- In every run the text that was typed can be read back from the pixels. -/
theorem frame_read_back (inv : ComputeInventory) (t : Terminal) (fb : Frame) (events : List Event) :
    ∃ s read text, run (step (Machine.rows font8x8Basic) inv) events (booted (Machine.rows font8x8Basic) t fb) = s ∧
      arrived events = read ++ s.keyboard.pending ∧ text = (readAll read idle).1.foldl referenceKey [] ∧
      readLine text.length s.gui.fb = some text := by
  obtain ⟨read, followed⟩ := booted_followed (Machine.rows font8x8Basic) inv t fb events
  have displayed := displayed_of_followed (Machine.rows font8x8Basic) fb _ _ read _
    (run_undisturbed (Machine.rows font8x8Basic) inv t fb events) followed
  refine ⟨_, read, _, rfl, displayed.bytes, rfl, ?_⟩
  rw [← displayed.line]
  apply readLine_of_shows _ _ _ _ displayed.screen
  · rw [line_length]
    exact Fin.isLt _
  · rw [displayed.line]
    exact printable_line _ [] (readAll_keys read idle) (fun c member => absurd member List.not_mem_nil)

end LifeOS.Kernel
