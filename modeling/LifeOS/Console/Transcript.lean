import LifeOS.Console.Frame
import LifeOS.Console.Recall
import LifeOS.Console.Serial
import LifeOS.Console.Window

/-!
The serial line as a record of the screen. A terminal that is at the same text and prints what
is sent follows the console, whatever keys are polled in between, and has the lines that the VGA
buffer shows.
-/

namespace LifeOS.Console
open LifeOS.Drivers LifeOS.Library.Runs LifeOS.Library.Strings

/-- Output, with keys polled in between that redraw no pane. -/
inductive Output where
  | putc (ch : Byte)
  | write (s : CString)
  | poll (key : { key : Byte // ¬PaneKey key })

namespace Output

def op : Output → Op
  | .putc ch => .putc ch
  | .write s => .write s
  | .poll key => .pollInput key.val

def bytes : Output → List Byte
  | .putc ch => [ch]
  | .write s => s.text
  | .poll _ => []

end Output

def replay (log : List (BitVec 16 × Byte)) (t : Text) : Text :=
  t.write ((log.filter fun access => access.1 == serialPort).map Prod.snd)

def Text.document (t : Text) : List Row := t.lines ++ List.ofFn t.screen

theorem replay_bytes (bytes : List Byte) (t : Text) :
    replay (bytes.map fun ch => (serialPort, ch)) t = t.write bytes := by
  have whole : (bytes.map fun ch => (serialPort, ch)).filter (fun access => access.1 == serialPort) =
      bytes.map fun ch => (serialPort, ch) := by
    rw [List.filter_eq_self]
    intro access member
    obtain ⟨ch, _, rfl⟩ := List.mem_map.mp member
    rfl
  rw [replay, whole, List.map_map]
  exact congrArg (t.write ·) (List.map_id bytes)

theorem poll_keeps (key : Byte) (t : Terminal) (plain : ¬PaneKey key) :
    textOf (consolePollInput key t).con = textOf t.con ∧ Prints [] t.con (consolePollInput key t).con := by
  have polled := pollRules_polled key t
  unfold PaneKey at plain
  unfold consolePollInput
  generalize pollRules key t = result at polled ⊢
  cases polled with
  | nothing none_read => exact ⟨rfl, prints_nothing rfl⟩
  | control ctrl => exact ⟨rfl, prints_nothing rfl⟩
  | scrolled scrolls =>
    obtain ⟨view, rows, index, crtc, stepped, _⟩ := scrollView_onlyView key t
    dsimp only
    rw [stepped]
    exact ⟨rfl, prints_nothing rfl⟩
  | moved move => exact absurd (move.imp_right Or.inl) plain
  | resized resize => exact absurd (Or.inr (Or.inr resize)) plain
  | queued =>
    dsimp only [Terminal.onConsole]
    generalize (if key = backspace ∨ key = 0x7F#8 then backspace else key) = ch
    refine ⟨textOf_enqueue ch t.con, prints_nothing ?_⟩
    unfold enqueue
    dsimp only
    split <;> rfl

theorem output_step (output : Output) (t : Terminal) :
    textOf (perform output.op t).con = (textOf t.con).write output.bytes ∧
      Prints output.bytes t.con (perform output.op t).con := by
  cases output with
  | putc ch => exact ⟨textOf_consolePutc ch t.con, prints_putc ch t.con⟩
  | write s => exact ⟨textOf_consoleWrite s.text t.con, prints_write s.text t.con⟩
  | poll key => exact poll_keeps key.val t key.property

theorem outputs_run (outputs : List Output) (t : Terminal) :
    textOf (run perform (outputs.map Output.op) t).con = (textOf t.con).write (outputs.flatMap Output.bytes) ∧
      Prints (outputs.flatMap Output.bytes) t.con (run perform (outputs.map Output.op) t).con := by
  induction outputs generalizing t with
  | nil => exact ⟨rfl, prints_nothing rfl⟩
  | cons output outputs ih =>
    obtain ⟨text, printed⟩ := output_step output t
    obtain ⟨texts, prints⟩ := ih (perform output.op t)
    refine ⟨?_, printed.trans prints⟩
    rw [List.flatMap_cons, Text.write_append, ← text]
    exact texts

/-- What was sent between two states makes the text of the one the text and the display of the
other. -/
structure Replays (log : List (BitVec 16 × Byte)) (before after : ConsoleState) : Prop where
  sent : sent after = sent before ++ log
  text : textOf after = replay log (textOf before)
  shown : ∀ r : Fin 25, (replay log (textOf before)).document[after.sbCount.val - after.sbView + r.val]? =
    some (after.vgaBuffer r)
  bottom : after.sbView = 0 → after.vgaBuffer = (replay log (textOf before)).screen
  register : cursorRegister after.ports =
    BitVec.ofNat 16 ((replay log (textOf before)).y.val * 80 + (replay log (textOf before)).x.val)

/-- From any state that the console can be in, all further output can be replayed from the serial
line. -/
theorem serial_replays (t : Terminal) (earlier : List Op) (outputs : List Output) :
    ∃ log, log.length = (outputs.flatMap Output.bytes).length ∧
      Replays log (run perform earlier (t.onConsole consoleInit)).con
        (run perform (earlier ++ outputs.map Output.op) (t.onConsole consoleInit)).con := by
  have start : Displayed (t.onConsole consoleInit).con := consoleInit_displayed t.con
  have before := run_invariant perform (fun t => Displayed t.con) perform_displayed earlier _ start
  rw [run_append]
  generalize run perform earlier (t.onConsole consoleInit) = u at before ⊢
  obtain ⟨text, prints⟩ := outputs_run outputs u
  have after := run_invariant perform (fun t => Displayed t.con) perform_displayed (outputs.map Output.op) u before
  generalize (run perform (outputs.map Output.op) u).con = d at text prints after ⊢
  obtain ⟨log, logged⟩ : ∃ log, log = (outputs.flatMap Output.bytes).map fun ch => (serialPort, ch) := ⟨_, rfl⟩
  have replayed : textOf d = replay log (textOf u.con) := by
    rw [logged, replay_bytes]
    exact text
  have window := after.showsWindow
  refine ⟨log, by rw [logged, List.length_map], ?_, replayed, ?_, ?_, ?_⟩
  · rw [logged]
    exact prints
  · rw [← replayed]
    exact window.rows
  · intro bottom
    rw [← replayed]
    funext r
    rw [after.rows r, bottom, Nat.sub_zero, viewRow_screen]
    rfl
  · rw [← replayed]
    exact window.register

end LifeOS.Console
