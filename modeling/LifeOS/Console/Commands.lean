import LifeOS.Hmi.Pane
import LifeOS.Strcmp

/-!
`console_execute_command` of `kernel/console/cmd.c` with the number printing of
`console.c` and the command's effects on the console, the panes and the prompt.
-/

namespace LifeOS.Console
open LifeOS.Hmi LifeOS.Library.Loops LifeOS.Library.Strings LifeOS.Strcmp

/-- The digits that the first loop of `console_write_dec` stores, newest first; `room` is
what `i < 20` leaves. -/
def decDigits : Nat → BitVec 64 → List Byte → List Byte
  | 0, _, buf => buf
  | room + 1, value, buf =>
      if value = 0#64 then buf
      else decDigits room (value / 10#64) (BitVec.ofNat 8 (48 + (value % 10#64).toNat) :: buf)

def consoleWriteDec (value : BitVec 64) (c : ConsoleState) : ConsoleState :=
  if value = 0#64 then consolePutc 0x30#8 c else consoleWrite (decDigits 20 value []) c

def hexDigit (value : BitVec 8) : Byte :=
  (ascii "0123456789ABCDEF").getD (value &&& 0xF#8).toNat 0#8

def consoleWriteHex8 (value : BitVec 8) (c : ConsoleState) : ConsoleState :=
  consolePutc (hexDigit value) (consolePutc (hexDigit (value >>> 4)) c)

def consoleWriteHex16 (value : BitVec 16) (c : ConsoleState) : ConsoleState :=
  consoleWriteHex8 (value.setWidth 8) (consoleWriteHex8 ((value >>> 8).setWidth 8) c)

def consoleWriteHex32 (value : BitVec 32) (c : ConsoleState) : ConsoleState :=
  consoleWriteHex16 (value.setWidth 16) (consoleWriteHex16 ((value >>> 16).setWidth 16) c)

/-- The fields of `struct compute_inventory` that the console prints. -/
structure ComputeInventory where
  cpuCores : BitVec 32
  memoryBytes : BitVec 64
  pciDevices : BitVec 32
  pciBus : Fin 256 → BitVec 8
  pciClass : Fin 256 → BitVec 8
  pciVendor : Fin 256 → BitVec 16
  pciDevice : Fin 256 → BitVec 16

def emptyInventory : ComputeInventory :=
  ⟨0#32, 0#64, 0#32, fun _ => 0#8, fun _ => 0#8, fun _ => 0#16, fun _ => 0#16⟩

def pciClassMap : List (Byte × String) :=
  [(0x00#8, "Unclassified"), (0x01#8, "Mass Storage"), (0x02#8, "Network"), (0x03#8, "Display"),
    (0x04#8, "Multimedia"), (0x05#8, "Memory"), (0x06#8, "Bridge"), (0x07#8, "Communication"),
    (0x08#8, "System"), (0x09#8, "Input"), (0x0A#8, "Docking"), (0x0B#8, "Processor"),
    (0x0C#8, "Serial Bus"), (0x0D#8, "Wireless"), (0x0E#8, "Intelligent I/O"), (0x0F#8, "Satellite"),
    (0x10#8, "Encryption"), (0x11#8, "Signal Processing"), (0x12#8, "Processing Accel"),
    (0x13#8, "Instrumentation")]

def pciClassName (classCode : BitVec 8) : String :=
  (pciClassMap.lookup classCode).getD "Unknown"

def say (s : String) (c : ConsoleState) : ConsoleState := consoleWrite (ascii s) c

def showHelp (c : ConsoleState) : ConsoleState :=
  let c := say "Available commands:\n" c
  let c := say "  help  - Display this message\n" c
  let c := say "  clear - Clear the screen\n" c
  let c := say "  info  - Display hardware information\n" c
  let c := say "  gui start - Enable quadrant layout\n" c
  let c := say "  restart - Reboot the system\n" c
  let c := say "  shutdown - Power off the system\n" c
  say "  exit  - Halt the system\n" c

def showDevice (inv : ComputeInventory) (i : Fin 256) (c : ConsoleState) : ConsoleState :=
  let c := say "  Bus " c
  let c := consoleWriteDec ((inv.pciBus i).setWidth 64) c
  let c := say "  Vend 0x" c
  let c := consoleWriteHex16 (inv.pciVendor i) c
  let c := say " Dev 0x" c
  let c := consoleWriteHex16 (inv.pciDevice i) c
  let c := say " : " c
  let c := say (pciClassName (inv.pciClass i)) c
  say "\n" c

def showInfo (inv : ComputeInventory) (c : ConsoleState) : ConsoleState :=
  let c := say "CPU cores: " c
  let c := consoleWriteDec (inv.cpuCores.setWidth 64) c
  let c := say "\nMemory bytes: " c
  let c := consoleWriteDec inv.memoryBytes c
  let c := say "\nPCI devices: " c
  let c := consoleWriteDec (inv.pciDevices.setWidth 64) c
  let c := say "\nPCI device list:\n" c
  forFin (min inv.pciDevices.toNat 256)
    (fun i c => showDevice inv ⟨i.val, Nat.lt_of_lt_of_le i.isLt (Nat.min_le_right _ _)⟩ c) c

/-- A call that comes back, or one that stops the machine. -/
inductive Outcome where
  | returned (t : Terminal)
  | halted (t : Terminal)

def Outcome.thenPrompt : Outcome → Outcome
  | .returned t => .returned (shellShowPrompt t)
  | .halted t => .halted t

def kernelReboot (t : Terminal) : Outcome := .halted (t.onConsole (say "Rebooting system...\n"))

def kernelShutdown (t : Terminal) : Outcome := .halted (t.onConsole (say "Shutting down...\n"))

def kernelHalt (t : Terminal) : Outcome := .halted (t.onConsole (say "Halting system...\n"))

/-- `strcmp(cmd, name) == 0`. -/
def named (cmd : List Byte) (name : String) : Option Bool :=
  (strcmp cmd (ascii name ++ [0#8])).map (fun v => v == 0)

/-- `cmd` is the object from the pointer on; there is no result when it is read past its end. -/
def consoleExecuteCommand (inv : ComputeInventory) (cmd : List Byte) (t : Terminal) : Option Outcome := do
  if ← named cmd "help" then return .returned (t.onConsole showHelp)
  if ← named cmd "clear" then return .returned (t.onConsole consoleClear)
  if ← named cmd "info" then return .returned (t.onConsole (showInfo inv))
  if ← named cmd "restart" then return kernelReboot t
  if ← named cmd "shutdown" then return kernelShutdown t
  if ← named cmd "exit" then return kernelHalt t
  if ← named cmd "gui start" then return .returned (paneGuiStart t)
  let first ← cmd.head?
  if first ≠ 0#8 then return .returned (t.onConsole (say "Unknown command\n"))
  return .returned t

theorem named_eq (cmd : List Byte) (name : String) (terminated : 0#8 ∈ cmd) (plain : 0#8 ∉ ascii name) :
    named cmd name = some (decide (text cmd = ascii name)) := by
  obtain ⟨v, compared, zero⟩ := strcmp_terminated cmd (ascii name ++ [0#8]) terminated (by simp)
  rw [text_append_zero _ _ plain] at zero
  rw [named, compared, Option.map_some]
  congr 1
  by_cases same : text cmd = ascii name
  · simp [same, zero.mpr same]
  · have other : v ≠ 0 := fun equal => same (zero.mp equal)
    simp [same, other]

def commandOutcome (inv : ComputeInventory) (line : List Byte) (t : Terminal) : Outcome :=
  if line = ascii "help" then .returned (t.onConsole showHelp)
  else if line = ascii "clear" then .returned (t.onConsole consoleClear)
  else if line = ascii "info" then .returned (t.onConsole (showInfo inv))
  else if line = ascii "restart" then kernelReboot t
  else if line = ascii "shutdown" then kernelShutdown t
  else if line = ascii "exit" then kernelHalt t
  else if line = ascii "gui start" then .returned (paneGuiStart t)
  else if line = [] then .returned t
  else .returned (t.onConsole (say "Unknown command\n"))

def StopsMachine (line : List Byte) : Prop :=
  line = ascii "restart" ∨ line = ascii "shutdown" ∨ line = ascii "exit"

instance (line : List Byte) : Decidable (StopsMachine line) := inferInstanceAs (Decidable (_ ∨ _))

theorem executeCommand_eq (inv : ComputeInventory) (cmd : List Byte) (t : Terminal) (terminated : 0#8 ∈ cmd) :
    consoleExecuteCommand inv cmd t = some (commandOutcome inv (text cmd) t) := by
  have first : ∃ ch, cmd.head? = some ch ∧ (ch = 0#8 ↔ text cmd = []) := by
    cases cmd with
    | nil => simp at terminated
    | cons ch rest =>
      refine ⟨ch, rfl, ?_⟩
      rw [text_cons]
      by_cases zero : ch = 0#8 <;> simp [zero]
  obtain ⟨ch, head, empty⟩ := first
  have known (name : String) (plain : 0#8 ∉ ascii name) := named_eq cmd name terminated plain
  have help := known "help" (by decide +kernel)
  have clear := known "clear" (by decide +kernel)
  have info := known "info" (by decide +kernel)
  have restart := known "restart" (by decide +kernel)
  have shutdown := known "shutdown" (by decide +kernel)
  have exit := known "exit" (by decide +kernel)
  have gui := known "gui start" (by decide +kernel)
  unfold consoleExecuteCommand commandOutcome
  simp only [help, clear, info, restart, shutdown, exit, gui, head, Option.bind_eq_bind, Option.bind_some,
    decide_eq_true_eq, ← empty, ne_eq, ite_not, Option.pure_def, apply_ite some]

theorem commandOutcome_stops (inv : ComputeInventory) (line : List Byte) (t : Terminal) (stops : StopsMachine line) :
    ∃ after, commandOutcome inv line t = .halted after ∧ after.shell = t.shell := by
  have apart : ascii "restart" ≠ ascii "help" ∧ ascii "restart" ≠ ascii "clear" ∧ ascii "restart" ≠ ascii "info" ∧
      ascii "shutdown" ≠ ascii "help" ∧ ascii "shutdown" ≠ ascii "clear" ∧ ascii "shutdown" ≠ ascii "info" ∧
      ascii "exit" ≠ ascii "help" ∧ ascii "exit" ≠ ascii "clear" ∧ ascii "exit" ≠ ascii "info" ∧
      ascii "shutdown" ≠ ascii "restart" ∧ ascii "exit" ≠ ascii "restart" ∧ ascii "exit" ≠ ascii "shutdown" := by
    decide +kernel
  have halts (label : String) : ∃ after, Outcome.halted (t.onConsole (say label)) = .halted after ∧
      after.shell = t.shell := ⟨_, rfl, rfl⟩
  unfold commandOutcome kernelReboot kernelShutdown kernelHalt
  rcases stops with rfl | rfl | rfl
  all_goals
    simp only [apart, if_false, if_true]
    exact halts _

theorem commandOutcome_returns (inv : ComputeInventory) (line : List Byte) (t : Terminal) (goes : ¬StopsMachine line) :
    ∃ after, commandOutcome inv line t = .returned after := by
  obtain ⟨restart, shutdown, exit⟩ : line ≠ ascii "restart" ∧ line ≠ ascii "shutdown" ∧ line ≠ ascii "exit" :=
    ⟨fun same => goes (.inl same), fun same => goes (.inr (.inl same)), fun same => goes (.inr (.inr same))⟩
  unfold commandOutcome
  rw [if_neg restart, if_neg shutdown, if_neg exit]
  split_ifs <;> exact ⟨_, rfl⟩

structure SameEditing (before after : Shell) : Prop where
  history : after.history = before.history
  historyCount : after.historyCount = before.historyCount
  historyIndex : after.historyIndex = before.historyIndex
  historyNav : after.historyNav = before.historyNav
  cmdBuf : after.cmdBuf = before.cmdBuf

theorem SameEditing.refl (s : Shell) : SameEditing s s := ⟨rfl, rfl, rfl, rfl, rfl⟩

theorem paneGuiStart_editing (t : Terminal) : SameEditing t.shell (paneGuiStart t).shell := by
  unfold paneGuiStart
  split
  · exact SameEditing.refl t.shell
  · exact ⟨rfl, rfl, rfl, rfl, rfl⟩

theorem commandOutcome_editing (inv : ComputeInventory) (line : List Byte) (t after : Terminal)
    (returned : commandOutcome inv line t = .returned after) : SameEditing t.shell after.shell := by
  have kept (f : ConsoleState → ConsoleState) (same : Outcome.returned (t.onConsole f) = .returned after) :
      SameEditing t.shell after.shell := by
    rw [← Outcome.returned.inj same]
    exact SameEditing.refl t.shell
  unfold commandOutcome at returned
  split_ifs at returned
  · exact kept _ returned
  · exact kept _ returned
  · exact kept _ returned
  · cases returned
  · cases returned
  · cases returned
  · rw [← Outcome.returned.inj returned]
    exact paneGuiStart_editing t
  · rw [← Outcome.returned.inj returned]
    exact SameEditing.refl t.shell
  · exact kept _ returned

end LifeOS.Console
