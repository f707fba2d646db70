import LifeOS.Acpi.Log
import LifeOS.Boot.Stale
import LifeOS.Console.Window
import LifeOS.Drivers.Registry
import LifeOS.Fs.Names
import LifeOS.Hmi.Drawing
import LifeOS.Inventory.Report
import LifeOS.Kernel.Typing

/-!
`kernel_init` of `kernel/init.c` as a whole: the static data of every subsystem after it, and
what it leaves on the screen and in the framebuffer, if the loader's tables lead there.
-/

namespace LifeOS.Kernel
open LifeOS.Acpi LifeOS.Console LifeOS.Drivers LifeOS.Gui LifeOS.Hal LifeOS.Hmi LifeOS.Inventory
open LifeOS.Library.Access LifeOS.Library.Loops LifeOS.Library.Runs LifeOS.Library.Strings LifeOS.Mm
open LifeOS.Boot (Entries framed framed_mapped leftOf leftOf_entries leftOf_fourth)
open LifeOS.Fs (Table fsInit fsInit_apply)
open LifeOS.Gui.Machine (Glyphs InputData data rows)
open LifeOS.Gui.Mapped (MappedAt frameBytes frameOf redraw_mapped redraw_faults)
open LifeOS.Library.Memory (Addr Mem SameOutside read64 write64)
open LifeOS.Library.Paging (Present)
open LifeOS.Sched (Scheduler schedInit)

inductive Driver where
  | kbdDriver
  deriving DecidableEq

def driverInit : Driver → Option (Callback Driver)
  | .kbdDriver => some (fun _ => [])

/-- The static data of the kernel. They are taken to lie apart from the rest of the physical memory, which
the scheduler's part holds. -/
structure Statics where
  sched : Scheduler
  terminal : Terminal
  inputBuf : Vector Byte 128
  inputLen : BitVec 32
  files : Table
  inventory : SystemInventory
  fadtData : Fadt
  fadtTable : Bool
  acpiTables : List Addr
  drivers : Registry Driver

/-- What the code finds outside its memory: CPUID, the configuration space, and the linker's `end`. -/
structure Hardware where
  ebx : BitVec 32 → BitVec 32
  space : ConfigSpace
  imageEnd : BitVec 64

def Statics.onTerminal (f : Terminal → Terminal) (s : Statics) : Statics := { s with terminal := f s.terminal }

def Statics.print (label : String) (s : Statics) : Statics := s.onTerminal (Terminal.onConsole (say label))

def mmStart (hw : Hardware) (s : Statics) : Statics :=
  { s with sched := { s.sched with nextFreePage := mmInit hw.imageEnd } }

def Statics.acpiState (s : Statics) : AcpiState := ⟨s.fadtData, s.fadtTable, s.acpiTables, s.terminal.con⟩

def acpiStart (s : Statics) : Statics :=
  let after := (acpiInit s.sched.mem s.acpiState).value
  { s with fadtData := after.fadtData, fadtTable := after.fadtTable, acpiTables := after.tables,
           terminal := { s.terminal with con := after.con } }

/-- `gui_init`, whose pixels go to the memory. -/
def guiStart (font : Glyphs) (s : Statics) : Option Statics := do
  let mem ← Mapped.redraw font s.inputBuf s.inputLen s.sched.mem
  return { s with sched := { s.sched with mem := mem } }

/-- `keyboard_register` and `driver_init_all`, whose loop makes at most `passes` passes. -/
def startDrivers (passes : Nat) (s : Statics) : Statics :=
  { s with drivers := (driverInitAll driverInit (register s.drivers .kbdDriver) passes).registry }

/-- `syscall_init` is empty. -/
def kernelInit (hw : Hardware) (font : Glyphs) (passes : Nat) (s : Statics) : Option Statics := do
  let s := mmStart hw s
  let s := s.onTerminal (Terminal.onConsole consoleInit)
  let s := s.onTerminal paneInit
  let s ← guiStart font s
  let s := { s with files := fsInit s.files }
  let inventory ← inventoryGather hw.ebx hw.space s.inventory
  let s := acpiStart { s with inventory := inventory }
  let s := s.print "LifeOS initialized\n"
  let s := s.onTerminal shellShowPrompt
  let s := { s with sched := schedInit s.sched }
  return startDrivers passes s

def indented : List (List Byte) → List (List Byte)
  | [] => []
  | line :: lines => (0x20#8 :: line) :: lines

def bootLines (m : Mem) : List (List Byte) :=
  [] :: (indented ((acpiMessages m).map Message.line) ++ [ascii "LifeOS initialized"])

/-- One pane leaves a blank screen and the cursor at its corner, as if an empty line and a blank had
been printed. -/
theorem setCursor_corner : Text.clear.setCursor 1#8 1#8 = Text.write [newline, 0x20#8] Text.clear := by
  have blanks (y : Fin 25) (x : Fin 80) :
      Function.update (fun _ _ => blank : Fin 25 → Row) y (Function.update (fun _ => blank) x blank) =
        fun _ _ => blank := by
    rw [Function.update_eq_self x (fun _ : Fin 80 => blank)]
    exact Function.update_eq_self y (fun (_ : Fin 25) (_ : Fin 80) => blank)
  have second : (⟨[], fun _ _ => blank, 0, 1⟩ : Text).putc 0x20#8 =
      ⟨[], Function.update (fun _ _ => blank) 1 (Function.update (fun _ => blank) 0 blank), 1, 1⟩ := rfl
  change _ = (⟨[], fun _ _ => blank, 0, 1⟩ : Text).putc 0x20#8
  rw [second, blanks]
  rfl

theorem textOf_paneInit (t : Terminal) :
    textOf (paneInit t).con = Text.write [newline, 0x20#8] Text.clear := by
  have alone (p : Panes) (width : p.width = single) (height : p.height = single) (c : ConsoleState) :
      textOf (drawLines p (consoleClear c)) = Text.write [newline, 0x20#8] Text.clear := by
    obtain ⟨w, h, active⟩ := p
    subst width height
    have column := cornerX_toNat ⟨single, single, active⟩
    have row := cornerY_toNat ⟨single, single, active⟩
    have corner : cornerX ⟨single, single, active⟩ = 1#8 ∧ cornerY ⟨single, single, active⟩ = 1#8 :=
      ⟨BitVec.eq_of_toNat_eq column.1, BitVec.eq_of_toNat_eq row.1⟩
    have columns (t : Text) : verticals ⟨single, single, active⟩ t = t := forFin_zero _ t
    have rows (t : Text) : horizontals ⟨single, single, active⟩ t = t := forFin_zero _ t
    have meetings (t : Text) : crosses ⟨single, single, active⟩ t = t := forFin_zero _ t
    rw [textOf_drawLines, textOf_consoleClear, columns, rows, meetings, corner.1, corner.2, setCursor_corner]
  exact alone _ rfl rfl t.con

theorem boot_text (m : Mem) :
    [newline, 0x20#8] ++ (logText (acpiMessages m) ++ ascii "LifeOS initialized\n") = lineText (bootLines m) := by
  have final : ascii "LifeOS initialized\n" = lineText [ascii "LifeOS initialized"] := by decide +kernel
  obtain ⟨rest, messages⟩ : ∃ rest, acpiMessages m = .starting :: rest := ⟨_, rfl⟩
  rw [bootLines, messages, final, logText, ← lineText_append, List.map_cons, indented]
  simp only [List.cons_append, List.nil_append, lineText_cons]

theorem bootLines_short (m : Mem) : ∀ line ∈ bootLines m, Legible line ∧ line.length < 80 := by
  have printed : ∀ line ∈ (acpiMessages m).map Message.line, Legible line ∧ line.length ≤ 38 := by
    intro line member
    obtain ⟨message, _, rfl⟩ := List.mem_map.mp member
    exact message.line_short
  have last : Legible (ascii "LifeOS initialized") ∧ (ascii "LifeOS initialized").length < 80 := by decide +kernel
  intro line member
  rw [bootLines] at member
  rcases List.mem_cons.mp member with rfl | member
  · exact ⟨by decide, by decide⟩
  rcases List.mem_append.mp member with logged | final
  · cases shape : (acpiMessages m).map Message.line with
    | nil =>
      rw [shape] at logged
      exact absurd logged List.not_mem_nil
    | cons first rest =>
      rw [shape] at logged printed
      rcases List.mem_cons.mp logged with rfl | later
      · obtain ⟨legible, short⟩ := printed first List.mem_cons_self
        have space : Legible [0x20#8] := by decide
        refine ⟨space.append legible, ?_⟩
        rw [List.length_cons]
        omega
      · obtain ⟨legible, short⟩ := printed line (List.mem_cons_of_mem first later)
        exact ⟨legible, by omega⟩
  · rw [List.mem_singleton.mp final]
    exact last

theorem bootLines_few (m : Mem) : (bootLines m).length ≤ 22 := by
  have messages := acpiMessages_few m
  have same (lines : List (List Byte)) : (indented lines).length = lines.length := by
    cases lines <;> rfl
  rw [bootLines, List.length_cons, List.length_append, same, List.length_map, List.length_singleton]
  omega

structure BootScreen (m : Mem) (c : ConsoleState) : Prop where
  rows : ∀ y : Fin 25, charsOf (c.vgaBuffer y) = padded ((bootLines m ++ [prompt]).getD y.val [])
  column : c.cursorX.val = prompt.length
  row : c.cursorY.val = (bootLines m).length
  register : cursorRegister c.ports = cursorPos c

theorem boot_shows (m : Mem) :
    Shows (Text.write (lineText (bootLines m) ++ prompt) Text.clear) ⟨bootLines m, prompt⟩ := by
  have short := bootLines_short m
  have legible : Legible prompt ∧ prompt.length < 80 := by decide +kernel
  have shows := write_shows (lineText (bootLines m) ++ prompt) _ _
    (by
      intro ch member
      rcases List.mem_append.mp member with line | last
      · exact lineText_plain _ (fun line listed => (short line listed).1) ch line
      · exact (legible.1 ch last).2)
    clear_shows
  have lines := Sheet.write_lines [] (bootLines m) short
  have sheet : Sheet.empty.write (lineText (bootLines m) ++ prompt) = ⟨bootLines m, prompt⟩ := by
    rw [Sheet.write_append]
    change (Sheet.write ⟨[], []⟩ (lineText (bootLines m))).write prompt = _
    rw [lines, Sheet.write_line _ _ legible.1 (by simpa using legible.2)]
    rfl
  rw [sheet] at shows
  exact shows

theorem bootScreen_of_text (m : Mem) (c : ConsoleState)
    (text : textOf c = Text.write (lineText (bootLines m) ++ prompt) Text.clear) (shown : Console.Displayed c) :
    BootScreen m c := by
  have shows := boot_shows m
  rw [← text] at shows
  have lines : (Sheet.lines ⟨bootLines m, prompt⟩).length = (bootLines m).length + 1 := by
    rw [Sheet.lines, List.length_append, List.length_singleton]
  have few := bootLines_few m
  have above : Sheet.above ⟨bootLines m, prompt⟩ = 0 := by
    unfold Sheet.above
    omega
  have unscrolled : (stored c).length = 0 := shows.shown.ring_length.trans (by rw [above]; rfl)
  rw [stored_length] at unscrolled
  have bottom : c.sbCount.val - c.sbView = c.sbCount.val := by omega
  have row : c.cursorY.val + 1 = _ := shows.shown.row
  rw [lines] at row
  refine ⟨?_, shows.column, by omega, shown.register⟩
  intro y
  rw [shown.rows y, bottom, viewRow_screen]
  exact shows.rows (by omega) y

/-- `kernel_init` up to `inventory_gather`, when `gui_init` has made `mem` of the memory and the devices
are those of `inventory`. -/
def prepare (hw : Hardware) (mem : Mem) (inventory : SystemInventory) (s : Statics) : Statics :=
  { s with sched := { s.sched with mem := mem, nextFreePage := mmInit hw.imageEnd }
           terminal := paneInit (s.terminal.onConsole consoleInit)
           files := fsInit s.files
           inventory := inventory }

def finish (passes : Nat) (s : Statics) : Statics :=
  startDrivers passes { s with terminal := shellShowPrompt (s.terminal.onConsole (say "LifeOS initialized\n"))
                               sched := schedInit s.sched }

theorem kernelInit_eq (hw : Hardware) (font : Glyphs) (passes : Nat) (s : Statics) (mem : Mem)
    (inventory : SystemInventory) (drawn : Mapped.redraw font s.inputBuf s.inputLen s.sched.mem = some mem)
    (gathered : inventoryGather hw.ebx hw.space s.inventory = some inventory) :
    kernelInit hw font passes s = some (finish passes (acpiStart (prepare hw mem inventory s))) := by
  have early : Mapped.redraw font (mmStart hw s).inputBuf (mmStart hw s).inputLen (mmStart hw s).sched.mem =
      some mem := drawn
  unfold kernelInit guiStart Statics.onTerminal Statics.print
  dsimp only
  rw [early]
  simp only [Option.bind_eq_bind, Option.bind_some, Option.pure_def]
  have found : inventoryGather hw.ebx hw.space (mmStart hw s).inventory = some inventory := gathered
  rw [found]
  rfl

theorem driver_walked (next : Driver → Option Driver) (passes : Nat) :
    (driverInitAll driverInit (register (.start next) .kbdDriver) (passes + 1)).d = none ∧
      (driverInitAll driverInit (register (.start next) .kbdDriver) (passes + 1)).registry.invoked = [.kbdDriver] := by
  induction passes with
  | zero => exact ⟨rfl, rfl⟩
  | succ passes ih =>
    have stopped (w : Walk Driver) (none_left : w.d = none) : w.iterate driverInit = w := by
      unfold Walk.iterate
      rw [none_left]
    rw [driverInitAll, stopped _ ih.1]
    exact ih

theorem acpiStart_con (s : Statics) :
    (acpiStart s).terminal.con = consoleWrite (logText (acpiMessages s.sched.mem)) s.terminal.con :=
  acpiInit_logs s.sched.mem s.acpiState

structure OnlyAcpi (before after : Statics) : Prop where
  sched : after.sched = before.sched
  shell : after.terminal.shell = before.terminal.shell
  panes : after.terminal.panes = before.terminal.panes
  input : after.inputBuf = before.inputBuf ∧ after.inputLen = before.inputLen
  files : after.files = before.files
  inventory : after.inventory = before.inventory
  drivers : after.drivers = before.drivers

theorem acpiStart_only (s : Statics) : OnlyAcpi s (acpiStart s) := by
  unfold acpiStart
  generalize (acpiInit s.sched.mem s.acpiState).value = after
  exact ⟨rfl, rfl, rfl, ⟨rfl, rfl⟩, rfl, rfl, rfl⟩

theorem bootScreen_printed (m : Mem) (t : Terminal) :
    BootScreen m (consoleWrite prompt (say "LifeOS initialized\n"
      (consoleWrite (logText (acpiMessages m)) (paneInit t).con))) := by
  have drawn : Console.Displayed (paneInit t).con := paneDrawInternal_displayed false _
  have text := textOf_paneInit t
  generalize (paneInit t).con = c at drawn text
  unfold say
  apply bootScreen_of_text
  · rw [textOf_consoleWrite, textOf_consoleWrite, textOf_consoleWrite, text, ← boot_text, ← Text.write_append,
      ← Text.write_append, ← Text.write_append, List.append_assoc, List.append_assoc]
  · exact consoleWrite_displayed _ _ (consoleWrite_displayed _ _ (consoleWrite_displayed _ _ drawn))

theorem inputOf_kernelInit (text : List Byte) (t : Terminal) :
    inputOf (consoleWrite prompt (say "LifeOS initialized\n"
      (consoleWrite text (paneInit (t.onConsole consoleInit)).con))) = inputOf t.con := by
  have started : inputOf (consoleInit t.con) = inputOf t.con := inputOf_consoleClear _
  have drawn (p : Panes) (c : ConsoleState) : inputOf (drawLines p (consoleClear c)) = inputOf c := by
    rw [inputOf_drawLines, inputOf_consoleClear]
  have opened : inputOf (paneInit (t.onConsole consoleInit)).con = inputOf (consoleInit t.con) := drawn _ _
  unfold say
  rw [inputOf_consoleWrite, inputOf_consoleWrite, inputOf_consoleWrite, opened, started]

structure AcpiKnown (m : Mem) (before after : Statics) : Prop where
  tables : after.acpiTables = match acceptedRoot m with
    | some root => firstTables m root
    | none => before.acpiTables
  fadt : acpiGetFadt after.acpiState = match acceptedRoot m with
    | some root => (firstTables m root).foldl (recordFadt m) (acpiGetFadt before.acpiState)
    | none => some ⟨0x604#16, 0xB004#16, 0#16, 0#16⟩

theorem acpiStart_known (s : Statics) : AcpiKnown s.sched.mem s (acpiStart s) := by
  have fields : (acpiStart s).acpiTables = (acpiInit s.sched.mem s.acpiState).value.tables ∧
      acpiGetFadt (acpiStart s).acpiState = acpiGetFadt (acpiInit s.sched.mem s.acpiState).value := by
    unfold acpiStart
    generalize (acpiInit s.sched.mem s.acpiState).value = after
    exact ⟨rfl, rfl⟩
  cases accepted : acceptedRoot s.sched.mem with
  | some root =>
    have registers := acpiInit_accepted s.sched.mem s.acpiState root accepted
    refine ⟨?_, ?_⟩
    · rw [fields.1, registers.tables, accepted, List.nil_append]
    · rw [fields.2, registers.fadt, accepted]
      rfl
  | none =>
    obtain ⟨tables, fadt⟩ := acpiInit_rejected s.sched.mem s.acpiState accepted
    refine ⟨?_, ?_⟩
    · rw [fields.1, tables, accepted]
      rfl
    · rw [fields.2, fadt, accepted]

/-- What `kernel_init` makes of the static data and the memory, when the framebuffer lies at `start`. -/
structure Started (hw : Hardware) (font : Font) (start : Addr) (before after : Statics) : Prop where
  memory : SameOutside start.toNat frameBytes before.sched.mem after.sched.mem
  sched : after.sched =
    schedInit { before.sched with mem := after.sched.mem, nextFreePage := mmInit hw.imageEnd }
  screen : BootScreen after.sched.mem after.terminal.con
  promptX : after.terminal.shell.promptX.toNat = prompt.length
  promptY : after.terminal.shell.promptY.toNat = (bootLines after.sched.mem).length
  empty : after.terminal.shell.cmdLen = 0 ∧ after.terminal.shell.cmdPos = 0
  editing : SameEditing before.terminal.shell after.terminal.shell
  ring : inputOf after.terminal.con = inputOf before.terminal.con
  panes : after.terminal.panes = { before.terminal.panes with width := single, height := single }
  input : after.inputBuf = before.inputBuf ∧ after.inputLen = before.inputLen
  frame : Shows font [] (frameOf after.sched.mem)
  files : ∀ i, (after.files i).used = false
  inventory : after.inventory.report = machineReport hw.ebx hw.space
  acpi : AcpiKnown after.sched.mem before after
  drivers : after.drivers.invoked = [.kbdDriver]

/-- The static data that `kernel_init` relies on hold what the files initialise them with: no driver
is registered and the line of the GUI is empty. -/
structure Loaded (next : Driver → Option Driver) (s : Statics) : Prop where
  drivers : s.drivers = .start next
  inputBuf : s.inputBuf = Vector.replicate 128 0#8
  inputLen : s.inputLen = 0#32

def Statics.input (s : Statics) : InputData := ⟨s.inputBuf, s.inputLen, frameOf s.sched.mem⟩

theorem showPrompt_shell (t : Terminal) :
    (shellShowPrompt t).shell =
      { t.shell with cmdLen := 0, cmdPos := 0, dispLen := 0,
                     promptX := BitVec.ofNat 8 (shellShowPrompt t).con.cursorX.val,
                     promptY := BitVec.ofNat 8 (shellShowPrompt t).con.cursorY.val } := by
  unfold shellShowPrompt
  dsimp only

theorem fadt_acpiState (s : Statics) : acpiGetFadt s.acpiState = if s.fadtTable then some s.fadtData else none := rfl

structure Finished (passes : Nat) (before after : Statics) : Prop where
  con : after.terminal.con = consoleWrite prompt (say "LifeOS initialized\n" before.terminal.con)
  shell : after.terminal.shell =
    { before.terminal.shell with cmdLen := 0, cmdPos := 0, dispLen := 0,
                                 promptX := BitVec.ofNat 8 after.terminal.con.cursorX.val,
                                 promptY := BitVec.ofNat 8 after.terminal.con.cursorY.val }
  panes : after.terminal.panes = before.terminal.panes
  sched : after.sched = schedInit before.sched
  input : after.inputBuf = before.inputBuf ∧ after.inputLen = before.inputLen
  files : after.files = before.files
  inventory : after.inventory = before.inventory
  tables : after.acpiTables = before.acpiTables
  fadt : acpiGetFadt after.acpiState = acpiGetFadt before.acpiState
  drivers : after.drivers = (driverInitAll driverInit (register before.drivers .kbdDriver) passes).registry

theorem finish_finished (passes : Nat) (s : Statics) : Finished passes s (finish passes s) := by
  have con : (finish passes s).terminal.con = consoleWrite prompt (say "LifeOS initialized\n" s.terminal.con) := by
    unfold finish startDrivers
    dsimp only
    generalize say "LifeOS initialized\n" = line
    exact shellShowPrompt_con _
  refine ⟨con, ?_, ?_, rfl, ⟨rfl, rfl⟩, rfl, rfl, rfl, ?_, rfl⟩
  · unfold finish startDrivers
    dsimp only
    generalize say "LifeOS initialized\n" = line
    exact showPrompt_shell (s.terminal.onConsole line)
  · unfold finish startDrivers
    dsimp only
    generalize say "LifeOS initialized\n" = line
    exact shellShowPrompt_panes (s.terminal.onConsole line)
  · rw [fadt_acpiState, fadt_acpiState]
    rfl

theorem finish_started (hw : Hardware) (font : Font) (passes : Nat) (next : Driver → Option Driver) (start : Addr)
    (s : Statics) (mem : Mem) (inventory : SystemInventory) (fresh : s.drivers = .start next)
    (outside : SameOutside start.toNat frameBytes s.sched.mem mem) (shown : Shows font [] (frameOf mem))
    (reported : inventory.report = machineReport hw.ebx hw.space) :
    Started hw font start s (finish (passes + 1) (acpiStart (prepare hw mem inventory s))) := by
  have only := acpiStart_only (prepare hw mem inventory s)
  have known := acpiStart_known (prepare hw mem inventory s)
  have printed : (acpiStart (prepare hw mem inventory s)).terminal.con =
      consoleWrite (logText (acpiMessages mem)) (paneInit (s.terminal.onConsole consoleInit)).con :=
    acpiStart_con _
  have screen := bootScreen_printed mem (s.terminal.onConsole consoleInit)
  have ring := inputOf_kernelInit (logText (acpiMessages mem)) s.terminal
  generalize acpiStart (prepare hw mem inventory s) = a at only known printed ⊢
  have finished := finish_finished (passes + 1) a
  generalize finish (passes + 1) a = after at finished ⊢
  rw [← printed, ← finished.con] at screen ring
  have short : prompt.length = 8 := by decide +kernel
  have few := bootLines_few mem
  have column := screen.column
  have row := screen.row
  have held : after.sched.mem = mem := by
    rw [finished.sched, only.sched]
    rfl
  refine ⟨held ▸ outside, ?_, held ▸ screen, ?_, ?_, ?_, ?_, ring, ?_, ?_, held ▸ shown, ?_, ?_, ?_, ?_⟩
  · rw [held, finished.sched, only.sched]
    rfl
  · rw [finished.shell, BitVec.toNat_ofNat]
    omega
  · rw [held, finished.shell, BitVec.toNat_ofNat]
    omega
  · rw [finished.shell]
    exact ⟨rfl, rfl⟩
  · rw [finished.shell, only.shell]
    exact ⟨rfl, rfl, rfl, rfl, rfl⟩
  · rw [finished.panes, only.panes]
    rfl
  · rw [finished.input.1, finished.input.2, only.input.1, only.input.2]
    exact ⟨rfl, rfl⟩
  · intro i
    rw [finished.files, only.files]
    change (fsInit s.files i).used = false
    rw [fsInit_apply]
  · rw [finished.inventory, only.inventory]
    exact reported
  · rw [held]
    exact ⟨finished.tables.trans known.tables, finished.fadt.trans known.fadt⟩
  · rw [finished.drivers, only.drivers]
    change (driverInitAll driverInit (register s.drivers .kbdDriver) (passes + 1)).registry.invoked = _
    rw [fresh]
    exact (driver_walked next passes).2

theorem kernelInit_staged (hw : Hardware) (font : Glyphs) (passes : Nat) (next : Driver → Option Driver)
    (start : Addr) (s : Statics) (loaded : Loaded next s) (mapped : MappedAt start s.sched.mem) :
    ∃ after, kernelInit hw font (passes + 1) s = some after ∧ Started hw (rows font) start s after := by
  obtain ⟨inventory, gathered, reported⟩ := inventoryGather_report hw.ebx hw.space s.inventory
  obtain ⟨mem, drawn, outside, pixels⟩ := redraw_mapped font (InputLine.initial (frameOf s.sched.mem))
    (Machine.legible_initial _) s.sched.mem start mapped rfl
  have line : Mapped.redraw font s.inputBuf s.inputLen s.sched.mem = some mem := by
    rw [loaded.inputBuf, loaded.inputLen]
    exact drawn
  have shown := (Machine.redraw_shows (rows font) (InputLine.initial (frameOf s.sched.mem))).congr
    fun k inside => (pixels k inside).symm
  exact ⟨_, kernelInit_eq hw font (passes + 1) s mem inventory line gathered,
    finish_started hw (rows font) passes next start s mem inventory loaded.drivers outside shown reported⟩

/-- Without an entry for the framebuffer `kernel_init` does not come back. -/
theorem kernelInit_faults (hw : Hardware) (font : Glyphs) (passes : Nat) (s : Statics)
    (entries : Entries s.sched.mem) (absent : ¬Present (read64 s.sched.mem 0x9018#64)) :
    kernelInit hw font passes s = none := by
  have faults := redraw_faults font s.inputBuf s.inputLen s.sched.mem (entries.pixel_unmapped absent 0 (by decide))
  have early : Mapped.redraw font (mmStart hw s).inputBuf (mmStart hw s).inputLen (mmStart hw s).sched.mem = none :=
    faults
  unfold kernelInit guiStart Statics.onTerminal
  dsimp only
  rw [early]
  rfl

theorem Started.run_screen {hw : Hardware} {font : Font} {start : Addr} {before after : Statics}
    (started : Started hw font start before after) (inv : ComputeInventory) (fb : Frame) (events : List Event) :
    BootScreen after.sched.mem (run (step font inv) events (booted font after.terminal fb)).terminal.con := by
  have held := run_undisturbed font inv after.terminal fb events
  have screen := started.screen
  rw [held.terminal]
  exact ⟨screen.rows, screen.column, screen.row, screen.register⟩

def noDevices : Hardware := ⟨fun _ => 0#32, fun _ _ _ _ => 0xFFFFFFFF#32, 0x20000#64⟩

def blankStatics (mem : Mem) : Statics where
  sched := ⟨mem, 0#64, 0#64, 0#64, 0#64⟩
  terminal := Terminal.zeroed
  inputBuf := Vector.replicate 128 0#8
  inputLen := 0#32
  files := Fs.emptyTable
  inventory := ⟨emptyInventory, fun _ => 0#8⟩
  fadtData := ⟨0#16, 0#16, 0#16, 0#16⟩
  fadtTable := false
  acpiTables := []
  drivers := .start fun _ => none

theorem blank_loaded (mem : Mem) : Loaded (fun _ => none) (blankStatics mem) := ⟨rfl, rfl, rfl⟩

end LifeOS.Kernel
