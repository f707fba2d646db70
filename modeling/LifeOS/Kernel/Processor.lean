import LifeOS.Kernel.Typing
import LifeOS.Sched.Contexts

/-!
The running system on the processor: the task that takes a turn of the system is the one
whose stack and registers `context_switch` has loaded.
-/

namespace LifeOS.Kernel
open LifeOS.Console LifeOS.Gui LifeOS.Library.Memory LifeOS.Library.Runs LifeOS.Library.Rotation
open LifeOS.Library.X86 (Regs)
open LifeOS.Sched (Task Scheduler Placed Machine Action act taskPage roundAt Preserved Regained Rounds Disciplined
  reset switchTo schedNext switchTo_spec)

structure Work where
  regs : Regs → Regs
  mem : Mem → Mem

def kmainActions (entry : Task → Addr) (page : Addr) : List Action :=
  [.create (entry .idleTask), .add (taskPage page .idleTask), .create (entry .shellTask),
    .add (taskPage page .shellTask), .create (entry .guiTask), .add (taskPage page .guiTask), .start]

/-- A turn computes and then yields; the arrival of a byte is no action of the processor. -/
def turnActions : Event × Work → List Action
  | (.arrive _, _) => []
  | (.turn, work) => [.compute work.regs work.mem, .yield]

/-- The processor runs the task that has the turn, in the context that this task left. -/
structure Runs (boot page : Addr) (m : Machine) (running : Task) : Prop where
  preserved : Preserved boot m
  started : m.world.started = true
  rounds : Rounds m.world (roundAt page running)
  regained : Regained m

variable {boot page : Addr} {m : Machine} {running : Task}

theorem Runs.current (runs : Runs boot page m running) : m.world.sched.currentTask = taskPage page running :=
  runs.rounds.current.symm.trans (Sched.roundAt_current page running)

theorem switchTo_current (next : Addr) (m : Machine) (room : 48 ≤ (m.regs .rsp).toNat)
    (fits : (m.regs .rsp).toNat + 8 ≤ 2 ^ 64) :
    (switchTo next m).world.sched.currentTask = next ∧ (switchTo next m).world.queue = m.world.queue ∧
      (switchTo next m).world.started = m.world.started := by
  obtain ⟨_, _, _, stepped, _⟩ := switchTo_spec next m room fits
  rw [stepped]
  exact ⟨rfl, rfl, rfl⟩

theorem Runs.turn (runs : Runs boot page m running) (work : Work)
    (legal : Along (act boot) Disciplined (turnActions (.turn, work)) m) :
    Runs boot page (run (act boot) (turnActions (.turn, work)) m) running.next := by
  obtain ⟨keeps, yields, _⟩ := legal
  have computed := runs.preserved.compute work.regs work.mem keeps
  have rounds : Rounds (act boot (.compute work.regs work.mem) m).world (roundAt page running) :=
    ⟨runs.rounds.queue, runs.rounds.current⟩
  change Runs boot page (act boot .yield (act boot (.compute work.regs work.mem) m)) _
  generalize act boot (.compute work.regs work.mem) m = busy at computed rounds yields
  obtain ⟨kept, regained⟩ := computed.yield yields
  obtain ⟨begun, own⟩ := yields
  have begun : busy.world.started = true := begun
  unfold Sched.OnOwnStack at own
  have inside := computed.linked.fits _ (computed.linked.known _ (computed.linked.running begun))
  obtain ⟨current, queue, started⟩ := switchTo_current (schedNext busy.world.sched) busy (by omega) (by omega)
  refine ⟨kept, started.trans begun, ⟨?_, ?_⟩, regained⟩
  · rw [← Sched.roundAt_turn]
    exact rounds.queue.trans queue.symm
  · rw [← Sched.roundAt_turn, turn_current, ← Sched.schedNext_eq computed.linked _ rounds begun]
    exact current.symm

theorem start_switched (boot : Addr) (m : Machine) (some_task : m.world.sched.taskListHead ≠ 0#64)
    (room : 48 ≤ (m.regs .rsp).toNat) (fits : (m.regs .rsp).toNat + 8 ≤ 2 ^ 64) :
    (act boot .start m).world.sched.currentTask = m.world.sched.taskListHead ∧
      (act boot .start m).world.queue = m.world.queue ∧ (act boot .start m).world.started = true := by
  obtain ⟨current, queue, _⟩ := switchTo_current m.world.sched.taskListHead
    { m with world := { m.world with sched := Sched.bootstrap boot m.world.sched } } room fits
  have entered : act boot .start m =
      { switchTo m.world.sched.taskListHead
          { m with world := { m.world with sched := Sched.bootstrap boot m.world.sched } } with
        world := { (switchTo m.world.sched.taskListHead
          { m with world := { m.world with sched := Sched.bootstrap boot m.world.sched } }).world with
            started := true } } := if_neg some_task
  rw [entered]
  exact ⟨current, queue, rfl⟩

theorem create_queue (boot entry : Addr) (m : Machine) :
    (act boot (.create entry) m).world.queue = m.world.queue := rfl

theorem add_queue (boot t : Addr) (m : Machine) : (act boot (.add t) m).world.queue = m.world.queue ++ [t] := rfl

def kmainQueues (entry : Task → Addr) (page : Addr) : List Action :=
  [.create (entry .idleTask), .add (taskPage page .idleTask), .create (entry .shellTask),
    .add (taskPage page .shellTask), .create (entry .guiTask), .add (taskPage page .guiTask)]

theorem kmain_queue (boot page : Addr) (entry : Task → Addr) (m : Machine) (empty : m.world.queue = []) :
    (run (act boot) (kmainQueues entry page) m).world.queue = (roundAt page .idleTask).queue := by
  unfold kmainQueues
  simp only [run, create_queue, add_queue, empty]
  rfl

theorem kmain_runs (boot : Addr) (entry : Task → Addr) (s : Scheduler) (regs : Regs) (rip : Addr)
    (contexts : Addr → Sched.Context) (placed : Placed boot s)
    (legal : Along (act boot) Disciplined (kmainActions entry s.nextFreePage) (reset s regs rip contexts)) :
    Runs boot s.nextFreePage
      (run (act boot) (kmainActions entry s.nextFreePage) (reset s regs rip contexts)) .idleTask := by
  have fresh : Preserved boot (reset s regs rip contexts) :=
    ⟨Sched.initial_linked boot s placed, fun _ => rfl, by simp [reset, Sched.initial]⟩
  have split : kmainActions entry s.nextFreePage = kmainQueues entry s.nextFreePage ++ [.start] := rfl
  have queue := kmain_queue boot s.nextFreePage entry (reset s regs rip contexts) rfl
  rw [split, along_append] at legal
  rw [split, run_append]
  have ready := run_guarded (act boot) Disciplined (Preserved boot)
    (fun action m => Sched.act_preserved action m) _ _ fresh legal.1
  obtain ⟨starts, _⟩ := legal.2
  generalize run (act boot) (kmainQueues entry s.nextFreePage) (reset s regs rip contexts) = m
    at queue ready starts
  obtain ⟨kept, regained⟩ := ready.start starts
  have head : m.world.sched.taskListHead = s.nextFreePage := by
    rw [ready.linked.head, queue]
    rfl
  have nonzero : m.world.sched.taskListHead ≠ 0#64 :=
    fun zero => starts.1.2 (ready.linked.head_eq_zero_iff.mp zero)
  obtain ⟨current, same, begun⟩ := start_switched boot m nonzero starts.2.1 starts.2.2.1
  refine ⟨kept, begun, ⟨?_, ?_⟩, regained⟩
  · exact queue.symm.trans same.symm
  · calc
      _ = s.nextFreePage := Sched.roundAt_current s.nextFreePage .idleTask
      _ = m.world.sched.taskListHead := head.symm
      _ = _ := current.symm

theorem schedule_runs (font : Font) (inv : ComputeInventory) (first : System) (schedule : List (Event × Work))
    (s : System) (held : Undisturbed first s) (runs : Runs boot page m s.running)
    (legal : Along (act boot) Disciplined (schedule.flatMap turnActions) m) :
    Runs boot page (run (act boot) (schedule.flatMap turnActions) m)
      (run (step font inv) (schedule.map Prod.fst) s).running := by
  induction schedule generalizing s m with
  | nil => exact runs
  | cons entry schedule ih =>
    rw [List.flatMap_cons, along_append] at legal
    rw [List.flatMap_cons, run_append]
    have later := step_undisturbed font inv first entry.1 s held
    apply ih _ later _ legal.2
    obtain ⟨event, work⟩ := entry
    cases event with
    | arrive sc => exact runs
    | turn =>
      dsimp only
      rw [step_turn font inv s held.active]
      exact runs.turn work legal.1

/-- In every run of the system the task that has the turn is the current task of the machine that
`kmain` sets up, and it has the registers and the stack with which it last gave up the processor. -/
theorem turns_on_processor (font : Font) (inv : ComputeInventory) (t : Terminal) (fb : Frame) (boot : Addr)
    (entry : Task → Addr) (s : Scheduler) (regs : Regs) (rip : Addr) (contexts : Addr → Sched.Context)
    (placed : Placed boot s) (schedule : List (Event × Work))
    (legal : Along (act boot) Disciplined (kmainActions entry s.nextFreePage ++ schedule.flatMap turnActions)
      (reset s regs rip contexts)) :
    ∃ m, run (act boot) (kmainActions entry s.nextFreePage ++ schedule.flatMap turnActions)
        (reset s regs rip contexts) = m ∧
      m.world.sched.currentTask = taskPage s.nextFreePage
        (run (step font inv) (schedule.map Prod.fst) (booted font t fb)).running ∧
      Sched.resumed m.regs m.rip = m.contexts m.world.sched.currentTask := by
  rw [along_append] at legal
  have started := kmain_runs boot entry s regs rip contexts placed legal.1
  have runs := schedule_runs font inv (booted font t fb) schedule (booted font t fb)
    (booted_undisturbed font t fb) started legal.2
  rw [run_append]
  exact ⟨_, rfl, runs.current, runs.regained⟩

def firstTurn : List (Event × Work) :=
  [(.arrive 0x1E#8, ⟨id, id⟩), (.turn, ⟨fun regs => Library.X86.setReg regs .rsp 0x19FF0#64, id⟩)]

theorem first_turn_on_processor :
    ∃ m, run (act 0x17F00#64)
        (kmainActions (fun _ => 0x2000#64) Sched.smallKernel.nextFreePage ++ firstTurn.flatMap turnActions)
        (reset Sched.smallKernel (fun _ => 0x8FFF0#64) 0#64 (fun _ => Sched.entryContext 0#64 0#64)) = m ∧
      m.world.sched.currentTask = taskPage Sched.smallKernel.nextFreePage
        (run (step (fun _ _ => 0#8) emptyInventory) (firstTurn.map Prod.fst)
          (booted (fun _ _ => 0#8) Terminal.zeroed (fun _ => 0#32))).running ∧
      Sched.resumed m.regs m.rip = m.contexts m.world.sched.currentTask := by
  apply turns_on_processor _ _ _ _ 0x17F00#64 _ Sched.smallKernel _ _ _ ⟨by decide, by decide⟩
  let ready := run (act 0x17F00#64) (kmainQueues (fun _ => 0x2000#64) Sched.smallKernel.nextFreePage)
    (reset Sched.smallKernel (fun _ => 0x8FFF0#64) 0#64 (fun _ => Sched.entryContext 0#64 0#64))
  let atYield := run (act 0x17F00#64)
    ((kmainActions (fun _ => 0x2000#64) Sched.smallKernel.nextFreePage ++ firstTurn.flatMap turnActions).take 8)
    (reset Sched.smallKernel (fun _ => 0x8FFF0#64) 0#64 (fun _ => Sched.entryContext 0#64 0#64))
  have made : ready.world.created = [0x18000#64, 0x1A000#64, 0x1C000#64] := by decide
  have bootTop : ready.regs .rsp = 0x8FFF0#64 := by decide
  have running : atYield.world.sched.currentTask = 0x18000#64 := by decide
  have ownTop : atYield.regs .rsp = 0x19FF0#64 := by decide
  have bootStack : Sched.OnBootStack ready := by
    unfold Sched.OnBootStack
    rw [made, bootTop]
    simp
  have ownStack : Sched.OnOwnStack atYield := by
    unfold Sched.OnOwnStack
    rw [running, ownTop]
    decide
  refine ⟨?_, ?_, ?_, ?_, ?_, ?_, ⟨⟨rfl, by decide⟩, bootStack⟩, fun _ _ _ _ _ _ => rfl, ⟨rfl, ownStack⟩, trivial⟩
  all_goals
    unfold Disciplined
    decide

end LifeOS.Kernel
