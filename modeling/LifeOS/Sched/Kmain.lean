import LifeOS.Sched.RoundRobin

/-!
The three tasks that `kmain` creates, adds and starts, and the turns that `sched_yield`
gives them.
-/

namespace LifeOS.Sched
open LifeOS.Library.Memory LifeOS.Library.Rotation LifeOS.Library.Runs

inductive Task where
  | idleTask
  | shellTask
  | guiTask

def Task.next : Task → Task
  | .idleTask => .shellTask
  | .shellTask => .guiTask
  | .guiTask => .idleTask

def taskPage (page : Addr) : Task → Addr
  | .idleTask => page
  | .shellTask => page + 8192#64
  | .guiTask => page + 16384#64

def kmain (entry : Task → Addr) (page saved : Addr) : List Event :=
  [.create (entry .idleTask), .add (taskPage page .idleTask), .create (entry .shellTask),
    .add (taskPage page .shellTask), .create (entry .guiTask), .add (taskPage page .guiTask), .start saved]

def turnsFrom : Task → Nat → List Task
  | _, 0 => []
  | t, n + 1 => t :: turnsFrom t.next n

def roundAt (page : Addr) : Task → Round Addr
  | .idleTask => ⟨[page, page + 8192#64, page + 16384#64], 0, by simp⟩
  | .shellTask => ⟨[page, page + 8192#64, page + 16384#64], 1, by simp⟩
  | .guiTask => ⟨[page, page + 8192#64, page + 16384#64], 2, by simp⟩

theorem roundAt_current (page : Addr) (t : Task) : (roundAt page t).current = taskPage page t := by
  cases t <;> rfl

theorem roundAt_turn (page : Addr) (t : Task) : (roundAt page t).turn = roundAt page t.next := by
  cases t <;> rfl

theorem moves_yields (saves : List Addr) : moves (saves.map .yield) = saves.map (fun _ => .turn) := by
  induction saves with
  | nil => rfl
  | cons saved saves ih => exact congrArg (_ :: ·) ih

theorem visited_roundAt (page : Addr) (saves : List Addr) (t : Task) :
    visited (saves.map (fun _ => Move.turn)) (roundAt page t) =
      (turnsFrom t.next saves.length).map (taskPage page) := by
  induction saves generalizing t with
  | nil => rfl
  | cons saved saves ih =>
    change (roundAt page t).turn.current :: visited _ (roundAt page t).turn = _
    rw [roundAt_turn, roundAt_current, ih]
    rfl

theorem addTask_page (t : Addr) (s : Scheduler) : (schedAddTask t s).nextFreePage = s.nextFreePage := by
  unfold schedAddTask
  split <;> rfl

theorem start_current (boot saved : Addr) (s : Scheduler)
    (some_task : (schedStart boot saved s).taskListHead ≠ 0#64) :
    (schedStart boot saved s).currentTask = (schedStart boot saved s).taskListHead := by
  unfold schedStart at some_task ⊢
  split
  · rename_i empty
    rw [if_pos empty] at some_task
    exact absurd empty some_task
  · rfl

/-- Before the start: the next page, and the tasks created and added so far. -/
structure Stage (w : World) (page : Addr) (tasks : List Addr) : Prop where
  free : w.sched.nextFreePage = page
  created : w.created = tasks
  queue : w.queue = tasks
  waiting : w.started = false

variable (boot : Addr) {w : World} {page : Addr} {tasks : List Addr}

theorem Stage.next (stage : Stage w page tasks) (entry : Addr) :
    Stage (step boot (.add page) (step boot (.create entry) w)) (page + 8192#64) (tasks ++ [page]) := by
  obtain ⟨free, created, queue, waiting⟩ := stage
  refine ⟨?_, ?_, ?_, waiting⟩
  · change (schedAddTask page (schedCreateTask entry w.sched).2).nextFreePage = _
    rw [addTask_page]
    change w.sched.nextFreePage + 4096#64 + 4096#64 = _
    rw [free, BitVec.add_assoc]
    rfl
  · change w.created ++ [w.sched.nextFreePage] = _
    rw [created, free]
  · change w.queue ++ [page] = _
    rw [queue]

theorem Stage.legal (stage : Stage w page tasks) (entry : Addr) (fresh : page ∉ tasks)
    (room : page.toNat + 8192 < 2 ^ 64) :
    Legal (.create entry) w ∧ Legal (.add page) (step boot (.create entry) w) := by
  refine ⟨?_, ?_, ?_⟩
  · change w.sched.nextFreePage.toNat + 8192 < 2 ^ 64
    rw [stage.free]
    exact room
  · change page ∈ w.created ++ [w.sched.nextFreePage]
    rw [stage.free]
    simp
  · change page ∉ w.queue
    rw [stage.queue]
    exact fresh

theorem initial_stage (s : Scheduler) : Stage (initial s) s.nextFreePage [] := ⟨rfl, rfl, rfl, rfl⟩

theorem kmain_legal (entry : Task → Addr) (s : Scheduler) (saved : Addr)
    (room : s.nextFreePage.toNat + 24576 < 2 ^ 64) :
    Along (step boot) Legal (kmain entry s.nextFreePage saved) (initial s) := by
  have first := initial_stage s
  have second := first.next boot (entry .idleTask)
  have third := second.next boot (entry .shellTask)
  have fourth := third.next boot (entry .guiTask)
  generalize s.nextFreePage = page at first second third fourth room ⊢
  have pages : page + 8192#64 + 8192#64 = page + 16384#64 := by
    rw [BitVec.add_assoc]
    rfl
  have away : (page + 8192#64).toNat = page.toNat + 8192 := by bv_omega
  have far : (page + 16384#64).toNat = page.toNat + 16384 := by bv_omega
  obtain ⟨create_idle, add_idle⟩ := first.legal boot (entry .idleTask) List.not_mem_nil (by omega)
  obtain ⟨create_shell, add_shell⟩ := second.legal boot (entry .shellTask)
    (by
      intro member
      have same := congrArg BitVec.toNat (List.mem_singleton.mp member)
      omega)
    (by omega)
  obtain ⟨create_gui, add_gui⟩ := third.legal boot (entry .guiTask)
    (by
      intro member
      rw [pages] at member
      rcases List.mem_append.mp member with old | new
      · have same := congrArg BitVec.toNat (List.mem_singleton.mp old)
        omega
      · have same := congrArg BitVec.toNat (List.mem_singleton.mp new)
        omega)
    (by
      rw [pages]
      omega)
  rw [pages] at add_gui fourth
  refine ⟨create_idle, add_idle, create_shell, add_shell, create_gui, add_gui, ⟨fourth.waiting, ?_⟩, trivial⟩
  intro empty
  have queued := fourth.queue.symm.trans empty
  simp at queued

theorem yields_legal (saves : List Addr) (w : World) (begun : w.started = true) :
    Along (step boot) Legal (saves.map .yield) w := by
  induction saves generalizing w with
  | nil => trivial
  | cons saved saves ih => exact ⟨begun, ih (step boot (.yield saved) w) begun⟩

/-- After `kmain` the processor goes to the idle task, the shell and the GUI in turn. -/
theorem kmain_switches (entry : Task → Addr) (s : Scheduler) (saved : Addr) (saves : List Addr)
    (placed : Placed boot s) (room : s.nextFreePage.toNat + 24576 < 2 ^ 64) :
    switchedTo boot (kmain entry s.nextFreePage saved ++ saves.map .yield) (initial s) =
      (turnsFrom .idleTask (saves.length + 1)).map (taskPage s.nextFreePage) := by
  have legal := kmain_legal boot entry s saved room
  have linked := run_guarded (step boot) Legal (Linked boot) (fun event w => step_linked event w) _ _
    (initial_linked boot s placed) legal
  have queue : (run (step boot) (kmain entry s.nextFreePage saved) (initial s)).queue =
      (roundAt s.nextFreePage .idleTask).queue := run_queue _ _
  have begun : (run (step boot) (kmain entry s.nextFreePage saved) (initial s)).started = true := rfl
  have split : switchedTo boot (kmain entry s.nextFreePage saved ++ saves.map .yield) (initial s) =
      (run (step boot) (kmain entry s.nextFreePage saved) (initial s)).sched.currentTask ::
        switchedTo boot (saves.map .yield)
          (run (step boot) (kmain entry s.nextFreePage saved) (initial s)) := rfl
  have nonzero : s.nextFreePage ≠ 0#64 := by
    intro zero
    have high := placed.2
    rw [zero] at high
    simp at high
  obtain ⟨ready, reached⟩ : ∃ ready, run (step boot) (kmain entry s.nextFreePage saved) (initial s) =
      step boot (.start saved) ready := ⟨_, rfl⟩
  rw [reached] at linked queue begun split
  have head : (schedStart boot saved ready.sched).taskListHead = s.nextFreePage := by
    refine linked.head.trans ?_
    rw [queue]
    rfl
  have current : (schedStart boot saved ready.sched).currentTask = s.nextFreePage :=
    (start_current boot saved ready.sched (by rw [head]; exact nonzero)).trans head
  have rounds : Rounds (step boot (.start saved) ready) (roundAt s.nextFreePage .idleTask) :=
    ⟨queue.symm, (roundAt_current _ _).trans current.symm⟩
  have turns := (switchedTo_eq_visited (saves.map .yield) _ _ linked begun rounds
    (yields_legal boot saves _ begun)).1
  rw [split, turns, moves_yields, visited_roundAt]
  exact congrArg (· :: _) current

end LifeOS.Sched
