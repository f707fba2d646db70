import LifeOS.Library.Rotation
import LifeOS.Sched.Queue

/-!
The scheduler as a rotation: the linked list walked by `sched_yield` is the queue in
order of addition, and each yield turns the rotation by one entry.
-/

namespace LifeOS.Sched
open LifeOS.Library.Memory LifeOS.Library.Runs LifeOS.Library.Rotation LifeOS.Mm

variable {boot : Addr} {w : World}

/-- The queue seen as a rotation that stands at the running task. -/
structure Rounds (w : World) (r : Round Addr) : Prop where
  queue : r.queue = w.queue
  current : r.current = w.sched.currentTask

theorem Linked.exists_round (linked : Linked boot w) (begun : w.started = true) :
    ∃ r, Rounds w r := by
  have inside := List.idxOf_lt_length_of_mem (linked.running begun)
  exact ⟨⟨w.queue, w.queue.idxOf w.sched.currentTask, inside⟩, rfl, List.getElem_idxOf inside⟩

theorem successor_mem (r : Round Addr) : r.successor ∈ r.queue := by
  unfold Round.successor
  split <;> exact List.getElem_mem _

/-- `sched_yield` reads the successor of the running task off the links. -/
theorem schedNext_eq (linked : Linked boot w) (r : Round Addr) (rounds : Rounds w r)
    (begun : w.started = true) : schedNext w.sched = r.successor := by
  have running := linked.running begun
  have owner := linked.known _ running
  have position : w.queue.idxOf w.sched.currentTask = r.position := by
    have inside : r.position < w.queue.length := by
      rw [← rounds.queue]
      exact r.inside
    have place : w.queue[r.position] = w.sched.currentTask := by
      rw [← rounds.current]
      simp only [Round.current, ← rounds.queue, List.get_eq_getElem]
    rw [← place, linked.distinct.idxOf_getElem _ inside]
  have link : taskNext w.sched.mem w.sched.currentTask = w.queue.getD (r.position + 1) 0#64 := by
    rw [linked.links _ owner, following, position]
  unfold schedNext Round.successor
  rw [link]
  by_cases later : r.position + 1 < r.queue.length
  · have inside : r.position + 1 < w.queue.length := rounds.queue ▸ later
    have nonzero := linked.nonzero _ (linked.known _ (List.getElem_mem inside))
    have value : w.queue.getD (r.position + 1) 0#64 = w.queue[r.position + 1] := by
      rw [List.getD_eq_getElem _ _ inside]
    rw [value, dif_pos later, if_neg]
    · simp only [rounds.queue, List.get_eq_getElem]
    · rintro (null | null)
      · exact linked.nonzero _ owner null
      · exact nonzero null
  · have outside : w.queue.length ≤ r.position + 1 := by
      rw [← rounds.queue]
      omega
    have first : 0 < w.queue.length := List.length_pos_of_mem running
    rw [List.getD_eq_default _ _ outside, if_pos (Or.inr rfl), dif_neg later, linked.head]
    simp only [rounds.queue, List.get_eq_getElem]
    rw [List.headD_eq_head?_getD, List.head?_eq_getElem?, List.getElem?_eq_getElem first,
      Option.getD_some]

theorem Linked.yield (linked : Linked boot w) (saved : Addr) (legal : Legal (.yield saved) w) :
    Linked boot (step boot (.yield saved) w) := by
  obtain ⟨r, rounds⟩ := linked.exists_round legal
  have member : schedNext w.sched ∈ w.queue := by
    rw [schedNext_eq linked r rounds legal, ← rounds.queue]
    exact successor_mem r
  have outgoing := linked.known _ (linked.running legal)
  have switched := linked.switch saved (schedNext w.sched) w.started (Or.inr outgoing) member
  exact switched

theorem step_linked (event : Event) (w : World) (linked : Linked boot w) (legal : Legal event w) :
    Linked boot (step boot event w) := by
  cases event with
  | create entry => exact linked.create entry legal
  | add t => exact linked.add t legal
  | start saved => exact linked.start saved legal
  | yield saved => exact linked.yield saved legal

def moves : List Event → List (Move Addr)
  | [] => []
  | .add t :: events => .join t :: moves events
  | .yield _ :: events => .turn :: moves events
  | _ :: events => moves events

def switchedTo (boot : Addr) : List Event → World → List Addr
  | [], _ => []
  | .start saved :: events, w =>
      (step boot (.start saved) w).sched.currentTask ::
        switchedTo boot events (step boot (.start saved) w)
  | .yield saved :: events, w =>
      (step boot (.yield saved) w).sched.currentTask ::
        switchedTo boot events (step boot (.yield saved) w)
  | event :: events, w => switchedTo boot events (step boot event w)

theorem Rounds.yield {r : Round Addr} (rounds : Rounds w r) (linked : Linked boot w) (saved : Addr)
    (begun : w.started = true) : Rounds (step boot (.yield saved) w) r.turn := by
  constructor
  · exact rounds.queue
  · rw [turn_current, ← schedNext_eq linked r rounds begun]
    rfl

theorem Rounds.add {r : Round Addr} (rounds : Rounds w r) (t : Addr) :
    Rounds (step boot (.add t) w) (r.join t) := by
  constructor
  · exact congrArg (· ++ [t]) rounds.queue
  · rw [join_current, rounds.current]
    simp only [step, schedAddTask]
    split <;> rfl

theorem switchedTo_eq_visited (events : List Event) (w : World) (r : Round Addr)
    (linked : Linked boot w) (begun : w.started = true) (rounds : Rounds w r)
    (legal : Along (step boot) Legal events w) :
    switchedTo boot events w = visited (moves events) r ∧ Fresh (moves events) r := by
  induction events generalizing w r with
  | nil => exact ⟨rfl, trivial⟩
  | cons event events ih =>
    obtain ⟨now, later⟩ := legal
    have next := step_linked event w linked now
    cases event with
    | create entry => exact ih _ r next begun ⟨rounds.queue, rounds.current⟩ later
    | add t =>
      obtain ⟨same, fresh⟩ := ih _ (r.join t) next begun (rounds.add t) later
      exact ⟨same, rounds.queue ▸ now.2, fresh⟩
    | start saved => exact absurd begun (by simp [now.1])
    | yield saved =>
      have turned := rounds.yield linked saved begun
      obtain ⟨same, fresh⟩ := ih _ r.turn next begun turned later
      refine ⟨?_, fresh⟩
      simp only [switchedTo, moves, visited, same, turned.current]

def added : List Event → List Addr
  | [] => []
  | .add t :: events => t :: added events
  | _ :: events => added events

theorem run_queue (events : List Event) (w : World) :
    (run (step boot) events w).queue = w.queue ++ added events := by
  induction events generalizing w with
  | nil => simp [run, added]
  | cons event events ih => cases event <;> simp [run, added, step, ih]

def Spells (mem : Mem) : Addr → List Addr → Prop
  | p, [] => p = 0#64
  | p, t :: rest => p = t ∧ t ≠ 0#64 ∧ Spells mem (taskNext mem t) rest

theorem Linked.spells_suffix (linked : Linked boot w) (front rest : List Addr)
    (shape : w.queue = front ++ rest) : Spells w.sched.mem (rest.headD 0#64) rest := by
  induction rest generalizing front with
  | nil => rfl
  | cons t rest ih =>
    have made : t ∈ w.created := linked.known t (by simp [shape])
    have absent : t ∉ front := by
      have distinct := linked.distinct
      rw [shape, List.nodup_append] at distinct
      exact fun member => distinct.2.2 t member t (by simp) rfl
    have link : taskNext w.sched.mem t = rest.headD 0#64 := by
      rw [linked.links t made, shape, following, List.idxOf_append_of_notMem absent,
        List.idxOf_cons_self, List.getD_append_right _ _ _ _ (by omega)]
      cases rest <;> simp
    refine ⟨rfl, linked.nonzero t made, ?_⟩
    rw [link]
    exact ih (front ++ [t]) (by simp [shape])

theorem boot_not_switched (events : List Event) (w : World) (linked : Linked boot w)
    (legal : Along (step boot) Legal events w) : boot ∉ switchedTo boot events w := by
  induction events generalizing w with
  | nil => simp [switchedTo]
  | cons event events ih =>
    obtain ⟨now, later⟩ := legal
    have next := step_linked event w linked now
    have rest := ih _ next later
    have away (begun : (step boot event w).started = true) :
        boot ≠ (step boot event w).sched.currentTask := by
      intro same
      have high := next.high _ (next.known _ (next.running begun))
      rw [← same] at high
      omega
    cases event with
    | create entry => exact rest
    | add t => exact rest
    | start saved => exact List.not_mem_cons_of_ne_of_not_mem (away rfl) rest
    | yield saved => exact List.not_mem_cons_of_ne_of_not_mem (away now) rest

/-- `next` is queued right behind `running`, or heads the queue when `running` is last. -/
def NextInTurn (queue : List Addr) (running next : Addr) : Prop :=
  ∃ i, queue[i]? = some running ∧ (queue[i + 1]?).or queue[0]? = some next

theorem successor_in_turn (r : Round Addr) : NextInTurn r.queue r.current r.successor := by
  refine ⟨r.position, getElem?_current r, ?_⟩
  unfold Round.successor
  by_cases later : r.position + 1 < r.queue.length
  · simp [later]
  · have first : 0 < r.queue.length := Nat.zero_lt_of_lt r.inside
    simp [later, first]

/-- Round-robin order at the end of a run: what the memory holds, whom the next switch
goes to, and what happens until the running task runs again. -/
structure InTurn (boot : Addr) (events : List Event) (w : World) : Prop where
  order : w.queue = added events
  spelled : Spells w.sched.mem w.sched.taskListHead w.queue
  first : ∀ saved, Legal (.start saved) w →
    some (step boot (.start saved) w).sched.currentTask = w.queue.head?
  next : ∀ saved, Legal (.yield saved) w →
    NextInTurn w.queue w.sched.currentTask (step boot (.yield saved) w).sched.currentTask
  fair : w.started = true → ∀ more, Along (step boot) Legal more w →
    ∀ between, switchedTo boot more w = between ++ [w.sched.currentTask] →
      w.sched.currentTask ∉ between →
        ∀ u ∈ w.queue, u ≠ w.sched.currentTask → between.count u = 1

theorem Linked.inTurn (linked : Linked boot w) (events : List Event) (order : w.queue = added events) :
    InTurn boot events w := by
  refine ⟨order, ?_, ?_, ?_, ?_⟩
  · rw [linked.head]
    exact linked.spells_suffix [] w.queue rfl
  · intro saved legal
    simp only [step, start_switches linked saved legal.2]
    change some w.sched.taskListHead = w.queue.head?
    rw [linked.head, List.headD_eq_head?_getD]
    cases shape : w.queue with
    | nil => exact absurd shape legal.2
    | cons t rest => rfl
  · intro saved begun
    obtain ⟨r, rounds⟩ := linked.exists_round begun
    have turn := successor_in_turn r
    rw [rounds.queue, rounds.current, ← schedNext_eq linked r rounds begun] at turn
    exact turn
  · intro begun more legal between seen first u member other
    obtain ⟨r, rounds⟩ := linked.exists_round begun
    obtain ⟨same, fresh⟩ := switchedTo_eq_visited more w r linked begun rounds legal
    rw [same, ← rounds.current] at seen
    rw [← rounds.current] at first other
    exact visited_once (moves more) r (rounds.queue ▸ linked.distinct) fresh between seen first u
      (rounds.queue ▸ member) other

/-- After every run from `sched_init` the tasks take turns in order of addition, and no
switch of the run resumed the bootstrap task. -/
theorem round_robin (boot : Addr) (s : Scheduler) (placed : Placed boot s) (events : List Event)
    (legal : Along (step boot) Legal events (initial s)) :
    InTurn boot events (run (step boot) events (initial s)) ∧
      boot ∉ switchedTo boot events (initial s) := by
  have begin_linked := initial_linked boot s placed
  have linked := run_guarded (step boot) Legal (Linked boot)
    (fun event w => step_linked event w) events (initial s) begin_linked legal
  refine ⟨linked.inTurn events ?_, boot_not_switched events (initial s) begin_linked legal⟩
  rw [run_queue]
  rfl

/-- After `mm_init` behind an image that ends at `0x17F80`. -/
def smallKernel : Scheduler := ⟨fun _ => 0#8, mmInit 0x17F80#64, 0#64, 0#64, 0#64⟩

/-- A second task joins while the only one runs, and each runs twice. -/
def twoTasks : List Event :=
  [.create 0x2000#64, .add 0x18000#64, .start 0x8FFC8#64, .create 0x3000#64, .add 0x1A000#64,
    .yield 0x19FC0#64, .yield 0x1BFC0#64, .yield 0x19FC0#64]

theorem two_tasks_take_turns :
    InTurn 0x17F00#64 twoTasks (run (step 0x17F00#64) twoTasks (initial smallKernel)) ∧
      0x17F00#64 ∉ switchedTo 0x17F00#64 twoTasks (initial smallKernel) := by
  have placed := placed_mmInit 0x17F00#64 0x17F80#64 smallKernel (by decide) (by decide) (by decide)
  apply round_robin 0x17F00#64 smallKernel placed twoTasks
  exact ⟨by decide, by decide, by decide, by decide, by decide, by decide, by decide, by decide, trivial⟩

end LifeOS.Sched
