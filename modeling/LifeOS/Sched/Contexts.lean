import LifeOS.Sched.RoundRobin
import LifeOS.Sched.Switch

/-!
The scheduler with the registers of the processor: tasks compute inside their own stack
pages, and a task that regains control from `context_switch` finds what it had there.
-/

namespace LifeOS.Sched
open LifeOS.Library.Memory LifeOS.Library.Runs LifeOS.Library.X86 LifeOS.Mm

/-- What the running code does. A computation changes registers and memory. -/
inductive Action where
  | compute (regs : Regs → Regs) (mem : Mem → Mem)
  | create (entry : Addr)
  | add (t : Addr)
  | start
  | yield

/-- `contexts` records for each task what it had at its last call of `context_switch`, or
what it is to find at its first switch. -/
structure Machine where
  world : World
  regs : Regs
  rip : Addr
  contexts : Addr → Context

/-- At the first switch: zeros, the top of the stack page and the entry function. -/
def entryContext (entry t : Addr) : Context :=
  ⟨0#64, 0#64, 0#64, 0#64, 0#64, 0#64, stackPage t + 4096#64, entry⟩

def switchTo (next : Addr) (m : Machine) : Machine :=
  let cpu := execAll contextSwitchCode
    ⟨setReg m.regs .rdi next, m.rip, m.world.sched.mem, fun _ => m.world.sched.currentTask⟩
  { world :=
      { m.world with
        sched := { m.world.sched with mem := cpu.mem, currentTask := cpu.sym .currentTask } },
    regs := cpu.regs,
    rip := cpu.rip,
    contexts := fun t =>
      if t = m.world.sched.currentTask then calling m.regs m.world.sched.mem else m.contexts t }

def act (boot : Addr) : Action → Machine → Machine
  | .compute regs mem, m =>
      { m with regs := regs m.regs,
               world := { m.world with sched := { m.world.sched with mem := mem m.world.sched.mem } } }
  | .create entry, m =>
      { m with world := step boot (.create entry) m.world,
               contexts := fun t =>
                 if t = (schedCreateTask entry m.world.sched).1 then entryContext entry t
                 else m.contexts t }
  | .add t, m => { m with world := step boot (.add t) m.world }
  | .start, m =>
      if m.world.sched.taskListHead = 0#64 then m
      else
        let entered := switchTo m.world.sched.taskListHead
          { m with world := { m.world with sched := bootstrap boot m.world.sched } }
        { entered with world := { entered.world with started := true } }
  | .yield, m => switchTo (schedNext m.world.sched) m

/-- The memory keeps every task's two pages, the running task's own stack page apart. -/
def KeepsTasks (m : Machine) (after : Mem) : Prop :=
  ∀ t ∈ m.world.created, ∀ x : Addr, t.toNat ≤ x.toNat → x.toNat < t.toNat + 8192 →
    ¬(m.world.started = true ∧ m.world.sched.currentTask.toNat + 4096 ≤ x.toNat ∧
      x.toNat < m.world.sched.currentTask.toNat + 8192) →
    after x = m.world.sched.mem x

/-- The stack pointer and the six words below it lie in the running task's stack page. -/
def OnOwnStack (m : Machine) : Prop :=
  m.world.sched.currentTask.toNat + 4096 + 48 ≤ (m.regs .rsp).toNat ∧
    (m.regs .rsp).toNat + 8 ≤ m.world.sched.currentTask.toNat + 8192

/-- The start-up code has a stack of its own, outside the pages of every task. -/
def OnBootStack (m : Machine) : Prop :=
  48 ≤ (m.regs .rsp).toNat ∧ (m.regs .rsp).toNat + 8 ≤ 2 ^ 64 ∧
    ∀ t ∈ m.world.created,
      (m.regs .rsp).toNat ≤ t.toNat ∨ t.toNat + 8192 ≤ (m.regs .rsp).toNat - 48

/-- Each thread writes only its own stack among the stacks, and switches from it. -/
def Disciplined : Action → Machine → Prop
  | .compute _ mem, m => KeepsTasks m (mem m.world.sched.mem)
  | .create entry, m => Legal (.create entry) m.world
  | .add t, m => Legal (.add t) m.world
  | .start, m => Legal (.start (m.regs .rsp)) m.world ∧ OnBootStack m
  | .yield, m => Legal (.yield (m.regs .rsp)) m.world ∧ OnOwnStack m

def Regained (m : Machine) : Prop :=
  resumed m.regs m.rip = m.contexts m.world.sched.currentTask

theorem Saved.congr {before after : Mem} {t : Addr} {c : Context} (saved : Saved before t c)
    (room : t.toNat + 8192 < 2 ^ 64) (first : taskSp after t = taskSp before t)
    (stack : ∀ x : Addr, t.toNat + 4096 ≤ x.toNat → x.toNat < t.toNat + 8192 → after x = before x) :
    Saved after t c := by
  obtain ⟨low, high, frame, top⟩ := saved
  unfold Saved
  rw [first]
  refine ⟨low, high, ?_, top⟩
  apply frame_congr before after _ _ _ _ frame
  · change (taskSp before t).toNat + 8 * 7 ≤ 2 ^ 64
    omega
  · intro x below above
    change x.toNat < (taskSp before t).toNat + 8 * 7 at above
    exact stack x (by omega) (by omega)

theorem Saved.untouched {before after : Mem} {t : Addr} {c : Context} (saved : Saved before t c)
    (room : t.toNat + 8192 < 2 ^ 64)
    (same : ∀ x : Addr, t.toNat ≤ x.toNat → x.toNat < t.toNat + 8192 → after x = before x) :
    Saved after t c := by
  apply saved.congr room
  · apply read64_congr
    intro i inside
    apply same <;> bv_omega
  · intro x low high
    exact same x (by omega) high

/-- `context_switch` is six pushes followed by the scheduler's own step, and it restores
whatever frame the next task's structure leads to. -/
theorem switchTo_spec (next : Addr) (m : Machine) (room : 48 ≤ (m.regs .rsp).toNat)
    (fits : (m.regs .rsp).toNat + 8 ≤ 2 ^ 64) :
    ∃ pushed, SameOutside ((m.regs .rsp).toNat - 48) 48 m.world.sched.mem pushed ∧
      Frame pushed (m.regs .rsp - 48#64) (calling m.regs m.world.sched.mem).words ∧
      (switchTo next m).world =
        { m.world with
          sched := contextSwitch (m.regs .rsp - 48#64) next { m.world.sched with mem := pushed } } ∧
      ∀ c, Saved (switchTo next m).world.sched.mem next c →
        resumed (switchTo next m).regs (switchTo next m).rip = c := by
  obtain ⟨pushed, regs, ran, same, frame⟩ := save_exec
    ⟨setReg m.regs .rdi next, m.rip, m.world.sched.mem, fun _ => m.world.sched.currentTask⟩ room fits
  let halfway : Cpu Symbol :=
    ⟨setReg regs .rsp (taskSp (write64 pushed m.world.sched.currentTask (m.regs .rsp - 48#64)) next),
      m.rip, write64 pushed m.world.sched.currentTask (m.regs .rsp - 48#64), fun _ => next⟩
  change execAll (contextSwitchCode.take 10) _ = halfway at ran
  have halves : execAll contextSwitchCode
      ⟨setReg m.regs .rdi next, m.rip, m.world.sched.mem, fun _ => m.world.sched.currentTask⟩ =
        execAll (contextSwitchCode.drop 10) halfway := by
    rw [← List.take_append_drop 10 contextSwitchCode, execAll_append, ran]
    rfl
  have memory : (execAll (contextSwitchCode.drop 10) halfway).mem = halfway.mem := rfl
  have symbols : (execAll (contextSwitchCode.drop 10) halfway).sym = halfway.sym := rfl
  refine ⟨pushed, same, frame, ?_, ?_⟩
  · simp only [switchTo, halves, memory, symbols]
    rfl
  · intro c saved
    simp only [switchTo, halves, memory] at saved ⊢
    obtain ⟨_, _, found, top⟩ := saved
    have stack : halfway.regs .rsp = taskSp halfway.mem next := by
      simp only [halfway, setReg_same]
    obtain ⟨final, rip, done, back⟩ := restore_exec halfway c (stack ▸ found) (stack ▸ top)
    rw [done]
    exact back

variable {boot : Addr} {m : Machine}

structure Preserved (boot : Addr) (m : Machine) : Prop where
  linked : Linked boot m.world
  idle : m.world.started = false → m.world.sched.currentTask = 0#64
  saved : ∀ t ∈ m.world.created, t ≠ m.world.sched.currentTask →
    Saved m.world.sched.mem t (m.contexts t)

structure Clear (m : Machine) : Prop where
  room : 48 ≤ (m.regs .rsp).toNat
  fits : (m.regs .rsp).toNat + 8 ≤ 2 ^ 64
  others : ∀ t ∈ m.world.created, t ≠ m.world.sched.currentTask →
    (m.regs .rsp).toNat ≤ t.toNat ∨ t.toNat + 8192 ≤ (m.regs .rsp).toNat - 48
  own : m.world.sched.currentTask ∈ m.world.created → OnOwnStack m

theorem saved_stored {pushed : Mem} {t sp : Addr} {c : Context} (frame : Frame pushed sp c.words)
    (low : t.toNat + 4096 ≤ sp.toNat) (high : sp.toNat + 56 ≤ t.toNat + 8192)
    (room : t.toNat + 8192 < 2 ^ 64) (top : c.rsp = sp + 56#64) : Saved (write64 pushed t sp) t c := by
  have address : taskSp (write64 pushed t sp) t = sp := read64_write64_same _ _ _
  unfold Saved
  rw [address]
  refine ⟨low, high, ?_, top⟩
  apply frame_congr pushed _ _ _ _ _ frame
  · change sp.toNat + 8 * 7 ≤ 2 ^ 64
    omega
  · intro x below above
    exact write64_outside pushed t sp (by omega) x (by omega)

theorem Linked.store_misses {w : World} (linked : Linked boot w)
    (outgoing : w.sched.currentTask = boot ∨ w.sched.currentTask ∈ w.created) (mem : Mem) (sp t : Addr)
    (made : t ∈ w.created) (other : t ≠ w.sched.currentTask) (x : Addr) (low : t.toNat ≤ x.toNat)
    (high : x.toNat < t.toNat + 8192) : write64 mem w.sched.currentTask sp x = mem x := by
  rcases outgoing with atBoot | task
  · have above := linked.high t made
    rw [atBoot]
    exact write64_outside mem boot sp (by omega) x (by omega)
  · have inside := linked.fits _ task
    rcases linked.apart t _ made task with equal | far
    · exact absurd equal other
    · exact write64_outside mem _ sp (by omega) x (by omega)

/-- A switch saves the outgoing task, keeps the others saved and brings back the context
of the next one. -/
theorem switch_saves (next : Addr) (begun : Bool) (linked : Linked boot m.world)
    (saved : ∀ t ∈ m.world.created, t ≠ m.world.sched.currentTask →
      Saved m.world.sched.mem t (m.contexts t))
    (outgoing : m.world.sched.currentTask = boot ∨ m.world.sched.currentTask ∈ m.world.created)
    (clear : Clear m) (member : next ∈ m.world.queue) :
    Linked boot { (switchTo next m).world with started := begun } ∧
      (∀ t ∈ m.world.created,
        Saved (switchTo next m).world.sched.mem t ((switchTo next m).contexts t)) ∧
      Regained (switchTo next m) := by
  have room48 := clear.room
  have fits8 := clear.fits
  obtain ⟨pushed, same, frame, stepped, restores⟩ := switchTo_spec next m room48 fits8
  have current : (switchTo next m).world.sched.currentTask = next := by rw [stepped]; rfl
  have bound := (m.regs .rsp).isLt
  have all_saved : ∀ t ∈ m.world.created,
      Saved (switchTo next m).world.sched.mem t ((switchTo next m).contexts t) := by
    intro t made
    have room := linked.fits t made
    rw [stepped]
    change Saved (write64 pushed m.world.sched.currentTask (m.regs .rsp - 48#64)) t _
    by_cases running : t = m.world.sched.currentTask
    · -- the outgoing task: the frame just pushed
      have own := clear.own (running ▸ made)
      unfold OnOwnStack at own
      have context : (switchTo next m).contexts t = calling m.regs m.world.sched.mem := if_pos running
      have lower : (m.regs .rsp - 48#64).toNat = (m.regs .rsp).toNat - 48 := by bv_omega
      rw [context, ← running]
      rw [← running] at own
      apply saved_stored frame (by omega) (by omega) room
      change m.regs .rsp + 8#64 = m.regs .rsp - 48#64 + 56#64
      bv_omega
    · -- another task: neither the pushes nor the store reach its pages
      have context : (switchTo next m).contexts t = m.contexts t := if_neg running
      have pushes := clear.others t made running
      rw [context]
      apply (saved t made running).untouched room
      intro x low high
      rw [linked.store_misses outgoing pushed _ t made running x low high, same x (by omega)]
  refine ⟨?_, all_saved, ?_⟩
  · have kept : Linked boot { m.world with sched := { m.world.sched with mem := pushed } } := by
      apply linked.frame
      intro t made
      have room := linked.fits t made
      have second : (t + 8#64).toNat = t.toNat + 8 := by bv_omega
      apply same.read64_eq _ (by omega)
      by_cases running : t = m.world.sched.currentTask
      · have own := clear.own (running ▸ made)
        unfold OnOwnStack at own
        rw [← running] at own
        omega
      · have pushes := clear.others t made running
        omega
    rw [stepped]
    exact kept.switch (m.regs .rsp - 48#64) next begun outgoing member
  · unfold Regained
    rw [current]
    exact restores _ (all_saved next (linked.known next member))

theorem Preserved.not_own_stack (held : Preserved boot m) (t : Addr) (made : t ∈ m.world.created)
    (x : Addr) (low : t.toNat ≤ x.toNat) (high : x.toNat < t.toNat + 8192)
    (other : t ≠ m.world.sched.currentTask ∨ x.toNat < t.toNat + 4096) :
    ¬(m.world.started = true ∧ m.world.sched.currentTask.toNat + 4096 ≤ x.toNat ∧
      x.toNat < m.world.sched.currentTask.toNat + 8192) := by
  rintro ⟨begun, above, below⟩
  have task := held.linked.known _ (held.linked.running begun)
  rcases held.linked.apart t _ made task with equal | far
  · rw [← equal] at above other
    rcases other with never | first
    · exact never rfl
    · omega
  · omega

theorem Preserved.compute (held : Preserved boot m) (regs : Regs → Regs) (mem : Mem → Mem)
    (keeps : KeepsTasks m (mem m.world.sched.mem)) : Preserved boot (act boot (.compute regs mem) m) := by
  refine ⟨?_, held.idle, ?_⟩
  · apply held.linked.frame
    intro t made
    have room := held.linked.fits t made
    apply read64_congr
    intro i inside
    have place : (t + 8#64 + i).toNat = t.toNat + 8 + i.toNat := by bv_omega
    apply keeps t made _ (by omega) (by omega)
    exact held.not_own_stack t made _ (by omega) (by omega) (Or.inr (by omega))
  · intro t made other
    apply (held.saved t made other).untouched (held.linked.fits t made)
    intro x low high
    exact keeps t made x low high (held.not_own_stack t made x low high (Or.inl other))

theorem createTask_saved (entry : Addr) (s : Scheduler) (room : s.nextFreePage.toNat + 8192 < 2 ^ 64) :
    Saved (schedCreateTask entry s).2.mem s.nextFreePage (entryContext entry s.nextFreePage) := by
  obtain ⟨sp, address, place, zeros, above⟩ := createTask_frame entry s room
  unfold Saved
  rw [address]
  refine ⟨by omega, by omega, ?_, ?_⟩
  · have next (a : Addr) (i : Nat) : a + BitVec.ofNat 64 (8 * i) + 8#64 = a + BitVec.ofNat 64 (8 * (i + 1)) := by
      rw [show 8 * (i + 1) = 8 * i + 8 by omega, BitVec.ofNat_add, BitVec.add_assoc]
    have first : sp = sp + BitVec.ofNat 64 (8 * 0) := by simp
    change Frame _ sp [0#64, 0#64, 0#64, 0#64, 0#64, 0#64, entry]
    rw [first]
    simp only [Frame, next, and_true]
    exact ⟨zeros 0 (by decide), zeros 1 (by decide), zeros 2 (by decide), zeros 3 (by decide),
      zeros 4 (by decide), zeros 5 (by decide), above⟩
  · change s.nextFreePage + 4096#64 + 4096#64 = sp + 56#64
    bv_omega

theorem Preserved.create (held : Preserved boot m) (entry : Addr) (legal : Legal (.create entry) m.world) :
    Preserved boot (act boot (.create entry) m) := by
  have room : m.world.sched.nextFreePage.toNat + 8192 < 2 ^ 64 := legal
  refine ⟨held.linked.create entry legal, held.idle, ?_⟩
  intro t member other
  change t ≠ m.world.sched.currentTask at other
  change Saved (schedCreateTask entry m.world.sched).2.mem t
    (if t = m.world.sched.nextFreePage then entryContext entry t else m.contexts t)
  by_cases new : t = m.world.sched.nextFreePage
  · rw [if_pos new, new]
    exact createTask_saved entry m.world.sched room
  · have made : t ∈ m.world.created := by
      rcases List.mem_append.mp member with old | single
      · exact old
      · exact absurd (List.mem_singleton.mp single) new
    have low := held.linked.low t made
    rw [if_neg new]
    apply (held.saved t made other).untouched (held.linked.fits t made)
    intro x _ high
    apply createTask_outside entry m.world.sched room
    omega

theorem addTask_current (t : Addr) (s : Scheduler) : (schedAddTask t s).currentTask = s.currentTask := by
  unfold schedAddTask
  split <;> rfl

theorem Preserved.add (held : Preserved boot m) (t : Addr) (legal : Legal (.add t) m.world) :
    Preserved boot (act boot (.add t) m) := by
  have current := addTask_current t m.world.sched
  refine ⟨held.linked.add t legal, fun waiting => current.trans (held.idle waiting), ?_⟩
  intro u made other
  change u ≠ (schedAddTask t m.world.sched).currentTask at other
  rw [current] at other
  have room := held.linked.fits u made
  have before := held.saved u made other
  change Saved (schedAddTask t m.world.sched).mem u (m.contexts u)
  unfold schedAddTask
  by_cases empty : m.world.sched.taskListHead = 0#64
  · rw [if_pos empty]
    exact before
  · rw [if_neg empty]
    have some_task : m.world.queue ≠ [] := fun none => empty (held.linked.head_eq_zero_iff.mpr none)
    have task := held.linked.known _ (held.linked.tail_mem some_task)
    have inside := held.linked.fits _ task
    have link : (m.world.sched.taskListTail + 8#64).toNat = m.world.sched.taskListTail.toNat + 8 := by
      bv_omega
    have far := held.linked.apart u _ made task
    unfold SameOrApart at far
    have written := write64_outside m.world.sched.mem (m.world.sched.taskListTail + 8#64) t (by omega)
    rw [link] at written
    apply before.congr room
    · apply written.read64_eq u (by omega)
      rcases far with equal | apart
      · rw [← equal]
        omega
      · omega
    · intro x low high
      apply written
      rcases far with equal | apart
      · rw [← equal]
        omega
      · omega

theorem Preserved.yield (held : Preserved boot m) (legal : Disciplined .yield m) :
    Preserved boot (act boot .yield m) ∧ Regained (act boot .yield m) := by
  obtain ⟨begun, stack⟩ := legal
  have begun : m.world.started = true := begun
  have running := held.linked.running begun
  have task := held.linked.known _ running
  have inside := held.linked.fits _ task
  obtain ⟨r, rounds⟩ := held.linked.exists_round begun
  have member : schedNext m.world.sched ∈ m.world.queue := by
    rw [schedNext_eq held.linked r rounds begun, ← rounds.queue]
    exact successor_mem r
  have clear : Clear m := by
    unfold OnOwnStack at stack
    refine ⟨by omega, by omega, ?_, fun _ => stack⟩
    intro t made other
    rcases held.linked.apart t _ made task with equal | far
    · exact absurd equal other
    · omega
  obtain ⟨linked, saved, regained⟩ := switch_saves (schedNext m.world.sched) true held.linked held.saved
    (Or.inr task) clear member
  have status : (switchTo (schedNext m.world.sched) m).world.started = true := begun
  refine ⟨⟨?_, fun waiting => absurd (status.symm.trans waiting) (by decide), ?_⟩, regained⟩
  · rw [← status] at linked
    exact linked
  · intro t made _
    exact saved t made

theorem Preserved.start (held : Preserved boot m) (legal : Disciplined .start m) :
    Preserved boot (act boot .start m) ∧ Regained (act boot .start m) := by
  obtain ⟨⟨waiting, some_task⟩, room, fits, others⟩ := legal
  let starting : Machine := { m with world := { m.world with sched := bootstrap boot m.world.sched } }
  have stepped : act boot .start m =
      { switchTo m.world.sched.taskListHead starting with
        world := { (switchTo m.world.sched.taskListHead starting).world with started := true } } :=
    if_neg (fun zero => some_task (held.linked.head_eq_zero_iff.mp zero))
  have placed := held.linked.bootPlaced
  have bound := m.world.sched.nextFreePage.isLt
  have second : (boot + 8#64).toNat = boot.toNat + 8 := by
    have top := placed.2
    bv_omega
  have saved : ∀ t ∈ starting.world.created, t ≠ starting.world.sched.currentTask →
      Saved starting.world.sched.mem t (starting.contexts t) := by
    intro t made _
    have above := held.linked.high t made
    have away : t ≠ m.world.sched.currentTask := by
      rw [held.idle waiting]
      exact held.linked.nonzero t made
    apply (held.saved t made away).untouched (held.linked.fits t made)
    intro x low _
    change write64 (write64 m.world.sched.mem (boot + 8#64) m.world.sched.taskListHead) boot 0#64 x = _
    rw [write64_outside _ boot 0#64 (by have top := placed.2; omega) x (by omega),
      write64_outside _ (boot + 8#64) _ (by have top := placed.2; omega) x (by omega)]
  have unmade : boot ∉ m.world.created := by
    intro made
    have above := held.linked.high boot made
    omega
  have clear : Clear starting :=
    ⟨room, fits, fun t made _ => others t made, fun made => absurd made unmade⟩
  obtain ⟨linked, kept, regained⟩ := switch_saves m.world.sched.taskListHead true
    (held.linked.bootstrap waiting) saved (Or.inl rfl) clear (held.linked.head_mem some_task)
  rw [stepped]
  exact ⟨⟨linked, fun never => absurd never (by simp), fun t made _ => kept t made⟩, regained⟩

theorem act_preserved (action : Action) (m : Machine) (held : Preserved boot m)
    (legal : Disciplined action m) : Preserved boot (act boot action m) := by
  cases action with
  | compute regs mem => exact held.compute regs mem legal
  | create entry => exact held.create entry legal
  | add t => exact held.add t legal
  | start => exact (held.start legal).1
  | yield => exact (held.yield legal).1

def reset (s : Scheduler) (regs : Regs) (rip : Addr) (contexts : Addr → Context) : Machine :=
  ⟨initial s, regs, rip, contexts⟩

/-- What every switch and every creation does to the contexts at the end of a run. -/
structure ContextsKept (boot : Addr) (m : Machine) : Prop where
  entered : Disciplined .start m → Regained (act boot .start m)
  returned : Disciplined .yield m → Regained (act boot .yield m) ∧
    (act boot .yield m).contexts m.world.sched.currentTask = calling m.regs m.world.sched.mem ∧
    ∀ t, t ≠ m.world.sched.currentTask → (act boot .yield m).contexts t = m.contexts t
  made : ∀ entry, Disciplined (.create entry) m →
    (act boot (.create entry) m).contexts m.world.sched.nextFreePage =
        entryContext entry m.world.sched.nextFreePage ∧
      ∀ t ∈ m.world.created, (act boot (.create entry) m).contexts t = m.contexts t

/-- After every run of disciplined tasks, whoever is switched to finds the context of its
last call of `context_switch`, or its entry context at the first switch. -/
theorem context_preserved (boot : Addr) (s : Scheduler) (regs : Regs) (rip : Addr)
    (contexts : Addr → Context) (placed : Placed boot s) (actions : List Action)
    (legal : Along (act boot) Disciplined actions (reset s regs rip contexts)) :
    ContextsKept boot (run (act boot) actions (reset s regs rip contexts)) := by
  have start : Preserved boot (reset s regs rip contexts) :=
    ⟨initial_linked boot s placed, fun _ => rfl, by simp [reset, initial]⟩
  have held := run_guarded (act boot) Disciplined (Preserved boot)
    (fun action m => act_preserved action m) actions _ start legal
  generalize run (act boot) actions (reset s regs rip contexts) = m at held
  refine ⟨fun legal => (held.start legal).2, ?_, ?_⟩
  · intro legal
    exact ⟨(held.yield legal).2, if_pos rfl, fun t other => if_neg other⟩
  · intro entry legal
    refine ⟨if_pos rfl, ?_⟩
    intro t made
    apply if_neg
    intro same
    have low := held.linked.low t made
    have address : t = m.world.sched.nextFreePage := same
    have room : m.world.sched.nextFreePage.toNat + 8192 < 2 ^ 64 := legal
    rw [address] at low
    omega

/-- Two tasks; the first one yields from inside its stack page. -/
def twoThreads : List Action :=
  [.create 0x2000#64, .create 0x3000#64, .add 0x18000#64, .add 0x1A000#64, .start,
    .compute (fun regs => setReg regs .rsp 0x19FF0#64) id, .yield]

theorem two_threads_keep_contexts :
    ContextsKept 0x17F00#64 (run (act 0x17F00#64) twoThreads
      (reset smallKernel (fun _ => 0x8FFF0#64) 0#64 (fun _ => entryContext 0#64 0#64))) := by
  apply context_preserved 0x17F00#64 smallKernel _ _ _ ⟨by decide, by decide⟩
  let atStart := run (act 0x17F00#64) (twoThreads.take 4)
    (reset smallKernel (fun _ => 0x8FFF0#64) 0#64 (fun _ => entryContext 0#64 0#64))
  let atYield := run (act 0x17F00#64) (twoThreads.take 6)
    (reset smallKernel (fun _ => 0x8FFF0#64) 0#64 (fun _ => entryContext 0#64 0#64))
  have made : atStart.world.created = [0x18000#64, 0x1A000#64] := by decide
  have bootTop : atStart.regs .rsp = 0x8FFF0#64 := by decide
  have running : atYield.world.sched.currentTask = 0x18000#64 := by decide
  have ownTop : atYield.regs .rsp = 0x19FF0#64 := by decide
  have bootStack : OnBootStack atStart := by
    unfold OnBootStack
    rw [made, bootTop]
    simp
  have ownStack : OnOwnStack atYield := by
    unfold OnOwnStack
    rw [running, ownTop]
    decide
  refine ⟨?_, ?_, ?_, ?_, ⟨⟨rfl, by decide⟩, bootStack⟩, fun _ _ _ _ _ _ => rfl, ⟨rfl, ownStack⟩, trivial⟩
  all_goals
    unfold Disciplined
    decide

end LifeOS.Sched
