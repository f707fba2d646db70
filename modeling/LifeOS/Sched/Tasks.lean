import LifeOS.Library.Loops
import LifeOS.Library.Memory
import LifeOS.Mm.Pages

/-!
The cooperative scheduler of `kernel/sched/sched.c`. Task structures and stacks live
in memory; the static pointers of the file are fields of `Scheduler`. `boot` is the
address of the static `bootstrap_task`.
-/

namespace LifeOS.Sched
open LifeOS.Library.Loops LifeOS.Library.Memory LifeOS.Mm

structure Scheduler where
  mem : Mem
  nextFreePage : BitVec 64
  taskListHead : Addr
  taskListTail : Addr
  currentTask : Addr

def taskSp (mem : Mem) (t : Addr) : Addr := read64 mem t

def taskNext (mem : Mem) (t : Addr) : Addr := read64 mem (t + 8#64)

/-- The stack page follows the page of the task structure. -/
def stackPage (t : Addr) : Addr := t + 4096#64

def schedInit (s : Scheduler) : Scheduler :=
  { s with taskListHead := 0#64, taskListTail := 0#64, currentTask := 0#64 }

/-- `*--sp = v` on the stack pointer and the memory. -/
def pushWord (v : BitVec 64) (s : Addr × Mem) : Addr × Mem :=
  (s.1 - 8#64, write64 s.2 (s.1 - 8#64) v)

/-- The initial stack: the entry address as return address, then `r15..rbp`. -/
def initialStack (entry stack : Addr) (mem : Mem) : Addr × Mem :=
  forRange 6 (fun _ => pushWord 0#64) (pushWord entry (stack + 4096#64, mem))

def schedCreateTask (entry : Addr) (s : Scheduler) : Addr × Scheduler :=
  let t := pageAlloc s.nextFreePage
  let stack := pageAlloc t.2
  let sp := initialStack entry stack.1 s.mem
  let mem := write64 sp.2 t.1 sp.1
  let mem := write64 mem (t.1 + 8#64) 0#64
  (t.1, { s with mem := mem, nextFreePage := stack.2 })

def schedAddTask (t : Addr) (s : Scheduler) : Scheduler :=
  if s.taskListHead = 0#64 then { s with taskListHead := t, taskListTail := t }
  else { s with mem := write64 s.mem (s.taskListTail + 8#64) t, taskListTail := t }

/-- What `context_switch` does to the scheduler: it saves the outgoing stack pointer,
`saved`, and makes `next` the current task. -/
def contextSwitch (saved next : Addr) (s : Scheduler) : Scheduler :=
  { s with mem := write64 s.mem s.currentTask saved, currentTask := next }

def schedNext (s : Scheduler) : Addr :=
  if s.currentTask = 0#64 ∨ taskNext s.mem s.currentTask = 0#64 then s.taskListHead
  else taskNext s.mem s.currentTask

def schedYield (saved : Addr) (s : Scheduler) : Scheduler :=
  contextSwitch saved (schedNext s) s

/-- The part of `sched_start` before its `context_switch`. -/
def bootstrap (boot : Addr) (s : Scheduler) : Scheduler :=
  { s with mem := write64 (write64 s.mem (boot + 8#64) s.taskListHead) boot 0#64, currentTask := boot }

def schedStart (boot saved : Addr) (s : Scheduler) : Scheduler :=
  if s.taskListHead = 0#64 then s else contextSwitch saved s.taskListHead (bootstrap boot s)

theorem createTask_address (entry : Addr) (s : Scheduler) :
    (schedCreateTask entry s).1 = s.nextFreePage := rfl

theorem createTask_pages (entry : Addr) (s : Scheduler)
    (room : s.nextFreePage.toNat + 8192 < 2 ^ 64) :
    (schedCreateTask entry s).2.nextFreePage.toNat = s.nextFreePage.toNat + 8192 := by
  change (s.nextFreePage + 4096#64 + 4096#64).toNat = s.nextFreePage.toNat + 8192
  bv_omega

/-- After `k` pushed zeros the stack of a new task holds them above the pointer, below
its entry address, and nothing outside the two pages has changed. -/
private theorem pushed_zeros (entry start : Addr) (mem : Mem) (room : start.toNat + 8192 < 2 ^ 64)
    (k : Nat) (few : k ≤ 6) :
    let frame := forRange k (fun _ => pushWord 0#64)
      (pushWord entry (start + 4096#64 + 4096#64, mem))
    frame.1.toNat + 8 * k + 8 = start.toNat + 8192 ∧
      SameOutside start.toNat 8192 mem frame.2 ∧
      read64 frame.2 (start + 8184#64) = entry ∧
      ∀ i : Nat, i < k → read64 frame.2 (frame.1 + BitVec.ofNat 64 (8 * i)) = 0#64 := by
  induction k with
  | zero =>
    have top : (start + 4096#64 + 4096#64 - 8#64).toNat = start.toNat + 8184 := by bv_omega
    rw [forRange_zero]
    refine ⟨?_, ?_, ?_, ?_⟩
    · change (start + 4096#64 + 4096#64 - 8#64).toNat + 8 * 0 + 8 = _
      omega
    · change SameOutside start.toNat 8192 mem (write64 mem (start + 4096#64 + 4096#64 - 8#64) entry)
      apply (write64_outside mem _ entry (by omega)).widen <;> omega
    · change read64 (write64 mem (start + 4096#64 + 4096#64 - 8#64) entry) (start + 8184#64) = entry
      rw [show start + 4096#64 + 4096#64 - 8#64 = start + 8184#64 by bv_omega, read64_write64_same]
    · omega
  | succ k ih =>
    obtain ⟨place, same, above, zeros⟩ := ih (by omega)
    rw [forRange_succ]
    let frame := forRange k (fun _ => pushWord 0#64) (pushWord entry (start + 4096#64 + 4096#64, mem))
    change frame.1.toNat + 8 * k + 8 = start.toNat + 8192 at place
    change SameOutside start.toNat 8192 mem frame.2 at same
    have lower : (frame.1 - 8#64).toNat = frame.1.toNat - 8 := by bv_omega
    change (frame.1 - 8#64).toNat + 8 * (k + 1) + 8 = _ ∧
      SameOutside start.toNat 8192 mem (write64 frame.2 (frame.1 - 8#64) 0#64) ∧
      read64 (write64 frame.2 (frame.1 - 8#64) 0#64) (start + 8184#64) = entry ∧
      ∀ i : Nat, i < k + 1 →
        read64 (write64 frame.2 (frame.1 - 8#64) 0#64) (frame.1 - 8#64 + BitVec.ofNat 64 (8 * i)) = 0#64
    refine ⟨by omega, ?_, ?_, ?_⟩
    · apply same.trans
      apply (write64_outside frame.2 _ 0#64 (by omega)).widen <;> omega
    · rw [read64_write64_apart _ _ _ _ (by omega) (by bv_omega) (by right; bv_omega)]
      exact above
    · intro i inside
      cases i with
      | zero => simp
      | succ i =>
        have place' : frame.1 - 8#64 + BitVec.ofNat 64 (8 * (i + 1)) = frame.1 + BitVec.ofNat 64 (8 * i) := by
          rw [show 8 * (i + 1) = 8 * i + 8 by omega, BitVec.ofNat_add]
          bv_omega
        have offset : (frame.1 + BitVec.ofNat 64 (8 * i)).toNat = frame.1.toNat + 8 * i := by
          rw [BitVec.toNat_add, BitVec.toNat_ofNat]
          omega
        rw [place', read64_write64_apart _ _ _ _ (by omega) (by omega) (by omega)]
        exact zeros i (by omega)

private theorem initialStack_spec (entry start : Addr) (mem : Mem) (room : start.toNat + 8192 < 2 ^ 64) :
    (initialStack entry (stackPage start) mem).1.toNat + 56 = start.toNat + 8192 ∧
      SameOutside start.toNat 8192 mem (initialStack entry (stackPage start) mem).2 ∧
      read64 (initialStack entry (stackPage start) mem).2 (start + 8184#64) = entry ∧
      ∀ i : Nat, i < 6 → read64 (initialStack entry (stackPage start) mem).2
        ((initialStack entry (stackPage start) mem).1 + BitVec.ofNat 64 (8 * i)) = 0#64 := by
  obtain ⟨place, rest⟩ := pushed_zeros entry start mem room 6 (Nat.le_refl 6)
  exact ⟨place, rest⟩

theorem createTask_mem (entry : Addr) (s : Scheduler) :
    (schedCreateTask entry s).2.mem =
      write64 (write64 (initialStack entry (stackPage s.nextFreePage) s.mem).2 s.nextFreePage
        (initialStack entry (stackPage s.nextFreePage) s.mem).1) (s.nextFreePage + 8#64) 0#64 := rfl

theorem createTask_outside (entry : Addr) (s : Scheduler) (room : s.nextFreePage.toNat + 8192 < 2 ^ 64) :
    SameOutside s.nextFreePage.toNat 8192 s.mem (schedCreateTask entry s).2.mem := by
  obtain ⟨_, same, _, _⟩ := initialStack_spec entry s.nextFreePage s.mem room
  rw [createTask_mem]
  generalize initialStack entry (stackPage s.nextFreePage) s.mem = frame at same ⊢
  have next : (s.nextFreePage + 8#64).toNat = s.nextFreePage.toNat + 8 := by bv_omega
  have first : SameOutside s.nextFreePage.toNat 8192 frame.2 (write64 frame.2 s.nextFreePage frame.1) := by
    apply (write64_outside frame.2 s.nextFreePage frame.1 (by omega)).widen <;> omega
  have second : SameOutside s.nextFreePage.toNat 8192 (write64 frame.2 s.nextFreePage frame.1)
      (write64 (write64 frame.2 s.nextFreePage frame.1) (s.nextFreePage + 8#64) 0#64) := by
    apply (write64_outside _ (s.nextFreePage + 8#64) 0#64 (by omega)).widen <;> omega
  exact (same.trans first).trans second

theorem createTask_next (entry : Addr) (s : Scheduler) :
    taskNext (schedCreateTask entry s).2.mem s.nextFreePage = 0#64 :=
  read64_write64_same _ _ _

theorem createTask_frame (entry : Addr) (s : Scheduler) (room : s.nextFreePage.toNat + 8192 < 2 ^ 64) :
    ∃ sp : Addr, taskSp (schedCreateTask entry s).2.mem s.nextFreePage = sp ∧
      sp.toNat + 56 = s.nextFreePage.toNat + 8192 ∧
      (∀ i : Nat, i < 6 →
        read64 (schedCreateTask entry s).2.mem (sp + BitVec.ofNat 64 (8 * i)) = 0#64) ∧
      read64 (schedCreateTask entry s).2.mem (sp + 48#64) = entry := by
  obtain ⟨place, _, above, zeros⟩ := initialStack_spec entry s.nextFreePage s.mem room
  rw [createTask_mem]
  generalize initialStack entry (stackPage s.nextFreePage) s.mem = frame at place above zeros ⊢
  have next : (s.nextFreePage + 8#64).toNat = s.nextFreePage.toNat + 8 := by bv_omega
  have later (a : Addr) (high : s.nextFreePage.toNat + 16 ≤ a.toNat) (fits : a.toNat + 8 ≤ 2 ^ 64) :
      read64 (write64 (write64 frame.2 s.nextFreePage frame.1) (s.nextFreePage + 8#64) 0#64) a =
        read64 frame.2 a := by
    rw [read64_write64_apart _ _ _ _ (by omega) fits (by omega),
      read64_write64_apart _ _ _ _ (by omega) fits (by omega)]
  refine ⟨frame.1, ?_, by omega, ?_, ?_⟩
  · unfold taskSp
    rw [read64_write64_apart _ _ _ _ (by omega) (by omega) (by omega), read64_write64_same]
  · intro i inside
    have offset : (frame.1 + BitVec.ofNat 64 (8 * i)).toNat = frame.1.toNat + 8 * i := by
      rw [BitVec.toNat_add, BitVec.toNat_ofNat]
      omega
    rw [later _ (by omega) (by omega)]
    exact zeros i inside
  · have top : frame.1 + 48#64 = s.nextFreePage + 8184#64 := by bv_omega
    rw [top, later _ (by bv_omega) (by bv_omega)]
    exact above

end LifeOS.Sched
