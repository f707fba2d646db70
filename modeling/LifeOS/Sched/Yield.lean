import LifeOS.Library.Runs
import LifeOS.Sched.Switch

/-!
Every `context_switch` that the scheduler and `syscall_dispatch` of
`kernel/syscall/syscall.c` execute, in runs that call them in any order.
-/

namespace LifeOS.Sched
open LifeOS.Library.Memory LifeOS.Library.Runs LifeOS.Library.X86

/-- The scheduler with the registers; `entries` holds the processor at each entry of
`context_switch`. -/
structure Traced where
  sched : Scheduler
  regs : Regs
  rip : Addr
  entries : List (Cpu Symbol)

namespace Traced

def contextSwitch (next : Addr) (r : Traced) : Traced :=
  let entered : Cpu Symbol :=
    { regs := setReg r.regs .rdi next, rip := r.rip, mem := r.sched.mem, sym := fun _ => r.sched.currentTask }
  let left := execAll contextSwitchCode entered
  { sched := { r.sched with mem := left.mem, currentTask := left.sym .currentTask }
    regs := left.regs
    rip := left.rip
    entries := r.entries ++ [entered] }

def schedYield (r : Traced) : Traced := r.contextSwitch (schedNext r.sched)

def schedStart (boot : Addr) (r : Traced) : Traced :=
  if r.sched.taskListHead = 0#64 then r
  else contextSwitch r.sched.taskListHead { r with sched := bootstrap boot r.sched }

/-- `console` is what `console_write` does to the memory. -/
def syscallDispatch (console : BitVec 32 → Mem → Mem) (num arg0 : BitVec 32) (r : Traced) :
    BitVec 32 × Traced :=
  if num = 0#32 then
    (0#32, if arg0 ≠ 0#32 then { r with sched := { r.sched with mem := console arg0 r.sched.mem } } else r)
  else if num = 1#32 then (0#32, r.schedYield)
  else (-1#32, r)

end Traced

/-- The calls, and what the running code computes between them. -/
inductive Call where
  | init
  | create (entry : Addr)
  | add (t : Addr)
  | start
  | yield
  | syscall (num arg0 arg1 arg2 : BitVec 32)
  | compute (regs : Regs → Regs) (mem : Mem → Mem)

variable (boot : Addr) (console : BitVec 32 → Mem → Mem)

def Call.perform : Call → Traced → Traced
  | .init, r => { r with sched := schedInit r.sched }
  | .create entry, r => { r with sched := (schedCreateTask entry r.sched).2 }
  | .add t, r => { r with sched := schedAddTask t r.sched }
  | .start, r => r.schedStart boot
  | .yield, r => r.schedYield
  | .syscall num arg0 _ _, r => (r.syscallDispatch console num arg0).2
  | .compute regs mem, r => { r with regs := regs r.regs, sched := { r.sched with mem := mem r.sched.mem } }

/-- The kernel before its first call: the static pointers of `sched.c` are null. -/
def loaded (mem : Mem) (page : Addr) (regs : Regs) (rip : Addr) : Traced :=
  { sched := { mem := mem, nextFreePage := page, taskListHead := 0#64, taskListTail := 0#64, currentTask := 0#64 }
    regs := regs
    rip := rip
    entries := [] }

/-- Both tasks of a switch exist, and the code follows no null pointer. -/
structure SafeEntry (c : Cpu Symbol) : Prop where
  current : c.sym .currentTask ≠ 0#64
  next : c.regs .rdi ≠ 0#64
  pointers : ∀ a ∈ accesses Instr.pointer contextSwitchCode c, a ≠ 0#64

def Safe (r : Traced) : Prop := ∀ c ∈ r.entries, SafeEntry c

/-- What the calls alone say: whether a task was added since the last `sched_init`, and
whether `sched_start` has found one since. -/
structure Progress where
  queued : Bool
  started : Bool

def Call.advance : Call → Progress → Progress
  | .init, _ => ⟨false, false⟩
  | .add t, p => { p with queued := p.queued || decide (t ≠ 0#64) }
  | .start, p => { p with started := p.started || p.queued }
  | _, p => p

def Call.Yields : Call → Prop
  | .yield => True
  | .syscall num _ _ _ => num = 1#32
  | _ => False

/-- Every yield comes behind a start that found a task, with no `sched_init` in between. -/
def YieldsStarted (calls : List Call) : Prop :=
  Along Call.advance (fun call p => call.Yields → p.started = true) calls ⟨false, false⟩

theorem contextSwitch_pointers (c : Cpu Symbol) :
    accesses Instr.pointer contextSwitchCode c = [c.sym .currentTask, c.regs .rdi] := by
  simp [contextSwitchCode, accesses, Instr.pointer, exec, setReg]

theorem safeEntry_iff (c : Cpu Symbol) :
    SafeEntry c ↔ c.sym .currentTask ≠ 0#64 ∧ c.regs .rdi ≠ 0#64 := by
  constructor
  · rintro ⟨current, next, _⟩
    exact ⟨current, next⟩
  · rintro ⟨current, next⟩
    refine ⟨current, next, ?_⟩
    rw [contextSwitch_pointers]
    intro a member
    rcases List.mem_pair.mp member with rfl | rfl
    · exact current
    · exact next

theorem contextSwitch_current (next : Addr) (r : Traced) : (r.contextSwitch next).sched.currentTask = next := by
  simp [Traced.contextSwitch, contextSwitchCode, execAll, exec, setReg]

theorem contextSwitch_safe (next : Addr) (r : Traced) :
    Safe (r.contextSwitch next) ↔ Safe r ∧ r.sched.currentTask ≠ 0#64 ∧ next ≠ 0#64 := by
  have entered := safeEntry_iff
    { regs := setReg r.regs .rdi next, rip := r.rip, mem := r.sched.mem, sym := fun _ => r.sched.currentTask }
  dsimp only at entered
  rw [setReg_same] at entered
  unfold Safe Traced.contextSwitch
  dsimp only
  rw [List.forall_mem_append, List.forall_mem_singleton, entered]

structure Follows (r : Traced) (p : Progress) : Prop where
  head : r.sched.taskListHead ≠ 0#64 ↔ p.queued = true
  current : r.sched.currentTask ≠ 0#64 ↔ p.started = true
  order : p.started = true → p.queued = true

variable {boot console}

theorem Follows.switch {r : Traced} {p : Progress} (follows : Follows r p) (next : Addr) (exists_task : next ≠ 0#64)
    (started : p.started = true) : Follows (r.contextSwitch next) p := by
  refine ⟨follows.head, ?_, follows.order⟩
  rw [contextSwitch_current]
  exact ⟨fun _ => started, fun _ => exists_task⟩

theorem Follows.next_ne_zero {r : Traced} {p : Progress} (follows : Follows r p) (started : p.started = true) :
    schedNext r.sched ≠ 0#64 := by
  unfold schedNext
  by_cases first : r.sched.currentTask = 0#64 ∨ taskNext r.sched.mem r.sched.currentTask = 0#64
  · rw [if_pos first]
    exact follows.head.mpr (follows.order started)
  · rw [if_neg first]
    exact fun zero => first (Or.inr zero)

theorem Follows.yield {r : Traced} {p : Progress} (follows : Follows r p) (started : p.started = true) :
    Follows r.schedYield p ∧ (Safe r.schedYield ↔ Safe r) := by
  have next := follows.next_ne_zero started
  refine ⟨follows.switch _ next started, ?_⟩
  unfold Traced.schedYield
  rw [contextSwitch_safe]
  exact ⟨fun held => held.1, fun held => ⟨held, follows.current.mpr started, next⟩⟩

theorem Follows.start {r : Traced} {p : Progress} (follows : Follows r p) (object : boot ≠ 0#64) :
    Follows (r.schedStart boot) (Call.advance .start p) ∧ (Safe (r.schedStart boot) ↔ Safe r) := by
  unfold Traced.schedStart
  by_cases empty : r.sched.taskListHead = 0#64
  · have waiting : p.queued = false := by
      by_contra other
      exact follows.head.mpr (Bool.not_eq_false _ ▸ other) empty
    have same : Call.advance .start p = p := by
      cases p
      simp_all [Call.advance]
    rw [if_pos empty, same]
    exact ⟨follows, Iff.rfl⟩
  · have queued := follows.head.mp empty
    have found : Call.advance .start p = ⟨true, true⟩ := by
      cases p
      simp_all [Call.advance]
    have booted : Follows { r with sched := bootstrap boot r.sched } ⟨true, true⟩ :=
      ⟨⟨fun _ => rfl, fun _ => empty⟩, ⟨fun _ => rfl, fun _ => object⟩, fun _ => rfl⟩
    rw [if_neg empty, found]
    refine ⟨booted.switch _ empty rfl, ?_⟩
    rw [contextSwitch_safe]
    exact ⟨fun held => held.1, fun held => ⟨held, object, empty⟩⟩

theorem Follows.add {r : Traced} {p : Progress} (follows : Follows r p) (t : Addr) :
    Follows { r with sched := schedAddTask t r.sched } (Call.advance (.add t) p) := by
  have head : (schedAddTask t r.sched).taskListHead =
      if r.sched.taskListHead = 0#64 then t else r.sched.taskListHead := by
    unfold schedAddTask
    split <;> rfl
  have current : (schedAddTask t r.sched).currentTask = r.sched.currentTask := by
    unfold schedAddTask
    split <;> rfl
  have queued : (schedAddTask t r.sched).taskListHead ≠ 0#64 ↔ (p.queued || decide (t ≠ 0#64)) = true := by
    rw [head, Bool.or_eq_true, decide_eq_true_eq, ← follows.head]
    by_cases empty : r.sched.taskListHead = 0#64
    · rw [if_pos empty]
      exact ⟨Or.inr, fun either => either.resolve_left (fun some_task => some_task empty)⟩
    · rw [if_neg empty]
      exact ⟨fun some_task => Or.inl some_task, fun _ => empty⟩
  refine ⟨queued, ?_, ?_⟩
  · change (schedAddTask t r.sched).currentTask ≠ 0#64 ↔ _
    rw [current]
    exact follows.current
  · intro started
    exact Bool.or_eq_true_iff.mpr (Or.inl (follows.order started))

/-- A call that yields only behind a start keeps the record of the calls true and adds no
unsafe switch. -/
theorem Follows.next {r : Traced} {p : Progress} (follows : Follows r p) (object : boot ≠ 0#64) (call : Call)
    (started : call.Yields → p.started = true) :
    Follows (call.perform boot console r) (call.advance p) ∧ (Safe (call.perform boot console r) ↔ Safe r) := by
  cases call with
  | init =>
    exact ⟨⟨by simp [Call.perform, schedInit, Call.advance],
      by simp [Call.perform, schedInit, Call.advance], by simp [Call.advance]⟩, Iff.rfl⟩
  | create entry => exact ⟨⟨follows.head, follows.current, follows.order⟩, Iff.rfl⟩
  | add t => exact ⟨follows.add t, Iff.rfl⟩
  | start => exact follows.start object
  | yield => exact follows.yield (started trivial)
  | compute regs mem => exact ⟨⟨follows.head, follows.current, follows.order⟩, Iff.rfl⟩
  | syscall num arg0 arg1 arg2 =>
    unfold Call.perform Traced.syscallDispatch
    dsimp only
    by_cases write : num = 0#32
    · rw [if_pos write]
      split
      · exact ⟨⟨follows.head, follows.current, follows.order⟩, Iff.rfl⟩
      · exact ⟨follows, Iff.rfl⟩
    · rw [if_neg write]
      by_cases yields : num = 1#32
      · rw [if_pos yields]
        exact follows.yield (started yields)
      · rw [if_neg yields]
        exact ⟨follows, Iff.rfl⟩

theorem Follows.early {r : Traced} {p : Progress} (follows : Follows r p) (call : Call) (yields : call.Yields)
    (waiting : p.started ≠ true) : ¬Safe (call.perform boot console r) := by
  have idle : r.sched.currentTask = 0#64 := by
    by_contra running
    exact waiting (follows.current.mp running)
  have switched : (call.perform boot console r) = r.schedYield := by
    cases call with
    | yield => rfl
    | syscall num arg0 arg1 arg2 =>
      rw [show num = 1#32 from yields]
      rfl
    | init | create entry | add t | start | compute regs mem => exact yields.elim
  rw [switched]
  intro safe
  exact ((contextSwitch_safe _ r).mp safe).2.1 idle

theorem contextSwitch_entries (next : Addr) (r : Traced) : r.entries <+: (r.contextSwitch next).entries :=
  List.prefix_append _ _

theorem schedYield_entries (r : Traced) : r.entries <+: r.schedYield.entries := by
  unfold Traced.schedYield
  exact contextSwitch_entries _ r

theorem perform_entries (call : Call) (r : Traced) : r.entries <+: (call.perform boot console r).entries := by
  cases call with
  | init | create entry | add t | compute regs mem => exact List.prefix_rfl
  | yield => exact schedYield_entries r
  | start =>
    change _ <+: (r.schedStart boot).entries
    rw [Traced.schedStart]
    split
    · exact List.prefix_rfl
    · exact contextSwitch_entries _ { r with sched := bootstrap boot r.sched }
  | syscall num arg0 arg1 arg2 =>
    change _ <+: (r.syscallDispatch console num arg0).2.entries
    rw [Traced.syscallDispatch]
    split
    · split <;> exact List.prefix_rfl
    · split
      · exact schedYield_entries r
      · exact List.prefix_rfl

theorem Safe.earlier {r : Traced} (calls : List Call) (safe : Safe (run (Call.perform boot console) calls r)) :
    Safe r := by
  induction calls generalizing r with
  | nil => exact safe
  | cons call calls ih => exact fun c member => ih safe c ((perform_entries call r).subset member)

theorem Follows.run_safe_iff {r : Traced} {p : Progress} (follows : Follows r p) (object : boot ≠ 0#64)
    (calls : List Call) (safe : Safe r) :
    Safe (run (Call.perform boot console) calls r) ↔
      Along Call.advance (fun call p => call.Yields → p.started = true) calls p := by
  induction calls generalizing r p with
  | nil => exact ⟨fun _ => trivial, fun _ => safe⟩
  | cons call calls ih =>
    by_cases started : call.Yields → p.started = true
    · obtain ⟨later, kept⟩ : Follows (call.perform boot console r) (call.advance p) ∧
          (Safe (call.perform boot console r) ↔ Safe r) := follows.next object call started
      have rest := ih later (kept.mpr safe)
      exact rest.trans ⟨fun held => ⟨started, held⟩, fun held => held.2⟩
    · rw [Classical.not_imp] at started
      obtain ⟨yields, waiting⟩ := started
      constructor
      · intro held
        exact absurd (Safe.earlier calls held) (follows.early call yields waiting)
      · intro held
        exact absurd (held.1 yields) waiting

/-- In every run every switch is safe exactly if no yield comes before the start. -/
theorem switches_safe_iff (boot : Addr) (console : BitVec 32 → Mem → Mem) (object : boot ≠ 0#64) (mem : Mem)
    (page : Addr) (regs : Regs) (rip : Addr) (calls : List Call) :
    Safe (run (Call.perform boot console) calls (loaded mem page regs rip)) ↔ YieldsStarted calls := by
  have follows : Follows (loaded mem page regs rip) ⟨false, false⟩ :=
    ⟨by simp [loaded], by simp [loaded], nofun⟩
  exact follows.run_safe_iff object calls (by simp [Safe, loaded])

/-- The calls of `kmain` with a first yield of the started task. -/
theorem started_yield_safe :
    (0x2000#64 : Addr) ≠ 0#64 ∧
      YieldsStarted [.init, .create 0x1100#64, .add 0x18000#64, .start, .syscall 1#32 0#32 0#32 0#32] ∧
      Safe (run (Call.perform 0x2000#64 (fun _ mem => mem))
        [.init, .create 0x1100#64, .add 0x18000#64, .start, .syscall 1#32 0#32 0#32 0#32]
        (loaded (fun _ => 0#8) 0x18000#64 (fun _ => 0x8FFF8#64) 0x1000#64)) := by
  have started : YieldsStarted
      [.init, .create 0x1100#64, .add 0x18000#64, .start, .syscall 1#32 0#32 0#32 0#32] := by
    simp [YieldsStarted, Along, Call.advance, Call.Yields]
  exact ⟨by decide, started, (switches_safe_iff 0x2000#64 (fun _ mem => mem) (by decide) _ _ _ _ _).mpr started⟩

/-- A yield right after `sched_init` stores and loads the stack pointer at address zero. -/
theorem yield_before_start :
    ¬Safe (run (Call.perform 0x2000#64 (fun _ mem => mem)) [.init, .yield]
      (loaded (fun _ => 0#8) 0x18000#64 (fun _ => 0x8FFF8#64) 0x1000#64)) := by
  intro safe
  have entered := safe _ List.mem_cons_self
  exact entered.current rfl

end LifeOS.Sched
