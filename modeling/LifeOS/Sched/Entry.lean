import LifeOS.Sched.Switch

/-!
The first instruction of a new task: where `context_switch` leaves the stack pointer when
it returns into the entry function.
-/

namespace LifeOS.Sched
open LifeOS.Library.Loops LifeOS.Library.Memory LifeOS.Library.X86 LifeOS.Mm

def pageAfter (imageEnd : BitVec 64) (calls : Nat) : Addr :=
  (fun page => (pageAlloc page).2)^[calls] (mmInit imageEnd)

/-- What a new task keeps until its first switch: the saved stack pointer and the stack page.
The other word of the structure links the queue. -/
structure Untouched (created now : Mem) (t : Addr) : Prop where
  sp : taskSp now t = taskSp created t
  stack : ∀ x : Addr, (stackPage t).toNat ≤ x.toNat → x.toNat < (stackPage t).toNat + 4096 → now x = created x

/-- The processor inside `context_switch`, once the stack pointer of the next task is loaded. -/
def loadedStack (c : Cpu Symbol) : Cpu Symbol := execAll (contextSwitchCode.take 10) c

/-- The switch to `t` enters the function as a call would: with the return address on top of
a stack aligned to 16 bytes. It touches nothing but the task's stack page. -/
structure Conforming (entry t : Addr) (c : Cpu Symbol) : Prop where
  enters : (execAll contextSwitchCode c).rip = entry
  aligned : ((execAll contextSwitchCode c).regs .rsp).toNat % 16 = 8
  inside : ∀ a ∈ accesses Instr.stackWord (contextSwitchCode.drop 10) (loadedStack c),
    (stackPage t).toNat ≤ a.toNat ∧ a.toNat + 8 ≤ (stackPage t).toNat + 4096

theorem pageAfter_aligned (imageEnd : BitVec 64) (calls : Nat) : (pageAfter imageEnd calls).toNat % 4096 = 0 := by
  induction calls with
  | zero => exact mmInit_aligned imageEnd
  | succ calls ih =>
    unfold pageAfter at ih ⊢
    rw [Function.iterate_succ_apply']
    generalize (fun page => (pageAlloc page).2)^[calls] (mmInit imageEnd) = page at ih
    change (page + 4096#64).toNat % 4096 = 0
    rw [BitVec.toNat_add]
    change (page.toNat + 4096) % 2 ^ 64 % 4096 = 0
    omega

theorem createTask_sp (entry : Addr) (s : Scheduler) :
    taskSp (schedCreateTask entry s).2.mem s.nextFreePage + 56#64 = stackPage s.nextFreePage + 4096#64 := by
  have saved : taskSp (schedCreateTask entry s).2.mem s.nextFreePage =
      (initialStack entry (stackPage s.nextFreePage) s.mem).1 := by
    rw [createTask_mem]
    generalize initialStack entry (stackPage s.nextFreePage) s.mem = frame
    have same : taskSp (write64 (write64 frame.2 s.nextFreePage frame.1) (s.nextFreePage + 8#64) 0#64) s.nextFreePage =
        taskSp (write64 frame.2 s.nextFreePage frame.1) s.nextFreePage := by
      apply read64_congr
      intro i low
      have above : ¬(s.nextFreePage + i - (s.nextFreePage + 8#64)).toNat < 8 := by bv_omega
      exact if_neg above
    rw [same]
    exact read64_write64_same _ _ _
  have pushed : (initialStack entry (stackPage s.nextFreePage) s.mem).1 =
      stackPage s.nextFreePage + 4096#64 - 8#64 - 8#64 - 8#64 - 8#64 - 8#64 - 8#64 - 8#64 := by
    simp only [initialStack, forRange_succ, forRange_zero, pushWord]
  rw [saved, pushed]
  bv_omega

theorem loadedStack_rsp (c : Cpu Symbol) :
    (loadedStack c).regs .rsp = taskSp (loadedStack c).mem (c.regs .rdi) := by
  simp [loadedStack, contextSwitchCode, execAll, exec, setReg, taskSp]

theorem contextSwitch_halves (c : Cpu Symbol) :
    execAll contextSwitchCode c = execAll (contextSwitchCode.drop 10) (loadedStack c) := by
  rw [loadedStack, ← execAll_append, List.take_append_drop]

theorem restore_returns (c : Cpu Symbol) :
    (execAll (contextSwitchCode.drop 10) c).regs .rsp = c.regs .rsp + 56#64 ∧
      (execAll (contextSwitchCode.drop 10) c).rip = read64 c.mem (c.regs .rsp + 48#64) := by
  simp [contextSwitchCode, execAll, exec, setReg, BitVec.add_assoc]

theorem restore_words (c : Cpu Symbol) (a : Addr)
    (member : a ∈ accesses Instr.stackWord (contextSwitchCode.drop 10) c) :
    ∃ k, k < 7 ∧ a = c.regs .rsp + BitVec.ofNat 64 (8 * k) := by
  simp [contextSwitchCode, accesses, Instr.stackWord, exec, setReg, BitVec.add_assoc] at member
  rcases member with rfl | rfl | rfl | rfl | rfl | rfl | rfl
  · exact ⟨0, by omega, by simp⟩
  · exact ⟨1, by omega, rfl⟩
  · exact ⟨2, by omega, rfl⟩
  · exact ⟨3, by omega, rfl⟩
  · exact ⟨4, by omega, rfl⟩
  · exact ⟨5, by omega, rfl⟩
  · exact ⟨6, by omega, rfl⟩

theorem entry_rsp (entry : Addr) (s : Scheduler) (c : Cpu Symbol) (next : c.regs .rdi = s.nextFreePage)
    (kept : Untouched (schedCreateTask entry s).2.mem (loadedStack c).mem s.nextFreePage) :
    (execAll contextSwitchCode c).regs .rsp = stackPage s.nextFreePage + 4096#64 := by
  rw [contextSwitch_halves, (restore_returns _).1, loadedStack_rsp, next, kept.sp, createTask_sp]

/-- Apart from the alignment the switch is right: it enters the function and stays in the
stack page. -/
theorem entry_reached (entry : Addr) (s : Scheduler) (c : Cpu Symbol) (room : s.nextFreePage.toNat + 8192 < 2 ^ 64)
    (next : c.regs .rdi = s.nextFreePage)
    (kept : Untouched (schedCreateTask entry s).2.mem (loadedStack c).mem s.nextFreePage) :
    (execAll contextSwitchCode c).rip = entry ∧
      ∀ a ∈ accesses Instr.stackWord (contextSwitchCode.drop 10) (loadedStack c),
        (stackPage s.nextFreePage).toNat ≤ a.toNat ∧ a.toNat + 8 ≤ (stackPage s.nextFreePage).toNat + 4096 := by
  obtain ⟨sp, saved, top, _, above⟩ := createTask_frame entry s room
  have stack : (stackPage s.nextFreePage).toNat = s.nextFreePage.toNat + 4096 := by
    unfold stackPage
    bv_omega
  have pointer : (loadedStack c).regs .rsp = sp := by
    rw [loadedStack_rsp, next, kept.sp, saved]
  constructor
  · rw [contextSwitch_halves, (restore_returns _).2, pointer, ← above]
    apply read64_congr
    intro i low
    have place : (sp + 48#64 + i).toNat = sp.toNat + 48 + i.toNat := by bv_omega
    apply kept.stack <;> omega
  · intro a member
    obtain ⟨k, few, place⟩ := restore_words _ a member
    have value : a.toNat = sp.toNat + 8 * k := by
      rw [place, pointer, BitVec.toNat_add, BitVec.toNat_ofNat]
      omega
    omega

theorem untouched_of_apart (entry : Addr) (s : Scheduler) (c : Cpu Symbol)
    (room : s.nextFreePage.toNat + 8192 < 2 ^ 64) (mem : c.mem = (schedCreateTask entry s).2.mem)
    (fits : 48 ≤ (c.regs .rsp).toNat ∧ (c.regs .rsp).toNat + 8 ≤ 2 ^ 64)
    (stack : (c.regs .rsp).toNat ≤ s.nextFreePage.toNat ∨ s.nextFreePage.toNat + 8192 ≤ (c.regs .rsp).toNat - 48)
    (current : (c.sym .currentTask).toNat + 8 ≤ s.nextFreePage.toNat) :
    Untouched (schedCreateTask entry s).2.mem (loadedStack c).mem s.nextFreePage := by
  obtain ⟨pushed, regs, ran, same, _⟩ := save_exec c fits.1 fits.2
  have place : (stackPage s.nextFreePage).toNat = s.nextFreePage.toNat + 4096 := by
    unfold stackPage
    bv_omega
  have kept (x : Addr) (low : s.nextFreePage.toNat ≤ x.toNat) (high : x.toNat < s.nextFreePage.toNat + 8192) :
      (loadedStack c).mem x = (schedCreateTask entry s).2.mem x := by
    have written := write64_outside pushed (c.sym .currentTask) (c.regs .rsp - 48#64) (by omega)
    rw [loadedStack, ran, ← mem]
    exact (written x (by omega)).trans (same x (by omega))
  constructor
  · apply read64_congr
    intro i inside
    have value : (s.nextFreePage + i).toNat = s.nextFreePage.toNat + i.toNat := by bv_omega
    apply kept <;> omega
  · intro x low high
    exact kept x (by omega) (by omega)

/-- No task is entered with the alignment of a call: the page size is a multiple of 16. -/
theorem entry_misaligned (imageEnd : BitVec 64) (calls : Nat) (entry : Addr) (s : Scheduler) (c : Cpu Symbol)
    (free : s.nextFreePage = pageAfter imageEnd calls) (next : c.regs .rdi = s.nextFreePage)
    (kept : Untouched (schedCreateTask entry s).2.mem (loadedStack c).mem s.nextFreePage) :
    ¬Conforming entry s.nextFreePage c := by
  intro conforming
  have aligned := conforming.aligned
  have page := pageAfter_aligned imageEnd calls
  rw [entry_rsp entry s c next kept] at aligned
  rw [← free] at page
  unfold stackPage at aligned
  rw [BitVec.toNat_add, BitVec.toNat_add] at aligned
  change ((s.nextFreePage.toNat + 4096) % 2 ^ 64 + 4096) % 2 ^ 64 % 16 = 8 at aligned
  omega

def firstScheduler : Scheduler :=
  ⟨fun _ => 0#8, 0x18000#64, 0#64, 0#64, 0#64⟩

def firstSwitch : Cpu Symbol where
  regs := setReg (fun _ => 0x8FFE8#64) .rdi 0x18000#64
  rip := 0x1000#64
  mem := (schedCreateTask 0x1100#64 firstScheduler).2.mem
  sym := fun _ => 0x2000#64

theorem firstSwitch_untouched :
    Untouched (schedCreateTask 0x1100#64 firstScheduler).2.mem (loadedStack firstSwitch).mem 0x18000#64 :=
  untouched_of_apart 0x1100#64 firstScheduler firstSwitch (by decide) rfl (by decide) (by decide) (by decide)

/-- The hypotheses are those of the first switch of the kernel. -/
theorem first_task_misaligned :
    firstScheduler.nextFreePage = pageAfter 0x18000#64 0 ∧ firstSwitch.regs .rdi = 0x18000#64 ∧
      Untouched (schedCreateTask 0x1100#64 firstScheduler).2.mem (loadedStack firstSwitch).mem 0x18000#64 ∧
      ¬Conforming 0x1100#64 0x18000#64 firstSwitch :=
  ⟨by decide, rfl, firstSwitch_untouched,
    entry_misaligned 0x18000#64 0 0x1100#64 firstScheduler firstSwitch (by decide) rfl firstSwitch_untouched⟩

/-- The first task on the page `0x18000` starts with the stack pointer `0x1A000`. -/
theorem first_task_at_top :
    (execAll contextSwitchCode firstSwitch).regs .rsp = 0x1A000#64 ∧
      ¬Conforming 0x1100#64 0x18000#64 firstSwitch := by
  have top := entry_rsp 0x1100#64 firstScheduler firstSwitch rfl firstSwitch_untouched
  have place : (execAll contextSwitchCode firstSwitch).regs .rsp = 0x1A000#64 := top.trans (by decide)
  refine ⟨place, ?_⟩
  intro conforming
  have aligned := conforming.aligned
  rw [place] at aligned
  exact absurd aligned (by decide)

end LifeOS.Sched
