import LifeOS.Library.X86
import LifeOS.Sched.Tasks

/-!
`kernel/sched/context_switch.asm`: six registers go to the outgoing stack, the stack
pointers are exchanged through the task structures, and six registers come back.
-/

namespace LifeOS.Sched
open LifeOS.Library.Memory LifeOS.Library.X86

inductive Symbol where
  | currentTask
  deriving DecidableEq

def contextSwitchCode : List (Instr Symbol) :=
  [.push .rbp, .push .rbx, .push .r12, .push .r13, .push .r14, .push .r15,
    .loadSym .rdx .currentTask, .store .rdx .rsp, .storeSym .currentTask .rdi, .load .rsp .rdi,
    .pop .r15, .pop .r14, .pop .r13, .pop .r12, .pop .rbx, .pop .rbp, .ret]

/-- What a task keeps across a switch; `rip` is where it continues. -/
structure Context where
  rbp : BitVec 64
  rbx : BitVec 64
  r12 : BitVec 64
  r13 : BitVec 64
  r14 : BitVec 64
  r15 : BitVec 64
  rsp : BitVec 64
  rip : BitVec 64

def Context.words (c : Context) : List (BitVec 64) :=
  [c.r15, c.r14, c.r13, c.r12, c.rbx, c.rbp, c.rip]

def resumed (regs : Regs) (rip : Addr) : Context where
  rbp := regs .rbp
  rbx := regs .rbx
  r12 := regs .r12
  r13 := regs .r13
  r14 := regs .r14
  r15 := regs .r15
  rsp := regs .rsp
  rip := rip

/-- The context at a call of `context_switch`: the return address lies at `rsp` and the
return pops it. -/
def calling (regs : Regs) (mem : Mem) : Context :=
  { resumed regs (read64 mem (regs .rsp)) with rsp := regs .rsp + 8#64 }

/-- A task structure that leads to a frame with the given context inside its stack page. -/
def Saved (mem : Mem) (t : Addr) (c : Context) : Prop :=
  t.toNat + 4096 ≤ (taskSp mem t).toNat ∧ (taskSp mem t).toNat + 56 ≤ t.toNat + 8192 ∧
    Frame mem (taskSp mem t) c.words ∧ c.rsp = taskSp mem t + 56#64

/-- The save: the outgoing context becomes a frame below the stack pointer, its address
goes to the outgoing task, and `next` becomes current with its own stack pointer. -/
theorem save_exec (c : Cpu Symbol) (room : 48 ≤ (c.regs .rsp).toNat)
    (fits : (c.regs .rsp).toNat + 8 ≤ 2 ^ 64) :
    ∃ pushed regs, execAll (contextSwitchCode.take 10) c =
        { regs := setReg regs .rsp (taskSp (write64 pushed (c.sym .currentTask) (c.regs .rsp - 48#64)) (c.regs .rdi)),
          rip := c.rip,
          mem := write64 pushed (c.sym .currentTask) (c.regs .rsp - 48#64),
          sym := fun _ => c.regs .rdi } ∧
      SameOutside ((c.regs .rsp).toNat - 48) 48 c.mem pushed ∧
      Frame pushed (c.regs .rsp - 48#64) (calling c.regs c.mem).words := by
  obtain ⟨pushed, ran, same, frame⟩ :=
    execAll_push [.rbp, .rbx, .r12, .r13, .r14, .r15] c (by decide) room
  refine ⟨pushed, setReg (setReg c.regs .rsp (c.regs .rsp - 48#64)) .rdx (c.sym .currentTask), ?_, same, ?_⟩
  · have split : contextSwitchCode.take 10 =
        [Reg.rbp, .rbx, .r12, .r13, .r14, .r15].map .push ++
          [.loadSym .rdx .currentTask, .store .rdx .rsp, .storeSym .currentTask .rdi, .load .rsp .rdi] := rfl
    rw [split, execAll_append, ran]
    simp [execAll, exec, setReg, taskSp]
  · have above : c.regs .rsp - 48#64 + BitVec.ofNat 64 (8 * 6) = c.regs .rsp := by
      rw [show 8 * 6 = 48 by rfl]
      bv_omega
    have return_address : read64 pushed (c.regs .rsp) = read64 c.mem (c.regs .rsp) :=
      same.read64_eq _ fits (Or.inr (by change _ - 48 + 48 ≤ _; omega))
    change Frame pushed (c.regs .rsp - 48#64)
      ([Reg.rbp, .rbx, .r12, .r13, .r14, .r15].reverse.map c.regs ++ [read64 c.mem (c.regs .rsp)])
    rw [frame_append]
    refine ⟨frame, ?_⟩
    change Frame pushed (c.regs .rsp - 48#64 + BitVec.ofNat 64 (8 * 6)) _
    rw [above]
    exact ⟨return_address, trivial⟩

theorem restore_exec (c : Cpu Symbol) (context : Context) (frame : Frame c.mem (c.regs .rsp) context.words)
    (place : context.rsp = c.regs .rsp + 56#64) :
    ∃ regs rip, execAll (contextSwitchCode.drop 10) c = { c with regs := regs, rip := rip } ∧
      resumed regs rip = context := by
  have words : context.words =
      [context.r15, context.r14, context.r13, context.r12, context.rbx, context.rbp] ++ [context.rip] := rfl
  rw [words, frame_append] at frame
  obtain ⟨regs, ran, values, top, _⟩ := execAll_pop [.r15, .r14, .r13, .r12, .rbx, .rbp] c _
    (by decide) (by decide) rfl frame.1
  have address : read64 c.mem (regs .rsp) = context.rip := by
    rw [top]
    exact frame.2.1
  refine ⟨setReg regs .rsp (regs .rsp + 8#64), context.rip, ?_, ?_⟩
  · have split : contextSwitchCode.drop 10 =
        [Reg.r15, .r14, .r13, .r12, .rbx, .rbp].map .pop ++ [.ret] := rfl
    rw [split, execAll_append, ran]
    simp only [execAll, exec, address]
  · have final : regs .rsp + 8#64 = context.rsp := by
      rw [top, place]
      change c.regs .rsp + 48#64 + 8#64 = _
      bv_omega
    simp only [List.map_cons, List.map_nil, List.cons.injEq, and_true] at values
    obtain ⟨v15, v14, v13, v12, vbx, vbp⟩ := values
    simp [resumed, setReg, final, v15, v14, v13, v12, vbx, vbp]

end LifeOS.Sched
