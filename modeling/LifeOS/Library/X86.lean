import Mathlib.Data.List.Nodup
import LifeOS.Library.Memory

/-!
Straight-line 64-bit code over registers, byte memory and named 64-bit variables:
stack pushes and pops, moves and a return. A block of pushed registers is a frame of
consecutive words, and popping a frame loads its words.
-/

namespace LifeOS.Library.X86
open LifeOS.Library.Memory

inductive Reg where
  | rax | rbx | rcx | rdx | rsi | rdi | rbp | rsp | r8 | r9 | r10 | r11 | r12 | r13 | r14 | r15
  deriving DecidableEq

abbrev Regs := Reg → BitVec 64

/-- `rip` is where the last return went; `sym` holds the variables the code names. -/
structure Cpu (Sym : Type*) where
  regs : Regs
  rip : Addr
  mem : Mem
  sym : Sym → BitVec 64

inductive Instr (Sym : Type*) where
  | push (src : Reg)
  | pop (dst : Reg)
  | load (dst base : Reg)
  | store (base src : Reg)
  | loadSym (dst : Reg) (name : Sym)
  | storeSym (name : Sym) (src : Reg)
  | ret

variable {Sym : Type*} [DecidableEq Sym]

def setReg (regs : Regs) (r : Reg) (v : BitVec 64) : Regs := fun q => if q = r then v else regs q

@[simp]
theorem setReg_same (regs : Regs) (r : Reg) (v : BitVec 64) : setReg regs r v r = v := if_pos rfl

theorem setReg_other (regs : Regs) (r q : Reg) (v : BitVec 64) (other : q ≠ r) :
    setReg regs r v q = regs q := if_neg other

def exec : Instr Sym → Cpu Sym → Cpu Sym
  | .push src, c =>
      { c with mem := write64 c.mem (c.regs .rsp - 8#64) (c.regs src),
               regs := setReg c.regs .rsp (c.regs .rsp - 8#64) }
  | .pop dst, c =>
      { c with regs := setReg (setReg c.regs .rsp (c.regs .rsp + 8#64)) dst (read64 c.mem (c.regs .rsp)) }
  | .load dst base, c => { c with regs := setReg c.regs dst (read64 c.mem (c.regs base)) }
  | .store base src, c => { c with mem := write64 c.mem (c.regs base) (c.regs src) }
  | .loadSym dst name, c => { c with regs := setReg c.regs dst (c.sym name) }
  | .storeSym name src, c =>
      { c with sym := fun other => if other = name then c.regs src else c.sym other }
  | .ret, c => { c with rip := read64 c.mem (c.regs .rsp), regs := setReg c.regs .rsp (c.regs .rsp + 8#64) }

def execAll : List (Instr Sym) → Cpu Sym → Cpu Sym
  | [], c => c
  | i :: code, c => execAll code (exec i c)

def Instr.pointer : Instr Sym → Regs → List Addr
  | .load _ base, regs => [regs base]
  | .store base _, regs => [regs base]
  | _, _ => []

def Instr.stackWord : Instr Sym → Regs → List Addr
  | .push _, regs => [regs .rsp - 8#64]
  | .pop _, regs => [regs .rsp]
  | .ret, regs => [regs .rsp]
  | _, _ => []

def accesses (word : Instr Sym → Regs → List Addr) : List (Instr Sym) → Cpu Sym → List Addr
  | [], _ => []
  | i :: code, c => word i c.regs ++ accesses word code (exec i c)

theorem execAll_append (first second : List (Instr Sym)) (c : Cpu Sym) :
    execAll (first ++ second) c = execAll second (execAll first c) := by
  induction first generalizing c with
  | nil => rfl
  | cons i first ih => exact ih (exec i c)

def Frame (m : Mem) : Addr → List (BitVec 64) → Prop
  | _, [] => True
  | a, v :: words => read64 m a = v ∧ Frame m (a + 8#64) words

theorem frame_append (m : Mem) (a : Addr) (first second : List (BitVec 64)) :
    Frame m a (first ++ second) ↔
      Frame m a first ∧ Frame m (a + BitVec.ofNat 64 (8 * first.length)) second := by
  induction first generalizing a with
  | nil => simp [Frame]
  | cons v first ih =>
    have place : a + 8#64 + BitVec.ofNat 64 (8 * first.length) =
        a + BitVec.ofNat 64 (8 * (v :: first).length) := by
      rw [List.length_cons, show 8 * (first.length + 1) = 8 + 8 * first.length by omega, BitVec.ofNat_add,
        BitVec.add_assoc]
    simp only [List.cons_append, Frame, ih, place, and_assoc]

theorem frame_congr (before after : Mem) (a : Addr) (words : List (BitVec 64))
    (fits : a.toNat + 8 * words.length ≤ 2 ^ 64)
    (same : ∀ x : Addr, a.toNat ≤ x.toNat → x.toNat < a.toNat + 8 * words.length → after x = before x)
    (frame : Frame before a words) : Frame after a words := by
  induction words generalizing a with
  | nil => trivial
  | cons v words ih =>
    rw [List.length_cons] at fits same
    refine ⟨?_, ?_⟩
    · rw [← frame.1]
      apply read64_congr
      intro i inside
      apply same <;> bv_omega
    · cases words with
      | nil => trivial
      | cons u words =>
        rw [List.length_cons] at fits same ih
        have next : (a + 8#64).toNat = a.toNat + 8 := by bv_omega
        apply ih (a + 8#64) (by omega) _ frame.2
        intro x low high
        apply same <;> omega

theorem execAll_push (rs : List Reg) (c : Cpu Sym) (plain : Reg.rsp ∉ rs)
    (room : 8 * rs.length ≤ (c.regs .rsp).toNat) :
    ∃ mem, execAll (rs.map .push) c =
        { c with mem := mem, regs := setReg c.regs .rsp (c.regs .rsp - BitVec.ofNat 64 (8 * rs.length)) } ∧
      SameOutside ((c.regs .rsp).toNat - 8 * rs.length) (8 * rs.length) c.mem mem ∧
      Frame mem (c.regs .rsp - BitVec.ofNat 64 (8 * rs.length)) (rs.reverse.map c.regs) := by
  induction rs generalizing c with
  | nil => 
    refine ⟨c.mem, ?_, SameOutside.refl _ _ _, trivial⟩
    have same : setReg c.regs .rsp (c.regs .rsp - BitVec.ofNat 64 (8 * ([] : List Reg).length)) = c.regs := by
      funext q
      by_cases top : q = .rsp <;> simp [setReg, top]
    rw [same]
    rfl
  | cons r rs ih =>
    simp only [List.length_cons] at room ⊢
    have plain' : Reg.rsp ∉ rs := fun member => plain (List.mem_cons_of_mem r member)
    let pushed := exec (.push r) c
    have top : pushed.regs .rsp = c.regs .rsp - 8#64 := by simp only [pushed, exec, setReg_same]
    have lower : (c.regs .rsp - 8#64).toNat = (c.regs .rsp).toNat - 8 := by bv_omega
    obtain ⟨mem, ran, same, frame⟩ := ih pushed plain' (by rw [top, lower]; omega)
    rw [top, lower] at same
    have place : c.regs .rsp - 8#64 - BitVec.ofNat 64 (8 * rs.length) =
        c.regs .rsp - BitVec.ofNat 64 (8 * (rs.length + 1)) := by
      rw [show 8 * (rs.length + 1) = 8 + 8 * rs.length by omega, BitVec.ofNat_add, BitVec.sub_sub]
    rw [top, place] at ran frame
    have written : SameOutside ((c.regs .rsp).toNat - 8) 8 c.mem pushed.mem := by
      rw [← lower]
      exact write64_outside c.mem _ _ (by omega)
    refine ⟨mem, ?_, ?_, ?_⟩
    · rw [List.map_cons, execAll, ran]
      congr 1
      funext q
      by_cases stack : q = .rsp
      · simp [setReg, stack]
      · simp [setReg, stack, pushed, exec]
    · apply SameOutside.trans (written.widen (by omega) (by omega)) (same.widen (by omega) (by omega))
    · have values : rs.reverse.map pushed.regs = rs.reverse.map c.regs := by
        apply List.map_congr_left
        intro q member
        have away : q ≠ .rsp := by
          intro stack
          rw [stack] at member
          exact plain' (List.mem_reverse.mp member)
        exact setReg_other _ _ _ _ away
      have last : c.regs .rsp - BitVec.ofNat 64 (8 * (rs.length + 1)) +
          BitVec.ofNat 64 (8 * (rs.reverse.map c.regs).length) = c.regs .rsp - 8#64 := by
        rw [List.length_map, List.length_reverse, ← place, BitVec.sub_add_cancel]
      rw [List.reverse_cons, List.map_append, frame_append, last]
      refine ⟨values ▸ frame, ?_, trivial⟩
      rw [same.read64_eq _ (by omega) (by omega)]
      exact read64_write64_same _ _ _

theorem execAll_pop (rs : List Reg) (c : Cpu Sym) (words : List (BitVec 64)) (plain : Reg.rsp ∉ rs)
    (distinct : rs.Nodup) (length : words.length = rs.length) (frame : Frame c.mem (c.regs .rsp) words) :
    ∃ regs, execAll (rs.map .pop) c = { c with regs := regs } ∧ rs.map regs = words ∧
      regs .rsp = c.regs .rsp + BitVec.ofNat 64 (8 * rs.length) ∧
      ∀ q, q ≠ .rsp → q ∉ rs → regs q = c.regs q := by
  induction rs generalizing c words with
  | nil =>
    rw [List.length_nil, List.length_eq_zero_iff] at length
    exact ⟨c.regs, rfl, length.symm, by simp, fun _ _ _ => rfl⟩
  | cons r rs ih =>
    cases words with
    | nil => simp at length
    | cons v words =>
      obtain ⟨value, frame⟩ := frame
      have plain' : Reg.rsp ∉ rs := fun member => plain (List.mem_cons_of_mem r member)
      have stack : Reg.rsp ≠ r := fun same => plain (same ▸ List.mem_cons_self)
      let popped := exec (.pop r) c
      have top : popped.regs .rsp = c.regs .rsp + 8#64 := by
        simp only [popped, exec, setReg_other _ r .rsp _ stack, setReg_same]
      have loaded : popped.regs r = v := by
        simp only [popped, exec, setReg_same, value]
      obtain ⟨regs, ran, read, final, kept⟩ := ih popped words plain' distinct.of_cons
        (Nat.succ.inj length) (by rw [top]; exact frame)
      refine ⟨regs, ?_, ?_, ?_, ?_⟩
      · rw [List.map_cons, execAll, ran]
        rfl
      · rw [List.map_cons, read, kept r stack.symm distinct.notMem, loaded]
      · rw [final, top, List.length_cons, show 8 * (rs.length + 1) = 8 + 8 * rs.length by omega,
          BitVec.ofNat_add, BitVec.add_assoc]
      · intro q away absent
        rw [List.mem_cons, not_or] at absent
        rw [kept q away absent.2]
        simp only [popped, exec, setReg_other _ _ _ _ absent.1, setReg_other _ _ _ _ away]

end LifeOS.Library.X86
