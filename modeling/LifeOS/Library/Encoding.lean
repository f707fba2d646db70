import LifeOS.Library.Memory

/-!
The bytes of a few x86 instructions: as an assembler writes them for code of one width, and
as a processor reads them in code of another. The prefix for a 16-bit operand of wide code
makes a 32-bit operand in narrow code, which takes two bytes of the next instruction.
-/

namespace LifeOS.Library.Encoding
open LifeOS.Library.Memory

/-- The size of the operands without a prefix. It is the same in 64-bit code as in 32-bit code. -/
inductive Width where
  | narrow
  | wide
  deriving DecidableEq

def Width.other : Width → Width
  | .narrow => .wide
  | .wide => .narrow

/-- The number of a general register; as a byte register, that of its low or its high half. -/
abbrev Reg := BitVec 3

abbrev ax : Reg := 0#3
abbrev dx : Reg := 2#3
abbrev bx : Reg := 3#3
abbrev si : Reg := 6#3

abbrev al : Reg := 0#3
abbrev cl : Reg := 1#3
abbrev dl : Reg := 2#3
abbrev ah : Reg := 4#3
abbrev ch : Reg := 5#3
abbrev dh : Reg := 6#3

abbrev Regs := Reg → BitVec 32

/-- `addMemory` adds to the byte at `bx + si` in narrow code. -/
inductive Instr where
  | movByte (r : Reg) (v : BitVec 8)
  | movWord (r : Reg) (v : BitVec 16)
  | movDouble (r : Reg) (v : BitVec 32)
  | outByte
  | ret
  | addMemory (src : Reg)
  | addRegister (dst src : Reg)

def bytes16 (v : BitVec 16) : List (BitVec 8) := [v.extractLsb' 0 8, v.extractLsb' 8 8]

def bytes32 (v : BitVec 32) : List (BitVec 8) :=
  [v.extractLsb' 0 8, v.extractLsb' 8 8, v.extractLsb' 16 8, v.extractLsb' 24 8]

def sized (operand code : Width) : List (BitVec 8) := if operand = code then [] else [0x66#8]

def encode (width : Width) : Instr → List (BitVec 8)
  | .movByte r v => [22#5 ++ r, v]
  | .movWord r v => sized .narrow width ++ (23#5 ++ r) :: bytes16 v
  | .movDouble r v => sized .wide width ++ (23#5 ++ r) :: bytes32 v
  | .outByte => [0xEE#8]
  | .ret => [0xC3#8]
  | .addMemory src => [0x00#8, 0#2 ++ src ++ 0#3]
  | .addRegister dst src => [0x00#8, 3#2 ++ src ++ dst]

def encodeAll (width : Width) (code : List Instr) : List (BitVec 8) := code.flatMap (encode width)

inductive Fetched where
  | instr (i : Instr) (rest : List (BitVec 8))
  | undefined

def immediate (operand : Width) (r : Reg) (code : List (BitVec 8)) : Option Fetched :=
  match operand, code with
  | .narrow, b0 :: b1 :: rest => some (.instr (.movWord r (b1 ++ b0)) rest)
  | .wide, b0 :: b1 :: b2 :: b3 :: rest => some (.instr (.movDouble r (b3 ++ b2 ++ b1 ++ b0)) rest)
  | _, _ => none

/-- There is no result where the bytes are those of an instruction outside the model. -/
def decode (width : Width) : List (BitVec 8) → Option Fetched
  | [] => none
  | opcode :: rest =>
    if opcode = 0xEE#8 then some (.instr .outByte rest)
    else if opcode = 0xC3#8 then some (.instr .ret rest)
    else if opcode.extractLsb' 3 5 = 23#5 then immediate width (opcode.extractLsb' 0 3) rest
    else match rest with
    | [] => none
    | next :: rest =>
      if opcode = 0x66#8 ∧ next.extractLsb' 3 5 = 23#5 then immediate width.other (next.extractLsb' 0 3) rest
      else if opcode.extractLsb' 3 5 = 22#5 then some (.instr (.movByte (opcode.extractLsb' 0 3) next) rest)
      else if opcode = 0x00#8 ∧ next.extractLsb' 6 2 = 0#2 ∧ next.extractLsb' 0 3 = 0#3 then
        some (.instr (.addMemory (next.extractLsb' 3 3)) rest)
      else if opcode = 0x00#8 ∧ next.extractLsb' 6 2 = 3#2 then
        some (.instr (.addRegister (next.extractLsb' 0 3) (next.extractLsb' 3 3)) rest)
      else if opcode = 0xFE#8 ∧ 1 < (next.extractLsb' 3 3).toNat then some .undefined
      else none

structure State where
  regs : Regs
  dataBase : Addr
  mem : Mem
  out : List (BitVec 16 × BitVec 8)

def setReg (r : Reg) (v : BitVec 32) (regs : Regs) : Regs := fun q => if q = r then v else regs q

def wordOf (r : Reg) (regs : Regs) : BitVec 16 := (regs r).extractLsb' 0 16

def byteOf (r : Reg) (regs : Regs) : BitVec 8 :=
  if r.getLsbD 2 then (regs (r &&& 3#3)).extractLsb' 8 8 else (regs r).extractLsb' 0 8

def setWord (r : Reg) (v : BitVec 16) (regs : Regs) : Regs := setReg r ((regs r).extractLsb' 16 16 ++ v) regs

def setByte (r : Reg) (v : BitVec 8) (regs : Regs) : Regs :=
  if r.getLsbD 2 then
    let old := regs (r &&& 3#3)
    setReg (r &&& 3#3) (old.extractLsb' 16 16 ++ v ++ old.extractLsb' 0 8) regs
  else setReg r ((regs r).extractLsb' 8 24 ++ v) regs

/-- An instruction of narrow code; `ret` ends the run. -/
def exec : Instr → State → State
  | .movByte r v, s => { s with regs := setByte r v s.regs }
  | .movWord r v, s => { s with regs := setWord r v s.regs }
  | .movDouble r v, s => { s with regs := setReg r v s.regs }
  | .outByte, s => { s with out := s.out ++ [(wordOf dx s.regs, byteOf al s.regs)] }
  | .ret, s => s
  | .addMemory src, s =>
    let a := s.dataBase + (wordOf bx s.regs + wordOf si s.regs).setWidth 64
    { s with mem := fun x => if x = a then s.mem a + byteOf src s.regs else s.mem x }
  | .addRegister dst src, s => { s with regs := setByte dst (byteOf dst s.regs + byteOf src s.regs) s.regs }

inductive Stop where
  | returned (s : State)
  | undefined (s : State)

/-- Narrow code without jumps; `fuel` bounds the instructions. -/
def run : Nat → List (BitVec 8) → State → Option Stop
  | 0, _, _ => none
  | fuel + 1, code, s =>
    match decode .narrow code with
    | none => none
    | some .undefined => some (.undefined s)
    | some (.instr .ret _) => some (.returned s)
    | some (.instr i rest) => run fuel rest (exec i s)

theorem middle_byte (high : BitVec 16) (v low : BitVec 8) : (high ++ v ++ low).extractLsb' 8 8 = v := by
  rw [BitVec.extractLsb'_append_eq_of_le (by decide)]
  exact BitVec.extractLsb'_append_eq_right

theorem low_byte (high : BitVec 24) (v : BitVec 8) : (high ++ v).extractLsb' 0 8 = v :=
  BitVec.extractLsb'_append_eq_right

theorem inner_byte (v : BitVec 32) : (v.extractLsb' 8 24).extractLsb' 0 8 = v.extractLsb' 8 8 := by
  apply BitVec.eq_of_getLsbD_eq
  intro i inside
  simp only [BitVec.getLsbD_extractLsb', inside, show i < 24 by omega, decide_true, Bool.true_and, Nat.zero_add]

theorem byteOf_setByte_same (r : Reg) (v : BitVec 8) (regs : Regs) : byteOf r (setByte r v regs) = v := by
  unfold byteOf setByte
  by_cases high : r.getLsbD 2 = true
  · rw [if_pos high, if_pos high]
    dsimp only [setReg]
    rw [if_pos rfl]
    exact middle_byte _ _ _
  · rw [if_neg high, if_neg high]
    dsimp only [setReg]
    rw [if_pos rfl]
    exact low_byte _ _

theorem setReg_same (r : Reg) (v : BitVec 32) (regs : Regs) : setReg r v regs r = v := if_pos rfl

theorem setReg_other (r q : Reg) (v : BitVec 32) (regs : Regs) (other : q ≠ r) : setReg r v regs q = regs q :=
  if_neg other

theorem whole_apart : ∀ r q : Reg, q ≠ r → q.getLsbD 2 = r.getLsbD 2 → q &&& 3#3 ≠ r &&& 3#3 := by
  decide

theorem whole_low : ∀ r : Reg, ¬r.getLsbD 2 = true → r &&& 3#3 = r := by
  decide

theorem byteOf_eq (r : Reg) (regs : Regs) :
    byteOf r regs = (regs (r &&& 3#3)).extractLsb' (if r.getLsbD 2 then 8 else 0) 8 := by
  unfold byteOf
  by_cases high : r.getLsbD 2 = true
  · rw [if_pos high, if_pos high]
  · rw [if_neg high, if_neg high, whole_low r high]

theorem byteOf_setByte_other (r q : Reg) (v : BitVec 8) (regs : Regs) (other : q ≠ r) :
    byteOf q (setByte r v regs) = byteOf q regs := by
  rw [byteOf_eq, byteOf_eq]
  unfold setByte
  by_cases high : r.getLsbD 2 = true
  · rw [if_pos high]
    by_cases same : q &&& 3#3 = r &&& 3#3
    · have side : q.getLsbD 2 ≠ r.getLsbD 2 := fun agree => whole_apart r q other agree same
      have low : ¬q.getLsbD 2 = true := fun upper => side (upper.trans high.symm)
      rw [if_neg low, same, setReg_same]
      exact low_byte _ _
    · rw [setReg_other _ _ _ _ same]
  · rw [if_neg high]
    by_cases same : q &&& 3#3 = r
    · have side : q.getLsbD 2 = true := by
        by_contra low
        exact other ((whole_low q low).symm.trans same)
      rw [if_pos side, same, setReg_same, BitVec.extractLsb'_append_eq_of_le (by decide)]
      exact inner_byte _
    · rw [setReg_other _ _ _ _ same]

theorem wordOf_setByte_other (r q : Reg) (v : BitVec 8) (regs : Regs) (other : q ≠ r &&& 3#3) :
    wordOf q (setByte r v regs) = wordOf q regs := by
  unfold wordOf setByte
  by_cases high : r.getLsbD 2 = true
  · rw [if_pos high, setReg_other _ _ _ _ other]
  · rw [whole_low r high] at other
    rw [if_neg high, setReg_other _ _ _ _ other]

theorem wordOf_setWord_same (r : Reg) (v : BitVec 16) (regs : Regs) : wordOf r (setWord r v regs) = v := by
  unfold wordOf setWord
  rw [setReg_same]
  exact BitVec.extractLsb'_append_eq_right

theorem bytes16_join (v : BitVec 16) : v.extractLsb' 8 8 ++ v.extractLsb' 0 8 = v :=
  (BitVec.extractLsb'_append_extractLsb'_eq_extractLsb' (show 8 = 0 + 8 from rfl)).trans BitVec.extractLsb'_eq_self

theorem opcode_class (r : Reg) :
    (23#5 ++ r : BitVec 8).extractLsb' 3 5 = 23#5 ∧ (23#5 ++ r : BitVec 8).extractLsb' 0 3 = r := by
  revert r
  decide

/-- A word's move that was assembled for wide code, read in narrow code. -/
theorem decode_mixed (r : Reg) (v : BitVec 16) (b2 b3 : BitVec 8) (rest : List (BitVec 8)) :
    decode .narrow (encode .wide (.movWord r v) ++ b2 :: b3 :: rest) =
      some (.instr (.movDouble r (b3 ++ b2 ++ v.extractLsb' 8 8 ++ v.extractLsb' 0 8)) rest) := by
  obtain ⟨kind, number⟩ := opcode_class r
  change decode .narrow (0x66#8 :: (23#5 ++ r) :: v.extractLsb' 0 8 :: v.extractLsb' 8 8 :: b2 :: b3 :: rest) = _
  rw [decode, if_neg (by decide), if_neg (by decide), if_neg (by decide), if_pos ⟨rfl, kind⟩, number]
  rfl

theorem run_instr (fuel : Nat) (code rest : List (BitVec 8)) (i : Instr) (s : State)
    (found : decode .narrow code = some (.instr i rest)) (goes : i ≠ .ret) :
    run (fuel + 1) code s = run fuel rest (exec i s) := by
  rw [run, found]
  cases i with
  | ret => exact absurd rfl goes
  | _ => rfl

theorem run_ret (fuel : Nat) (code rest : List (BitVec 8)) (s : State)
    (found : decode .narrow code = some (.instr .ret rest)) : run (fuel + 1) code s = some (.returned s) := by
  rw [run, found]

theorem run_undefined (fuel : Nat) (code : List (BitVec 8)) (s : State)
    (found : decode .narrow code = some .undefined) : run (fuel + 1) code s = some (.undefined s) := by
  rw [run, found]

theorem low_half (b2 b3 : BitVec 8) (v : BitVec 16) :
    (b3 ++ b2 ++ v.extractLsb' 8 8 ++ v.extractLsb' 0 8).extractLsb' 0 16 = v := by
  apply BitVec.eq_of_getLsbD_eq
  intro i inside
  simp only [BitVec.getLsbD_extractLsb', BitVec.getLsbD_append, inside]
  by_cases first : i < 8
  · simp [first]
  · simp [first, show i - 8 < 8 by omega, show 8 + (i - 8) = i by omega]

def writePort (access : BitVec 16 × BitVec 8) : List Instr := [.movWord dx access.1, .movByte al access.2, .outByte]

/-- Code for port writes that was assembled for wide code: each byte is lost in the upper half of
`edx`, and the ports get what `al` was. -/
theorem run_writes_mixed (fuel : Nat) (table : List (BitVec 16 × BitVec 8)) (rest : List (BitVec 8)) (s : State) :
    ∃ regs, run (2 * table.length + fuel) (encodeAll .wide (table.flatMap writePort) ++ rest) s =
        run fuel rest { s with regs := regs, out := s.out ++ table.map fun access => (access.1, byteOf al s.regs) } ∧
      ∀ r, r ≠ dx → regs r = s.regs r := by
  induction table generalizing s with
  | nil =>
    refine ⟨s.regs, ?_, fun _ _ => rfl⟩
    rw [List.map_nil, List.append_nil, List.length_nil, Nat.mul_zero, Nat.zero_add]
    rfl
  | cons access table ih =>
    obtain ⟨port, v⟩ := access
    have moved := decode_mixed dx port (22#5 ++ al) v (0xEE#8 :: (encodeAll .wide (table.flatMap writePort) ++ rest))
    have wrote : decode .narrow (0xEE#8 :: (encodeAll .wide (table.flatMap writePort) ++ rest)) =
        some (.instr .outByte (encodeAll .wide (table.flatMap writePort) ++ rest)) := rfl
    have code : encodeAll .wide (((port, v) :: table).flatMap writePort) ++ rest =
        encode .wide (.movWord dx port) ++ (22#5 ++ al) :: v ::
          0xEE#8 :: (encodeAll .wide (table.flatMap writePort) ++ rest) := by
      simp [encodeAll, writePort, encode]
    have steps : 2 * ((port, v) :: table).length + fuel = 2 * table.length + fuel + 1 + 1 := by
      rw [List.length_cons]
      omega
    rw [code, steps, run_instr _ _ _ _ _ moved (by simp), run_instr _ _ _ _ _ wrote (by simp)]
    generalize taken : v ++ (22#5 ++ al : BitVec 8) ++ port.extractLsb' 8 8 ++ port.extractLsb' 0 8 = edx
    have portRead : wordOf dx (setReg dx edx s.regs) = port := by
      rw [← taken]
      exact low_half _ _ _
    obtain ⟨regs, ran, kept⟩ := ih (exec .outByte (exec (.movDouble dx edx) s))
    have written : exec .outByte (exec (.movDouble dx edx) s) =
        { s with regs := setReg dx edx s.regs, out := s.out ++ [(port, byteOf al s.regs)] } := by
      unfold exec
      dsimp only
      rw [portRead]
      rfl
    refine ⟨regs, ?_, ?_⟩
    · rw [ran, written]
      dsimp only
      rw [List.append_assoc]
      rfl
    · intro r other
      rw [kept r other, written]
      exact if_neg other

end LifeOS.Library.Encoding
