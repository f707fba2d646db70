import Mathlib.Data.Set.Insert
import LifeOS.Acpi.Accessors

/-!
`kernel_shutdown` of `kernel/power.c` after `acpi_init`: the ports of the word writes of
its loop. The text that it prints goes out through byte writes.
-/

namespace LifeOS.Power
open LifeOS.Acpi LifeOS.Console LifeOS.Library.Memory

def shutdownPass (fadt : Option Fadt) : List (BitVec 16 × BitVec 16) :=
  let (pm1a, pm1b, valA, valB) :=
    match fadt with
    | none => (0x604#16, 0xB004#16, 0x2000#16, 0x2000#16)
    | some fadt =>
      (if fadt.pm1aCntBlk ≠ 0#16 then fadt.pm1aCntBlk else 0x604#16,
        if fadt.pm1bCntBlk ≠ 0#16 then fadt.pm1bCntBlk else 0xB004#16,
        fadt.slpTypa ||| 0x2000#16, fadt.slpTypb ||| 0x2000#16)
  (if pm1a ≠ 0#16 then [(pm1a, valA)] else []) ++ (if pm1b ≠ 0#16 then [(pm1b, valB)] else [])

def kernelShutdown (s : AcpiState) (passes : Nat) : List (BitVec 16 × BitVec 16) :=
  (List.replicate passes (shutdownPass (acpiGetFadt s))).flatten

def portsWritten (s : AcpiState) : Set (BitVec 16) :=
  {port | ∃ passes val, (port, val) ∈ kernelShutdown s passes}

variable (m : Mem)

def parsedTables : List Addr :=
  match acceptedRoot m with
  | none => []
  | some root => firstTables m root

def parsedFadt : Option Addr := ((parsedTables m).filter (IsFadt m)).getLast?

/-- The ports of the machine: the PM1 control blocks there are, or the defaults of QEMU. -/
def machinePorts : Set (BitVec 16) :=
  match parsedFadt m with
  | none => {0x604#16, 0xB004#16}
  | some a => {port | port ≠ 0#16 ∧ (port = (fadtAt m a).pm1aCntBlk ∨ port = (fadtAt m a).pm1bCntBlk)}

/-- No control block is missing, or its default is the port of the other. -/
def BlocksPresent (fadt : Fadt) : Prop :=
  (fadt.pm1aCntBlk ≠ 0#16 ∨ fadt.pm1bCntBlk = 0x604#16) ∧
    (fadt.pm1bCntBlk ≠ 0#16 ∨ fadt.pm1aCntBlk = 0xB004#16)

theorem acpiGetFadt_boot (con : ConsoleState) :
    acpiGetFadt (acpiInit m (AcpiState.boot con)).value =
      match parsedFadt m with
      | some a => some (fadtAt m a)
      | none => if acceptedRoot m = none then some ⟨0x604#16, 0xB004#16, 0#16, 0#16⟩ else none := by
  unfold parsedFadt parsedTables
  cases accepted : acceptedRoot m with
  | none => exact (acpiInit_rejected m (AcpiState.boot con) accepted).2
  | some root =>
    rw [(acpiInit_accepted m (AcpiState.boot con) root accepted).fadt, foldl_recordFadt]
    dsimp only
    cases ((firstTables m root).filter (IsFadt m)).getLast? <;> rfl

theorem mem_portsWritten (s : AcpiState) (port : BitVec 16) :
    port ∈ portsWritten s ↔ ∃ val, (port, val) ∈ shutdownPass (acpiGetFadt s) := by
  constructor
  · intro ⟨passes, val, member⟩
    obtain ⟨pass, among, here⟩ := List.mem_flatten.mp member
    exact ⟨val, List.eq_of_mem_replicate among ▸ here⟩
  · intro ⟨val, member⟩
    exact ⟨1, val, List.mem_flatten.mpr ⟨_, List.mem_singleton.mpr rfl, member⟩⟩

theorem portsWritten_none (s : AcpiState) (missing : acpiGetFadt s = none) :
    portsWritten s = {0x604#16, 0xB004#16} := by
  ext port
  rw [mem_portsWritten, missing]
  simp [shutdownPass, exists_or]

theorem portsWritten_some (s : AcpiState) (fadt : Fadt) (present : acpiGetFadt s = some fadt) :
    portsWritten s = {if fadt.pm1aCntBlk ≠ 0#16 then fadt.pm1aCntBlk else 0x604#16,
      if fadt.pm1bCntBlk ≠ 0#16 then fadt.pm1bCntBlk else 0xB004#16} := by
  have nonzero (block default : BitVec 16) (other : default ≠ 0#16) :
      (if block ≠ 0#16 then block else default) ≠ 0#16 := by
    split
    · assumption
    · exact other
  ext port
  rw [mem_portsWritten, present]
  unfold shutdownPass
  dsimp only
  rw [if_pos (nonzero _ _ (by decide)), if_pos (nonzero _ _ (by decide))]
  simp [exists_or]

/-- Where one block is missing, its default is right only if the other block is that port. -/
theorem chosen_without (block default other : BitVec 16) (nonzero : default ≠ 0#16) :
    ({default, if block ≠ 0#16 then block else other} : Set (BitVec 16)) =
        {port | port ≠ 0#16 ∧ (port = 0#16 ∨ port = block)} ↔ block = default := by
  constructor
  · intro same
    have listed : default ∈ {port : BitVec 16 | port ≠ 0#16 ∧ (port = 0#16 ∨ port = block)} :=
      same ▸ Set.mem_insert _ _
    exact (listed.2.resolve_left nonzero).symm
  · rintro rfl
    rw [if_pos nonzero, Set.pair_eq_singleton]
    ext port
    constructor
    · rintro rfl
      exact ⟨nonzero, .inr rfl⟩
    · rintro ⟨present, zero | here⟩
      · exact absurd zero present
      · exact here

theorem chosen_eq_iff (fadt : Fadt) :
    ({if fadt.pm1aCntBlk ≠ 0#16 then fadt.pm1aCntBlk else 0x604#16,
        if fadt.pm1bCntBlk ≠ 0#16 then fadt.pm1bCntBlk else 0xB004#16} : Set (BitVec 16)) =
        {port | port ≠ 0#16 ∧ (port = fadt.pm1aCntBlk ∨ port = fadt.pm1bCntBlk)} ↔
      BlocksPresent fadt := by
  unfold BlocksPresent
  by_cases a : fadt.pm1aCntBlk = 0#16
  · rw [if_neg (not_not.mpr a), a, chosen_without _ _ _ (by decide)]
    constructor
    · intro block
      exact ⟨.inr block, .inl (by rw [block]; decide)⟩
    · exact fun both => both.1.resolve_left (not_not.mpr rfl)
  · rw [if_pos a]
    by_cases b : fadt.pm1bCntBlk = 0#16
    · have alone := chosen_without fadt.pm1aCntBlk 0xB004#16 0x604#16 (by decide)
      rw [if_pos a] at alone
      have swapped : {port | port ≠ 0#16 ∧ (port = fadt.pm1aCntBlk ∨ port = 0#16)} =
          {port | port ≠ 0#16 ∧ (port = 0#16 ∨ port = fadt.pm1aCntBlk)} :=
        Set.ext fun _ => and_congr_right fun _ => or_comm
      rw [if_neg (not_not.mpr b), b, Set.pair_comm, swapped, alone]
      constructor
      · exact fun block => ⟨.inl a, .inr block⟩
      · exact fun both => both.2.resolve_left (not_not.mpr rfl)
    · rw [if_pos b]
      refine ⟨fun _ => ⟨.inl a, .inl b⟩, ?_⟩
      intro _
      ext port
      constructor
      · rintro (rfl | rfl)
        · exact ⟨a, .inl rfl⟩
        · exact ⟨b, .inr rfl⟩
      · exact fun both => both.2

/-- The shutdown writes the machine's ports and no others, exactly when a parsed FADT lacks no
control block. -/
theorem shutdown_ports_iff (con : ConsoleState) :
    portsWritten (acpiInit m (AcpiState.boot con)).value = machinePorts m ↔
      ∀ a ∈ parsedFadt m, BlocksPresent (fadtAt m a) := by
  have kept := acpiGetFadt_boot m con
  unfold machinePorts
  cases parsed : parsedFadt m with
  | none =>
    rw [parsed] at kept
    dsimp only at kept
    refine ⟨fun _ a never => (Option.some_ne_none a never.symm).elim, fun _ => ?_⟩
    by_cases rejected : acceptedRoot m = none
    · rw [if_pos rejected] at kept
      rw [portsWritten_some _ _ kept]
      dsimp only
      rw [if_pos (by decide), if_pos (by decide)]
    · rw [if_neg rejected] at kept
      exact portsWritten_none _ kept
  | some a =>
    rw [parsed] at kept
    rw [portsWritten_some _ _ kept]
    dsimp only
    rw [chosen_eq_iff]
    constructor
    · intro present b same
      obtain rfl := Option.some.inj same
      exact present
    · exact fun present => present a rfl

def onlyPm1a : Mem := firmware 0x00#8 [0x00#8, 0x10#8]
  [(0x1000#64, sigRsdt ++ [0x28#8]), (0x1024#64, [0x00#8, 0x20#8]),
    (0x2000#64, sigFacp ++ [0x74#8] ++ List.replicate 59 0x00#8 ++ [0x04#8, 0x40#8])]

theorem missing_block_written :
    ¬∀ (m : Mem) (con : ConsoleState), portsWritten (acpiInit m (AcpiState.boot con)).value = machinePorts m := by
  intro always
  have same := always onlyPm1a Terminal.zeroed.con
  have written : (0xB004#16, 0x2000#16) ∈
      kernelShutdown (acpiInit onlyPm1a (AcpiState.boot Terminal.zeroed.con)).value 1 := by decide +kernel
  have machine : 0xB004#16 ∈ machinePorts onlyPm1a := same ▸ ⟨1, _, written⟩
  have parsed : parsedFadt onlyPm1a = some 0x2000#64 := by decide +kernel
  unfold machinePorts at machine
  rw [parsed] at machine
  exact absurd machine.2 (by decide +kernel)

end LifeOS.Power
