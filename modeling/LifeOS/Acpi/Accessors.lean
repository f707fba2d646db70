import LifeOS.Acpi.Enumeration

/-!
What the two accessors return after `acpi_init`: the table list is searched from its
start, while the FADT kept is the last one that the loop has seen.
-/

namespace LifeOS.Acpi
open LifeOS.Console LifeOS.Library.Access LifeOS.Library.Memory LifeOS.Library.Strings

variable (m : Mem)

theorem foldl_recordFadt (tables : List Addr) (kept : Option Fadt) :
    tables.foldl (recordFadt m) kept = ((tables.filter (IsFadt m)).getLast?.map (fadtAt m)).or kept := by
  induction tables using List.reverseRecOn with
  | nil => rfl
  | append_singleton tables a ih =>
    rw [List.foldl_concat, List.filter_append, ih]
    unfold recordFadt
    by_cases fadt : IsFadt m a
    · rw [if_pos fadt, List.filter_cons, if_pos (decide_eq_true fadt), List.filter_nil, List.getLast?_concat]
      rfl
    · rw [if_neg fadt, List.filter_cons, if_neg (fun same => fadt (of_decide_eq_true same)),
        List.filter_nil, List.append_nil]

def registered (root : Root) : List Addr := ((listed m root).filter Usable).take 16

def fadts (root : Root) : List Addr := (registered m root).filter (IsFadt m)

variable {m}

theorem WellFormed.tables {root : Root} (formed : WellFormed m root) (s : AcpiState) :
    (acpiInit m s).value.tables = registered m root := by
  rw [(acpiInit_accepted m s root formed.accepted).tables, firstTables_listed m root formed.length]
  rfl

theorem WellFormed.fadt {root : Root} (formed : WellFormed m root) (s : AcpiState) :
    acpiGetFadt (acpiInit m s).value = ((fadts m root).getLast?.map (fadtAt m)).or (acpiGetFadt s) := by
  rw [(acpiInit_accepted m s root formed.accepted).fadt, firstTables_listed m root formed.length,
    foldl_recordFadt]
  rfl

theorem registered_usable {root : Root} {a : Addr} (member : a ∈ registered m root) :
    a ∈ listed m root ∧ Usable a := by
  have kept := List.mem_filter.mp (List.mem_of_mem_take member)
  exact ⟨kept.1, of_decide_eq_true kept.2⟩

theorem mem_fadts {root : Root} {a : Addr} (member : a ∈ fadts m root) :
    a ∈ registered m root ∧ IsFadt m a := by
  have kept := List.mem_filter.mp member
  exact ⟨kept.1, of_decide_eq_true kept.2⟩

/-- On a well-formed root table, exactly the first sixteen usable entries are registered, and
the lookup returns the first of them with the signature. -/
theorem enumeration_exact (m : Mem) (root : Root) (formed : WellFormed m root) (s : AcpiState)
    (sig : Vector Byte 4) :
    (acpiInit m s).value.tables = ((listed m root).filter Usable).take 16 ∧
      (acpiGetTable m sig (acpiInit m s).value).value =
        ((acpiInit m s).value.tables.find? (fun h => Holds m sig.toList h)).getD 0#64 ∧
      0#64 ∉ (acpiInit m s).value.tables := by
  refine ⟨formed.tables s, findTable_value m sig _, ?_⟩
  rw [formed.tables s]
  intro null
  exact absurd (registered_usable null).2.1 (by decide)

/-- The memory of a machine with its EBDA and the RSDP at 0x90000. -/
def firmware (revision : Byte) (pointers : List Byte) (blocks : List (Addr × List Byte)) : Mem :=
  holding ((0x40E#64, [0x00#8, 0x90#8]) ::
    (0x90000#64, sigRsdp ++ List.replicate 7 0x00#8 ++ revision :: pointers) :: blocks)

/-- The bytes of a FADT up to its PM1 control blocks, of which the low bytes are given. -/
def fadtBytes (pm1a pm1b : Byte) : List Byte :=
  sigFacp ++ [0x74#8] ++ List.replicate 59 0x00#8 ++ [pm1a, 0x06#8, 0x00#8, 0x00#8, pm1b, 0x06#8]

def twoTables : Mem := firmware 0x00#8 [0x00#8, 0x10#8]
  [(0x1000#64, sigRsdt ++ [0x2C#8]), (0x1024#64, [0x00#8, 0x20#8, 0x00#8, 0x00#8, 0x00#8, 0x30#8]),
    (0x2000#64, fadtBytes 0x04#8 0x08#8)]

theorem twoTables_formed : WellFormed twoTables ⟨false, 0x1000#64⟩ :=
  ⟨by decide +kernel, by decide +kernel, by decide +kernel, by decide +kernel, by decide +kernel,
    by decide +kernel⟩

theorem two_tables_registered :
    (acpiInit twoTables (AcpiState.boot Terminal.zeroed.con)).value.tables =
        ((listed twoTables ⟨false, 0x1000#64⟩).filter Usable).take 16 ∧
      (acpiGetTable twoTables ⟨sigFacp.toArray, rfl⟩
          (acpiInit twoTables (AcpiState.boot Terminal.zeroed.con)).value).value =
        ((acpiInit twoTables (AcpiState.boot Terminal.zeroed.con)).value.tables.find?
          (fun h => Holds twoTables sigFacp h)).getD 0#64 ∧
      0#64 ∉ (acpiInit twoTables (AcpiState.boot Terminal.zeroed.con)).value.tables :=
  enumeration_exact twoTables ⟨false, 0x1000#64⟩ twoTables_formed (AcpiState.boot Terminal.zeroed.con)
    ⟨sigFacp.toArray, rfl⟩

def FadtDiscovered (m : Mem) (root : Root) (con : ConsoleState) : Prop :=
  (∃ a ∈ listed m root, Usable a ∧ IsFadt m a) →
    ∃ f, acpiGetFadt (acpiInit m (AcpiState.boot con)).value = some f ∧
      ∃ a ∈ listed m root, IsFadt m a ∧ f.pm1aCntBlk = (read32 m (a + 64#64)).setWidth 16 ∧
        f.pm1bCntBlk = (read32 m (a + 68#64)).setWidth 16

/-- A listed FADT is found when one of them is among the first sixteen usable entries. -/
theorem fadt_discovered_iff (m : Mem) (root : Root) (formed : WellFormed m root) (con : ConsoleState) :
    FadtDiscovered m root con ↔
      ((∃ a ∈ listed m root, Usable a ∧ IsFadt m a) →
        ∃ a ∈ ((listed m root).filter Usable).take 16, IsFadt m a) := by
  unfold FadtDiscovered
  rw [formed.fadt]
  constructor
  · intro discovered exists_fadt
    obtain ⟨f, kept, _⟩ := discovered exists_fadt
    cases last : (fadts m root).getLast? with
    | none =>
      rw [last] at kept
      exact (Option.some_ne_none f kept.symm).elim
    | some a =>
      obtain ⟨member, fadt⟩ := mem_fadts (List.mem_of_getLast? last)
      exact ⟨a, member, fadt⟩
  · intro early exists_fadt
    obtain ⟨a, member, fadt⟩ := early exists_fadt
    have present : a ∈ fadts m root := List.mem_filter.mpr ⟨member, decide_eq_true fadt⟩
    obtain ⟨last, found⟩ := List.getLast?_isSome.mpr (List.ne_nil_of_mem present) |> Option.isSome_iff_exists.mp
    obtain ⟨among, signed⟩ := mem_fadts (List.mem_of_getLast? found)
    rw [found]
    exact ⟨fadtAt m last, rfl, last, (registered_usable among).1, signed, rfl, rfl⟩

theorem fadt_of_two_discovered :
    FadtDiscovered twoTables ⟨false, 0x1000#64⟩ Terminal.zeroed.con ↔
      ((∃ a ∈ listed twoTables ⟨false, 0x1000#64⟩, Usable a ∧ IsFadt twoTables a) →
        ∃ a ∈ ((listed twoTables ⟨false, 0x1000#64⟩).filter Usable).take 16, IsFadt twoTables a) :=
  fadt_discovered_iff twoTables ⟨false, 0x1000#64⟩ twoTables_formed Terminal.zeroed.con

/-- An RSDT with sixteen other tables before the FADT. -/
def lateFadt : Mem := firmware 0x00#8 [0x00#8, 0x10#8]
  [(0x1000#64, sigRsdt ++ [0x68#8]),
    (0x1024#64, (List.replicate 16 [0x00#8, 0x30#8, 0x00#8, 0x00#8]).flatten ++ [0x00#8, 0x20#8]),
    (0x2000#64, fadtBytes 0x04#8 0x08#8)]

theorem late_fadt_missed :
    ¬∀ (m : Mem) (root : Root), WellFormed m root → ∀ con, FadtDiscovered m root con := by
  intro always
  have formed : WellFormed lateFadt ⟨false, 0x1000#64⟩ :=
    ⟨by decide +kernel, by decide +kernel, by decide +kernel, by decide +kernel, by decide +kernel,
      by decide +kernel⟩
  have present : ∃ a ∈ listed lateFadt ⟨false, 0x1000#64⟩, Usable a ∧ IsFadt lateFadt a :=
    ⟨0x2000#64, by decide +kernel⟩
  obtain ⟨f, kept, _⟩ := always lateFadt _ formed Terminal.zeroed.con present
  have nothing : acpiGetFadt (acpiInit lateFadt (AcpiState.boot Terminal.zeroed.con)).value = none := by
    decide +kernel
  rw [nothing] at kept
  exact Option.some_ne_none f kept.symm

def AccessorsAgree (m : Mem) (con : ConsoleState) : Prop :=
  ∀ h, (acpiGetTable m ⟨sigFacp.toArray, rfl⟩ (acpiInit m (AcpiState.boot con)).value).value = h →
    h ≠ 0#64 → ∃ f, acpiGetFadt (acpiInit m (AcpiState.boot con)).value = some f ∧
      f.pm1aCntBlk = (read32 m (h + 64#64)).setWidth 16 ∧ f.pm1bCntBlk = (read32 m (h + 68#64)).setWidth 16

/-- The accessors agree when the first and the last registered FADT do. -/
theorem accessors_agree_iff (m : Mem) (root : Root) (formed : WellFormed m root) (con : ConsoleState) :
    AccessorsAgree m con ↔
      ∀ first ∈ (fadts m root).head?, ∀ last ∈ (fadts m root).getLast?, fadtAt m first = fadtAt m last := by
  have lookup : (acpiGetTable m ⟨sigFacp.toArray, rfl⟩ (acpiInit m (AcpiState.boot con)).value).value =
      (fadts m root).head?.getD 0#64 := by
    unfold acpiGetTable
    rw [findTable_value, formed.tables]
    exact congrArg (Option.getD · 0#64) List.head?_filter.symm
  unfold AccessorsAgree
  rw [lookup, formed.fadt]
  constructor
  · intro agree first head last final
    have nonzero : first ≠ 0#64 := by
      intro null
      have usable := (registered_usable (mem_fadts (List.mem_of_mem_head? head)).1).2
      exact absurd usable.1 (by rw [null]; decide)
    obtain ⟨f, kept, pm1a, pm1b⟩ := agree first (by rw [Option.mem_def.mp head]; rfl) nonzero
    rw [Option.mem_def.mp final] at kept
    obtain rfl := Option.some.inj kept
    unfold fadtAt at pm1a pm1b ⊢
    rw [← pm1a, ← pm1b]
  · intro same h found nonzero
    cases head : (fadts m root).head? with
    | none =>
      rw [head] at found
      exact (nonzero found.symm).elim
    | some first =>
      rw [head] at found
      obtain rfl : first = h := found
      have present := List.mem_of_mem_head? (Option.mem_def.mpr head)
      obtain ⟨last, final⟩ := Option.isSome_iff_exists.mp (List.getLast?_isSome.mpr (List.ne_nil_of_mem present))
      have equal := same first head last final
      rw [final]
      exact ⟨fadtAt m last, rfl, equal ▸ rfl, equal ▸ rfl⟩

theorem accessors_of_two_agree :
    AccessorsAgree twoTables Terminal.zeroed.con ↔
      ∀ first ∈ (fadts twoTables ⟨false, 0x1000#64⟩).head?,
        ∀ last ∈ (fadts twoTables ⟨false, 0x1000#64⟩).getLast?, fadtAt twoTables first = fadtAt twoTables last :=
  accessors_agree_iff twoTables ⟨false, 0x1000#64⟩ twoTables_formed Terminal.zeroed.con

def twoFadts : Mem := firmware 0x00#8 [0x00#8, 0x10#8]
  [(0x1000#64, sigRsdt ++ [0x2C#8]), (0x1024#64, [0x00#8, 0x20#8, 0x00#8, 0x00#8, 0x00#8, 0x30#8]),
    (0x2000#64, fadtBytes 0x04#8 0x08#8), (0x3000#64, fadtBytes 0x40#8 0x80#8)]

theorem two_fadts_disagree :
    ¬∀ (m : Mem) (root : Root), WellFormed m root → ∀ con, AccessorsAgree m con := by
  intro always
  have formed : WellFormed twoFadts ⟨false, 0x1000#64⟩ :=
    ⟨by decide +kernel, by decide +kernel, by decide +kernel, by decide +kernel, by decide +kernel,
      by decide +kernel⟩
  obtain ⟨f, kept, pm1a, _⟩ := always twoFadts _ formed Terminal.zeroed.con 0x2000#64
    (by decide +kernel) (by decide)
  have last : acpiGetFadt (acpiInit twoFadts (AcpiState.boot Terminal.zeroed.con)).value =
      some (fadtAt twoFadts 0x3000#64) := by decide +kernel
  rw [last] at kept
  obtain rfl := Option.some.inj kept
  exact absurd pm1a (by decide +kernel)

end LifeOS.Acpi
