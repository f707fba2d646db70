import LifeOS.Acpi.Parser

/-!
What `acpi_init` makes of the memory: which table is the root, which tables it registers
and which FADT it keeps, and what the two accessors then return.
-/

namespace LifeOS.Acpi
open LifeOS.Console LifeOS.Library.Access LifeOS.Library.Memory LifeOS.Library.Strings

variable (m : Mem)

def usesXsdt (rsdp : Addr) : Prop := 2 ≤ (m (rsdp + 15#64)).toNat ∧ read64 m (rsdp + 24#64) ≠ 0#64

instance (rsdp : Addr) : Decidable (usesXsdt m rsdp) := inferInstanceAs (Decidable (_ ∧ _))

def rootAddress (rsdp : Addr) : Addr :=
  if usesXsdt m rsdp then read64 m (rsdp + 24#64) else (read32 m (rsdp + 16#64)).zeroExtend 64

def signatureOf (useXsdt : Bool) : List Byte := if useXsdt then sigXsdt else sigRsdt

def width (useXsdt : Bool) : Nat := if useXsdt then 8 else 4

def declared (root : Root) : Nat := (read32 m (root.sdt + 4#64)).toNat

def entryAt (root : Root) (i : Nat) : Addr :=
  if root.useXsdt then read64 m (root.sdt + 36#64 + BitVec.ofNat 64 (8 * i))
  else (read32 m (root.sdt + 36#64 + BitVec.ofNat 64 (4 * i))).zeroExtend 64

def listed (root : Root) : List Addr :=
  (List.range' 0 ((declared m root - 36) / width root.useXsdt)).map (entryAt m root)

def Usable (a : Addr) : Prop := 0 < a.toNat ∧ a.toNat < 0x80000000

instance (a : Addr) : Decidable (Usable a) := inferInstanceAs (Decidable (_ ∧ _))

def IsFadt (a : Addr) : Prop := Holds m sigFacp a

instance (a : Addr) : Decidable (IsFadt m a) := inferInstanceAs (Decidable (Holds _ _ _))

def fadtAt (a : Addr) : Fadt :=
  ⟨(read32 m (a + 64#64)).setWidth 16, (read32 m (a + 68#64)).setWidth 16, 0#16, 0#16⟩

def recordFadt (kept : Option Fadt) (a : Addr) : Option Fadt :=
  if IsFadt m a then some (fadtAt m a) else kept

/-- The given tables have been registered, one after the other. -/
structure Registers (s : AcpiState) (added : List Addr) (after : AcpiState) : Prop where
  tables : after.tables = s.tables ++ added
  fadt : acpiGetFadt after = added.foldl (recordFadt m) (acpiGetFadt s)

variable {m}

theorem Registers.refl (s : AcpiState) : Registers m s [] s := ⟨(List.append_nil _).symm, rfl⟩

theorem Registers.trans {first second third : AcpiState} {early late : List Addr}
    (start : Registers m first early second) (rest : Registers m second late third) :
    Registers m first (early ++ late) third := by
  refine ⟨?_, ?_⟩
  · rw [rest.tables, start.tables, List.append_assoc]
  · rw [rest.fadt, start.fadt, List.foldl_append]

theorem Registers.print {s after : AcpiState} {added : List Addr} (registers : Registers m s added after)
    (f : ConsoleState → ConsoleState) : Registers m s added (after.print f) :=
  ⟨registers.tables, registers.fadt⟩

variable (m)

theorem fetchEntry_value (root : Root) (i : Nat) : (fetchEntry m root i).value = entryAt m root i := by
  unfold fetchEntry entryAt
  by_cases wide : root.useXsdt = true
  · rw [if_pos wide, if_pos wide]
    rfl
  · rw [if_neg wide, if_neg wide]
    rfl

theorem registerTable_usable (a : Addr) (s : AcpiState) (usable : Usable a) :
    Registers m s [a] (registerTable m a s).value := by
  have nonzero : a ≠ 0#64 := fun zero => absurd usable.1 (by rw [zero]; decide)
  unfold registerTable
  simp only [if_pos usable.2, if_neg nonzero, value_bind, compares_value]
  by_cases fadt : Holds m sigFacp a
  · rw [if_pos (decide_eq_true fadt)]
    exact ⟨rfl, (if_pos fadt).symm⟩
  · rw [if_neg (fun same => fadt (of_decide_eq_true same))]
    exact ⟨rfl, (if_neg fadt).symm⟩

theorem registerTable_unusable (a : Addr) (s : AcpiState) (unusable : ¬Usable a) :
    registerTable m a s = pure s := by
  have null : (if a.toNat < 0x80000000 then a else 0#64) = 0#64 := by
    split
    · rename_i low
      by_contra nonzero
      have positive : a.toNat ≠ 0 := fun zero => nonzero (BitVec.eq_of_toNat_eq zero)
      exact unusable ⟨by omega, low⟩
    · rfl
  unfold registerTable
  simp only [null, if_true]

theorem scanEntries_registers (root : Root) (left i : Nat) (s : AcpiState) (room : s.tables.length ≤ 16) :
    Registers m s
      ((((List.range' i left).map (entryAt m root)).filter Usable).take (16 - s.tables.length))
      (scanEntries m root left i s).value := by
  induction left generalizing i s with
  | zero => exact (List.take_nil ▸ Registers.refl s)
  | succ left ih =>
    rw [scanEntries, List.range'_succ, List.map_cons]
    by_cases more : s.tables.length < 16
    · rw [if_pos more, value_bind, value_bind, fetchEntry_value]
      by_cases usable : Usable (entryAt m root i)
      · have added := registerTable_usable m (entryAt m root i) s usable
        have count : (registerTable m (entryAt m root i) s).value.tables.length = s.tables.length + 1 := by
          rw [added.tables, List.length_append, List.length_singleton]
        have rest := ih (i + 1) (registerTable m (entryAt m root i) s).value (by omega)
        rw [count] at rest
        rw [List.filter_cons, if_pos (decide_eq_true usable),
          show 16 - s.tables.length = 16 - (s.tables.length + 1) + 1 by omega, List.take_succ_cons]
        exact added.trans rest
      · rw [registerTable_unusable m _ s usable, value_pure,
          List.filter_cons, if_neg (fun same => usable (of_decide_eq_true same))]
        exact ih (i + 1) s room
    · rw [if_neg more, show 16 - s.tables.length = 0 by omega, List.take_zero]
      exact Registers.refl s

/-- The first sixteen usable entries, as far as the code counts entries. -/
def firstTables (root : Root) : List Addr :=
  (((List.range' 0 (entries (read32 m (root.sdt + 4#64)) root.useXsdt).toNat).map
    (entryAt m root)).filter Usable).take 16

theorem parseRoot_registers (root : Root) (s : AcpiState) :
    Registers m { s with tables := [] } (firstTables m root) (parseRoot m root s).value := by
  have scanned := scanEntries_registers m root
    (entries (read32 m (root.sdt + 4#64)) root.useXsdt).toNat 0 { s with tables := [] } (Nat.zero_le 16)
  rw [List.length_nil, Nat.sub_zero] at scanned
  exact scanned.print _

theorem rootPointer_value (rsdp : Addr) :
    (rootPointer m rsdp).value = ⟨decide (usesXsdt m rsdp),
      if (rootAddress m rsdp).toNat < 0x80000000 then rootAddress m rsdp else 0#64⟩ := by
  have short (v : BitVec 32) : (v.zeroExtend 64).toNat = v.toNat := by
    have fits := v.isLt
    rw [BitVec.toNat_setWidth]
    omega
  unfold rootPointer xsdtAddress rootAddress
  by_cases recent : 2 ≤ (m (rsdp + 15#64)).toNat
  · by_cases nonzero : read64 m (rsdp + 24#64) = 0#64
    · have narrow : ¬usesXsdt m rsdp := fun uses => uses.2 nonzero
      rw [if_neg narrow, short]
      simp [fetch8, fetch32, fetch64, recent, nonzero, narrow]
    · have wide : usesXsdt m rsdp := ⟨recent, nonzero⟩
      simp [fetch8, fetch64, recent, nonzero, wide]
  · have narrow : ¬usesXsdt m rsdp := fun uses => recent uses.1
    rw [if_neg narrow, short]
    simp [fetch8, fetch32, recent, narrow]

def RootSigned (sdt : Addr) : Prop := sdt ≠ 0#64 ∧ (Holds m sigRsdt sdt ∨ Holds m sigXsdt sdt)

instance (sdt : Addr) : Decidable (RootSigned m sdt) := inferInstanceAs (Decidable (_ ∧ (_ ∨ _)))

theorem isRoot_value (sdt : Addr) : (isRoot m sdt).value = decide (RootSigned m sdt) := by
  unfold isRoot RootSigned
  by_cases null : sdt = 0#64
  · simp [null]
  · by_cases narrow : Holds m sigRsdt sdt
    · simp [null, narrow]
    · simp [null, narrow]

def acceptedRoot : Option Root :=
  let rsdp := (findRsdp m).value
  let root := (rootPointer m rsdp).value
  if rsdp ≠ 0#64 ∧ RootSigned m root.sdt then some root else none

theorem acceptedRoot_eq_some (root : Root) (accepted : acceptedRoot m = some root) :
    (findRsdp m).value ≠ 0#64 ∧ (rootPointer m (findRsdp m).value).value = root ∧ RootSigned m root.sdt := by
  unfold acceptedRoot at accepted
  dsimp only at accepted
  by_cases found : (findRsdp m).value ≠ 0#64 ∧ RootSigned m (rootPointer m (findRsdp m).value).value.sdt
  · rw [if_pos found] at accepted
    have same := Option.some.inj accepted
    exact ⟨found.1, same, same ▸ found.2⟩
  · rw [if_neg found] at accepted
    exact (Option.some_ne_none root accepted.symm).elim

theorem announce_tables (rsdp : Addr) (root : Root) (s : AcpiState) :
    (announce rsdp root s).tables = s.tables ∧ acpiGetFadt (announce rsdp root s) = acpiGetFadt s := by
  unfold announce
  generalize printAt "RSDP found at 0x" rsdp = first
  generalize printAt (if root.useXsdt then "XSDT at 0x" else "RSDT at 0x") root.sdt = second
  dsimp only
  by_cases null : root.sdt = 0#64
  · rw [if_pos null]
    exact ⟨tables_print first s, acpiGetFadt_print first s⟩
  · rw [if_neg null]
    exact ⟨tables_print second _, acpiGetFadt_print second _⟩

theorem Registers.from_same {m : Mem} {before s after : AcpiState} {added : List Addr}
    (registers : Registers m before added after) (tables : before.tables = s.tables)
    (fadt : acpiGetFadt before = acpiGetFadt s) : Registers m s added after :=
  ⟨tables ▸ registers.tables, fadt ▸ registers.fadt⟩

theorem acpiInit_accepted (s : AcpiState) (root : Root) (accepted : acceptedRoot m = some root) :
    Registers m { s with tables := [] } (firstTables m root) (acpiInit m s).value := by
  obtain ⟨found, pointer, signed⟩ := acceptedRoot_eq_some m root accepted
  unfold acpiInit
  rw [value_bind, if_neg found, value_bind, pointer, value_bind, isRoot_value,
    if_pos (decide_eq_true signed)]
  have registers := parseRoot_registers m root
    (announce (findRsdp m).value root (s.print (say "ACPI parser initializing\n")))
  have kept := announce_tables (findRsdp m).value root (s.print (say "ACPI parser initializing\n"))
  generalize announce (findRsdp m).value root (s.print (say "ACPI parser initializing\n")) = told at *
  exact registers.from_same rfl kept.2

theorem acpiInit_rejected (s : AcpiState) (rejected : acceptedRoot m = none) :
    (acpiInit m s).value.tables = s.tables ∧
      acpiGetFadt (acpiInit m s).value = some ⟨0x604#16, 0xB004#16, 0#16, 0#16⟩ := by
  unfold acpiInit
  rw [value_bind]
  by_cases missing : (findRsdp m).value = 0#64
  · rw [if_pos missing, value_pure, tables_fallback, acpiGetFadt_fallback, tables_print]
    exact ⟨rfl, rfl⟩
  · have unsigned : ¬RootSigned m (rootPointer m (findRsdp m).value).value.sdt := by
      intro signed
      unfold acceptedRoot at rejected
      dsimp only at rejected
      rw [if_pos ⟨missing, signed⟩] at rejected
      exact Option.some_ne_none _ rejected
    rw [if_neg missing, value_bind, value_bind, isRoot_value,
      if_neg (fun same => unsigned (of_decide_eq_true same)), value_pure, tables_fallback,
      acpiGetFadt_fallback, (announce_tables _ _ _).1, tables_print]
    exact ⟨rfl, rfl⟩

theorem findTable_value (sig : Vector Byte 4) (tables : List Addr) :
    (findTable m sig tables).value = (tables.find? (fun h => Holds m sig.toList h)).getD 0#64 := by
  induction tables with
  | nil => rfl
  | cons h tables ih =>
    rw [findTable, value_bind, compares_value, List.find?_cons]
    by_cases found : Holds m sig.toList h
    · rw [if_pos (decide_eq_true found), decide_eq_true found]
      rfl
    · rw [if_neg (fun same => found (of_decide_eq_true same)), decide_eq_false found]
      exact ih

/-- A root table found where the RSDP points, of the kind the RSDP says. -/
structure WellFormed (root : Root) : Prop where
  found : (findRsdp m).value ≠ 0#64
  kind : root.useXsdt = decide (usesXsdt m (findRsdp m).value)
  pointer : root.sdt = rootAddress m (findRsdp m).value
  usable : Usable root.sdt
  signature : Holds m (signatureOf root.useXsdt) root.sdt
  length : 36 ≤ declared m root

theorem WellFormed.accepted {m : Mem} {root : Root} (formed : WellFormed m root) :
    acceptedRoot m = some root := by
  have same : (rootPointer m (findRsdp m).value).value = root := by
    rw [rootPointer_value, ← formed.pointer, if_pos formed.usable.2, ← formed.kind]
  have nonzero : root.sdt ≠ 0#64 := fun zero => absurd formed.usable.1 (by rw [zero]; decide)
  have signed : RootSigned m root.sdt := by
    refine ⟨nonzero, ?_⟩
    have signature := formed.signature
    unfold signatureOf at signature
    split at signature
    · exact .inr signature
    · exact .inl signature
  unfold acceptedRoot
  dsimp only
  rw [same, if_pos ⟨formed.found, signed⟩]

theorem entries_toNat (length : BitVec 32) (useXsdt : Bool) (long : 36 ≤ length.toNat) :
    (entries length useXsdt).toNat = (length.toNat - 36) / width useXsdt := by
  have short := length.isLt
  have behind : (length.zeroExtend 64 - 36#64).toNat = length.toNat - 36 := by bv_omega
  unfold entries width
  rw [BitVec.toNat_setWidth, BitVec.toNat_udiv, behind]
  cases useXsdt with
  | true =>
    change (length.toNat - 36) / 8 % 2 ^ 32 = (length.toNat - 36) / 8
    omega
  | false =>
    change (length.toNat - 36) / 4 % 2 ^ 32 = (length.toNat - 36) / 4
    omega

theorem firstTables_listed (root : Root) (long : 36 ≤ declared m root) :
    firstTables m root = ((listed m root).filter Usable).take 16 := by
  unfold firstTables listed
  rw [entries_toNat _ _ long]
  rfl

end LifeOS.Acpi
