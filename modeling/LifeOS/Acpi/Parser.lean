import LifeOS.Console.Commands
import LifeOS.Library.Access

/-!
The ACPI parser of `kernel/acpi/acpi.c` over the physical memory, which the identity map
lets it read at its own addresses and which does not change meanwhile. Every read of the
firmware's structures is recorded under the structure it belongs to. A null pointer is
the address zero.
-/

namespace LifeOS.Acpi
open LifeOS.Console LifeOS.Library.Access LifeOS.Library.Memory LifeOS.Library.Strings

/-- What a read belongs to: the EBDA segment, the RSDP, the header of the root table, one of
its entries, or a header or a field of a listed table. -/
inductive Part where
  | segment
  | rsdp
  | root
  | entry
  | header (table : Addr)
  | fadt (table : Addr)
  deriving DecidableEq

structure Fadt where
  pm1aCntBlk : BitVec 16
  pm1bCntBlk : BitVec 16
  slpTypa : BitVec 16
  slpTypb : BitVec 16
  deriving DecidableEq

/-- The static data of the file with the console it prints to. `fadtTable` says that
`fadt_table` points to `fadt_data`; `tables` is `acpi_tables` up to `acpi_table_count`. -/
structure AcpiState where
  fadtData : Fadt
  fadtTable : Bool
  tables : List Addr
  con : ConsoleState

def AcpiState.boot (con : ConsoleState) : AcpiState := ⟨⟨0#16, 0#16, 0#16, 0#16⟩, false, [], con⟩

def AcpiState.print (f : ConsoleState → ConsoleState) (s : AcpiState) : AcpiState := { s with con := f s.con }

def printAt (label : String) (a : Addr) (c : ConsoleState) : ConsoleState :=
  consolePutc newline (consoleWriteHex32 (a.setWidth 32) (say label c))

def sigRsdp : List Byte := [0x52#8, 0x53#8, 0x44#8, 0x20#8, 0x50#8, 0x54#8, 0x52#8, 0x20#8]

def sigRsdt : List Byte := [0x52#8, 0x53#8, 0x44#8, 0x54#8]

def sigXsdt : List Byte := [0x58#8, 0x53#8, 0x44#8, 0x54#8]

def sigFacp : List Byte := [0x46#8, 0x41#8, 0x43#8, 0x50#8]

variable (m : Mem)

/-- The loop of `scan_rsdp` from `p` on. -/
def scanFrom (e : Addr) : Nat → Addr → Traced Part Addr
  | 0, _ => pure 0#64
  | fuel + 1, p =>
    if p.toNat + 36 ≤ e.toNat then do
      if ← compares m .rsdp sigRsdp p then pure p else scanFrom e fuel (p + 16#64)
    else pure 0#64

/-- The pointer moves on by 16, so the size of the region is fuel enough. -/
def scanRsdp (s e : Addr) : Traced Part Addr := scanFrom m e (e.toNat - s.toNat) s

/-- The first kilobyte of the EBDA, then the BIOS area. -/
def findRsdp : Traced Part Addr := do
  let ebdaSeg ← fetch16 m .segment 0x40e#64
  let start := ebdaSeg.zeroExtend 64 <<< 4
  let rsdp ← scanRsdp m start (start + 1024#64)
  if rsdp = 0#64 then scanRsdp m 0xE0000#64 0x100000#64 else pure rsdp

structure Root where
  useXsdt : Bool
  sdt : Addr
  deriving DecidableEq

/-- `xsdt_address`, which a revision below 2 does not look at. -/
def xsdtAddress (revision : BitVec 8) (rsdp : Addr) : Traced Part Addr :=
  if 2 ≤ revision.toNat then fetch64 m .rsdp (rsdp + 24#64) else pure 0#64

def rootPointer (rsdp : Addr) : Traced Part Root := do
  let revision ← fetch8 m .rsdp (rsdp + 15#64)
  let xsdt ← xsdtAddress m revision rsdp
  if 2 ≤ revision.toNat ∧ xsdt ≠ 0#64 then
    return ⟨true, if xsdt.toNat < 0x80000000 then xsdt else 0#64⟩
  else
    let rsdt ← fetch32 m .rsdp (rsdp + 16#64)
    return ⟨false, if rsdt.toNat < 0x80000000 then rsdt.zeroExtend 64 else 0#64⟩

def isRoot (sdt : Addr) : Traced Part Bool := do
  if sdt = 0#64 then return false
  else if ← compares m .root sigRsdt sdt then return true
  else compares m .root sigXsdt sdt

/-- `(sdt->length - sizeof(struct acpi_sdt_header)) / (use_xsdt ? 8 : 4)`, computed on 64
bits and stored in 32. -/
def entries (length : BitVec 32) (useXsdt : Bool) : BitVec 32 :=
  ((length.zeroExtend 64 - 36#64) / (if useXsdt then 8#64 else 4#64)).setWidth 32

def fetchEntry (root : Root) (i : Nat) : Traced Part Addr :=
  if root.useXsdt then fetch64 m .entry (root.sdt + 36#64 + BitVec.ofNat 64 (8 * i))
  else do
    let addr ← fetch32 m .entry (root.sdt + 36#64 + BitVec.ofNat 64 (4 * i))
    return addr.zeroExtend 64

def printFadt (addr : Addr) (fadt : Fadt) (c : ConsoleState) : ConsoleState :=
  let c := consoleWriteHex32 (addr.setWidth 32) (say "FADT at 0x" c)
  let c := consoleWriteHex16 fadt.pm1aCntBlk (say " PM1a=" c)
  let c := consoleWriteHex16 fadt.pm1bCntBlk (say " PM1b=" c)
  consolePutc newline c

/-- The body of the loop for an entry. -/
def registerTable (addr : Addr) (s : AcpiState) : Traced Part AcpiState :=
  let hdr := if addr.toNat < 0x80000000 then addr else 0#64
  if hdr = 0#64 then pure s
  else do
    let s := { s with tables := s.tables ++ [hdr] }
    if ← compares m (.header hdr) sigFacp hdr then do
      let pm1a ← fetch32 m (.fadt hdr) (hdr + 64#64)
      let pm1b ← fetch32 m (.fadt hdr) (hdr + 68#64)
      let fadt : Fadt := ⟨pm1a.setWidth 16, pm1b.setWidth 16, 0#16, 0#16⟩
      return { s with fadtData := fadt, fadtTable := true, con := printFadt addr fadt s.con }
    else return s

/-- The loop over the entries from `i` on, of which `left` are left. -/
def scanEntries (root : Root) : Nat → Nat → AcpiState → Traced Part AcpiState
  | 0, _, s => pure s
  | left + 1, i, s =>
    if s.tables.length < 16 then do
      let addr ← fetchEntry m root i
      scanEntries root left (i + 1) (← registerTable m addr s)
    else pure s

/-- The branch that has found a root table. -/
def parseRoot (root : Root) (s : AcpiState) : Traced Part AcpiState := do
  let length ← fetch32 m .root (root.sdt + 4#64)
  let s ← scanEntries m root (entries length root.useXsdt).toNat 0 { s with tables := [] }
  return s.print (say "ACPI tables parsed\n")

def fallback (s : AcpiState) : AcpiState :=
  { s with fadtData := ⟨0x604#16, 0xB004#16, 0#16, 0#16⟩, fadtTable := true,
           con := say "ACPI tables not found, using defaults\n" s.con }

/-- What is printed about the pointers before the root's signature is looked at. -/
def announce (rsdp : Addr) (root : Root) (s : AcpiState) : AcpiState :=
  let s := s.print (printAt "RSDP found at 0x" rsdp)
  if root.sdt = 0#64 then s
  else s.print (printAt (if root.useXsdt then "XSDT at 0x" else "RSDT at 0x") root.sdt)

def acpiInit (s : AcpiState) : Traced Part AcpiState := do
  let s := s.print (say "ACPI parser initializing\n")
  let rsdp ← findRsdp m
  if rsdp = 0#64 then return fallback s
  else
    let root ← rootPointer m rsdp
    let s := announce rsdp root s
    if ← isRoot m root.sdt then parseRoot m root s else return fallback s

def acpiGetFadt (s : AcpiState) : Option Fadt := if s.fadtTable then some s.fadtData else none

@[simp]
theorem tables_print (f : ConsoleState → ConsoleState) (s : AcpiState) : (s.print f).tables = s.tables := rfl

@[simp]
theorem acpiGetFadt_print (f : ConsoleState → ConsoleState) (s : AcpiState) :
    acpiGetFadt (s.print f) = acpiGetFadt s := rfl

theorem tables_fallback (s : AcpiState) : (fallback s).tables = s.tables := rfl

theorem acpiGetFadt_fallback (s : AcpiState) :
    acpiGetFadt (fallback s) = some ⟨0x604#16, 0xB004#16, 0#16, 0#16⟩ := rfl

def findTable (sig : Vector Byte 4) : List Addr → Traced Part Addr
  | [] => pure 0#64
  | h :: tables => do
    if ← compares m (.header h) sig.toList h then pure h else findTable sig tables

def acpiGetTable (sig : Vector Byte 4) (s : AcpiState) : Traced Part Addr := findTable m sig s.tables

end LifeOS.Acpi
