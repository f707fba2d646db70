import LifeOS.Boot.Paging
import LifeOS.Library.Encoding
import LifeOS.Library.Modes

/-!
`boot/bootloader.asm` from the jump of the BIOS to the kernel, and the stub `kernel/entry.asm`
up to the call of `kmain`. The BIOS is a parameter: what `int 0x13` returns. The routines behind
`long_mode_start` stand under `[BITS 64]` and are reached in real mode, so for them the model
has the bytes of the assembler, read by a 16-bit processor.
-/

namespace LifeOS.Boot
open LifeOS.Library.Encoding LifeOS.Library.Memory LifeOS.Library.Modes LifeOS.Library.Paging

abbrev Byte := BitVec 8

structure DiskCall where
  regs : Regs
  es : BitVec 16
  ss : BitVec 16
  sp : BitVec 16

structure DiskReply where
  carry : Bool
  regs : Regs
  mem : Mem

abbrev Int13 := DiskCall → Mem → DiskReply

def low (n : Nat) : Addr := BitVec.ofNat 64 n

def WordsAt (words : List (BitVec 64)) (start : Nat) (m : Mem) : Prop :=
  ∀ i (inside : i < words.length), read64 m (low (start + 8 * i)) = words[i]

/-- `gdt_start` of the boot sector. -/
def loaderGdt : List (BitVec 64) :=
  [0x0000000000000000#64, 0x00CF9A000000FFFF#64, 0x00CF92000000FFFF#64, 0x00AF9A000000FFFF#64, 0x00AF92000000FFFF#64]

/-- The assembled boot sector: the size of the code, and the labels that are jumped to or
returned to. The data follows the code in the order of the source. -/
structure Sector where
  code : Nat
  protectedMode : Addr
  longModeStart : Addr
  afterSerialInit : BitVec 16
  fits : (0x7C00 + code + 1 + 18 + 7) / 8 * 8 + 40 + 6 ≤ 0x7C00 + 510

namespace Sector

def bootDrive (s : Sector) : Nat := 0x7C00 + s.code

def errMsg (s : Sector) : Nat := s.bootDrive + 1

/-- `align 8` behind the 18 bytes of the message. -/
def gdtStart (s : Sector) : Nat := (s.errMsg + 18 + 7) / 8 * 8

def gdtDescriptor (s : Sector) : Nat := s.gdtStart + 40

structure Holds (s : Sector) (m : Mem) : Prop where
  gdt : WordsAt loaderGdt s.gdtStart m
  limit : read16 m (low s.gdtDescriptor) = 39#16
  base : read32 m (low (s.gdtDescriptor + 2)) = BitVec.ofNat 32 s.gdtStart

end Sector

/-- The machine with the general registers that real mode uses, and the writes to ports. -/
structure Loader where
  cpu : Machine
  regs : Regs
  out : List (BitVec 16 × Byte)

def Loader.state (l : Loader) : State := ⟨l.regs, l.cpu.ds.base.setWidth 64, l.cpu.mem, l.out⟩

def Loader.put (s : State) (l : Loader) : Loader := ⟨{ l.cpu with mem := s.mem }, s.regs, s.out⟩

def store8 (a : Addr) (v : Byte) (m : Mem) : Mem := fun x => if x = a then v else m x

def sp (c : Machine) : BitVec 16 := c.rsp.setWidth 16

def setSp (v : BitVec 16) (c : Machine) : Machine := { c with rsp := c.rsp >>> 16 <<< 16 ||| v.setWidth 64 }

/-- `push` of a return address in real mode, `ss` being zero. -/
def push16 (v : BitVec 16) (c : Machine) : Machine :=
  let top := sp c - 2#16
  let mem := store8 (top.setWidth 64) (v.extractLsb' 0 8) c.mem
  setSp top { c with mem := store8 (top.setWidth 64 + 1#64) (v.extractLsb' 8 8) mem }

def ret16 (c : Machine) : Machine :=
  setSp (sp c + 2#16) { c with rip := (read16 c.mem ((sp c).setWidth 64)).setWidth 64 }

def serialPort : BitVec 16 := 0x3F8#16

def serialSetup : List (BitVec 16 × Byte) :=
  [(serialPort + 1#16, 0x00#8), (serialPort + 3#16, 0x80#8), (serialPort + 0#16, 0x01#8),
    (serialPort + 1#16, 0x00#8), (serialPort + 3#16, 0x03#8), (serialPort + 2#16, 0xC7#8),
    (serialPort + 4#16, 0x0B#8)]

def serialInitCode : List Byte := encodeAll .wide (serialSetup.flatMap writePort ++ [.ret])

def serialInit (s : Sector) (l : Loader) : Option Loader :=
  let l := { l with cpu := push16 s.afterSerialInit l.cpu }
  match run 15 serialInitCode l.state with
  | some (.returned after) =>
    let l := l.put after
    some { l with cpu := ret16 l.cpu }
  | _ => none

def loadDs (selector : BitVec 16) (c : Machine) : Option Machine :=
  (c.dataSegment selector false c.ds).map fun ds => { c with ds := ds }

def loadEs (selector : BitVec 16) (c : Machine) : Option Machine :=
  (c.dataSegment selector false c.es).map fun es => { c with es := es }

def loadSs (selector : BitVec 16) (c : Machine) : Option Machine :=
  (c.dataSegment selector true c.ss).map fun ss => { c with ss := ss }

/-- The stores to the segments and the stack pointer up to `mov [boot_drive], dl`. -/
def start (s : Sector) (l : Loader) : Option Loader := do
  let regs := setWord ax 0#16 l.regs
  let cpu ← loadDs (wordOf ax regs) l.cpu
  let cpu ← loadSs (wordOf ax regs) cpu
  let cpu := setSp 0x7C00#16 cpu
  let cpu := { cpu with mem := store8 (cpu.ds.base.setWidth 64 + low s.bootDrive) (byteOf dl regs) cpu.mem }
  return ⟨cpu, regs, l.out⟩

/-- The moves before `int 0x13`; `sectors` is `KERNEL_SECTORS`. -/
def diskRegs (sectors : Nat) (drive : Byte) (regs : Regs) : Regs :=
  let regs := setWord bx 0x1000#16 regs
  let regs := setByte ah 0x02#8 regs
  let regs := setByte al (BitVec.ofNat 8 sectors) regs
  let regs := setByte ch 0#8 regs
  let regs := setByte dh 0#8 regs
  let regs := setByte cl 2#8 regs
  setByte dl drive regs

/-- From the return of `serial_init` up to the call of the BIOS. -/
def loadKernel (s : Sector) (sectors : Nat) (l : Loader) : Option Loader := do
  let regs := setWord ax 0x0000#16 l.regs
  let cpu ← loadEs (wordOf ax regs) l.cpu
  let drive := cpu.mem (cpu.ds.base.setWidth 64 + low s.bootDrive)
  return ⟨cpu, diskRegs sectors drive regs, l.out⟩

def diskCall (l : Loader) : DiskCall := ⟨l.regs, l.cpu.es.selector, l.cpu.ss.selector, sp l.cpu⟩

/-- The bytes from `disk_error` to the first instruction of `print_string`: the message's address,
a call over the two bytes of `jmp $`, and `lodsb`. -/
def diskErrorCode (s : Sector) : List Byte :=
  encode .wide (.movWord si (BitVec.ofNat 16 s.errMsg)) ++
    [0xE8#8, 0x02#8, 0x00#8, 0x00#8, 0x00#8, 0xEB#8, 0xFE#8, 0xAC#8]

/-- `lgdt` with 16-bit operands takes 24 bits of the base. -/
def lgdt16 (a : Nat) (c : Machine) : Machine :=
  { c with gdtLimit := read16 c.mem (low a)
           gdtBase := (read32 c.mem (low (a + 2)) &&& 0x00FFFFFF#32).setWidth 64 }

def code32Sel : BitVec 16 := 0x08#16
def data32Sel : BitVec 16 := 0x10#16
def code64Sel : BitVec 16 := 0x18#16
def data64Sel : BitVec 16 := 0x20#16

def loadSegments (selector : BitVec 16) (c : Machine) : Option Machine := do
  let c ← loadDs selector c
  let c ← loadEs selector c
  loadSs selector c

def enterProtected (s : Sector) (c : Machine) : Option Machine := do
  let c := lgdt16 s.gdtDescriptor c
  let c ← c.writeCr0 (c.cr0 ||| 0x1#32)
  let c ← c.farJump code32Sel s.protectedMode
  let c ← loadSegments data32Sel c
  return { c with rsp := 0x7C00#64 }

/-- The stores go to the addresses that they name in a flat segment only, and there is no result
for another one. -/
def buildPaging (c : Machine) : Option Machine :=
  if c.ds.base = 0#32 ∧ c.ds.limit = 0xFFFFFFFF#32 then some { c with mem := setupPaging c.mem } else none

def enterLong (s : Sector) (c : Machine) : Option Machine := do
  let c := c.writeCr3 (pml4.setWidth 64)
  let c ← c.writeCr4 (c.cr4 ||| 0x20#32)
  let c ← c.writeEfer (c.efer ||| 0x00000100#64)
  let c ← c.writeCr0 (c.cr0 ||| 0x80000000#32)
  c.farJump code64Sel s.longModeStart

def enterKernel (c : Machine) : Option Machine := do
  let c ← loadSegments data64Sel c
  return { c with rsp := 0x90000#64, rip := 0x1000#64 }

def kernelGdt : List (BitVec 64) := [0x0000000000000000#64, 0x00AF9A000000FFFF#64, 0x00AF92000000FFFF#64]

structure Stub where
  gdtStart : Nat
  halt : Addr
  kmain : Addr

namespace Stub

def gdtDescriptor (k : Stub) : Nat := k.gdtStart + 24

structure Holds (k : Stub) (m : Mem) : Prop where
  gdt : WordsAt kernelGdt k.gdtStart m
  limit : read16 m (low k.gdtDescriptor) = 23#16
  base : read64 m (low (k.gdtDescriptor + 2)) = low k.gdtStart

end Stub

def lgdt64 (a : Nat) (c : Machine) : Option Machine := do
  let b0 ← c.byteAt (low a + 0#64)
  let b1 ← c.byteAt (low a + 1#64)
  let base ← c.wordAt (low (a + 2))
  return { c with gdtLimit := b1 ++ b0, gdtBase := base }

/-- A call in 64-bit mode, the stack being aligned. -/
def call64 (returnTo target : Addr) (c : Machine) : Option Machine := do
  let top := c.rsp - 8#64
  let a ← c.writable top
  return { c with rsp := top, rip := target, mem := write64 c.mem a returnTo }

def dataSel : BitVec 16 := 0x10#16

def enterKmain (k : Stub) (c : Machine) : Option Machine := do
  let c ← lgdt64 k.gdtDescriptor c
  let c ← loadSegments dataSel c
  call64 k.halt k.kmain { c with rsp := 0x90000#64 }

/-- How the boot ends: at the first instruction of `kmain`, or at an opcode that the processor
does not know. -/
inductive Outcome where
  | kmain (l : Loader)
  | undefined (l : Loader)

/-- The part behind the read. There is no result when an instruction faults. -/
def loaded (s : Sector) (k : Stub) (c : Machine) : Option Machine := do
  let c ← enterProtected s c
  let c ← buildPaging c
  let c ← enterLong s c
  let c ← enterKernel c
  enterKmain k c

/-- `disk_error`, reached with `si` and the flags of the BIOS. -/
def diskError (s : Sector) (l : Loader) : Option Outcome :=
  match run 4 (diskErrorCode s) l.state with
  | some (.undefined after) => some (.undefined (l.put after))
  | _ => none

def bootloader (s : Sector) (k : Stub) (sectors : Nat) (int13 : Int13) (l : Loader) : Option Outcome := do
  let l ← start s l
  let l ← serialInit s l
  let l ← loadKernel s sectors l
  let reply := int13 (diskCall l) l.cpu.mem
  let l : Loader := ⟨{ l.cpu with mem := reply.mem }, reply.regs, l.out⟩
  if reply.carry then diskError s l
  else return .kmain { l with cpu := ← loaded s k l.cpu }

end LifeOS.Boot
