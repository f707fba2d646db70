import LifeOS.Boot.Loader

/-!
The boot as a whole: no instruction faults, and it ends at `kmain` in 64-bit mode with the
kernel in identity-mapped memory, or without a message when the disk could not be read.
-/

namespace LifeOS.Boot
open LifeOS.Library.Encoding LifeOS.Library.Loops LifeOS.Library.Memory LifeOS.Library.Modes
open LifeOS.Library.Modes.Machine LifeOS.Library.Paging

/-- The two memories agree on an interval of the low addresses. -/
def AgreeOn (lo hi : Nat) (before after : Mem) : Prop :=
  ∀ a : Addr, lo ≤ a.toNat → a.toNat < hi → after a = before a

theorem AgreeOn.trans {lo hi : Nat} {first second third : Mem} (early : AgreeOn lo hi first second)
    (late : AgreeOn lo hi second third) : AgreeOn lo hi first third :=
  fun a above below => (late a above below).trans (early a above below)

theorem AgreeOn.narrow {lo hi lo' hi' : Nat} {before after : Mem} (agree : AgreeOn lo hi before after)
    (first : lo ≤ lo') (last : hi' ≤ hi) : AgreeOn lo' hi' before after :=
  fun a above below => agree a (by omega) (by omega)

theorem AgreeOn.read64_eq {lo hi : Nat} {before after : Mem} (agree : AgreeOn lo hi before after) (a : Addr)
    (above : lo ≤ a.toNat) (below : a.toNat + 8 ≤ hi) (fits : hi ≤ 2 ^ 64) : read64 after a = read64 before a := by
  apply read64_congr
  intro i inside
  apply agree <;> bv_omega

theorem AgreeOn.read16_eq {lo hi : Nat} {before after : Mem} (agree : AgreeOn lo hi before after) (a : Addr)
    (above : lo ≤ a.toNat) (below : a.toNat + 2 ≤ hi) (fits : hi ≤ 2 ^ 64) : read16 after a = read16 before a := by
  unfold read16
  rw [agree _ (by bv_omega) (by bv_omega), agree _ (by bv_omega) (by bv_omega)]

theorem low_toNat (n : Nat) (few : n < 2 ^ 64) : (low n).toNat = n := by
  unfold low
  rw [BitVec.toNat_ofNat, Nat.mod_eq_of_lt few]

theorem WordsAt.congr {words : List (BitVec 64)} {start : Nat} {before after : Mem} (gdt : WordsAt words start before)
    {lo hi : Nat} (agree : AgreeOn lo hi before after) (first : lo ≤ start) (last : start + 8 * words.length ≤ hi)
    (fits : hi ≤ 2 ^ 63) : WordsAt words start after := by
  intro i inside
  have place := low_toNat (start + 8 * i) (by omega)
  rw [← gdt i inside]
  exact agree.read64_eq _ (by omega) (by omega) (by omega)

theorem Stub.Holds.congr {k : Stub} {before after : Mem} (holds : k.Holds before) {lo hi : Nat}
    (agree : AgreeOn lo hi before after) (above : lo ≤ k.gdtStart) (below : k.gdtStart + 34 ≤ hi)
    (fits : hi ≤ 2 ^ 63) : k.Holds after := by
  have place : k.gdtDescriptor = k.gdtStart + 24 := rfl
  have few : kernelGdt.length = 3 := rfl
  have here := low_toNat k.gdtDescriptor (by omega)
  have next := low_toNat (k.gdtDescriptor + 2) (by omega)
  refine ⟨holds.gdt.congr agree above (by omega) (by omega), ?_, ?_⟩
  · rw [← holds.limit]
    exact agree.read16_eq _ (by omega) (by omega) (by omega)
  · rw [← holds.base]
    exact agree.read64_eq _ (by omega) (by omega) (by omega)

namespace Sector

theorem places (s : Sector) : s.errMsg = s.bootDrive + 1 ∧ s.errMsg + 18 ≤ s.gdtStart ∧
    s.gdtDescriptor = s.gdtStart + 40 ∧ s.gdtDescriptor + 6 ≤ 0x7DFE ∧ 0x7C00 ≤ s.bootDrive := by
  have fits := s.fits
  unfold gdtDescriptor gdtStart errMsg bootDrive
  omega

theorem Holds.congr {s : Sector} {before after : Mem} (holds : s.Holds before)
    (agree : AgreeOn s.gdtStart 0x7E00 before after) : s.Holds after := by
  have places := s.places
  have few : loaderGdt.length = 5 := rfl
  refine ⟨?_, ?_, ?_⟩
  · exact holds.gdt.congr agree (Nat.le_refl _) (by omega) (by omega)
  · rw [← holds.limit]
    have place := low_toNat s.gdtDescriptor (by omega)
    exact agree.read16_eq _ (by omega) (by omega) (by omega)
  · rw [← holds.base]
    have place := low_toNat (s.gdtDescriptor + 2) (by omega)
    unfold read32
    rw [agree _ (by bv_omega) (by bv_omega), agree _ (by bv_omega) (by bv_omega), agree _ (by bv_omega) (by bv_omega),
      agree _ (by bv_omega) (by bv_omega)]

end Sector

theorem sp_setSp (v : BitVec 16) (c : Machine) : sp (setSp v c) = v := by
  apply BitVec.eq_of_getLsbD_eq
  intro i inside
  simp [sp, setSp, inside]

theorem setSp_spec (v : BitVec 16) (c : Machine) :
    ∃ rsp, setSp v c = { c with rsp := rsp } ∧ rsp.setWidth 16 = v := ⟨_, rfl, sp_setSp v c⟩

theorem store8_same (a : Addr) (v : Byte) (m : Mem) : store8 a v m a = v := if_pos rfl

theorem store8_other (a x : Addr) (v : Byte) (m : Mem) (other : x ≠ a) : store8 a v m x = m x := if_neg other

def OnStack (a : Addr) : Prop := 0x7BFE ≤ a.toNat ∧ a.toNat < 0x7C00

def pushed16 (v : BitVec 16) (m : Mem) : Mem :=
  store8 0x7BFF#64 (v.extractLsb' 8 8) (store8 0x7BFE#64 (v.extractLsb' 0 8) m)

theorem read16_pushed16 (v : BitVec 16) (m : Mem) : read16 (pushed16 v m) 0x7BFE#64 = v := bytes16_join v

theorem pushed16_kept (v : BitVec 16) (m : Mem) (a : Addr) (outside : ¬OnStack a) : pushed16 v m a = m a := by
  unfold OnStack at outside
  unfold pushed16
  rw [store8_other _ _ _ _ (by bv_omega), store8_other _ _ _ _ (by bv_omega)]

theorem push16_spec (v : BitVec 16) (c : Machine) (empty : sp c = 0x7C00#16) :
    ∃ rsp, push16 v c = { c with mem := pushed16 v c.mem, rsp := rsp } ∧ rsp.setWidth 16 = 0x7BFE#16 := by
  have top : sp c - 2#16 = 0x7BFE#16 := by
    rw [empty]
    rfl
  refine ⟨(push16 v c).rsp, ?_, ?_⟩
  · unfold push16
    rw [top]
    rfl
  · rw [← top]
    exact sp_setSp _ _

theorem ret16_spec (c : Machine) (top : sp c = 0x7BFE#16) :
    ∃ rsp, ret16 c = { c with rip := (read16 c.mem 0x7BFE#64).setWidth 64, rsp := rsp } ∧
      rsp.setWidth 16 = 0x7C00#16 := by
  refine ⟨(ret16 c).rsp, ?_, ?_⟩
  · unfold ret16
    rw [top]
    rfl
  · have next : sp c + 2#16 = 0x7C00#16 := by
      rw [top]
      rfl
    rw [← next]
    exact sp_setSp _ _

/-- In real mode with an empty stack and zero segments. -/
structure Ready (before after : Loader) (mem : Mem) (written : List (BitVec 16 × Byte)) : Prop where
  control : SameControl before.cpu after.cpu
  ds : after.cpu.ds.base = 0#32
  ss : after.cpu.ss.selector = 0#16
  stack : sp after.cpu = 0x7C00#16
  mem : after.cpu.mem = mem
  out : after.out = before.out ++ written

def driveStored (s : Sector) (l : Loader) : Mem := store8 (low s.bootDrive) (byteOf dl l.regs) l.cpu.mem

/-- The memory at the call of the BIOS: the return address of `serial_init` is left behind. -/
def callMemory (s : Sector) (l : Loader) : Mem := pushed16 s.afterSerialInit (driveStored s l)

theorem callMemory_drive (s : Sector) (l : Loader) : callMemory s l (low s.bootDrive) = byteOf dl l.regs := by
  have places := s.places
  have place := low_toNat s.bootDrive (by omega)
  have drive : ¬OnStack (low s.bootDrive) := by
    unfold OnStack
    omega
  calc
    _ = driveStored s l (low s.bootDrive) := pushed16_kept _ _ _ drive
    _ = byteOf dl l.regs := store8_same _ _ _

theorem callMemory_agree (s : Sector) (l : Loader) : AgreeOn s.gdtStart 0x7E00 l.cpu.mem (callMemory s l) := by
  intro a above below
  have places := s.places
  have place := low_toNat s.bootDrive (by omega)
  have outside : ¬OnStack a := by
    unfold OnStack
    omega
  have other : a ≠ low s.bootDrive := by
    intro same
    rw [same] at above
    omega
  calc
    _ = driveStored s l a := pushed16_kept _ _ _ outside
    _ = l.cpu.mem a := store8_other _ _ _ _ other

theorem loads_real (c : Machine) (real : c.protection = false) :
    (∃ ds, loadDs 0#16 c = some { c with ds := ds } ∧ ds.base = 0#32) ∧
      (∃ es, loadEs 0#16 c = some { c with es := es } ∧ es.selector = 0#16) ∧
      ∃ ss, loadSs 0#16 c = some { c with ss := ss } ∧ ss.selector = 0#16 := by
  unfold loadDs loadEs loadSs
  rw [dataSegment_real _ _ _ real, dataSegment_real _ _ _ real, dataSegment_real _ _ _ real]
  exact ⟨⟨_, rfl, rfl⟩, ⟨_, rfl, rfl⟩, ⟨_, rfl, rfl⟩⟩

theorem wordOf_zeroed (regs : Regs) : wordOf ax (setWord ax 0#16 regs) = 0#16 := by
  unfold wordOf setWord setReg
  rw [if_pos rfl]
  exact BitVec.extractLsb'_append_eq_right

theorem byteOf_zeroed (regs : Regs) : byteOf al (setWord ax 0#16 regs) = 0#8 := by
  have low : (wordOf ax (setWord ax 0#16 regs)).extractLsb' 0 8 = 0#8 := by
    rw [wordOf_zeroed]
    rfl
  rw [← low]
  unfold wordOf byteOf
  rw [BitVec.extractLsb'_extractLsb'_of_le (by decide)]
  rfl

theorem start_ready (s : Sector) (l : Loader) (real : l.cpu.protection = false) :
    ∃ after, start s l = some after ∧ Ready l after (driveStored s l) [] ∧ byteOf al after.regs = 0#8 := by
  obtain ⟨⟨ds, loadsDs, flat⟩, _, _⟩ := loads_real l.cpu real
  obtain ⟨_, _, ⟨ss, loadsSs, stack⟩⟩ := loads_real { l.cpu with ds := ds } real
  obtain ⟨rsp, pointed, top⟩ := setSp_spec 0x7C00#16 { l.cpu with ds := ds, ss := ss }
  have base : ds.base.setWidth 64 + low s.bootDrive = low s.bootDrive := by
    rw [flat]
    exact BitVec.zero_add _
  have kept : byteOf dl (setWord ax 0#16 l.regs) = byteOf dl l.regs := rfl
  have begun : start s l = some ⟨{ l.cpu with
      ds := ds, ss := ss, rsp := rsp, mem := store8 (low s.bootDrive) (byteOf dl l.regs) l.cpu.mem },
      setWord ax 0#16 l.regs, l.out⟩ := by
    unfold start
    simp only [wordOf_zeroed, loadsDs, loadsSs, pointed, base, kept, Option.bind_eq_bind, Option.bind_some]
    rfl
  exact ⟨_, begun, ⟨⟨rfl, rfl, rfl, rfl⟩, flat, stack, top, rfl, (List.append_nil _).symm⟩, byteOf_zeroed _⟩

/-- What `serial_init` writes: zero in place of every byte. -/
def zeroWrites : List (BitVec 16 × Byte) := serialSetup.map fun access => (access.1, 0#8)

theorem serialInitCode_run (before : State) (quiet : byteOf al before.regs = 0#8) :
    ∃ regs, run 15 serialInitCode before = some (.returned { before with regs := regs, out := before.out ++ zeroWrites }) := by
  have split : serialInitCode = encodeAll .wide (serialSetup.flatMap writePort) ++ [0xC3#8] := List.flatMap_append
  obtain ⟨regs, ran, _⟩ := run_writes_mixed 1 serialSetup [0xC3#8] before
  refine ⟨regs, ?_⟩
  rw [quiet] at ran
  rw [split]
  exact ran.trans (run_ret 0 [0xC3#8] [] _ rfl)

theorem serialInit_spec (s : Sector) (l : Loader) (empty : sp l.cpu = 0x7C00#16) (quiet : byteOf al l.regs = 0#8) :
    ∃ rsp regs, serialInit s l = some ⟨{ l.cpu with
        mem := pushed16 s.afterSerialInit l.cpu.mem, rip := s.afterSerialInit.setWidth 64, rsp := rsp },
        regs, l.out ++ zeroWrites⟩ ∧ rsp.setWidth 16 = 0x7C00#16 := by
  obtain ⟨deeper, pushed, top⟩ := push16_spec s.afterSerialInit l.cpu empty
  obtain ⟨rsp, returned, back⟩ := ret16_spec
    { l.cpu with mem := pushed16 s.afterSerialInit l.cpu.mem, rsp := deeper } top
  obtain ⟨regs, ran⟩ := serialInitCode_run
    (Loader.state ⟨{ l.cpu with mem := pushed16 s.afterSerialInit l.cpu.mem, rsp := deeper }, l.regs, l.out⟩) quiet
  refine ⟨rsp, regs, ?_, back⟩
  unfold serialInit
  rw [pushed]
  dsimp only
  rw [ran]
  dsimp only [Loader.put, Loader.state]
  rw [returned]
  dsimp only
  rw [read16_pushed16]

theorem serialInit_ready (s : Sector) (before l : Loader) (ready : Ready before l (driveStored s before) [])
    (quiet : byteOf al l.regs = 0#8) :
    ∃ after, serialInit s l = some after ∧ Ready before after (callMemory s before) zeroWrites := by
  obtain ⟨rsp, regs, called, top⟩ := serialInit_spec s l ready.stack quiet
  have out : l.out = before.out := ready.out.trans (List.append_nil _)
  refine ⟨_, called, ⟨?_, ready.ds, ready.ss, top, ?_, ?_⟩⟩
  · exact ⟨ready.control.cr0, ready.control.cr4, ready.control.efer, ready.control.cs⟩
  · exact congrArg (pushed16 s.afterSerialInit) ready.mem
  · rw [out]

/-- The call that reads the kernel: from the second sector of the drive on, to `0000:1000`. -/
structure ReadCall (sectors : Nat) (drive : Byte) (call : DiskCall) : Prop where
  function : byteOf ah call.regs = 0x02#8
  count : byteOf al call.regs = BitVec.ofNat 8 sectors
  cylinder : byteOf ch call.regs = 0#8
  head : byteOf dh call.regs = 0#8
  sector : byteOf cl call.regs = 2#8
  drive : byteOf dl call.regs = drive
  buffer : call.es = 0#16 ∧ wordOf bx call.regs = 0x1000#16
  stack : call.ss = 0#16 ∧ call.sp = 0x7C00#16

theorem diskRegs_read (sectors : Nat) (drive : Byte) (regs : Regs) (call : DiskCall)
    (given : call.regs = diskRegs sectors drive regs) (es : call.es = 0#16)
    (stack : call.ss = 0#16 ∧ call.sp = 0x7C00#16) : ReadCall sectors drive call := by
  have other (r q : Reg) (v : Byte) (regs : Regs) (apart : q ≠ r) := byteOf_setByte_other r q v regs apart
  have wide (r : Reg) (v : Byte) (regs : Regs) (apart : bx ≠ r &&& 3#3) := wordOf_setByte_other r bx v regs apart
  refine ⟨?_, ?_, ?_, ?_, ?_, ?_, ⟨es, ?_⟩, stack⟩ <;> rw [given] <;> unfold diskRegs
  · rw [other _ _ _ _ (by decide), other _ _ _ _ (by decide), other _ _ _ _ (by decide), other _ _ _ _ (by decide),
      other _ _ _ _ (by decide), byteOf_setByte_same]
  · rw [other _ _ _ _ (by decide), other _ _ _ _ (by decide), other _ _ _ _ (by decide), other _ _ _ _ (by decide),
      byteOf_setByte_same]
  · rw [other _ _ _ _ (by decide), other _ _ _ _ (by decide), other _ _ _ _ (by decide), byteOf_setByte_same]
  · rw [other _ _ _ _ (by decide), other _ _ _ _ (by decide), byteOf_setByte_same]
  · rw [other _ _ _ _ (by decide), byteOf_setByte_same]
  · exact byteOf_setByte_same _ _ _
  · rw [wide _ _ _ (by decide), wide _ _ _ (by decide), wide _ _ _ (by decide), wide _ _ _ (by decide),
      wide _ _ _ (by decide), wide _ _ _ (by decide), wordOf_setWord_same]

theorem loadKernel_ready (s : Sector) (sectors : Nat) (before l : Loader) (real : before.cpu.protection = false)
    (ready : Ready before l (callMemory s before) zeroWrites) :
    ∃ after, loadKernel s sectors l = some after ∧ Ready before after (callMemory s before) zeroWrites ∧
      ReadCall sectors (byteOf dl before.regs) (diskCall after) := by
  obtain ⟨_, ⟨es, loadsEs, extra⟩, _⟩ := loads_real l.cpu (ready.control.protection_eq.trans real)
  have base : l.cpu.ds.base.setWidth 64 + low s.bootDrive = low s.bootDrive := by
    rw [ready.ds]
    exact BitVec.zero_add _
  have loads : loadKernel s sectors l = some ⟨{ l.cpu with es := es },
      diskRegs sectors (byteOf dl before.regs) (setWord ax 0x0000#16 l.regs), l.out⟩ := by
    unfold loadKernel
    simp only [wordOf_zeroed, loadsEs, base, ready.mem, callMemory_drive, Option.bind_eq_bind,
      Option.bind_some]
    rfl
  refine ⟨_, loads, ⟨?_, ready.ds, ready.ss, ready.stack, ready.mem, ready.out⟩, ?_⟩
  · exact ⟨ready.control.cr0, ready.control.cr4, ready.control.efer, ready.control.cs⟩
  · exact diskRegs_read _ _ _ _ rfl extra ⟨ready.ss, ready.stack⟩

/-- The bytes of `disk_error` in real mode: a longer immediate, two additions, and the byte of
`lodsb` as part of an undefined opcode. -/
theorem diskErrorCode_run (s : Sector) (before : State) :
    ∃ after, run 4 (diskErrorCode s) before = some (.undefined after) ∧ after.out = before.out := by
  obtain ⟨esi, moved⟩ : ∃ esi, decode .narrow (diskErrorCode s) =
      some (.instr (.movDouble si esi) [0x00#8, 0x00#8, 0x00#8, 0xEB#8, 0xFE#8, 0xAC#8]) :=
    ⟨_, decode_mixed si (BitVec.ofNat 16 s.errMsg) 0xE8#8 0x02#8 _⟩
  have first : decode .narrow [0x00#8, 0x00#8, 0x00#8, 0xEB#8, 0xFE#8, 0xAC#8] =
    some (.instr (.addMemory al) [0x00#8, 0xEB#8, 0xFE#8, 0xAC#8]) := rfl
  have second : decode .narrow [0x00#8, 0xEB#8, 0xFE#8, 0xAC#8] =
    some (.instr (.addRegister 3#3 ch) [0xFE#8, 0xAC#8]) := rfl
  have last : decode .narrow [0xFE#8, 0xAC#8] = some .undefined := rfl
  refine ⟨exec (.addRegister 3#3 ch) (exec (.addMemory al) (exec (.movDouble si esi) before)), ?_, rfl⟩
  rw [run_instr _ _ _ _ _ moved (by simp), run_instr _ _ _ _ _ first (by simp), run_instr _ _ _ _ _ second (by simp),
    run_undefined _ _ _ last]

theorem loads_data (selector : BitVec 16) (d : BitVec 64) (c : Machine) (protects : c.protection = true)
    (found : c.descriptor selector = some d) (data : Descriptor.code d = false ∧ Descriptor.accessible d = true) :
    loadDs selector c = some { c with ds := Descriptor.segment selector d } ∧
      loadEs selector c = some { c with es := Descriptor.segment selector d } ∧
      loadSs selector c = some { c with ss := Descriptor.segment selector d } := by
  unfold loadDs loadEs loadSs
  rw [dataSegment_data _ _ _ d protects found data, dataSegment_data _ _ _ d protects found data,
    dataSegment_data _ _ _ d protects found data]
  exact ⟨rfl, rfl, rfl⟩

theorem loadSegments_spec (selector : BitVec 16) (d : BitVec 64) (c : Machine) (protects : c.protection = true)
    (found : c.descriptor selector = some d) (data : Descriptor.code d = false ∧ Descriptor.accessible d = true) :
    loadSegments selector c = some { c with
      ds := Descriptor.segment selector d, es := Descriptor.segment selector d,
      ss := Descriptor.segment selector d } := by
  obtain ⟨first, _⟩ := loads_data selector d c protects found data
  obtain ⟨_, second, _⟩ := loads_data selector d { c with ds := Descriptor.segment selector d } protects found data
  obtain ⟨_, _, third⟩ := loads_data selector d
    { c with ds := Descriptor.segment selector d, es := Descriptor.segment selector d } protects found data
  unfold loadSegments
  simp only [first, second, third, Option.bind_eq_bind, Option.bind_some]

theorem lgdt16_spec (s : Sector) (c : Machine) (holds : s.Holds c.mem) :
    lgdt16 s.gdtDescriptor c = { c with gdtLimit := 39#16, gdtBase := low s.gdtStart } := by
  have places := s.places
  have base : (BitVec.ofNat 32 s.gdtStart &&& 0x00FFFFFF#32).setWidth 64 = low s.gdtStart := by
    apply BitVec.eq_of_toNat_eq
    rw [low_toNat _ (by omega), BitVec.toNat_setWidth, BitVec.toNat_and, BitVec.toNat_ofNat]
    change (s.gdtStart % 2 ^ 32 &&& 2 ^ 24 - 1) % 2 ^ 64 = _
    rw [Nat.and_two_pow_sub_one_eq_mod]
    omega
  unfold lgdt16
  rw [holds.limit, holds.base, base]

theorem WordsAt.table {words : List (BitVec 64)} {start : Nat} {c : Machine} (gdt : WordsAt words start c.mem)
    (base : c.gdtBase = low start) (limit : c.gdtLimit.toNat + 1 = 8 * words.length)
    (same : ∀ a : Addr, a.toNat < start + 8 * words.length → c.translate a = some a)
    (fits : start + 8 * words.length ≤ 2 ^ 63) : c.Table words := by
  have here (i : Nat) : c.gdtBase + BitVec.ofNat 64 (8 * i) = low (start + 8 * i) := by
    rw [base]
    exact (BitVec.ofNat_add _ _).symm
  apply Table.of_identity
  · exact limit.ge
  · intro i offset inside short
    rw [here i]
    apply same
    have place := low_toNat (start + 8 * i) (by omega)
    bv_omega
  · intro i inside
    rw [here i]
    exact gdt i inside

structure Tabled (s : Sector) (m : Mem) (c : Machine) : Prop where
  limit : c.gdtLimit = 39#16
  base : c.gdtBase = low s.gdtStart
  mem : c.mem = m

theorem Tabled.table {s : Sector} {m : Mem} {c : Machine} (tabled : Tabled s m c) (holds : s.Holds m)
    (same : ∀ a : Addr, a.toNat < 0x7E00 → c.translate a = some a) : c.Table loaderGdt := by
  have places := s.places
  have gdt : WordsAt loaderGdt s.gdtStart c.mem := tabled.mem ▸ holds.gdt
  apply gdt.table tabled.base
  · rw [tabled.limit]
    rfl
  · intro a below
    have few : loaderGdt.length = 5 := rfl
    exact same a (by omega)
  · have few : loaderGdt.length = 5 := rfl
    omega

structure InProtected (s : Sector) (m : Mem) (c : Machine) : Prop where
  valid : c.Valid
  protects : c.protection = true
  unpaged : c.paging = false
  code : c.cs = Descriptor.segment code32Sel 0x00CF9A000000FFFF#64
  data : c.ds = Descriptor.segment data32Sel 0x00CF92000000FFFF#64
  tabled : Tabled s m c

theorem enterProtected_spec (s : Sector) (c : Machine) (valid : c.Valid) (real : c.protection = false)
    (holds : s.Holds c.mem) : ∃ after, enterProtected s c = some after ∧ InProtected s c.mem after := by
  obtain ⟨c1, loads, valid1, real1, tabled1⟩ : ∃ c1, lgdt16 s.gdtDescriptor c = c1 ∧ c1.Valid ∧
      c1.protection = false ∧ Tabled s c.mem c1 :=
    ⟨_, lgdt16_spec s c holds, ⟨valid.paged, valid.cached, valid.active, valid.extended⟩, real, ⟨rfl, rfl, rfl⟩⟩
  have writes := writeCr0_protect valid1 real1
  have unpaged1 := valid1.real_unpaged real1
  obtain ⟨c2, protects, valid2, protects2, unpaged2, tabled2⟩ : ∃ c2, c1.writeCr0 (c1.cr0 ||| 0x1#32) = some c2 ∧
      c2.Valid ∧ c2.protection = true ∧ c2.paging = false ∧ Tabled s c.mem c2 := by
    refine ⟨_, writes, writeCr0_valid _ valid1 writes, by simp [Machine.protection], ?_,
      ⟨tabled1.limit, tabled1.base, tabled1.mem⟩⟩
    have kept : (c1.cr0 ||| 0x1#32).getLsbD 31 = c1.cr0.getLsbD 31 := by simp
    exact kept.trans unpaged1
  have table := tabled2.table holds fun a _ => translate_unpaged unpaged2 a
  have code := table.descriptor_eq code32Sel 1 (by decide) (by decide) (by decide) (by decide)
  have jumps := farJump_code code32Sel s.protectedMode _ protects2 code (by decide) (by decide)
  have data := table.descriptor_eq data32Sel 2 (by decide) (by decide) (by decide) (by decide)
  have segments := loadSegments_spec data32Sel 0x00CF92000000FFFF#64
    { c2 with cs := Descriptor.segment code32Sel 0x00CF9A000000FFFF#64, rip := s.protectedMode } protects2 data
    ⟨by decide, by decide⟩
  have entered : enterProtected s c = some { c2 with
      cs := Descriptor.segment code32Sel 0x00CF9A000000FFFF#64, rip := s.protectedMode,
      ds := Descriptor.segment data32Sel 0x00CF92000000FFFF#64,
      es := Descriptor.segment data32Sel 0x00CF92000000FFFF#64,
      ss := Descriptor.segment data32Sel 0x00CF92000000FFFF#64, rsp := 0x7C00#64 } := by
    unfold enterProtected
    rw [loads]
    dsimp only
    rw [protects, Option.bind_eq_bind, Option.bind_some, jumps, Option.bind_some]
    exact congrArg (Option.bind · _) segments
  exact ⟨_, entered, ⟨valid2.paged, valid2.cached, valid2.active, valid2.extended⟩, protects2, unpaged2, rfl, rfl,
    tabled2.limit, tabled2.base, tabled2.mem⟩

theorem store32_apart (a v : BitVec 32) (m : Mem) (x : Addr) (apart : x.toNat < a.toNat ∨ a.toNat + 4 ≤ x.toNat) :
    store32 a v m x = m x := by
  have place : (a.setWidth 64).toNat = a.toNat := by
    rw [BitVec.toNat_setWidth, Nat.mod_eq_of_lt (by omega)]
  exact write32_outside m (a.setWidth 64) v (by omega) x (by omega)

theorem store32_outside (a v : BitVec 32) (m : Mem) (low : 0x8000 ≤ a.toNat) (high : a.toNat + 4 ≤ 0xC000) :
    SameOutside 0x8000 0x4000 m (store32 a v m) :=
  fun x outside => store32_apart a v m x (by omega)

theorem setupPaging_outside (m : Mem) : SameOutside 0x8000 0x4000 m (setupPaging m) := by
  have roots : SameOutside 0x8000 0x4000 m (setupRoots m) := by
    unfold setupRoots
    exact (((((store32_outside _ _ _ (by decide) (by decide)).trans
      (store32_outside _ _ _ (by decide) (by decide))).trans
      (store32_outside _ _ _ (by decide) (by decide))).trans
      (store32_outside _ _ _ (by decide) (by decide))).trans
      (store32_outside _ _ _ (by decide) (by decide))).trans (store32_outside _ _ _ (by decide) (by decide))
  obtain ⟨first, _⟩ := fill_entries 0xA000#64 0 setupPd (setupRoots m) (by decide) setupPd_stores
  obtain ⟨second, _⟩ :=
    fill_entries 0xB000#64 512 setupPd2 (forRange 512 setupPd (setupRoots m)) (by decide) setupPd2_stores
  exact (roots.trans (first.widen (by decide) (by decide))).trans (second.widen (by decide) (by decide))

structure InLong (c : Machine) : Prop where
  paged : c.paging = true
  long : c.longActive = true
  protects : c.protection = true
  root : c.cr3 = 0x8000#64
  entries : Entries c.mem

theorem InLong.translate {c : Machine} (inside : InLong c) (a : Addr) (below : a.toNat < 0x80000000) :
    c.translate a = some a := by
  have walks : walk c.mem c.cr3 a = some ⟨a, 2 ^ 21, true⟩ := by
    rw [inside.root]
    exact inside.entries.walk_identity a below
  exact translate_long inside.paged inside.long walks

theorem InLong.writable {c : Machine} (inside : InLong c) (a : Addr) (below : a.toNat < 0x80000000) :
    c.writable a = some a := by
  unfold Machine.writable storeTarget
  rw [if_neg (by rw [inside.paged]; decide), if_pos inside.long, inside.root, inside.entries.walk_identity a below]
  rfl

theorem buildPaging_spec (s : Sector) (m : Mem) (c : Machine) (inside : InProtected s m c) :
    buildPaging c = some { c with mem := setupPaging m } := by
  have flat : c.ds.base = 0#32 ∧ c.ds.limit = 0xFFFFFFFF#32 := by
    rw [inside.data]
    decide
  unfold buildPaging
  rw [if_pos flat, inside.tabled.mem]

structure ToLong (s : Sector) (m : Mem) (c : Machine) : Prop where
  valid : c.Valid
  protects : c.protection = true
  unpaged : c.paging = false
  narrow : c.cs.long = false
  root : c.cr3 = 0x8000#64
  tabled : Tabled s m c

theorem InProtected.rooted {s : Sector} {m : Mem} {c : Machine} (inside : InProtected s m c) :
    ToLong s (setupPaging m) (writeCr3 (pml4.setWidth 64) { c with mem := setupPaging m }) := by
  have valid := inside.valid
  refine ⟨⟨valid.paged, valid.cached, valid.active, valid.extended⟩, inside.protects, inside.unpaged, ?_, rfl,
    inside.tabled.limit, inside.tabled.base, rfl⟩
  change c.cs.long = false
  rw [inside.code]
  decide

theorem ToLong.extend {s : Sector} {m : Mem} {c : Machine} (inside : ToLong s m c) :
    ∃ after, c.writeCr4 (c.cr4 ||| 0x20#32) = some after ∧ ToLong s m after ∧ after.extension = true := by
  have writes := writeCr4_free (c.cr4 ||| 0x20#32) inside.valid inside.unpaged
  exact ⟨_, writes, ⟨writeCr4_valid _ inside.valid writes, inside.protects, inside.unpaged, inside.narrow, inside.root,
    inside.tabled.limit, inside.tabled.base, inside.tabled.mem⟩, by simp [Machine.extension]⟩

theorem ToLong.enable {s : Sector} {m : Mem} {c : Machine} (inside : ToLong s m c) (extended : c.extension = true) :
    ∃ after, c.writeEfer (c.efer ||| 0x00000100#64) = some after ∧ ToLong s m after ∧ after.extension = true ∧
      after.longEnable = true := by
  have writes := writeEfer_free (c.efer ||| 0x00000100#64) inside.valid inside.unpaged
  have enabled : (activate false (c.efer ||| 0x00000100#64)).getLsbD 8 = true := by
    rw [activate_enable]
    simp
  exact ⟨_, writes, ⟨writeEfer_valid _ inside.valid writes, inside.protects, inside.unpaged, inside.narrow, inside.root,
    inside.tabled.limit, inside.tabled.base, inside.tabled.mem⟩, extended, enabled⟩

theorem ToLong.page {s : Sector} {m : Mem} {c : Machine} (inside : ToLong s m c) (extended : c.extension = true)
    (enabled : c.longEnable = true) (entries : Entries m) :
    ∃ after, c.writeCr0 (c.cr0 ||| 0x80000000#32) = some after ∧ InLong after ∧ Tabled s m after := by
  have writes := writeCr0_page inside.valid inside.protects inside.unpaged enabled extended inside.narrow
  have protects := inside.protects
  have paged : (c.cr0 ||| 0x80000000#32).getLsbD 31 = true := by simp
  have kept : (c.cr0 ||| 0x80000000#32).getLsbD 0 = c.cr0.getLsbD 0 := by simp
  refine ⟨_, writes, ⟨paged, activate_active true c.efer, kept.trans protects, inside.root, ?_⟩, inside.tabled.limit,
    inside.tabled.base, inside.tabled.mem⟩
  rw [inside.tabled.mem]
  exact entries

theorem Sector.Holds.setupPaging {s : Sector} {m : Mem} (holds : s.Holds m) : s.Holds (setupPaging m) :=
  holds.congr fun a _ below => setupPaging_outside m a (by omega)

theorem enterLong_spec (s : Sector) (m : Mem) (c : Machine) (inside : InProtected s m c) (holds : s.Holds m) :
    ∃ after, enterLong s { c with mem := setupPaging m } = some after ∧ InLong after ∧
      after.cs = Descriptor.segment code64Sel 0x00AF9A000000FFFF#64 ∧ Tabled s (setupPaging m) after := by
  obtain ⟨c2, wrote2, inside2, extended2⟩ := inside.rooted.extend
  obtain ⟨c3, wrote3, inside3, extended3, enabled3⟩ := inside2.enable extended2
  obtain ⟨c4, wrote4, long, tabled⟩ := inside3.page extended3 enabled3 (setupPaging_entries m)
  have table := tabled.table holds.setupPaging fun a below => long.translate a (by omega)
  have code := table.descriptor_eq code64Sel 3 (by decide) (by decide) (by decide) (by decide)
  have jumps := farJump_code code64Sel s.longModeStart _ long.protects code (by decide) (by decide)
  refine ⟨{ c4 with cs := Descriptor.segment code64Sel 0x00AF9A000000FFFF#64, rip := s.longModeStart }, ?_,
    ⟨long.paged, long.long, long.protects, long.root, long.entries⟩, rfl, tabled.limit, tabled.base, tabled.mem⟩
  unfold enterLong
  dsimp only
  rw [wrote2, Option.bind_eq_bind, Option.bind_some, wrote3, Option.bind_some, wrote4, Option.bind_some]
  exact jumps

theorem enterKernel_spec (s : Sector) (m : Mem) (c : Machine) (long : InLong c) (tabled : Tabled s m c)
    (holds : s.Holds m) : ∃ after, enterKernel c = some after ∧ InLong after ∧ after.cs = c.cs ∧ after.mem = c.mem := by
  have table := tabled.table holds fun a below => long.translate a (by omega)
  have data := table.descriptor_eq data64Sel 4 (by decide) (by decide) (by decide) (by decide)
  obtain ⟨flat, flatEq⟩ : ∃ flat, Descriptor.segment data64Sel 0x00AF92000000FFFF#64 = flat := ⟨_, rfl⟩
  have segments := loadSegments_spec data64Sel 0x00AF92000000FFFF#64 c long.protects data ⟨by decide, by decide⟩
  rw [flatEq] at segments
  refine ⟨{ c with ds := flat, es := flat, ss := flat, rsp := 0x90000#64, rip := 0x1000#64 }, ?_,
    ⟨long.paged, long.long, long.protects, long.root, long.entries⟩, rfl, rfl⟩
  unfold enterKernel
  rw [segments]
  rfl

theorem InLong.wordAt {c : Machine} (long : InLong c) (a : Addr) (below : a.toNat + 8 ≤ 0x80000000) :
    c.wordAt a = some (read64 c.mem a) :=
  wordAt_identity a fun i short => long.translate (a + i) (by bv_omega)

theorem lgdt64_spec (k : Stub) (c : Machine) (long : InLong c) (holds : k.Holds c.mem)
    (below : k.gdtStart + 34 ≤ 0x80000000) :
    lgdt64 k.gdtDescriptor c = some { c with gdtLimit := 23#16, gdtBase := low k.gdtStart } := by
  have place : k.gdtDescriptor = k.gdtStart + 24 := rfl
  have here := low_toNat k.gdtDescriptor (by omega)
  have next := low_toNat (k.gdtDescriptor + 2) (by omega)
  have byte (i : Addr) (short : i.toNat < 2) : c.byteAt (low k.gdtDescriptor + i) = some (c.mem (low k.gdtDescriptor + i)) := by
    unfold byteAt
    rw [long.translate _ (by bv_omega)]
    rfl
  unfold lgdt64
  rw [byte 0#64 (by decide), byte 1#64 (by decide), long.wordAt _ (by omega), holds.base]
  have limit := holds.limit
  unfold read16 at limit
  simp only [Option.bind_eq_bind, Option.bind_some, limit]
  rfl

/-- The machine at the first instruction of `kmain`. -/
structure AtKmain (k : Stub) (c : Machine) : Prop where
  mode : c.mode = .long64
  code : c.cs = Descriptor.segment code64Sel 0x00AF9A000000FFFF#64
  data : c.ds = Descriptor.segment dataSel 0x00AF92000000FFFF#64 ∧ c.es = c.ds ∧ c.ss = c.ds
  table : c.Table kernelGdt
  rip : c.rip = k.kmain
  rsp : c.rsp = 0x8FFF8#64
  returns : c.wordAt c.rsp = some k.halt
  mapped : ∀ a : Addr, a.toNat < 0x80000000 → c.translate a = some a ∧ c.writable a = some a

theorem Entries.congr {before after : Mem} (entries : Entries before) (agree : AgreeOn 0x8000 0xC000 before after) :
    Entries after := by
  have word (a : Addr) (above : 0x8000 ≤ a.toNat) (below : a.toNat + 8 ≤ 0xC000) : read64 after a = read64 before a :=
    agree.read64_eq a above below (by decide)
  refine ⟨?_, ?_, ?_, ?_, ?_⟩
  · exact (word _ (by decide) (by decide)).trans entries.root
  · exact (word _ (by decide) (by decide)).trans entries.lower
  · exact (word _ (by decide) (by decide)).trans entries.upper
  · intro i inside
    exact (word _ (by bv_omega) (by bv_omega)).trans (entries.pages i inside)
  · intro i inside
    exact (word _ (by bv_omega) (by bv_omega)).trans (entries.morePages i inside)

theorem Stub.Holds.table {k : Stub} {c : Machine} (gdt : WordsAt kernelGdt k.gdtStart c.mem) (long : InLong c)
    (limit : c.gdtLimit = 23#16) (base : c.gdtBase = low k.gdtStart) (below : k.gdtStart + 34 ≤ 0x8FFF8) :
    c.Table kernelGdt := by
  have few : kernelGdt.length = 3 := rfl
  apply gdt.table base
  · rw [limit]
    rfl
  · intro a inside
    exact long.translate a (by omega)
  · omega

theorem InLong.mode {c : Machine} (long : InLong c) (code : c.cs = Descriptor.segment code64Sel 0x00AF9A000000FFFF#64) :
    c.mode = .long64 := by
  unfold Machine.mode
  rw [long.protects, long.long, code]
  rfl

theorem call64_spec (returnTo target : Addr) (c : Machine) (long : InLong c) (full : c.rsp = 0x90000#64) :
    call64 returnTo target c =
      some { c with rsp := 0x8FFF8#64, rip := target, mem := write64 c.mem 0x8FFF8#64 returnTo } := by
  have top : c.rsp - 8#64 = 0x8FFF8#64 := by
    rw [full]
    rfl
  unfold call64
  rw [top]
  dsimp only
  rw [long.writable 0x8FFF8#64 (by decide)]
  rfl

theorem enterKmain_spec (k : Stub) (c : Machine) (long : InLong c) (holds : k.Holds c.mem)
    (code : c.cs = Descriptor.segment code64Sel 0x00AF9A000000FFFF#64) (below : k.gdtStart + 34 ≤ 0x8FFF8) :
    ∃ after, enterKmain k c = some after ∧ AtKmain k after ∧ InLong after ∧
      after.mem = write64 c.mem 0x8FFF8#64 k.halt := by
  have loads := lgdt64_spec k c long holds (by omega)
  obtain ⟨c1, same1, long1, gdt1, limit1, base1, mem1, code1⟩ :
      ∃ c1, { c with gdtLimit := 23#16, gdtBase := low k.gdtStart } = c1 ∧ InLong c1 ∧
        WordsAt kernelGdt k.gdtStart c1.mem ∧ c1.gdtLimit = 23#16 ∧ c1.gdtBase = low k.gdtStart ∧ c1.mem = c.mem ∧
        c1.cs = c.cs :=
    ⟨{ c with gdtLimit := 23#16, gdtBase := low k.gdtStart }, rfl,
      ⟨long.paged, long.long, long.protects, long.root, long.entries⟩, holds.gdt, rfl, rfl, rfl, rfl⟩
  have data := (Stub.Holds.table gdt1 long1 limit1 base1 below).descriptor_eq dataSel 2 (by decide) (by decide) (by decide)
    (by decide)
  have segments := loadSegments_spec dataSel 0x00AF92000000FFFF#64 c1 long1.protects data ⟨by decide, by decide⟩
  obtain ⟨flat, flatEq⟩ : ∃ flat, Descriptor.segment dataSel 0x00AF92000000FFFF#64 = flat := ⟨_, rfl⟩
  rw [flatEq] at segments
  have called := call64_spec k.halt k.kmain { c1 with ds := flat, es := flat, ss := flat, rsp := 0x90000#64 }
    ⟨long1.paged, long1.long, long1.protects, long1.root, long1.entries⟩ rfl
  have agree : AgreeOn 0 0x8FFF8 c1.mem (write64 c1.mem 0x8FFF8#64 k.halt) := by
    intro a _ before
    exact write64_outside _ _ _ (by decide) a (by change ¬(0x8FFF8 ≤ _ ∧ _); omega)
  have final : InLong { c1 with
      ds := flat, es := flat, ss := flat, rsp := 0x8FFF8#64, rip := k.kmain,
      mem := write64 c1.mem 0x8FFF8#64 k.halt } :=
    ⟨long1.paged, long1.long, long1.protects, long1.root, long1.entries.congr (agree.narrow (by decide) (by decide))⟩
  have few : kernelGdt.length = 3 := rfl
  refine ⟨_, ?_, ⟨final.mode (code1.trans code), code1.trans code, ⟨flatEq.symm, rfl, rfl⟩,
    Stub.Holds.table (gdt1.congr agree (Nat.zero_le _) (by omega) (by decide)) final limit1 base1 below, rfl, rfl, ?_,
    fun a inside => ⟨final.translate a inside, final.writable a inside⟩⟩, final, ?_⟩
  · unfold enterKmain
    rw [loads, same1, Option.bind_eq_bind, Option.bind_some, segments]
    exact called
  · rw [final.wordAt _ (show (0x8FFF8#64).toNat + 8 ≤ 0x80000000 by decide)]
    exact congrArg some (read64_write64_same _ _ _)
  · exact congrArg (write64 · 0x8FFF8#64 k.halt) mem1

/-- The part behind the read, from real mode on: the memory changes in the paging structures and
by the return address on the stack. -/
theorem loaded_spec (s : Sector) (k : Stub) (c : Machine) (valid : c.Valid) (real : c.protection = false)
    (sector : s.Holds c.mem) (stub : k.Holds c.mem) (below : k.gdtStart + 34 ≤ 0x7C00) :
    ∃ after, loaded s k c = some after ∧ AtKmain k after ∧ InLong after ∧
      after.mem = write64 (setupPaging c.mem) 0x8FFF8#64 k.halt := by
  obtain ⟨c1, protect, inside1⟩ := enterProtected_spec s c valid real sector
  have built := buildPaging_spec s c.mem c1 inside1
  obtain ⟨c2, longMode, long2, code2, tabled2⟩ := enterLong_spec s c.mem c1 inside1 sector
  obtain ⟨c3, entered, long3, code3, mem3⟩ := enterKernel_spec s (setupPaging c.mem) c2 long2 tabled2 sector.setupPaging
  have paging : c3.mem = setupPaging c.mem := mem3.trans tabled2.mem
  have kept : AgreeOn 0 0x8000 c.mem c3.mem := by
    rw [paging]
    exact fun a _ before => setupPaging_outside c.mem a (by omega)
  obtain ⟨c4, called, atKmain, long4, mem4⟩ := enterKmain_spec k c3 long3
    (stub.congr kept (Nat.zero_le _) (by omega) (by decide)) (code3.trans code2) (by omega)
  refine ⟨c4, ?_, atKmain, long4, ?_⟩
  · unfold loaded
    rw [protect, Option.bind_eq_bind, Option.bind_some, built, Option.bind_some, longMode, Option.bind_some, entered,
      Option.bind_some]
    exact called
  · rw [mem4, paging]

theorem handed_agree (halt : Addr) (m : Mem) : AgreeOn 0 0x8000 m (write64 (setupPaging m) 0x8FFF8#64 halt) := by
  intro a _ before
  have stack := write64_outside (setupPaging m) 0x8FFF8#64 halt (by decide) a (by change ¬(0x8FFF8 ≤ _ ∧ _); omega)
  calc
    _ = setupPaging m a := stack
    _ = m a := setupPaging_outside m a (by omega)

/-- What is relied on of the BIOS in the one call: a read that succeeds delivers the drive from its
second sector on and spares the boot sector, if the buffer ends below the stack. -/
structure Documented (int13 : Int13) (disk : Byte → Nat → Byte) (depth : Nat) : Prop where
  read : ∀ sectors drive call m, ReadCall sectors drive call → 0x1000 + 512 * sectors + depth ≤ 0x7C00 →
    (int13 call m).carry = false → ∀ i, i < 512 * sectors →
      (int13 call m).mem (low (0x1000 + i)) = disk drive (512 + i)
  kept : ∀ sectors drive call m, ReadCall sectors drive call → 0x1000 + 512 * sectors + depth ≤ 0x7C00 →
    (int13 call m).carry = false → AgreeOn 0x7C00 0x7E00 m (int13 call m).mem

def imageMemory (image : Nat → Byte) : Mem := fun a => image (a.toNat - 0x1000)

structure Stub.Linked (k : Stub) (size : Nat) (image : Nat → Byte) : Prop where
  holds : k.Holds (imageMemory image)
  above : 0x1000 ≤ k.gdtStart
  below : k.gdtStart + 34 ≤ 0x1000 + size

/-- The two ends of a boot: the kernel with all of its image, or the undefined opcode in real mode. -/
def Ends (k : Stub) (size : Nat) (image : Nat → Byte) (before : Loader) (failed : Bool) : Outcome → Prop
  | .kmain after => failed = false ∧ after.out = before.out ++ zeroWrites ∧ AtKmain k after.cpu ∧
      ∀ i, i < size → after.cpu.byteAt (low (0x1000 + i)) = some (image i)
  | .undefined after => failed = true ∧ after.out = before.out ++ zeroWrites ∧ after.cpu.mode = .real

theorem diskError_spec (s : Sector) (l : Loader) :
    ∃ after, diskError s l = some (.undefined after) ∧ after.out = l.out ∧ after.cpu.cr0 = l.cpu.cr0 := by
  obtain ⟨after, ran, out⟩ := diskErrorCode_run s l.state
  refine ⟨l.put after, ?_, out, rfl⟩
  unfold diskError
  rw [ran]

/-- Every boot runs without a fault up to the read, and then ends as the BIOS has answered. -/
theorem bootloader_ends (s : Sector) (k : Stub) (sectors : Nat) (int13 : Int13) (disk : Byte → Nat → Byte) (depth : Nat)
    (l : Loader) (valid : l.cpu.Valid) (real : l.cpu.protection = false) (held : s.Holds l.cpu.mem)
    (documented : Documented int13 disk depth) (fits : 0x1000 + 512 * sectors + depth ≤ 0x7C00)
    (linked : k.Linked (512 * sectors) fun i => disk (byteOf dl l.regs) (512 + i)) :
    ∃ call outcome, ReadCall sectors (byteOf dl l.regs) call ∧ bootloader s k sectors int13 l = some outcome ∧
      Ends k (512 * sectors) (fun i => disk (byteOf dl l.regs) (512 + i)) l (int13 call (callMemory s l)).carry
        outcome := by
  obtain ⟨l1, started, ready1, quiet⟩ := start_ready s l real
  obtain ⟨l2, called, ready2⟩ := serialInit_ready s l l1 ready1 quiet
  obtain ⟨l3, moved, ready, read⟩ := loadKernel_ready s sectors l l2 real ready2
  have begun : bootloader s k sectors int13 l =
      (let reply := int13 (diskCall l3) (callMemory s l)
      let l : Loader := ⟨{ l3.cpu with mem := reply.mem }, reply.regs, l3.out⟩
      if reply.carry then diskError s l else (loaded s k l.cpu).bind fun cpu => some (.kmain { l with cpu := cpu })) := by
    unfold bootloader
    rw [started, Option.bind_eq_bind, Option.bind_some, called, Option.bind_some, moved, Option.bind_some, ← ready.mem]
    rfl
  have kept := documented.kept sectors _ _ (callMemory s l) read fits
  have delivered := documented.read sectors _ _ (callMemory s l) read fits
  generalize replied : int13 (diskCall l3) (callMemory s l) = reply at begun kept delivered
  refine ⟨diskCall l3, ?_⟩
  rw [replied]
  dsimp only at begun
  cases carry : reply.carry with
  | true =>
    rw [carry, if_pos rfl] at begun
    obtain ⟨after, failed, out, control⟩ := diskError_spec s ⟨{ l3.cpu with mem := reply.mem }, reply.regs, l3.out⟩
    refine ⟨_, read, begun.trans failed, rfl, out.trans ready.out, ?_⟩
    apply if_pos
    unfold Machine.protection
    rw [control, ready.control.cr0]
    exact real
  | false =>
    rw [carry, if_neg Bool.false_ne_true] at begun
    have places := s.places
    have sector : s.Holds reply.mem :=
      held.congr ((callMemory_agree s l).trans ((kept carry).narrow (by omega) (Nat.le_refl _)))
    have image : AgreeOn 0x1000 (0x1000 + 512 * sectors)
        (imageMemory fun i => disk (byteOf dl l.regs) (512 + i)) reply.mem := by
      intro a above below
      have byte := delivered carry (a.toNat - 0x1000) (by omega)
      have place : low (0x1000 + (a.toNat - 0x1000)) = a := by
        unfold low
        rw [Nat.add_sub_cancel' above, BitVec.ofNat_toNat, BitVec.setWidth_eq]
      rw [place] at byte
      exact byte
    have stub : k.Holds reply.mem := linked.holds.congr image linked.above linked.below (by omega)
    have linkedBelow := linked.below
    obtain ⟨after, ran, atKmain, _, mem⟩ := loaded_spec s k { l3.cpu with mem := reply.mem }
      (SameControl.valid ⟨ready.control.cr0, ready.control.cr4, ready.control.efer, ready.control.cs⟩ valid)
      (ready.control.protection_eq.trans real) sector stub (by omega)
    refine ⟨.kmain { cpu := after, regs := reply.regs, out := l3.out }, read, ?_, rfl, ready.out, atKmain, ?_⟩
    · rw [begun, ran]
      rfl
    · intro i inside
      have place := low_toNat (0x1000 + i) (by omega)
      have mapped := (atKmain.mapped (low (0x1000 + i)) (by omega)).1
      unfold byteAt
      rw [mapped, Option.map_some, mem, handed_agree k.halt reply.mem _ (Nat.zero_le _) (by omega)]
      exact congrArg some (delivered carry i inside)

def smallSector : Sector where
  code := 0xD0
  protectedMode := 0x7C3A#64
  longModeStart := 0x7C99#64
  afterSerialInit := 0x7C0E#16
  fits := by decide

def smallStub : Stub := ⟨0x1028, 0x101F#64, 0x1050#64⟩

def smallDisk (_ : Byte) (n : Nat) : Byte :=
  if n < 0x228 then 0#8
  else ([0x00#8, 0x00#8, 0x00#8, 0x00#8, 0x00#8, 0x00#8, 0x00#8, 0x00#8,
    0xFF#8, 0xFF#8, 0x00#8, 0x00#8, 0x00#8, 0x9A#8, 0xAF#8, 0x00#8,
    0xFF#8, 0xFF#8, 0x00#8, 0x00#8, 0x00#8, 0x92#8, 0xAF#8, 0x00#8,
    0x17#8, 0x00#8, 0x28#8, 0x10#8].getD (n - 0x228) 0#8)

/-- A BIOS that copies the sectors and touches nothing else. -/
def plainInt13 (disk : Byte → Nat → Byte) : Int13 := fun call m =>
  ⟨false, call.regs, fun a =>
    if 0x1000 ≤ a.toNat ∧ a.toNat < 0x1000 + 512 * (byteOf al call.regs).toNat then
      disk (byteOf dl call.regs) (512 + (a.toNat - 0x1000))
    else m a⟩

theorem plainInt13_documented (disk : Byte → Nat → Byte) (depth : Nat) : Documented (plainInt13 disk) disk depth := by
  constructor
  · intro sectors drive call m given fits _ i inside
    have count : (byteOf al call.regs).toNat = sectors := by
      rw [given.count, BitVec.toNat_ofNat]
      omega
    have place := low_toNat (0x1000 + i) (by omega)
    unfold plainInt13
    dsimp only
    rw [count, place, if_pos (by omega), given.drive, Nat.add_sub_cancel_left]
  · intro sectors drive call m given fits _ a above below
    have count : (byteOf al call.regs).toNat = sectors := by
      rw [given.count, BitVec.toNat_ofNat]
      omega
    apply if_neg
    rw [count]
    omega

/-- The machine as a BIOS leaves it, with the data of the boot sector. -/
def powerOn : Loader where
  cpu := {
    cr0 := 0x10#32, cr3 := 0#64, cr4 := 0#32, efer := 0#64, gdtBase := 0#64, gdtLimit := 0xFFFF#16,
    cs := ⟨0#16, 0#32, 0xFFFF#32, false, false⟩, ds := ⟨0x40#16, 0x400#32, 0xFFFF#32, false, false⟩,
    es := ⟨0#16, 0#32, 0xFFFF#32, false, false⟩, ss := ⟨0#16, 0#32, 0xFFFF#32, false, false⟩,
    rip := 0x7C00#64, rsp := 0x6F00#64,
    mem := holding [(low smallSector.gdtStart,
      [0x00#8, 0x00#8, 0x00#8, 0x00#8, 0x00#8, 0x00#8, 0x00#8, 0x00#8,
        0xFF#8, 0xFF#8, 0x00#8, 0x00#8, 0x00#8, 0x9A#8, 0xCF#8, 0x00#8,
        0xFF#8, 0xFF#8, 0x00#8, 0x00#8, 0x00#8, 0x92#8, 0xCF#8, 0x00#8,
        0xFF#8, 0xFF#8, 0x00#8, 0x00#8, 0x00#8, 0x9A#8, 0xAF#8, 0x00#8,
        0xFF#8, 0xFF#8, 0x00#8, 0x00#8, 0x00#8, 0x92#8, 0xAF#8, 0x00#8,
        0x27#8, 0x00#8, 0xE8#8, 0x7C#8, 0x00#8, 0x00#8])] }
  regs := fun r => if r = dx then 0x80#32 else 0xAA55#32
  out := []

theorem powerOn_ends : ∃ after, bootloader smallSector smallStub 2 (plainInt13 smallDisk) powerOn = some (.kmain after) ∧
    after.out = zeroWrites ∧ AtKmain smallStub after.cpu := by
  have valid : powerOn.cpu.Valid := ⟨by decide, by decide, by decide, by decide⟩
  have held : smallSector.Holds powerOn.cpu.mem := ⟨by unfold WordsAt; decide +kernel, by decide +kernel, by decide +kernel⟩
  have linked : smallStub.Linked (512 * 2) fun i => smallDisk (byteOf dl powerOn.regs) (512 + i) :=
    ⟨⟨by unfold WordsAt; decide +kernel, by decide +kernel, by decide +kernel⟩, by decide, by decide⟩
  obtain ⟨_, outcome, _, ran, ends⟩ := bootloader_ends smallSector smallStub 2 (plainInt13 smallDisk) smallDisk 512
    powerOn valid rfl held (plainInt13_documented smallDisk 512) (by decide) linked
  cases outcome with
  | kmain after => exact ⟨after, ran, ends.2.1, ends.2.2.1⟩
  | undefined after => exact absurd ends.1 Bool.false_ne_true

end LifeOS.Boot
