import LifeOS.Library.Paging

/-!
The operating modes of an x86 processor: the control registers, the segment registers with
the descriptors cached in them, and the instructions that change the mode. An instruction
that faults leaves no result. Paging without long mode is not part of the model, and a
linear address has no translation there.
-/

namespace LifeOS.Library.Modes
open LifeOS.Library.Memory LifeOS.Library.Paging

/-- A segment register with what the processor keeps of the descriptor. -/
structure Segment where
  selector : BitVec 16
  base : BitVec 32
  limit : BitVec 32
  big : Bool
  long : Bool
  deriving DecidableEq

namespace Descriptor

def present (d : BitVec 64) : Bool := d.getLsbD 47

/-- Not a descriptor of the system. -/
def application (d : BitVec 64) : Bool := d.getLsbD 44

def code (d : BitVec 64) : Bool := d.getLsbD 43

/-- Writable as a data segment, readable as a code segment. -/
def accessible (d : BitVec 64) : Bool := d.getLsbD 41

def privilege (d : BitVec 64) : BitVec 2 := d.extractLsb' 45 2

def long (d : BitVec 64) : Bool := d.getLsbD 53

def big (d : BitVec 64) : Bool := d.getLsbD 54

def base (d : BitVec 64) : BitVec 32 := d.extractLsb' 56 8 ++ d.extractLsb' 16 24

/-- In pages with the granularity bit, in bytes without it. -/
def limit (d : BitVec 64) : BitVec 32 :=
  let units := d.extractLsb' 48 4 ++ d.extractLsb' 0 16
  if d.getLsbD 55 then units ++ 0xFFF#12 else units.setWidth 32

def segment (selector : BitVec 16) (d : BitVec 64) : Segment := ⟨selector, base d, limit d, big d, long d⟩

end Descriptor

structure Machine where
  cr0 : BitVec 32
  cr3 : Addr
  cr4 : BitVec 32
  efer : BitVec 64
  gdtBase : Addr
  gdtLimit : BitVec 16
  cs : Segment
  ds : Segment
  es : Segment
  ss : Segment
  rip : Addr
  rsp : BitVec 64
  mem : Mem

inductive Mode where
  | real
  | protected16
  | protected32
  | compatibility
  | long64
  deriving DecidableEq

namespace Machine

def protection (c : Machine) : Bool := c.cr0.getLsbD 0

def notWriteThrough (c : Machine) : Bool := c.cr0.getLsbD 29

def cacheDisable (c : Machine) : Bool := c.cr0.getLsbD 30

def paging (c : Machine) : Bool := c.cr0.getLsbD 31

def extension (c : Machine) : Bool := c.cr4.getLsbD 5

def longEnable (c : Machine) : Bool := c.efer.getLsbD 8

def longActive (c : Machine) : Bool := c.efer.getLsbD 10

def mode (c : Machine) : Mode :=
  if c.protection = false then .real
  else if c.longActive then if c.cs.long then .long64 else .compatibility
  else if c.cs.big then .protected32
  else .protected16

/-- The bit of `EFER` that only the processor sets. -/
def activate (active : Bool) (efer : BitVec 64) : BitVec 64 :=
  if active then efer ||| 0x400#64 else efer &&& ~~~0x400#64

/-- `mov cr0, v`. Paging starts long mode when it is enabled, and ends it. -/
def writeCr0 (v : BitVec 32) (c : Machine) : Option Machine :=
  if v.getLsbD 31 && !v.getLsbD 0 then none
  else if v.getLsbD 29 && !v.getLsbD 30 then none
  else if v.getLsbD 31 == c.paging then some { c with cr0 := v }
  else if v.getLsbD 31 then
    if c.longEnable && (!c.extension || c.cs.long) then none
    else some { c with cr0 := v, efer := activate c.longEnable c.efer }
  else if c.longActive && c.cs.long then none
  else some { c with cr0 := v, efer := activate false c.efer }

def writeCr4 (v : BitVec 32) (c : Machine) : Option Machine :=
  if c.longActive && !v.getLsbD 5 then none else some { c with cr4 := v }

def writeEfer (v : BitVec 64) (c : Machine) : Option Machine :=
  if c.paging && v.getLsbD 8 != c.longEnable then none
  else some { c with efer := activate c.longActive v }

def writeCr3 (v : Addr) (c : Machine) : Machine := { c with cr3 := v }

def translate (c : Machine) (a : Addr) : Option Addr :=
  if c.paging = false then some a
  else if c.longActive then (walk c.mem c.cr3 a).map Translation.phys
  else none

def byteAt (c : Machine) (a : Addr) : Option (BitVec 8) := (c.translate a).map c.mem

def wordAt (c : Machine) (a : Addr) : Option (BitVec 64) := do
  let b0 ← c.byteAt (a + 0#64)
  let b1 ← c.byteAt (a + 1#64)
  let b2 ← c.byteAt (a + 2#64)
  let b3 ← c.byteAt (a + 3#64)
  let b4 ← c.byteAt (a + 4#64)
  let b5 ← c.byteAt (a + 5#64)
  let b6 ← c.byteAt (a + 6#64)
  let b7 ← c.byteAt (a + 7#64)
  return b7 ++ b6 ++ b5 ++ b4 ++ b3 ++ b2 ++ b1 ++ b0

/-- The physical address of a word on one page that is stored to. -/
def writable (c : Machine) (a : Addr) : Option Addr :=
  if c.paging = false then some a
  else if c.longActive then storeTarget c.mem c.cr3 a
  else none

/-- The descriptor of a selector into the global table, at the highest privilege. The null selector
and those that ask for less are not part of the model. -/
def descriptor (c : Machine) (selector : BitVec 16) : Option (BitVec 64) :=
  if selector.toNat % 8 = 0 ∧ selector.toNat ≠ 0 ∧ selector.toNat + 7 ≤ c.gdtLimit.toNat then
    (c.wordAt (c.gdtBase + selector.setWidth 64)).bind fun d =>
      if Descriptor.present d && Descriptor.application d && Descriptor.privilege d == 0#2 then some d else none
  else none

def farJump (selector : BitVec 16) (target : Addr) (c : Machine) : Option Machine :=
  if c.protection = false then
    some { c with cs := { c.cs with selector := selector, base := selector.setWidth 32 <<< 4 }, rip := target }
  else (c.descriptor selector).bind fun d =>
    if Descriptor.code d && !(c.longActive && Descriptor.long d && Descriptor.big d) then
      some { c with cs := Descriptor.segment selector d, rip := target }
    else none

/-- What `mov` loads into a data segment register, or into `ss`. -/
def dataSegment (selector : BitVec 16) (stack : Bool) (old : Segment) (c : Machine) : Option Segment :=
  if c.protection = false then some { old with selector := selector, base := selector.setWidth 32 <<< 4 }
  else (c.descriptor selector).bind fun d =>
    if if stack then !Descriptor.code d && Descriptor.accessible d else !Descriptor.code d || Descriptor.accessible d then
      some (Descriptor.segment selector d)
    else none

/-- What every machine keeps to, whatever instructions it ran. -/
structure Valid (c : Machine) : Prop where
  paged : c.paging = true → c.protection = true
  cached : c.notWriteThrough = true → c.cacheDisable = true
  active : c.longActive = (c.paging && c.longEnable)
  extended : c.longActive = true → c.extension = true

theorem activate_active (active : Bool) (efer : BitVec 64) : (activate active efer).getLsbD 10 = active := by
  unfold activate
  cases active <;> simp

theorem activate_enable (active : Bool) (efer : BitVec 64) : (activate active efer).getLsbD 8 = efer.getLsbD 8 := by
  unfold activate
  cases active <;> simp

variable {c after : Machine}

theorem implied {a b : Bool} (refused : ¬(a && !b) = true) (holds : a = true) : b = true := by
  simpa [holds] using refused

theorem writeCr0_valid (v : BitVec 32) (valid : c.Valid) (ran : writeCr0 v c = some after) : after.Valid := by
  unfold writeCr0 at ran
  split_ifs at ran with unprotected uncached same enables refused leaves
  · rw [← Option.some.inj ran]
    refine ⟨implied unprotected, implied uncached, ?_, valid.extended⟩
    change c.longActive = (v.getLsbD 31 && c.longEnable)
    rw [eq_of_beq same, valid.active]
  · rw [← Option.some.inj ran]
    refine ⟨implied unprotected, implied uncached, ?_, ?_⟩
    · change (activate c.longEnable c.efer).getLsbD 10 = (v.getLsbD 31 && (activate c.longEnable c.efer).getLsbD 8)
      rw [activate_active, activate_enable, enables]
      rfl
    · intro active
      have enabled : c.longEnable = true := (activate_active _ _).symm.trans active
      rw [enabled] at refused
      simp at refused
      exact refused.1
  · rw [← Option.some.inj ran]
    refine ⟨implied unprotected, implied uncached, ?_, ?_⟩
    · change (activate false c.efer).getLsbD 10 = (v.getLsbD 31 && (activate false c.efer).getLsbD 8)
      rw [activate_active, Bool.eq_false_of_not_eq_true enables]
      rfl
    · intro active
      exact absurd ((activate_active false c.efer).symm.trans active) Bool.false_ne_true

theorem writeCr4_valid (v : BitVec 32) (valid : c.Valid) (ran : writeCr4 v c = some after) : after.Valid := by
  unfold writeCr4 at ran
  split_ifs at ran with refused
  rw [← Option.some.inj ran]
  exact ⟨valid.paged, valid.cached, valid.active, implied refused⟩

theorem writeEfer_valid (v : BitVec 64) (valid : c.Valid) (ran : writeEfer v c = some after) : after.Valid := by
  have active := valid.active
  unfold writeEfer at ran
  split_ifs at ran with refused
  rw [← Option.some.inj ran]
  refine ⟨valid.paged, valid.cached, ?_, ?_⟩
  · change (activate c.longActive v).getLsbD 10 = (c.paging && (activate c.longActive v).getLsbD 8)
    rw [activate_active, activate_enable, active]
    cases paging : c.paging with
    | false => rfl
    | true =>
      rw [paging] at refused
      have same : v.getLsbD 8 = c.longEnable := by simpa using refused
      exact same.symm
  · intro long
    exact valid.extended ((activate_active _ _).symm.trans long)

theorem Valid.real_unpaged (valid : c.Valid) (real : c.protection = false) : c.paging = false := by
  cases paging : c.paging with
  | false => rfl
  | true => exact absurd ((valid.paged paging).symm.trans real) Bool.false_ne_true.symm

/-- Protection can be turned on in any valid state of real mode. -/
theorem writeCr0_protect (valid : c.Valid) (real : c.protection = false) :
    writeCr0 (c.cr0 ||| 0x1#32) c = some { c with cr0 := c.cr0 ||| 0x1#32 } := by
  have unpaged := valid.real_unpaged real
  have set : (c.cr0 ||| 0x1#32).getLsbD 0 = true := by simp
  have cache : (c.cr0 ||| 0x1#32).getLsbD 29 = c.notWriteThrough := by simp [notWriteThrough]
  have disable : (c.cr0 ||| 0x1#32).getLsbD 30 = c.cacheDisable := by simp [cacheDisable]
  have page : (c.cr0 ||| 0x1#32).getLsbD 31 = c.paging := by simp [paging]
  have cached := valid.cached
  unfold writeCr0
  rw [set, cache, disable, page, unpaged, if_neg (by decide), if_neg (by simpa using cached), if_pos (by decide)]

theorem Valid.unpaged_inactive (valid : c.Valid) (unpaged : c.paging = false) : c.longActive = false := by
  rw [valid.active, unpaged]
  rfl

theorem writeCr4_free (v : BitVec 32) (valid : c.Valid) (unpaged : c.paging = false) :
    writeCr4 v c = some { c with cr4 := v } := by
  unfold writeCr4
  rw [valid.unpaged_inactive unpaged]
  rfl

theorem writeEfer_free (v : BitVec 64) (valid : c.Valid) (unpaged : c.paging = false) :
    writeEfer v c = some { c with efer := activate false v } := by
  unfold writeEfer
  rw [unpaged, valid.unpaged_inactive unpaged]
  rfl

/-- Paging starts long mode where it is enabled, from a code segment that is not a 64-bit one. -/
theorem writeCr0_page (valid : c.Valid) (protects : c.protection = true) (unpaged : c.paging = false)
    (enabled : c.longEnable = true) (extended : c.extension = true) (narrow : c.cs.long = false) :
    writeCr0 (c.cr0 ||| 0x80000000#32) c =
      some { c with cr0 := c.cr0 ||| 0x80000000#32, efer := activate true c.efer } := by
  have set : (c.cr0 ||| 0x80000000#32).getLsbD 31 = true := by simp
  have cache : (c.cr0 ||| 0x80000000#32).getLsbD 29 = c.notWriteThrough := by simp [notWriteThrough]
  have disable : (c.cr0 ||| 0x80000000#32).getLsbD 30 = c.cacheDisable := by simp [cacheDisable]
  have protect : (c.cr0 ||| 0x80000000#32).getLsbD 0 = c.protection := by simp [protection]
  have cached := valid.cached
  unfold writeCr0
  rw [set, cache, disable, protect, protects, unpaged, enabled, extended, narrow, if_neg (by decide),
    if_neg (by simpa using cached), if_neg (by decide), if_pos rfl, if_neg (by decide)]

theorem wordAt_identity (a : Addr) (same : ∀ i : Addr, i.toNat < 8 → c.translate (a + i) = some (a + i)) :
    c.wordAt a = some (read64 c.mem a) := by
  have byte (i : Addr) (inside : i.toNat < 8) : c.byteAt (a + i) = some (c.mem (a + i)) := by
    rw [byteAt, same i inside]
    rfl
  unfold wordAt
  rw [byte 0#64 (by decide), byte 1#64 (by decide), byte 2#64 (by decide), byte 3#64 (by decide),
    byte 4#64 (by decide), byte 5#64 (by decide), byte 6#64 (by decide), byte 7#64 (by decide)]
  rfl

theorem translate_unpaged (unpaged : c.paging = false) (a : Addr) : c.translate a = some a := if_pos unpaged

theorem translate_long (paged : c.paging = true) (long : c.longActive = true) {a : Addr} {size : Nat}
    {writable : Bool} (walks : walk c.mem c.cr3 a = some ⟨a, size, writable⟩) : c.translate a = some a := by
  unfold translate
  rw [if_neg (by rw [paged]; decide), if_pos long, walks]
  rfl

structure Table (c : Machine) (words : List (BitVec 64)) : Prop where
  reach : 8 * words.length ≤ c.gdtLimit.toNat + 1
  word : ∀ i (inside : i < words.length), c.wordAt (c.gdtBase + BitVec.ofNat 64 (8 * i)) = some words[i]

def Usable (d : BitVec 64) : Bool :=
  Descriptor.present d && Descriptor.application d && Descriptor.privilege d == 0#2

theorem Table.descriptor_eq {words : List (BitVec 64)} (table : c.Table words) (selector : BitVec 16) (i : Nat)
    (inside : i < words.length) (place : selector.toNat = 8 * i) (positive : 0 < i)
    (usable : Usable words[i] = true) : c.descriptor selector = some words[i] := by
  have reach := table.reach
  have offset : selector.setWidth 64 = BitVec.ofNat 64 (8 * i) := by
    apply BitVec.eq_of_toNat_eq
    have small := selector.isLt
    rw [BitVec.toNat_setWidth, BitVec.toNat_ofNat, place]
  unfold descriptor
  rw [if_pos (by omega), offset, table.word i inside]
  exact if_pos usable

theorem Table.of_identity {words : List (BitVec 64)} (reach : 8 * words.length ≤ c.gdtLimit.toNat + 1)
    (same : ∀ i (offset : Addr), i < words.length → offset.toNat < 8 →
      c.translate (c.gdtBase + BitVec.ofNat 64 (8 * i) + offset) = some (c.gdtBase + BitVec.ofNat 64 (8 * i) + offset))
    (held : ∀ i (inside : i < words.length), read64 c.mem (c.gdtBase + BitVec.ofNat 64 (8 * i)) = words[i]) :
    c.Table words := by
  refine ⟨reach, ?_⟩
  intro i inside
  rw [← held i inside]
  exact wordAt_identity _ fun offset short => same i offset inside short

theorem farJump_code (selector : BitVec 16) (target : Addr) (d : BitVec 64) (protects : c.protection = true)
    (found : c.descriptor selector = some d) (code : Descriptor.code d = true)
    (width : (Descriptor.long d && Descriptor.big d) = false) :
    farJump selector target c = some { c with cs := Descriptor.segment selector d, rip := target } := by
  unfold farJump
  rw [if_neg (by rw [protects]; decide), found, Option.bind_some, Bool.and_assoc, width, code]
  simp

theorem dataSegment_data (selector : BitVec 16) (stack : Bool) (old : Segment) (d : BitVec 64)
    (protects : c.protection = true) (found : c.descriptor selector = some d)
    (data : Descriptor.code d = false ∧ Descriptor.accessible d = true) :
    dataSegment selector stack old c = some (Descriptor.segment selector d) := by
  unfold dataSegment
  rw [if_neg (by rw [protects]; decide), found, Option.bind_some, data.1, data.2]
  cases stack <;> rfl

theorem dataSegment_real (selector : BitVec 16) (stack : Bool) (old : Segment) (real : c.protection = false) :
    dataSegment selector stack old c = some { old with selector := selector, base := selector.setWidth 32 <<< 4 } :=
  if_pos real

structure SameControl (before after : Machine) : Prop where
  cr0 : after.cr0 = before.cr0
  cr4 : after.cr4 = before.cr4
  efer : after.efer = before.efer
  cs : after.cs = before.cs

theorem SameControl.protection_eq (same : SameControl c after) : after.protection = c.protection := by
  unfold protection
  rw [same.cr0]

theorem SameControl.valid (same : SameControl c after) (valid : c.Valid) : after.Valid := by
  obtain ⟨cr0, cr4, efer, _⟩ := same
  refine ⟨?_, ?_, ?_, ?_⟩
  · unfold paging protection
    rw [cr0]
    exact valid.paged
  · unfold notWriteThrough cacheDisable
    rw [cr0]
    exact valid.cached
  · unfold longActive paging longEnable
    rw [cr0, efer]
    exact valid.active
  · unfold longActive extension
    rw [cr4, efer]
    exact valid.extended

end Machine

end LifeOS.Library.Modes
