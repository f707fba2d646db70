import LifeOS.Library.Memory

/-!
Four-level translation of addresses in 64-bit mode. Each level of a table selects nine
bits of the address, and an entry leads to a table of the next level or to a large page.
-/

namespace LifeOS.Library.Paging
open LifeOS.Library.Memory

def Present (entry : BitVec 64) : Prop := entry.getLsbD 0 = true

def Writable (entry : BitVec 64) : Prop := entry.getLsbD 1 = true

/-- The bit `PS`: the entry maps a page at a level above the last. -/
def Large (entry : BitVec 64) : Prop := entry.getLsbD 7 = true

instance (entry : BitVec 64) : Decidable (Present entry) := inferInstanceAs (Decidable (_ = _))
instance (entry : BitVec 64) : Decidable (Writable entry) := inferInstanceAs (Decidable (_ = _))
instance (entry : BitVec 64) : Decidable (Large entry) := inferInstanceAs (Decidable (_ = _))

/-- The size of what one entry of a level maps; the last level is zero. -/
def span (level : Nat) : Nat := 2 ^ (12 + 9 * level)

def index (level : Nat) (va : Addr) : Nat := va.toNat / span level % 512

def entryAt (m : Mem) (table : Addr) (level : Nat) (va : Addr) : BitVec 64 :=
  read64 m (table + BitVec.ofNat 64 (8 * index level va))

/-- The address in an entry, its low bits up to the given size cleared. -/
def base (size : Nat) (entry : BitVec 64) : Nat := entry.toNat % 2 ^ 52 / size * size

/-- The bits of a large page's address below its size, other than the flags, are reserved. -/
def reserved (size : Nat) (entry : BitVec 64) : Nat := entry.toNat % size / 2 ^ 13

/-- The physical address with the size of the page and whether every level allows writing. -/
structure Translation where
  phys : Addr
  size : Nat
  writable : Bool

def mapped (size : Nat) (entry : BitVec 64) (va : Addr) (writable : Bool) : Translation :=
  ⟨BitVec.ofNat 64 (base size entry + va.toNat % size), size, writable⟩

/-- The walk from the table of a level on; there is no result on a page fault. -/
def walkFrom (m : Mem) (va : Addr) : Nat → Addr → Bool → Option Translation
  | 0, table, writable =>
      let entry := entryAt m table 0 va
      if Present entry then some (mapped (span 0) entry va (writable && Writable entry)) else none
  | level + 1, table, writable =>
      let entry := entryAt m table (level + 1) va
      if ¬Present entry then none
      else if Large entry then
        if level + 1 ≤ 2 ∧ reserved (span (level + 1)) entry = 0 then
          some (mapped (span (level + 1)) entry va (writable && Writable entry))
        else none
      else walkFrom m va level (BitVec.ofNat 64 (base (span 0) entry)) (writable && Writable entry)

def walk (m : Mem) (cr3 : Addr) (va : Addr) : Option Translation :=
  walkFrom m va 3 (BitVec.ofNat 64 (base (span 0) cr3)) true

def storeTarget (m : Mem) (cr3 : Addr) (va : Addr) : Option Addr :=
  (walk m cr3 va).bind fun page => if page.writable then some page.phys else none

theorem walkFrom_table (m : Mem) (va : Addr) (level : Nat) (table : Addr) (entry : BitVec 64)
    (found : entryAt m table (level + 1) va = entry) (present : Present entry) (writable : Writable entry)
    (small : ¬Large entry) :
    walkFrom m va (level + 1) table true = walkFrom m va level (BitVec.ofNat 64 (base (span 0) entry)) true := by
  rw [walkFrom]
  rw [found, if_neg (not_not.mpr present), if_neg small, decide_eq_true writable]
  rfl

theorem walkFrom_large (m : Mem) (va : Addr) (level : Nat) (table : Addr) (entry : BitVec 64)
    (found : entryAt m table (level + 1) va = entry) (present : Present entry) (writable : Writable entry)
    (large : Large entry) (allowed : level + 1 ≤ 2) (clear : reserved (span (level + 1)) entry = 0) :
    walkFrom m va (level + 1) table true = some (mapped (span (level + 1)) entry va true) := by
  rw [walkFrom]
  rw [found, if_neg (not_not.mpr present), if_pos large, if_pos ⟨allowed, clear⟩, decide_eq_true writable]
  rfl

end LifeOS.Library.Paging
