import Mathlib.Data.BitVec

/-!
A byte-addressed 64-bit memory with little-endian words. Frame facts speak of
intervals of addresses as natural numbers: what changes lies inside an interval,
and a word outside it reads as before.
-/

namespace LifeOS.Library.Memory

abbrev Addr := BitVec 64

abbrev Mem := Addr → BitVec 8

/-- The word at `a`, least significant byte first. -/
def read64 (m : Mem) (a : Addr) : BitVec 64 :=
  m (a + 7#64) ++ m (a + 6#64) ++ m (a + 5#64) ++ m (a + 4#64) ++
    m (a + 3#64) ++ m (a + 2#64) ++ m (a + 1#64) ++ m (a + 0#64)

def read16 (m : Mem) (a : Addr) : BitVec 16 := m (a + 1#64) ++ m (a + 0#64)

def read32 (m : Mem) (a : Addr) : BitVec 32 :=
  m (a + 3#64) ++ m (a + 2#64) ++ m (a + 1#64) ++ m (a + 0#64)

def holding (blocks : List (Addr × List (BitVec 8))) : Mem := fun x =>
  (blocks.findSome? (fun block => block.2[(x - block.1).toNat]?)).getD 0#8

def write64 (m : Mem) (a : Addr) (v : BitVec 64) : Mem :=
  fun x => if (x - a).toNat < 8 then v.extractLsb' (8 * (x - a).toNat) 8 else m x

def write32 (m : Mem) (a : Addr) (v : BitVec 32) : Mem :=
  fun x => if (x - a).toNat < 4 then v.extractLsb' (8 * (x - a).toNat) 8 else m x

def SameOutside (lo len : Nat) (before after : Mem) : Prop :=
  ∀ x : Addr, ¬(lo ≤ x.toNat ∧ x.toNat < lo + len) → after x = before x

theorem SameOutside.refl (lo len : Nat) (m : Mem) : SameOutside lo len m m := fun _ _ => rfl

theorem SameOutside.trans {lo len : Nat} {first second third : Mem}
    (early : SameOutside lo len first second) (late : SameOutside lo len second third) :
    SameOutside lo len first third :=
  fun x outside => (late x outside).trans (early x outside)

theorem SameOutside.widen {lo len lo' len' : Nat} {before after : Mem}
    (same : SameOutside lo len before after) (low : lo' ≤ lo) (high : lo + len ≤ lo' + len') :
    SameOutside lo' len' before after := by
  intro x outside
  apply same x
  omega

theorem write64_at (m : Mem) (a i : Addr) (v : BitVec 64) (inside : i.toNat < 8) :
    write64 m a v (a + i) = v.extractLsb' (8 * i.toNat) 8 := by
  have offset : a + i - a = i := by bv_omega
  simp only [write64, offset, if_pos inside]

private theorem assemble (v : BitVec 64) :
    v.extractLsb' 56 8 ++ v.extractLsb' 48 8 ++ v.extractLsb' 40 8 ++ v.extractLsb' 32 8 ++
      v.extractLsb' 24 8 ++ v.extractLsb' 16 8 ++ v.extractLsb' 8 8 ++ v.extractLsb' 0 8 = v := by
  have join (low mid high : Nat) (next : mid = low + 8) :
      v.extractLsb' mid high ++ v.extractLsb' low 8 = v.extractLsb' low (high + 8) :=
    BitVec.extractLsb'_append_extractLsb'_eq_extractLsb' next
  rw [join 48 56 8 rfl, join 40 48 (8 + 8) rfl, join 32 40 (8 + 8 + 8) rfl,
    join 24 32 (8 + 8 + 8 + 8) rfl, join 16 24 (8 + 8 + 8 + 8 + 8) rfl,
    join 8 16 (8 + 8 + 8 + 8 + 8 + 8) rfl, join 0 8 (8 + 8 + 8 + 8 + 8 + 8 + 8) rfl]
  exact BitVec.extractLsb'_eq_self

@[simp]
theorem read64_write64_same (m : Mem) (a : Addr) (v : BitVec 64) : read64 (write64 m a v) a = v := by
  unfold read64
  rw [write64_at m a 7#64 v (by decide), write64_at m a 6#64 v (by decide),
    write64_at m a 5#64 v (by decide), write64_at m a 4#64 v (by decide),
    write64_at m a 3#64 v (by decide), write64_at m a 2#64 v (by decide),
    write64_at m a 1#64 v (by decide), write64_at m a 0#64 v (by decide)]
  exact assemble v

theorem write64_outside (m : Mem) (a : Addr) (v : BitVec 64) (fits : a.toNat + 8 ≤ 2 ^ 64) :
    SameOutside a.toNat 8 m (write64 m a v) := by
  intro x outside
  have far : ¬(x - a).toNat < 8 := by bv_omega
  simp only [write64, if_neg far]

theorem write32_pair (m : Mem) (a : Addr) (low high : BitVec 32) :
    write32 (write32 m a low) (a + 4#64) high = write64 m a (high ++ low) := by
  funext x
  unfold write32 write64
  by_cases second : (x - (a + 4#64)).toNat < 4
  · have place : (x - a).toNat = (x - (a + 4#64)).toNat + 4 := by bv_omega
    rw [if_pos second, if_pos (by omega), place, BitVec.extractLsb'_append_eq_of_le (by omega)]
    congr 1
  · rw [if_neg second]
    by_cases first : (x - a).toNat < 4
    · rw [if_pos first, if_pos (by omega), BitVec.extractLsb'_append_eq_of_add_le (by omega)]
    · have outside : ¬(x - a).toNat < 8 := by bv_omega
      rw [if_neg first, if_neg outside]

theorem read64_congr (first second : Mem) (a : Addr)
    (same : ∀ i : Addr, i.toNat < 8 → first (a + i) = second (a + i)) :
    read64 first a = read64 second a := by
  unfold read64
  rw [same 7#64 (by decide), same 6#64 (by decide), same 5#64 (by decide), same 4#64 (by decide),
    same 3#64 (by decide), same 2#64 (by decide), same 1#64 (by decide), same 0#64 (by decide)]

theorem SameOutside.read64_eq {lo len : Nat} {before after : Mem}
    (same : SameOutside lo len before after) (a : Addr) (fits : a.toNat + 8 ≤ 2 ^ 64)
    (apart : a.toNat + 8 ≤ lo ∨ lo + len ≤ a.toNat) : read64 after a = read64 before a := by
  apply read64_congr
  intro i inside
  apply same
  bv_omega

theorem read64_write64_apart (m : Mem) (a b : Addr) (v : BitVec 64) (fitsA : a.toNat + 8 ≤ 2 ^ 64)
    (fitsB : b.toNat + 8 ≤ 2 ^ 64) (apart : b.toNat + 8 ≤ a.toNat ∨ a.toNat + 8 ≤ b.toNat) :
    read64 (write64 m a v) b = read64 m b :=
  (write64_outside m a v fitsA).read64_eq b fitsB apart

theorem write32_outside (m : Mem) (a : Addr) (v : BitVec 32) (fits : a.toNat + 4 ≤ 2 ^ 64) :
    SameOutside a.toNat 4 m (write32 m a v) := by
  intro x outside
  have far : ¬(x - a).toNat < 4 := by bv_omega
  simp only [write32, if_neg far]

@[simp]
theorem read32_write32_same (m : Mem) (a : Addr) (v : BitVec 32) : read32 (write32 m a v) a = v := by
  have byte (i : Addr) (inside : i.toNat < 4) : write32 m a v (a + i) = v.extractLsb' (8 * i.toNat) 8 := by
    have offset : a + i - a = i := by bv_omega
    simp only [write32, offset, if_pos inside]
  have join (low mid high : Nat) (next : mid = low + 8) :
      v.extractLsb' mid high ++ v.extractLsb' low 8 = v.extractLsb' low (high + 8) :=
    BitVec.extractLsb'_append_extractLsb'_eq_extractLsb' next
  unfold read32
  rw [byte 3#64 (by decide), byte 2#64 (by decide), byte 1#64 (by decide), byte 0#64 (by decide)]
  change v.extractLsb' 24 8 ++ v.extractLsb' 16 8 ++ v.extractLsb' 8 8 ++ v.extractLsb' 0 8 = v
  rw [join 16 24 8 rfl, join 8 16 (8 + 8) rfl, join 0 8 (8 + 8 + 8) rfl]
  exact BitVec.extractLsb'_eq_self

theorem SameOutside.read32_eq {lo len : Nat} {before after : Mem}
    (same : SameOutside lo len before after) (a : Addr) (fits : a.toNat + 4 ≤ 2 ^ 64)
    (apart : a.toNat + 4 ≤ lo ∨ lo + len ≤ a.toNat) : read32 after a = read32 before a := by
  unfold read32
  rw [same _ (by bv_omega), same _ (by bv_omega), same _ (by bv_omega), same _ (by bv_omega)]

end LifeOS.Library.Memory
