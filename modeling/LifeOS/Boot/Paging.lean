import LifeOS.Library.Loops
import LifeOS.Library.Paging

/-!
The paging structures that `bootloader.asm` writes before it enters long mode: one entry
of `pml4`, two of `pdpt`, and two tables of 512 pages of 2 MiB each.
-/

namespace LifeOS.Boot
open LifeOS.Library.Loops LifeOS.Library.Memory LifeOS.Library.Paging

def pml4 : BitVec 32 := 0x8000#32
def pdpt : BitVec 32 := 0x9000#32
def pd : BitVec 32 := 0xA000#32
def pd2 : BitVec 32 := 0xB000#32

/-- `mov dword [a], v` in a flat segment. -/
def store32 (a v : BitVec 32) (m : Mem) : Mem := write32 m (a.setWidth 64) v

/-- The body of the loop `setup_pd`; `i` is the value of `ecx`. -/
def setupPd (i : Nat) (m : Mem) : Mem :=
  let ecx := BitVec.ofNat 32 i
  let eax := ecx <<< 21
  let eax := eax ||| 0x83#32
  let m := store32 (pd + ecx * 8#32) eax m
  store32 (pd + ecx * 8#32 + 4#32) 0#32 m

def setupPd2 (i : Nat) (m : Mem) : Mem :=
  let ecx := BitVec.ofNat 32 i
  let eax := ecx <<< 21
  let eax := eax + 0x40000000#32
  let eax := eax ||| 0x83#32
  let m := store32 (pd2 + ecx * 8#32) eax m
  store32 (pd2 + ecx * 8#32 + 4#32) 0#32 m

def setupRoots (m : Mem) : Mem :=
  let m := store32 pml4 (pdpt ||| 0x03#32) m
  let m := store32 (pml4 + 4#32) 0#32 m
  let m := store32 pdpt (pd ||| 0x03#32) m
  let m := store32 (pdpt + 4#32) 0#32 m
  let m := store32 (pdpt + 8#32) (pd2 ||| 0x03#32) m
  store32 (pdpt + 12#32) 0#32 m

/-- From `protected_mode` up to the load of `cr3`; both loops end when `ecx` is 512. -/
def setupPaging (m : Mem) : Mem :=
  let m := setupRoots m
  let m := forRange 512 setupPd m
  forRange 512 setupPd2 m

/-- The entry that maps the 2 MiB page of the given number: present, writable and large. -/
def pageEntry (n : Nat) : BitVec 64 := BitVec.ofNat 64 (n * 2 ^ 21 + 0x83)

theorem fill_entries (table : Addr) (first : Nat) (body : Nat → Mem → Mem) (m : Mem)
    (low : table.toNat + 4096 ≤ 2 ^ 64)
    (stores : ∀ i m, i < 512 →
      body i m = write64 m (table + BitVec.ofNat 64 (8 * i)) (pageEntry (first + i))) :
    SameOutside table.toNat 4096 m (forRange 512 body m) ∧
      ∀ i, i < 512 → read64 (forRange 512 body m) (table + BitVec.ofNat 64 (8 * i)) = pageEntry (first + i) := by
  have place (i : Nat) (inside : i < 512) :
      (table + BitVec.ofNat 64 (8 * i)).toNat = table.toNat + 8 * i := by
    rw [BitVec.toNat_add, BitVec.toNat_ofNat]
    omega
  apply forRange_invariant 512 body (fun k filled => SameOutside table.toNat 4096 m filled ∧
    ∀ i, i < k → read64 filled (table + BitVec.ofNat 64 (8 * i)) = pageEntry (first + i))
  · exact ⟨SameOutside.refl _ _ m, fun _ never => absurd never (Nat.not_lt_zero _)⟩
  · intro i filled inside ⟨same, entries⟩
    have here := place i inside
    rw [stores i filled inside]
    refine ⟨same.trans ?_, ?_⟩
    · apply (write64_outside filled _ _ (by omega)).widen <;> omega
    · intro j before
      by_cases last : j = i
      · rw [last]
        exact read64_write64_same _ _ _
      · have there := place j (by omega)
        rw [read64_write64_apart _ _ _ _ (by omega) (by omega) (by omega)]
        exact entries j (by omega)

theorem store32_pair (a low : BitVec 32) (m : Mem) (fits : a.toNat + 4 < 2 ^ 32) :
    store32 (a + 4#32) 0#32 (store32 a low m) = write64 m (a.setWidth 64) (low.setWidth 64) := by
  have next : (a + 4#32).setWidth 64 = a.setWidth 64 + 4#64 := by bv_omega
  have whole : (0#32 ++ low : BitVec 64) = low.setWidth 64 := by
    apply BitVec.eq_of_toNat_eq
    rw [BitVec.toNat_append, BitVec.toNat_setWidth, Nat.mod_eq_of_lt (by omega)]
    simp
  unfold store32
  rw [next, write32_pair, whole]

theorem flags_joined (v : BitVec 32) (n : Nat) (place : v.toNat = n * 2 ^ 21) :
    (v ||| 0x83#32).setWidth 64 = pageEntry n := by
  have joined : (v ||| 0x83#32).toNat = n * 2 ^ 21 + 0x83 := by
    rw [BitVec.toNat_or, place, ← Nat.shiftLeft_eq]
    exact (Nat.shiftLeft_add_eq_or_of_lt (by decide) n).symm
  apply BitVec.eq_of_toNat_eq
  unfold pageEntry
  rw [BitVec.toNat_setWidth, joined, BitVec.toNat_ofNat]

theorem shifted_toNat (i : Nat) (inside : i < 512) : (BitVec.ofNat 32 i <<< 21).toNat = i * 2 ^ 21 := by
  rw [BitVec.toNat_shiftLeft, BitVec.toNat_ofNat, Nat.mod_eq_of_lt (by omega), Nat.shiftLeft_eq,
    Nat.mod_eq_of_lt (by omega)]

theorem slot_setWidth (table : BitVec 32) (i : Nat) (inside : i < 512) (low : table.toNat + 4096 ≤ 2 ^ 32) :
    (table + BitVec.ofNat 32 i * 8#32).setWidth 64 = table.setWidth 64 + BitVec.ofNat 64 (8 * i) ∧
      (table + BitVec.ofNat 32 i * 8#32).toNat = table.toNat + 8 * i := by
  have place : (table + BitVec.ofNat 32 i * 8#32).toNat = table.toNat + 8 * i := by
    rw [BitVec.toNat_add, BitVec.toNat_mul, BitVec.toNat_ofNat]
    change (table.toNat + i % 2 ^ 32 * 8 % 2 ^ 32) % 2 ^ 32 = _
    omega
  refine ⟨?_, place⟩
  apply BitVec.eq_of_toNat_eq
  rw [BitVec.toNat_setWidth, place, BitVec.toNat_add, BitVec.toNat_setWidth, BitVec.toNat_ofNat]
  omega

theorem setupPd_stores (i : Nat) (m : Mem) (inside : i < 512) :
    setupPd i m = write64 m (0xA000#64 + BitVec.ofNat 64 (8 * i)) (pageEntry (0 + i)) := by
  have low : pd.toNat + 4096 ≤ 2 ^ 32 := by decide
  obtain ⟨wide, place⟩ := slot_setWidth pd i inside low
  have value := flags_joined _ i (shifted_toNat i inside)
  unfold setupPd
  dsimp only
  rw [store32_pair _ _ _ (by omega), wide, value, Nat.zero_add]
  rfl

theorem setupPd2_stores (i : Nat) (m : Mem) (inside : i < 512) :
    setupPd2 i m = write64 m (0xB000#64 + BitVec.ofNat 64 (8 * i)) (pageEntry (512 + i)) := by
  have low : pd2.toNat + 4096 ≤ 2 ^ 32 := by decide
  obtain ⟨wide, place⟩ := slot_setWidth pd2 i inside low
  have shifted := shifted_toNat i inside
  have upper : (BitVec.ofNat 32 i <<< 21 + 0x40000000#32).toNat = (512 + i) * 2 ^ 21 := by
    rw [BitVec.toNat_add, shifted]
    change (i * 2 ^ 21 + 0x40000000) % 2 ^ 32 = _
    omega
  have value := flags_joined _ (512 + i) upper
  unfold setupPd2
  dsimp only
  rw [store32_pair _ _ _ (by omega), wide, value]
  rfl

theorem setupRoots_entries (m : Mem) :
    read64 (setupRoots m) 0x8000#64 = 0x9003#64 ∧ read64 (setupRoots m) 0x9000#64 = 0xA003#64 ∧
      read64 (setupRoots m) 0x9008#64 = 0xB003#64 := by
  have stored : setupRoots m =
      write64 (write64 (write64 m 0x8000#64 0x9003#64) 0x9000#64 0xA003#64) 0x9008#64 0xB003#64 := by
    have first := store32_pair pml4 (pdpt ||| 0x03#32) m (by decide)
    have second := store32_pair pdpt (pd ||| 0x03#32) (write64 m 0x8000#64 0x9003#64) (by decide)
    have third := store32_pair (pdpt + 8#32) (pd2 ||| 0x03#32)
      (write64 (write64 m 0x8000#64 0x9003#64) 0x9000#64 0xA003#64) (by decide)
    exact third ▸ second ▸ first ▸ rfl
  rw [stored]
  refine ⟨?_, ?_, read64_write64_same _ _ _⟩
  · rw [read64_write64_apart _ _ _ _ (by decide) (by decide) (by decide),
      read64_write64_apart _ _ _ _ (by decide) (by decide) (by decide)]
    exact read64_write64_same _ _ _
  · rw [read64_write64_apart _ _ _ _ (by decide) (by decide) (by decide)]
    exact read64_write64_same _ _ _

structure Entries (m : Mem) : Prop where
  root : read64 m 0x8000#64 = 0x9003#64
  lower : read64 m 0x9000#64 = 0xA003#64
  upper : read64 m 0x9008#64 = 0xB003#64
  pages : ∀ i, i < 512 → read64 m (0xA000#64 + BitVec.ofNat 64 (8 * i)) = pageEntry i
  morePages : ∀ i, i < 512 → read64 m (0xB000#64 + BitVec.ofNat 64 (8 * i)) = pageEntry (512 + i)

theorem setupPaging_entries (m : Mem) : Entries (setupPaging m) := by
  obtain ⟨root, lower, upper⟩ := setupRoots_entries m
  obtain ⟨same, pages⟩ := fill_entries 0xA000#64 0 setupPd (setupRoots m) (by decide) setupPd_stores
  obtain ⟨same2, morePages⟩ :=
    fill_entries 0xB000#64 512 setupPd2 (forRange 512 setupPd (setupRoots m)) (by decide) setupPd2_stores
  have kept (a : Addr) (below : a.toNat + 8 ≤ 0xA000) : read64 (setupPaging m) a = read64 (setupRoots m) a := by
    have outer := same2.read64_eq a (by omega) (Or.inl (by change _ ≤ 0xB000; omega))
    exact outer.trans (same.read64_eq a (by omega) (Or.inl below))
  refine ⟨?_, ?_, ?_, ?_, morePages⟩
  · exact (kept _ (by decide)).trans root
  · exact (kept _ (by decide)).trans lower
  · exact (kept _ (by decide)).trans upper
  · intro i inside
    have place : (0xA000#64 + BitVec.ofNat 64 (8 * i)).toNat = 0xA000 + 8 * i := by
      rw [BitVec.toNat_add, BitVec.toNat_ofNat, BitVec.toNat_ofNat]
      omega
    have first := pages i inside
    rw [Nat.zero_add] at first
    rw [← first]
    apply same2.read64_eq _ (by omega)
    left
    change _ ≤ 0xB000
    omega

theorem pageEntry_toNat (n : Nat) (few : n < 1024) : (pageEntry n).toNat = n * 2 ^ 21 + 0x83 := by
  unfold pageEntry
  rw [BitVec.toNat_ofNat]
  omega

theorem pageEntry_maps (n : Nat) (few : n < 1024) :
    Present (pageEntry n) ∧ Writable (pageEntry n) ∧ Large (pageEntry n) ∧
      reserved (span 1) (pageEntry n) = 0 ∧ base (span 1) (pageEntry n) = n * 2 ^ 21 := by
  have value := pageEntry_toNat n few
  have bit (i : Nat) (odd : (pageEntry n).toNat / 2 ^ i % 2 = 1) : (pageEntry n).getLsbD i = true := by
    rw [BitVec.getLsbD, Nat.testBit_eq_decide_div_mod_eq, odd]
    rfl
  refine ⟨bit 0 ?_, bit 1 ?_, bit 7 ?_, ?_, ?_⟩
  · omega
  · omega
  · omega
  · change (pageEntry n).toNat % 2 ^ 21 / 2 ^ 13 = 0
    omega
  · change (pageEntry n).toNat % 2 ^ 52 / 2 ^ 21 * 2 ^ 21 = _
    omega

theorem walkFrom_page (m : Mem) (va table : Addr) (n : Nat) (few : n < 1024) (page : va.toNat / 2 ^ 21 = n)
    (found : entryAt m table 1 va = pageEntry n) : walkFrom m va 1 table true = some ⟨va, 2 ^ 21, true⟩ := by
  obtain ⟨present, writable, large, clear, place⟩ := pageEntry_maps n few
  rw [walkFrom_large m va 0 table _ found present writable large (by decide) clear]
  unfold mapped
  have whole : n * 2 ^ 21 + va.toNat % 2 ^ 21 = va.toNat := by omega
  rw [place]
  change some (Translation.mk (BitVec.ofNat 64 (n * 2 ^ 21 + va.toNat % 2 ^ 21)) _ _) = _
  rw [whole, BitVec.ofNat_toNat, BitVec.setWidth_eq]
  rfl

theorem Entries.walk_pointers {m : Mem} (entries : Entries m) (va : Addr) (near : va.toNat < 2 ^ 39) :
    walk m 0x8000#64 va = walkFrom m va 2 0x9000#64 true := by
  have top : entryAt m 0x8000#64 3 va = 0x9003#64 := by
    have first : index 3 va = 0 := by
      change va.toNat / 2 ^ 39 % 512 = 0
      omega
    unfold entryAt
    rw [first]
    exact entries.root
  have root : BitVec.ofNat 64 (base (span 0) 0x8000#64) = 0x8000#64 := by decide
  have pointers : BitVec.ofNat 64 (base (span 0) 0x9003#64) = 0x9000#64 := by decide
  unfold walk
  rw [root, walkFrom_table m va 2 _ _ top (by decide) (by decide) (by decide), pointers]

theorem Entries.walk_identity {m : Mem} (entries : Entries m) (va : Addr) (low : va.toNat < 0x80000000) :
    walk m 0x8000#64 va = some ⟨va, 2 ^ 21, true⟩ := by
  have page : index 1 va = va.toNat / 2 ^ 21 % 512 := rfl
  have second : index 2 va = va.toNat / 2 ^ 30 % 512 := rfl
  have lowerTable : BitVec.ofNat 64 (base (span 0) 0xA003#64) = 0xA000#64 := by decide
  have upperTable : BitVec.ofNat 64 (base (span 0) 0xB003#64) = 0xB000#64 := by decide
  rw [entries.walk_pointers va (by omega)]
  by_cases half : va.toNat < 0x40000000
  · have found : entryAt m 0x9000#64 2 va = 0xA003#64 := by
      unfold entryAt
      rw [second, show va.toNat / 2 ^ 30 % 512 = 0 by omega]
      exact entries.lower
    rw [walkFrom_table m va 1 _ _ found (by decide) (by decide) (by decide), lowerTable]
    apply walkFrom_page m va _ (va.toNat / 2 ^ 21) (by omega) rfl
    unfold entryAt
    rw [page, show va.toNat / 2 ^ 21 % 512 = va.toNat / 2 ^ 21 by omega]
    exact entries.pages _ (by omega)
  · have found : entryAt m 0x9000#64 2 va = 0xB003#64 := by
      unfold entryAt
      rw [second, show va.toNat / 2 ^ 30 % 512 = 1 by omega]
      exact entries.upper
    rw [walkFrom_table m va 1 _ _ found (by decide) (by decide) (by decide), upperTable]
    apply walkFrom_page m va _ (va.toNat / 2 ^ 21) (by omega) rfl
    unfold entryAt
    rw [page, entries.morePages _ (by omega), show 512 + va.toNat / 2 ^ 21 % 512 = va.toNat / 2 ^ 21 by omega]

/-- Below 2 GiB every address is mapped to itself, in a writable page of 2 MiB, whatever the
memory held before. -/
theorem identity_mapped (m : Mem) (va : Addr) (low : va.toNat < 0x80000000) :
    walk (setupPaging m) (pml4.setWidth 64) va = some ⟨va, 2 ^ 21, true⟩ :=
  (setupPaging_entries m).walk_identity va low

/-- The last byte of the map, over a memory full of ones. -/
theorem last_byte_mapped :
    walk (setupPaging (fun _ => 0xFF#8)) (pml4.setWidth 64) 0x7FFFFFFF#64 =
      some ⟨0x7FFFFFFF#64, 2 ^ 21, true⟩ :=
  identity_mapped (fun _ => 0xFF#8) 0x7FFFFFFF#64 (by decide)

end LifeOS.Boot
