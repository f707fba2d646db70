import LifeOS.Boot.Handover
import LifeOS.Boot.Mapping
import LifeOS.Gui.Mapped

/-!
What the bootloader's map leaves open. The loader stores the entries for the first 2 GiB and clears
no others, so the processor translates the addresses above by what the memory held before, and
faults where that is not present. The framebuffer is among them.
-/

namespace LifeOS.Boot
open LifeOS.Gui LifeOS.Library.Loops LifeOS.Library.Memory LifeOS.Library.Modes LifeOS.Library.Modes.Machine
open LifeOS.Library.Paging

/-- An address above the map, in the half that starts at zero. -/
structure Upper (va : Addr) : Prop where
  above : 0x80000000 ≤ va.toNat
  below : va.toNat < 2 ^ 47

/-- The first entry of a walk above the map that is not one for the map: of `pdpt`, and from
512 GiB on of `pml4`. -/
def upperEntry (m : Mem) (va : Addr) : BitVec 64 :=
  if va.toNat < 2 ^ 39 then entryAt m 0x9000#64 2 va else entryAt m 0x8000#64 3 va

def vgaAddress (y : Fin 25) (x : Fin 80) : Addr := low (0xB8000 + 2 * (80 * y.val + x.val))

theorem setupRoots_outside (m : Mem) (x : Addr) (root : ¬(0x8000 ≤ x.toNat ∧ x.toNat < 0x8008))
    (pointers : ¬(0x9000 ≤ x.toNat ∧ x.toNat < 0x9010)) : setupRoots m x = m x := by
  unfold setupRoots
  rw [store32_apart _ _ _ x (by change _ < 0x900C ∨ 0x900C + 4 ≤ _; omega),
    store32_apart _ _ _ x (by change _ < 0x9008 ∨ 0x9008 + 4 ≤ _; omega),
    store32_apart _ _ _ x (by change _ < 0x9004 ∨ 0x9004 + 4 ≤ _; omega),
    store32_apart _ _ _ x (by change _ < 0x9000 ∨ 0x9000 + 4 ≤ _; omega),
    store32_apart _ _ _ x (by change _ < 0x8004 ∨ 0x8004 + 4 ≤ _; omega),
    store32_apart _ _ _ x (by change _ < 0x8000 ∨ 0x8000 + 4 ≤ _; omega)]

/-- The entries behind the first one of `pml4` and behind the first two of `pdpt` stay. -/
theorem handed_spares (halt : Addr) (m : Mem) (lo hi : Nat)
    (spared : 0x8008 ≤ lo ∧ hi ≤ 0x9000 ∨ 0x9010 ≤ lo ∧ hi ≤ 0xA000) :
    AgreeOn lo hi m (write64 (setupPaging m) 0x8FFF8#64 halt) := by
  obtain ⟨first, _⟩ := fill_entries 0xA000#64 0 setupPd (setupRoots m) (by decide) setupPd_stores
  obtain ⟨second, _⟩ :=
    fill_entries 0xB000#64 512 setupPd2 (forRange 512 setupPd (setupRoots m)) (by decide) setupPd2_stores
  intro x above below
  have stack := write64_outside (setupPaging m) 0x8FFF8#64 halt (by decide) x (by change ¬(0x8FFF8 ≤ _ ∧ _); omega)
  have pages := second x (by change ¬(0xB000 ≤ _ ∧ _); omega)
  have morePages := first x (by change ¬(0xA000 ≤ _ ∧ _); omega)
  calc
    _ = setupPaging m x := stack
    _ = forRange 512 setupPd (setupRoots m) x := pages
    _ = setupRoots m x := morePages
    _ = m x := setupRoots_outside m x (by omega) (by omega)

theorem AgreeOn.entryAt_eq {lo hi : Nat} {before after : Mem} (agree : AgreeOn lo hi before after) (table va : Addr)
    (level : Nat) (first : lo ≤ table.toNat + 8 * index level va)
    (last : table.toNat + 8 * index level va + 8 ≤ hi) (fits : hi ≤ 2 ^ 63) :
    entryAt after table level va = entryAt before table level va := by
  have place : (table + BitVec.ofNat 64 (8 * index level va)).toNat = table.toNat + 8 * index level va := by
    rw [BitVec.toNat_add, BitVec.toNat_ofNat]
    omega
  exact agree.read64_eq _ (by omega) (by omega) (by omega)

theorem upperEntry_kept (halt : Addr) (m : Mem) (va : Addr) (upper : Upper va) :
    upperEntry (write64 (setupPaging m) 0x8FFF8#64 halt) va = upperEntry m va := by
  have above := upper.above
  have below := upper.below
  unfold upperEntry
  by_cases near : va.toNat < 2 ^ 39
  · have place : (0x9000#64).toNat + 8 * index 2 va = 0x9000 + 8 * (va.toNat / 2 ^ 30 % 512) := rfl
    rw [if_pos near, if_pos near]
    exact (handed_spares halt m 0x9010 0xA000 (by decide)).entryAt_eq _ _ _ (by omega) (by omega) (by decide)
  · have place : (0x8000#64).toNat + 8 * index 3 va = 0x8000 + 8 * (va.toNat / 2 ^ 39 % 512) := rfl
    rw [if_neg near, if_neg near]
    exact (handed_spares halt m 0x8008 0x9000 (by decide)).entryAt_eq _ _ _ (by omega) (by omega) (by decide)

theorem Entries.walk_upper {m : Mem} (entries : Entries m) (va : Addr) (absent : ¬Present (upperEntry m va)) :
    walk m 0x8000#64 va = none := by
  unfold upperEntry at absent
  by_cases near : va.toNat < 2 ^ 39
  · rw [if_pos near] at absent
    rw [entries.walk_pointers va near]
    exact if_pos absent
  · have root : BitVec.ofNat 64 (base (span 0) 0x8000#64) = 0x8000#64 := by decide
    rw [if_neg near] at absent
    unfold walk
    rw [root]
    exact if_pos absent

theorem InLong.faults {c : Machine} (inside : InLong c) (va : Addr) (unmapped : walk c.mem 0x8000#64 va = none) :
    c.translate va = none ∧ c.writable va = none := by
  have paged : ¬c.paging = false := by
    rw [inside.paged]
    decide
  unfold Machine.translate Machine.writable storeTarget
  rw [if_neg paged, if_neg paged, if_pos inside.long, if_pos inside.long, inside.root, unmapped]
  exact ⟨rfl, rfl⟩

theorem upperEntry_pixel (m : Mem) (k : Nat) (inside : k < fbHeight * fbWidth) :
    upperEntry m (pixelAddress k) = read64 m 0x9018#64 := by
  have few : k < 786432 := inside
  have place := pixelAddress_toNat k inside
  have fourth : index 2 (pixelAddress k) = 3 := by
    change (pixelAddress k).toNat / 2 ^ 30 % 512 = 3
    omega
  unfold upperEntry entryAt
  rw [if_pos (by omega), fourth]
  rfl

theorem Entries.pixel_unmapped {m : Mem} (entries : Entries m) (absent : ¬Present (read64 m 0x9018#64)) (k : Nat)
    (inside : k < fbHeight * fbWidth) : storeTarget m 0x8000#64 (pixelAddress k) = none := by
  rw [← upperEntry_pixel m k inside] at absent
  unfold storeTarget
  rw [entries.walk_upper _ absent]
  rfl

/-- A page of 1 GiB over the framebuffer's addresses maps it to itself. -/
theorem Entries.pixel_mapped {m : Mem} (entries : Entries m) (page : read64 m 0x9018#64 = 0xC0000083#64) (k : Nat)
    (inside : k < fbHeight * fbWidth) : storeTarget m 0x8000#64 (pixelAddress k) = some (pixelAddress k) := by
  have few : k < 786432 := inside
  have place := pixelAddress_toNat k inside
  have found : entryAt m 0x9000#64 2 (pixelAddress k) = 0xC0000083#64 := by
    rw [← page, ← upperEntry_pixel m k inside, upperEntry, if_pos (by omega)]
  have whole : base (span 2) 0xC0000083#64 + (pixelAddress k).toNat % span 2 = (pixelAddress k).toNat := by
    change 0xC0000000 + (pixelAddress k).toNat % 2 ^ 30 = _
    omega
  unfold storeTarget
  rw [entries.walk_pointers _ (by omega), walkFrom_large m _ 1 _ _ found (by decide) (by decide) (by decide)
    (by decide) (by decide)]
  unfold mapped
  rw [whole, BitVec.ofNat_toNat, BitVec.setWidth_eq]
  rfl

theorem Entries.mappedAt {m : Mem} (entries : Entries m) (page : read64 m 0x9018#64 = 0xC0000083#64) :
    Mapped.MappedAt 0xE0000000#64 m := by
  refine ⟨by decide, by decide, ?_⟩
  intro after same k inside
  have few : k < 786432 := inside
  have agree : AgreeOn 0x8000 0xC000 m after := by
    intro a _ below
    apply same
    change ¬(0xE0000000 ≤ a.toNat ∧ _)
    omega
  have kept : read64 after 0x9018#64 = 0xC0000083#64 :=
    (agree.read64_eq _ (by decide) (by decide) (by decide)).trans page
  exact (entries.congr agree).pixel_mapped kept k inside

def leftOf (m : Mem) : Mem := write64 (setupPaging m) 0x8FFF8#64 0#64

theorem leftOf_entries (m : Mem) : Entries (leftOf m) := by
  have agree : AgreeOn 0x8000 0xC000 (setupPaging m) (leftOf m) := by
    intro a _ below
    exact write64_outside _ 0x8FFF8#64 0#64 (by decide) a (by change ¬(0x8FFF8 ≤ _ ∧ _); omega)
  exact (setupPaging_entries m).congr agree

theorem leftOf_fourth (m : Mem) : read64 (leftOf m) 0x9018#64 = read64 m 0x9018#64 := by
  have place := pixelAddress_toNat 0 (by decide)
  rw [← upperEntry_pixel m 0 (by decide), ← upperEntry_pixel (leftOf m) 0 (by decide)]
  exact upperEntry_kept 0#64 m (pixelAddress 0) ⟨by omega, by omega⟩

def framed : Mem := write64 (fun _ => 0#8) 0x9018#64 0xC0000083#64

theorem framed_mapped : Mapped.MappedAt 0xE0000000#64 (leftOf framed) :=
  (leftOf_entries framed).mappedAt ((leftOf_fourth framed).trans (read64_write64_same _ _ _))

/-- The address space of `kmain`, over what the memory held when the loader began to build it. -/
structure MapLeft (before : Mem) (after : Machine) : Prop where
  kept : ∀ va, Upper va → upperEntry after.mem va = upperEntry before va
  faults : ∀ va, Upper va → ¬Present (upperEntry before va) → after.translate va = none ∧ after.writable va = none
  screen : ∀ y x, after.writable (vgaAddress y x) = some (vgaAddress y x)
  frame : ¬Present (read64 before 0x9018#64) → ∀ pixel, pixel < fbHeight * fbWidth →
    after.writable (pixelAddress pixel) = none

theorem upper_map_stale (s : Sector) (k : Stub) (c : Machine) (valid : c.Valid) (real : c.protection = false)
    (sector : s.Holds c.mem) (stub : k.Holds c.mem) (below : k.gdtStart + 34 ≤ 0x7C00) :
    ∃ after, loaded s k c = some after ∧ AtKmain k after ∧ MapLeft c.mem after := by
  obtain ⟨after, ran, atKmain, long, mem⟩ := loaded_spec s k c valid real sector stub below
  have kept (va : Addr) (upper : Upper va) : upperEntry after.mem va = upperEntry c.mem va := by
    rw [mem]
    exact upperEntry_kept k.halt c.mem va upper
  have faults (va : Addr) (upper : Upper va) (absent : ¬Present (upperEntry c.mem va)) :
      after.translate va = none ∧ after.writable va = none := by
    rw [← kept va upper] at absent
    exact long.faults va (long.entries.walk_upper va absent)
  refine ⟨after, ran, atKmain, kept, faults, ?_, ?_⟩
  · intro y x
    have place := low_toNat (0xB8000 + 2 * (80 * y.val + x.val)) (by omega)
    exact (atKmain.mapped _ (by unfold vgaAddress; omega)).2
  · intro absent pixel inside
    have few : pixel < 786432 := inside
    have place := pixelAddress_toNat pixel inside
    rw [← upperEntry_pixel c.mem pixel inside] at absent
    exact (faults _ ⟨by omega, by omega⟩ absent).2

def readIn : Machine := { powerOn.cpu with mem := fun a =>
  if 0x1000 ≤ a.toNat ∧ a.toNat < 0x1400 then smallDisk 0x80#8 (512 + (a.toNat - 0x1000)) else powerOn.cpu.mem a }

/-- On a machine with blank memory the first store of `gui_init` has no place to go. -/
theorem first_pixel_faults : ∃ after, loaded smallSector smallStub readIn = some after ∧ AtKmain smallStub after ∧
    after.writable (vgaAddress 0 0) = some (vgaAddress 0 0) ∧ after.writable (pixelAddress 0) = none := by
  have valid : readIn.Valid := ⟨by decide, by decide, by decide, by decide⟩
  have sector : smallSector.Holds readIn.mem := ⟨by unfold WordsAt; decide +kernel, by decide +kernel, by decide +kernel⟩
  have stub : smallStub.Holds readIn.mem := ⟨by unfold WordsAt; decide +kernel, by decide +kernel, by decide +kernel⟩
  obtain ⟨after, ran, atKmain, left⟩ := upper_map_stale smallSector smallStub readIn valid rfl sector stub (by decide)
  exact ⟨after, ran, atKmain, left.screen 0 0, left.frame (by decide +kernel) 0 (by decide)⟩

end LifeOS.Boot
