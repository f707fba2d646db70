import Mathlib.Data.BitVec
import Mathlib.Data.List.Basic

/-!
The page allocator of `kernel/mm/mm.c` next to the paging structures that the
bootloader leaves active. `imageEnd` is the linker's symbol `end`.
-/

namespace LifeOS.Mm

/-- `static uint64_t next_free_page` after `mm_init`. The mask `~(PAGE_SIZE - 1)` is
an int that sign-extends to 64 bits. -/
def mmInit (imageEnd : BitVec 64) : BitVec 64 :=
  let nextFreePage := (imageEnd + 4096#64 - 1#64) &&& ~~~(4096#64 - 1#64)
  if nextFreePage < 0xB000#64 then 0xB000#64 else nextFreePage

/-- The page returned by `page_alloc`, with the next value of `next_free_page`. -/
def pageAlloc (nextFreePage : BitVec 64) : BitVec 64 × BitVec 64 :=
  (nextFreePage, nextFreePage + 4096#64)

def allocated : Nat → BitVec 64 → List (BitVec 64)
  | 0, _ => []
  | n + 1, nextFreePage => (pageAlloc nextFreePage).1 :: allocated n (pageAlloc nextFreePage).2

/-- `pml4`, `pdpt`, `pd` and `pd2` of the bootloader, 4096 bytes each. -/
def pagingStructures : List (BitVec 64) := [0x8000#64, 0x9000#64, 0xA000#64, 0xB000#64]

def Apart (first second : BitVec 64) : Prop :=
  first.toNat + 4096 ≤ second.toNat ∨ second.toNat + 4096 ≤ first.toNat

/-- Aligned pages above the image, apart from each other and from the paging structures. -/
structure SafePages (imageEnd : BitVec 64) (pages : List (BitVec 64)) : Prop where
  aligned : ∀ page ∈ pages, page.toNat % 4096 = 0
  above : ∀ page ∈ pages, imageEnd.toNat ≤ page.toNat
  separate : pages.Pairwise Apart
  tables : ∀ page ∈ pages, ∀ table ∈ pagingStructures, Apart page table

/-- Neither rounding up nor `n` allocations reach the end of the address space. -/
def NoWrap (imageEnd : BitVec 64) (n : Nat) : Prop :=
  imageEnd.toNat + 4095 < 2 ^ 64 ∧ (mmInit imageEnd).toNat + n * 4096 ≤ 2 ^ 64

private theorem mask_eq_shift (x : BitVec 64) : x &&& ~~~4095#64 = (x >>> 12) <<< 12 := by
  apply BitVec.eq_of_getLsbD_eq
  intro i inside
  have low : (4095#64).getLsbD i = decide (i < 12) := by
    rw [BitVec.getLsbD_ofNat, show 4095 = 2 ^ 12 - 1 by decide, Nat.testBit_two_pow_sub_one]
    simp [inside]
  rw [BitVec.getLsbD_and, BitVec.getLsbD_not, low, BitVec.getLsbD_shiftLeft, BitVec.getLsbD_ushiftRight]
  by_cases small : i < 12
  · simp [small]
  · simp [small, inside, show 12 + (i - 12) = i by omega]

theorem roundUp_eq (imageEnd : BitVec 64) :
    ((imageEnd + 4096#64 - 1#64) &&& ~~~(4096#64 - 1#64)).toNat =
      (imageEnd.toNat + 4095) % 2 ^ 64 / 4096 * 4096 := by
  have bumped : (imageEnd + 4096#64 - 1#64).toNat = (imageEnd.toNat + 4095) % 2 ^ 64 := by bv_omega
  rw [show (4096#64 - 1#64) = 4095#64 by decide, mask_eq_shift, BitVec.toNat_shiftLeft,
    BitVec.toNat_ushiftRight, bumped, Nat.shiftRight_eq_div_pow, Nat.shiftLeft_eq,
    Nat.mod_eq_of_lt (by omega)]

theorem mmInit_eq (imageEnd : BitVec 64) :
    (mmInit imageEnd).toNat = max 0xB000 ((imageEnd.toNat + 4095) % 2 ^ 64 / 4096 * 4096) := by
  have rounded := roundUp_eq imageEnd
  unfold mmInit
  generalize (imageEnd + 4096#64 - 1#64) &&& ~~~(4096#64 - 1#64) = up at rounded ⊢
  rw [← rounded]
  by_cases low : up < 0xB000#64
  · simp only [if_pos low]
    bv_omega
  · simp only [if_neg low]
    bv_omega

theorem mmInit_aligned (imageEnd : BitVec 64) : (mmInit imageEnd).toNat % 4096 = 0 := by
  rw [mmInit_eq]
  omega

theorem mmInit_toNat (imageEnd : BitVec 64) (room : imageEnd.toNat + 4095 < 2 ^ 64) :
    (mmInit imageEnd).toNat = max 0xB000 ((imageEnd.toNat + 4095) / 4096 * 4096) := by
  rw [mmInit_eq, Nat.mod_eq_of_lt room]

theorem next_toNat (start : BitVec 64) (room : start.toNat + 4096 < 2 ^ 64) :
    (pageAlloc start).2.toNat = start.toNat + 4096 := by
  unfold pageAlloc
  bv_omega

theorem mem_allocated (n : Nat) (start page : BitVec 64) (room : start.toNat + n * 4096 ≤ 2 ^ 64)
    (member : page ∈ allocated n start) : ∃ k, k < n ∧ page.toNat = start.toNat + k * 4096 := by
  induction n generalizing start with
  | zero => simp [allocated] at member
  | succ n ih =>
    rcases List.mem_cons.mp member with first | later
    · exact ⟨0, by omega, by rw [first]; rfl⟩
    · cases n with
      | zero => simp [allocated] at later
      | succ n =>
        have next := next_toNat start (by omega)
        generalize (pageAlloc start).2 = following at next later
        obtain ⟨k, inside, place⟩ := ih following (by omega) later
        exact ⟨k + 1, by omega, by omega⟩

theorem allocated_pairwise (n : Nat) (start : BitVec 64) (room : start.toNat + n * 4096 ≤ 2 ^ 64) :
    (allocated n start).Pairwise Apart := by
  induction n generalizing start with
  | zero => exact List.Pairwise.nil
  | succ n ih =>
    cases n with
    | zero => exact List.pairwise_singleton _ _
    | succ n =>
      have next := next_toNat start (by omega)
      unfold allocated
      generalize (pageAlloc start).2 = following at next
      have rest : following.toNat + (n + 1) * 4096 ≤ 2 ^ 64 := by omega
      refine List.Pairwise.cons ?_ (ih following rest)
      intro page member
      obtain ⟨k, _, place⟩ := mem_allocated (n + 1) _ page rest member
      left
      change start.toNat + 4096 ≤ page.toNat
      omega

theorem apart_of_high (page table : BitVec 64) (high : 0xC000 ≤ page.toNat)
    (member : table ∈ pagingStructures) : Apart page table := by
  right
  have low : table.toNat ≤ 0xB000 := by
    simp only [pagingStructures, List.mem_cons, List.not_mem_nil, or_false] at member
    rcases member with rfl | rfl | rfl | rfl <;> decide
  omega

/-- Allocation is safe exactly when the image ends above `0xB000`, where the floor of
`mm_init` does not apply, or no page is requested. -/
theorem pages_safe_iff (imageEnd : BitVec 64) (n : Nat) (fits : NoWrap imageEnd n) :
    SafePages imageEnd (allocated n (mmInit imageEnd)) ↔ 0xB000 < imageEnd.toNat ∨ n = 0 := by
  obtain ⟨room, last⟩ := fits
  have start := mmInit_toNat imageEnd room
  constructor
  · intro safe
    by_contra neither
    have floor : (mmInit imageEnd).toNat = 0xB000 := by omega
    obtain ⟨calls, rfl⟩ : ∃ calls, n = calls + 1 := ⟨n - 1, by omega⟩
    have first : mmInit imageEnd ∈ allocated (calls + 1) (mmInit imageEnd) := List.mem_cons_self
    have overlap := safe.tables _ first 0xB000#64 (by simp [pagingStructures])
    unfold Apart at overlap
    rw [floor] at overlap
    change 0xB000 + 4096 ≤ 0xB000 ∨ 0xB000 + 4096 ≤ 0xB000 at overlap
    omega
  · rintro (high | rfl)
    · have page_shape := fun page => mem_allocated n (mmInit imageEnd) page last
      refine ⟨?_, ?_, allocated_pairwise n _ last, ?_⟩
      · intro page member
        obtain ⟨k, _, place⟩ := page_shape page member
        omega
      · intro page member
        obtain ⟨k, _, place⟩ := page_shape page member
        omega
      · intro page member table present
        obtain ⟨k, _, place⟩ := page_shape page member
        exact apart_of_high page table (by omega) present
    · exact ⟨by simp [allocated], by simp [allocated], List.Pairwise.nil, by simp [allocated]⟩

/-- An image that ends at `0x18000` gets three safe pages. -/
theorem three_pages_safe : NoWrap 0x18000#64 3 ∧
    (SafePages 0x18000#64 (allocated 3 (mmInit 0x18000#64)) ↔ 0xB000 < (0x18000#64).toNat ∨ 3 = 0) :=
  ⟨by unfold NoWrap; decide, pages_safe_iff 0x18000#64 3 (by unfold NoWrap; decide)⟩

/-- A 16 KiB image gets the active `pd2` as its first page. -/
theorem small_image_overwrites_pd2 : NoWrap 0x5000#64 1 ∧
    0xB000#64 ∈ allocated 1 (mmInit 0x5000#64) ∧
    ¬SafePages 0x5000#64 (allocated 1 (mmInit 0x5000#64)) := by
  refine ⟨by unfold NoWrap; decide, by decide, fun safe => ?_⟩
  have overlap := safe.tables 0xB000#64 (by decide) 0xB000#64 (by decide)
  unfold Apart at overlap
  revert overlap
  decide

end LifeOS.Mm
