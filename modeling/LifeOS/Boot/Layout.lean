import Mathlib.Algebra.GroupWithZero.Nat
import Mathlib.Algebra.Order.Group.Nat
import Mathlib.Algebra.Order.BigOperators.Group.List

/-!
Where the boot sector, the kernel image and the paging structures are in memory: the
addresses of `bootloader.asm`, the sections of `linker.ld` and the sector count of
`build_image.sh`.
-/

namespace LifeOS.Boot

/-- The objects of `.bss`, three of them with the sizes that their declarations give. -/
inductive Static where
  | files
  | screenBuffer
  | scrollback
  | other (size : Nat)

/-- `sizeof(struct file)`: the name, the data, the size and the flag. -/
def fileSize : Nat := 32 + 4096 + 4 + 4

def Static.size : Static → Nat
  | .files => 16 * fileSize
  | .screenBuffer => 25 * 80 * 2
  | .scrollback => 100 * 80 * 2
  | .other size => size

/-- A linked kernel: the sizes of the sections with their padding, and the objects of `.bss`. -/
structure Image where
  text : Nat
  rodata : Nat
  data : Nat
  bss : List Static
  files : .files ∈ bss
  screenBuffer : .screenBuffer ∈ bss
  scrollback : .scrollback ∈ bss

def Apart (lo len lo' len' : Nat) : Prop :=
  ∀ a, lo ≤ a → a < lo + len → lo' ≤ a → a < lo' + len' → False

namespace Image

def binarySize (k : Image) : Nat := k.text + k.rodata + k.data

def bssSize (k : Image) : Nat := (k.bss.map Static.size).sum

def stop (k : Image) : Nat := 0x1000 + k.binarySize + k.bssSize

def kernelSectors (k : Image) : Nat := (k.binarySize + 511) / 512

/-- The sectors read spare the boot sector, and the image spares the paging structures. -/
structure Consistent (k : Image) : Prop where
  load : Apart 0x1000 (512 * k.kernelSectors) 0x7C00 0x200
  image : Apart 0x1000 (k.stop - 0x1000) 0x8000 0x4000

theorem files_in_bss (k : Image) : 16 * fileSize ≤ k.bssSize :=
  List.single_le_sum (fun _ _ => Nat.zero_le _) _ (List.mem_map.mpr ⟨.files, k.files, rfl⟩)

/-- The image goes beyond the paging structures, whatever the sizes of its sections. -/
theorem paging_covered (k : Image) (a : Nat) (low : 0x8000 ≤ a) (high : a < 0xC000) :
    0x1000 ≤ a ∧ a < k.stop := by
  have files := k.files_in_bss
  unfold fileSize at files
  unfold stop
  omega

/-- The sectors read spare the boot sector as long as the binary ends before it. -/
theorem load_apart_iff (k : Image) :
    Apart 0x1000 (512 * k.kernelSectors) 0x7C00 0x200 ↔ k.binarySize ≤ 0x6C00 := by
  unfold kernelSectors
  constructor
  · intro apart
    by_contra long
    exact apart 0x7C00 (by omega) (by omega) (by omega) (by omega)
  · intro short a _ _ _ _
    omega

theorem inconsistent (k : Image) : ¬k.Consistent := by
  intro consistent
  obtain ⟨low, high⟩ := k.paging_covered 0x8000 (by omega) (by omega)
  exact consistent.image 0x8000 low (by omega) (by omega) (by omega)

end Image

/-- No image of these sources spares the paging structures, every byte of which is inside it. -/
theorem image_covers_paging (k : Image) :
    (∀ a, 0x8000 ≤ a → a < 0xC000 → 0x1000 ≤ a ∧ a < k.stop) ∧ ¬k.Consistent :=
  ⟨k.paging_covered, k.inconsistent⟩

/-- A kernel of 21300 bytes; behind the named objects of `.bss` come the history and the line of
the shell, the input ring of the console and the line of the GUI. -/
def builtImage : Image where
  text := 14336
  rodata := 6708
  data := 256
  bss := [.files, .screenBuffer, .scrollback, .other (8 * 128), .other 128, .other 128, .other 128]
  files := by simp
  screenBuffer := by simp
  scrollback := by simp

theorem built_image_covers_paging : ¬builtImage.Consistent := by
  intro consistent
  exact consistent.image 0x8000 (by decide) (by decide) (by decide) (by decide)

end LifeOS.Boot
