import LifeOS.Acpi.Parser
import LifeOS.Gui.Framebuffer

/-!
The addresses that the kernel computes beside the bootloader's identity map, which ends at
2 GiB: the pixels of the framebuffer and the structures of the firmware.
-/

namespace LifeOS.Boot
open LifeOS.Acpi LifeOS.Console LifeOS.Gui LifeOS.Library.Access LifeOS.Library.Memory
  LifeOS.Library.Strings

def Mapped (a : Addr) (size : Nat) : Prop := a.toNat + size ≤ 0x80000000

/-- Everything the kernel draws to, and everything it reads of the root table and of the
tables in it, is mapped. -/
structure AddressesMapped (m : Mem) (s : AcpiState) : Prop where
  cleared : ∀ color fb k, fbClear color fb k ≠ fb k → Mapped (pixelAddress k) 4
  drawn : ∀ x y color fb k, fbDrawPixel x y color fb k ≠ fb k → Mapped (pixelAddress k) 4
  parsed : ∀ r ∈ (acpiInit m s).reads, r.tag ≠ .segment → r.tag ≠ .rsdp → Mapped r.start r.size
  searched : ∀ sig, ∀ r ∈ (acpiGetTable m sig (acpiInit m s).value).reads, Mapped r.start r.size

theorem pixel_unmapped (k : Nat) (inside : k < fbHeight * fbWidth) : ¬Mapped (pixelAddress k) 4 := by
  have place := pixelAddress_toNat k inside
  unfold Mapped
  omega

theorem drawn_inside (x y : Int) (color : BitVec 32) (fb : Frame) (k : Nat)
    (changed : fbDrawPixel x y color fb k ≠ fb k) : k < fbHeight * fbWidth := by
  unfold fbDrawPixel at changed
  split at changed
  · exact (changed rfl).elim
  · rename_i clipped
    have here : k = pixelIndex x.toNat y.toNat := by
      by_contra other
      exact changed (setPixel_other _ _ color fb other)
    unfold fbWidth fbHeight at clipped
    rw [here]
    unfold pixelIndex fbPitch fbWidth fbHeight
    omega

theorem first_pixel_drawn (fb : Frame) : fbDrawPixel 0 0 (fb 0 + 1#32) fb 0 ≠ fb 0 := by
  have inside : ¬((0 : Int) < 0 ∨ (0 : Int) < 0 ∨ (0 : Int) ≥ fbWidth ∨ (0 : Int) ≥ fbHeight) := by
    decide
  unfold fbDrawPixel
  rw [if_neg inside]
  have stored : setPixel (pixelIndex 0 0) (fb 0 + 1#32) fb 0 = fb 0 + 1#32 := setPixel_self 0 _ fb
  rw [Int.toNat_zero, stored]
  bv_omega

/-- Whatever the memory holds, the framebuffer is outside the identity map, every pixel of it. -/
theorem framebuffer_never_mapped (m : Mem) (s : AcpiState) :
    (∀ x y color fb k, fbDrawPixel x y color fb k ≠ fb k → ¬Mapped (pixelAddress k) 4) ∧
      ¬AddressesMapped m s := by
  refine ⟨fun x y color fb k changed => pixel_unmapped k (drawn_inside x y color fb k changed), ?_⟩
  intro mapped
  exact pixel_unmapped 0 (by decide) (mapped.drawn 0 0 _ (fun _ => 0#32) 0 (first_pixel_drawn _))

theorem blank_memory_unmapped : ¬AddressesMapped (fun _ => 0#8) (AcpiState.boot Terminal.zeroed.con) := by
  intro mapped
  have first := mapped.drawn 0 0 1#32 (fun _ => 0#32) 0 (first_pixel_drawn (fun _ => 0#32))
  exact absurd first (by unfold Mapped; decide)

end LifeOS.Boot
