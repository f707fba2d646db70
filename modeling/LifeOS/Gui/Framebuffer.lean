import LifeOS.Library.Loops
import LifeOS.Library.Memory

/-!
The linear framebuffer of `gui/framebuffer.c` as the array `fb` of 32-bit pixels. `fb_init`
assigns what the static data holds already, so base, size and pitch are constants.
-/

namespace LifeOS.Gui
open LifeOS.Library.Loops LifeOS.Library.Memory

abbrev Frame := Nat → BitVec 32

def fbWidth : Nat := 1024

def fbHeight : Nat := 768

def fbPitch : Nat := fbWidth * 4

def pixelIndex (x y : Nat) : Nat := y * (fbPitch / 4) + x

def pixelAddress (k : Nat) : Addr := 0xE0000000#64 + BitVec.ofNat 64 (4 * k)

theorem pixelAddress_toNat (k : Nat) (inside : k < fbHeight * fbWidth) : (pixelAddress k).toNat = 0xE0000000 + 4 * k := by
  have few : k < 786432 := inside
  unfold pixelAddress
  rw [BitVec.toNat_add, BitVec.toNat_ofNat, BitVec.toNat_ofNat]
  omega

def setPixel (k : Nat) (color : BitVec 32) (fb : Frame) : Frame := Function.update fb k color

@[simp]
theorem setPixel_self (k : Nat) (color : BitVec 32) (fb : Frame) : setPixel k color fb k = color := by
  unfold setPixel
  rw [Function.update_self]

theorem setPixel_other (k j : Nat) (color : BitVec 32) (fb : Frame) (other : j ≠ k) :
    setPixel k color fb j = fb j := by
  unfold setPixel
  rw [Function.update_of_ne other]

def fbClear (color : BitVec 32) (fb : Frame) : Frame :=
  forFin fbHeight (fun y fb => forFin fbWidth (fun x fb => setPixel (pixelIndex x y) color fb) fb) fb

def fbDrawPixel (x y : Int) (color : BitVec 32) (fb : Frame) : Frame :=
  if x < 0 ∨ y < 0 ∨ x ≥ fbWidth ∨ y ≥ fbHeight then fb
  else setPixel (pixelIndex x.toNat y.toNat) color fb

end LifeOS.Gui
