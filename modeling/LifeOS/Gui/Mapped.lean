import LifeOS.Gui.Line
import LifeOS.Library.Paging

/-!
The redraw of `gui/gui.c` on the machine's memory. A pixel is a word at an address of the
framebuffer, which the processor translates by the tables that the memory holds itself.
-/

namespace LifeOS.Gui.Mapped
open LifeOS.Gui.Machine (Glyphs rows redrawBy fbClearBy fbDrawPixelBy fbDrawRectBy fbDrawCharBy charCall startX
  data Legible redrawBy_eq)
open LifeOS.Library.Ints LifeOS.Library.Loops LifeOS.Library.Memory LifeOS.Library.Paging LifeOS.Library.Strings

/-- `fb[k] = color`. There is no result on a page fault, and none where the word lies in the 2 GiB that
the loader maps to itself, which hold the kernel's own data. -/
def storePixel (k : Nat) (color : BitVec 32) (m : Mem) : Option Mem := do
  let place ← storeTarget m 0x8000#64 (pixelAddress k)
  if place.toNat < 0x80000000 then none else some (write32 m place color)

def redraw : Glyphs → Vector Byte 128 → Unsigned → Mem → Option Mem := redrawBy storePixel

def frameOf (m : Mem) : Frame := fun k =>
  ((storeTarget m 0x8000#64 (pixelAddress k)).map (read32 m)).getD 0#32

def frameBytes : Nat := 4 * (fbHeight * fbWidth)

/-- The framebuffer is a block of memory behind the kernel's own. The tables that lead to it lie outside
the block, so whatever is drawn they still do. -/
structure MappedAt (start : Addr) (m : Mem) : Prop where
  apart : 0x80000000 ≤ start.toNat
  fits : start.toNat + frameBytes ≤ 2 ^ 64
  leads : ∀ after, SameOutside start.toNat frameBytes m after → ∀ k < fbHeight * fbWidth,
    storeTarget after 0x8000#64 (pixelAddress k) = some (start + BitVec.ofNat 64 (4 * k))

/-- What drawing has made of a memory when the frame shows `fb`. -/
structure Drawn (start : Addr) (before : Mem) (fb : Frame) (after : Mem) : Prop where
  outside : SameOutside start.toNat frameBytes before after
  pixels : ∀ k < fbHeight * fbWidth, read32 after (start + BitVec.ofNat 64 (4 * k)) = fb k

section
variable {start : Addr} {m : Mem} (mapped : MappedAt start m)
include mapped

theorem MappedAt.place (k : Nat) (inside : k < fbHeight * fbWidth) :
    (start + BitVec.ofNat 64 (4 * k)).toNat = start.toNat + 4 * k := by
  have fits : start.toNat + 3145728 ≤ 2 ^ 64 := mapped.fits
  have few : k < 786432 := inside
  rw [BitVec.toNat_add, BitVec.toNat_ofNat]
  omega

theorem MappedAt.frameOf_eq {after : Mem} {fb : Frame} (drawn : Drawn start m fb after) (k : Nat)
    (inside : k < fbHeight * fbWidth) : frameOf after k = fb k := by
  unfold frameOf
  rw [mapped.leads after drawn.outside k inside]
  exact drawn.pixels k inside

theorem MappedAt.undrawn : Drawn start m (frameOf m) m := by
  refine ⟨SameOutside.refl _ _ m, ?_⟩
  intro k inside
  unfold frameOf
  rw [mapped.leads m (SameOutside.refl _ _ m) k inside]
  rfl

theorem MappedAt.kept {after : Mem} (same : SameOutside start.toNat frameBytes m after) : MappedAt start after :=
  ⟨mapped.apart, mapped.fits, fun later drawn => mapped.leads later (same.trans drawn)⟩

theorem MappedAt.store_follows (k : Nat) (color : BitVec 32) :
    Follows (Drawn start m) (Machine.storePixel k color) (storePixel k color) := by
  intro fb before fb' drawn stored
  unfold Machine.storePixel at stored
  split_ifs at stored with inside
  rw [← Option.some.inj stored]
  have few : k < 786432 := inside
  have fits : start.toNat + 3145728 ≤ 2 ^ 64 := mapped.fits
  have apart := mapped.apart
  have place := mapped.place k inside
  have high : ¬(start + BitVec.ofNat 64 (4 * k)).toNat < 0x80000000 := by omega
  have changed := write32_outside before (start + BitVec.ofNat 64 (4 * k)) color (by omega)
  refine ⟨write32 before (start + BitVec.ofNat 64 (4 * k)) color, ?_, ?_, ?_⟩
  · unfold storePixel
    rw [mapped.leads before drawn.outside k inside]
    exact if_neg high
  · apply drawn.outside.trans (changed.widen _ _)
    · omega
    · rw [place]
      change _ ≤ start.toNat + 3145728
      omega
  · intro j within
    by_cases same : j = k
    · rw [same, read32_write32_same, setPixel_self]
    · have there := mapped.place j within
      have least : j < 786432 := within
      rw [setPixel_other k j color fb same, ← drawn.pixels j within]
      exact changed.read32_eq _ (by omega) (by omega)

end

section
variable {σ τ : Type} {related : σ → τ → Prop} {plot : Nat → BitVec 32 → σ → Option σ}
  {other : Nat → BitVec 32 → τ → Option τ} (plots : ∀ k color, Follows related (plot k color) (other k color))
include plots

theorem fbClearBy_follows (color : BitVec 32) : Follows related (fbClearBy plot color) (fbClearBy other color) :=
  forUp_follows _ _ _ _ fun _ => forUp_follows _ _ _ _ fun _ => plots _ color

theorem fbDrawPixelBy_follows (x y : CInt) (color : BitVec 32) :
    Follows related (fbDrawPixelBy plot x y color) (fbDrawPixelBy other x y color) := by
  unfold fbDrawPixelBy
  split_ifs
  · exact Follows.nothing
  · exact plots _ color

theorem fbDrawRectBy_follows (x y w h : CInt) (color : BitVec 32) :
    Follows related (fbDrawRectBy plot x y w h color) (fbDrawRectBy other x y w h color) :=
  forBelow_follows _ _ _ _ fun j => forBelow_follows _ _ _ _ fun i =>
    Follows.given (x.add i) fun px => Follows.given (y.add j) fun py => fbDrawPixelBy_follows plots px py color

theorem fbDrawCharBy_follows (font : Glyphs) (c : Byte) (x y : CInt) (color : BitVec 32) :
    Follows related (fbDrawCharBy plot font c x y color) (fbDrawCharBy other font c x y color) := by
  refine Follows.given (load font c.toNat) fun glyph => forBelow_follows _ _ _ _ fun row =>
    Follows.given (load glyph row.val.toNat) fun bits => forBelow_follows _ _ _ _ fun col => ?_
  by_cases bit : bits &&& (1#8 <<< col.val.toNat) ≠ 0#8
  · simp only [if_pos bit]
    exact Follows.given (x.add col) fun px => Follows.given (y.add row) fun py =>
      fbDrawPixelBy_follows plots px py color
  · simp only [if_neg bit]
    exact Follows.nothing

theorem redrawBy_follows (font : Glyphs) (inputBuf : Vector Byte 128) (inputLen : Unsigned) :
    Follows related (redrawBy plot font inputBuf inputLen) (redrawBy other font inputBuf inputLen) :=
  (fbClearBy_follows plots _).andThen <| Follows.given (startX inputLen) fun start =>
    (fbDrawRectBy_follows plots _ _ _ _ _).andThen <| forUp_follows _ _ _ _ fun i =>
      Follows.given (charCall inputBuf start (BitVec.ofNat 32 i)) fun call =>
        fbDrawCharBy_follows plots font call.1 call.2.1 call.2.2 _

end

/-- On a mapped framebuffer the redraw comes back, shows what it shows on an array, and leaves the rest of
the memory as it was. -/
theorem redraw_mapped (font : Glyphs) (g : InputLine) (legible : Legible g) (m : Mem) (start : Addr)
    (mapped : MappedAt start m) (same : g.fb = frameOf m) :
    ∃ after, redraw font (data g).inputBuf (data g).inputLen m = some after ∧
      SameOutside start.toNat frameBytes m after ∧
      ∀ k < fbHeight * fbWidth, frameOf after k = (Gui.redraw (rows font) g).fb k := by
  have undrawn := mapped.undrawn
  rw [← same] at undrawn
  obtain ⟨after, ran, drawn⟩ := redrawBy_follows mapped.store_follows font (data g).inputBuf (data g).inputLen
    g.fb m _ undrawn (redrawBy_eq font g legible)
  exact ⟨after, ran, drawn.outside, fun k inside => mapped.frameOf_eq drawn k inside⟩

/-- Without a translation for the first pixel, the first store of `fb_clear` faults. -/
theorem redraw_faults (font : Glyphs) (inputBuf : Vector Byte 128) (inputLen : Unsigned) (m : Mem)
    (unmapped : storeTarget m 0x8000#64 (pixelAddress 0) = none) : redraw font inputBuf inputLen m = none := by
  have first (color : BitVec 32) : storePixel 0 color m = none := by
    unfold storePixel
    rw [unmapped]
    rfl
  have stops {n : Nat} {body : Nat → Mem → Option Mem} (faults : body 0 m = none) : forUp 0 (n + 1) body m = none := by
    rw [forUp, faults]
    rfl
  have cleared : fbClearBy storePixel 0xFFFFFFFF#32 m = none := by
    unfold fbClearBy
    change forUp 0 (767 + 1) _ m = none
    apply stops
    change forUp 0 (1023 + 1) _ m = none
    apply stops
    exact first 0xFFFFFFFF#32
  unfold redraw redrawBy
  rw [cleared]
  rfl

end LifeOS.Gui.Mapped
