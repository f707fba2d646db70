import LifeOS.Gui.Shapes
import LifeOS.Library.Ints

/-!
The drawing functions of `gui/framebuffer.c` with the machine's `int`, where overflow, a
store outside the framebuffer, a glyph outside the font and a read past a string leave no
result. Where they have one it is that of the functions over all integers. What they draw on
is left open: each is written over a way to store a word of the framebuffer.
-/

namespace LifeOS.Gui.Machine
open LifeOS.Library.Ints LifeOS.Library.Loops LifeOS.Library.Paint LifeOS.Library.Strings

abbrev Glyphs := Vector (Vector Byte 8) 128

def storePixel (k : Nat) (color : BitVec 32) (fb : Frame) : Option Frame :=
  if k < fbHeight * fbWidth then some (setPixel k color fb) else none

section
variable {σ : Type} (plot : Nat → BitVec 32 → σ → Option σ)

def fbClearBy (color : BitVec 32) (s : σ) : Option σ :=
  forUp 0 fbHeight (fun y s => forUp 0 fbWidth (fun x s =>
    plot (BitVec.ofNat 32 y * BitVec.ofNat 32 (fbPitch / 4) + BitVec.ofNat 32 x).toNat color s) s) s

/-- `y * (fb_pitch/4) + x` is computed in `unsigned`. -/
def fbDrawPixelBy (x y : CInt) (color : BitVec 32) (s : σ) : Option σ :=
  if x.val < 0 ∨ y.val < 0 ∨ x.val ≥ fbWidth ∨ y.val ≥ fbHeight then some s
  else plot (y.toUnsigned * BitVec.ofNat 32 (fbPitch / 4) + x.toUnsigned).toNat color s

def fbDrawRectBy (x y w h : CInt) (color : BitVec 32) (s : σ) : Option σ :=
  forBelow 0 h (fun j s =>
    forBelow 0 w (fun i s => do
      let px ← x.add i
      let py ← y.add j
      fbDrawPixelBy plot px py color s) s) s

def fbDrawCharBy (font : Glyphs) (c : Byte) (x y : CInt) (color : BitVec 32) (s : σ) : Option σ := do
  let glyph ← load font c.toNat
  forBelow 0 8 (fun row s => do
    let bits ← load glyph row.val.toNat
    forBelow 0 8 (fun col s =>
      if bits &&& (1#8 <<< col.val.toNat) ≠ 0#8 then do
        let px ← x.add col
        let py ← y.add row
        fbDrawPixelBy plot px py color s
      else some s) s) s

end

def fbClear : BitVec 32 → Frame → Option Frame := fbClearBy storePixel

def fbDrawPixel : CInt → CInt → BitVec 32 → Frame → Option Frame := fbDrawPixelBy storePixel

def fbDrawRect : CInt → CInt → CInt → CInt → BitVec 32 → Frame → Option Frame := fbDrawRectBy storePixel

def fbDrawChar : Glyphs → Byte → CInt → CInt → BitVec 32 → Frame → Option Frame := fbDrawCharBy storePixel

def fbDrawText (font : Glyphs) : List Byte → CInt → CInt → BitVec 32 → Frame → Option Frame
  | [], _, _, _, _ => none
  | c :: str, x, y, color, fb =>
      if c ≠ 0#8 then do
        let fb ← fbDrawChar font c x y color fb
        let x ← x.add 8
        fbDrawText font str x y color fb
      else some fb

/-- The glyphs by character; a character from 128 on has none. -/
def rows (font : Glyphs) : Font := fun c row =>
  if inside : c.toNat < 128 then (font.get ⟨c.toNat, inside⟩).get row else 0#8

theorem storePixel_inside (x y : Nat) (column : x < fbWidth) (row : y < fbHeight) (color : BitVec 32) (fb : Frame) :
    storePixel (BitVec.ofNat 32 y * BitVec.ofNat 32 (fbPitch / 4) + BitVec.ofNat 32 x).toNat color fb =
      some (setPixel (pixelIndex x y) color fb) := by
  change x < 1024 at column
  change y < 768 at row
  have place : (BitVec.ofNat 32 y * BitVec.ofNat 32 (fbPitch / 4) + BitVec.ofNat 32 x).toNat = pixelIndex x y := by
    change ((y % 2 ^ 32 * 1024) % 2 ^ 32 + x % 2 ^ 32) % 2 ^ 32 = y * 1024 + x
    omega
  unfold storePixel
  rw [place, if_pos]
  change y * 1024 + x < 768 * 1024
  omega

theorem fbClear_eq (color : BitVec 32) (fb : Frame) : fbClear color fb = some (Gui.fbClear color fb) := by
  unfold fbClear fbClearBy
  apply forUp_eq fbHeight _ (fun y fb => forRange fbWidth (fun x fb => setPixel (pixelIndex x y) color fb) fb)
  intro y fb row
  apply forUp_eq
  intro x fb column
  exact storePixel_inside x y column row color fb

theorem fbDrawPixel_eq (x y : CInt) (color : BitVec 32) (fb : Frame) :
    fbDrawPixel x y color fb = some (Gui.fbDrawPixel x.val y.val color fb) := by
  unfold fbDrawPixel fbDrawPixelBy Gui.fbDrawPixel
  by_cases clipped : x.val < 0 ∨ y.val < 0 ∨ x.val ≥ fbWidth ∨ y.val ≥ fbHeight
  · rw [if_pos clipped, if_pos clipped]
  · rw [if_neg clipped, if_neg clipped]
    rw [x.toUnsigned_eq (by omega), y.toUnsigned_eq (by omega)]
    exact storePixel_inside x.val.toNat y.val.toNat (by omega) (by omega) color fb

theorem drawPixel_at {x y i j : CInt} (column : Fits (x.val + i.val)) (row : Fits (y.val + j.val))
    (color : BitVec 32) (fb : Frame) :
    (do let px ← x.add i
        let py ← y.add j
        fbDrawPixel px py color fb) = some (Gui.fbDrawPixel (x.val + i.val) (y.val + j.val) color fb) := by
  simp only [CInt.add_fits column, CInt.add_fits row, Option.bind_eq_bind, Option.bind_some, fbDrawPixel_eq]

theorem fbDrawRect_eq (x y w h : CInt) (wide : Fits (x.val + w.val)) (tall : Fits (y.val + h.val))
    (color : BitVec 32) (fb : Frame) :
    fbDrawRect x y w h color fb = some (Gui.fbDrawRect x.val y.val w.val h.val color fb) := by
  have left := x.low
  have top := y.low
  apply forBelow_eq
  intro j row fb below number
  apply forBelow_eq
  intro i column fb inside place
  rw [← number, ← place]
  apply drawPixel_at
  · unfold Fits at wide ⊢
    omega
  · unfold Fits at tall ⊢
    omega

theorem fbDrawChar_eq (font : Glyphs) (c : Byte) (x y : CInt) (known : c.toNat < 128) (wide : Fits (x.val + 8))
    (tall : Fits (y.val + 8)) (color : BitVec 32) (fb : Frame) :
    fbDrawChar font c x y color fb = some (Gui.fbDrawChar (rows font) c x.val y.val color fb) := by
  have left := x.low
  have top := y.low
  have glyph (row : Fin 8) : rows font c row = (font.get ⟨c.toNat, known⟩).get row := dif_pos known
  unfold fbDrawChar fbDrawCharBy
  rw [load_inside font c.toNat known, Option.bind_eq_bind, Option.bind_some]
  apply forBelow_const_eq 8 8 rfl
  intro row j fb number
  have below := row.isLt
  have bits : load font[c.toNat] j.val.toNat = some (rows font c row) := by
    rw [show j.val.toNat = row.val by omega, glyph, load_inside _ _ row.isLt]
    rfl
  rw [bits, Option.bind_eq_bind, Option.bind_some]
  apply forBelow_const_eq 8 8 rfl
  intro col i fb place
  have beside := col.isLt
  rw [show i.val.toNat = col.val by omega, ← place, ← number]
  by_cases bit : rows font c row &&& (1#8 <<< col.val) ≠ 0#8
  · rw [if_pos bit, if_pos bit]
    apply drawPixel_at
    · unfold Fits at wide ⊢
      omega
    · unfold Fits at tall ⊢
      omega
  · rw [if_neg bit, if_neg bit]

/-- A terminated text below the character 128 whose glyphs end within the range of `int`. -/
theorem fbDrawText_eq (font : Glyphs) (str : List Byte) (x y : CInt) (terminated : 0#8 ∈ str)
    (known : ∀ c ∈ text str, c.toNat < 128) (wide : Fits (x.val + 8 * (text str).length))
    (tall : Fits (y.val + 8)) (color : BitVec 32) (fb : Frame) :
    fbDrawText font str x y color fb = some (Gui.fbDrawText (rows font) (text str) x.val y.val color fb) := by
  induction str generalizing x fb with
  | nil => exact absurd terminated List.not_mem_nil
  | cons c str ih =>
    by_cases ended : c = 0#8
    · rw [fbDrawText, if_neg (not_not_intro ended), text_cons, if_pos ended]
      rfl
    · rw [text_cons, if_neg ended] at known wide ⊢
      rw [List.length_cons] at wide
      have left := x.low
      have first : Fits (x.val + 8) := by
        unfold Fits at wide ⊢
        omega
      have next : Fits (x.val + 8 + 8 * (text str).length) := by
        unfold Fits at wide ⊢
        omega
      have rest := ih ⟨x.val + 8, first.1, first.2⟩ ((List.mem_cons.mp terminated).resolve_left (Ne.symm ended))
        (fun d member => known d (List.mem_cons_of_mem c member)) next
        (Gui.fbDrawChar (rows font) c x.val y.val color fb)
      rw [fbDrawText, if_pos ended, fbDrawChar_eq font c x y (known c List.mem_cons_self) first tall,
        Option.bind_eq_bind, Option.bind_some]
      have step : x.add 8 = some ⟨x.val + 8, first.1, first.2⟩ := CInt.add_fits first
      rw [step, Option.bind_eq_bind, Option.bind_some]
      exact rest

/-- A drawing that has the given colour at exactly the pixels of the shape on the screen, and
leaves every other word of the framebuffer and behind it as it was. -/
structure Clipped (shape : Shape) (color : BitVec 32) (fb fb' : Frame) : Prop where
  inside : ∀ px py : Nat, px < fbWidth → py < fbHeight → ((px : Int), (py : Int)) ∈ shape →
    fb' (pixelIndex px py) = color
  outside : ∀ px py : Nat, px < fbWidth → py < fbHeight → ((px : Int), (py : Int)) ∉ shape →
    fb' (pixelIndex px py) = fb (pixelIndex px py)
  beyond : ∀ k, fbHeight * fbWidth ≤ k → fb' k = fb k

theorem clipped_of_draws {f : Frame → Frame} {shape : Shape} {color : BitVec 32} (draws : Draws f shape color)
    (fb : Frame) : Clipped shape color fb (f fb) := by
  refine ⟨?_, ?_, fun k far => draws.outside fb k (not_onScreen_beyond shape k far)⟩
  · intro px py column row member
    exact draws.inside fb _ ((onScreen_pixel shape px py column row).mpr member)
  · intro px py column row away
    exact draws.outside fb _ (fun shown => away ((onScreen_pixel shape px py column row).mp shown))

inductive DrawCall where
  | rect (x y w h : CInt)
  | char (c : Byte) (x y : CInt)
  | text (str : CString) (x y : CInt)

namespace DrawCall

def perform (font : Glyphs) (color : BitVec 32) : DrawCall → Frame → Option Frame
  | rect x y w h => fbDrawRect x y w h color
  | char c x y => fbDrawChar font c x y color
  | text str x y => fbDrawText font str.object x y color

def shape (font : Glyphs) : DrawCall → Shape
  | rect x y w h => rectangle x.val y.val w.val h.val
  | char c x y => glyph (rows font) c x.val y.val
  | text str x y => textShape (rows font) str.text x.val y.val

/-- The positions plus the extents are `int`s, and the characters have glyphs. -/
def InRange : DrawCall → Prop
  | rect x y w h => Fits (x.val + w.val) ∧ Fits (y.val + h.val)
  | char c x y => c.toNat < 128 ∧ Fits (x.val + 8) ∧ Fits (y.val + 8)
  | text str x y => (∀ c ∈ str.text, c.toNat < 128) ∧ Fits (x.val + 8 * str.text.length) ∧ Fits (y.val + 8)

end DrawCall

/-- Drawing stays inside the framebuffer and clips the shape to the screen. -/
theorem drawing_clipped (font : Glyphs) (call : DrawCall) (color : BitVec 32) (fb : Frame) (inRange : call.InRange) :
    ∃ fb', call.perform font color fb = some fb' ∧ Clipped (call.shape font) color fb fb' := by
  cases call with
  | rect x y w h =>
    obtain ⟨wide, tall⟩ := inRange
    exact ⟨_, fbDrawRect_eq x y w h wide tall color fb, clipped_of_draws (fbDrawRect_draws _ _ _ _ color) fb⟩
  | char c x y =>
    obtain ⟨known, wide, tall⟩ := inRange
    exact ⟨_, fbDrawChar_eq font c x y known wide tall color fb,
      clipped_of_draws (fbDrawChar_draws (rows font) c _ _ color) fb⟩
  | text str x y =>
    obtain ⟨known, wide, tall⟩ := inRange
    exact ⟨_, fbDrawText_eq font str.object x y str.terminated known wide tall color fb,
      clipped_of_draws (fbDrawText_draws (rows font) str.text _ _ color) fb⟩

def cornerSquare : DrawCall :=
  .rect ⟨-3, by decide, by decide⟩ ⟨-3, by decide, by decide⟩ 8 8

def blankGlyphs : Glyphs := Vector.replicate 128 (Vector.replicate 8 0#8)

theorem corner_clipped :
    cornerSquare.InRange ∧ ∃ fb', cornerSquare.perform blankGlyphs 1#32 (fun _ => 0#32) = some fb' ∧
      Clipped (cornerSquare.shape blankGlyphs) 1#32 (fun _ => 0#32) fb' := by
  have inRange : cornerSquare.InRange := by
    unfold cornerSquare DrawCall.InRange
    decide
  exact ⟨inRange, drawing_clipped blankGlyphs cornerSquare 1#32 (fun _ => 0#32) inRange⟩

end LifeOS.Gui.Machine
