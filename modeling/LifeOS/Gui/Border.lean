import LifeOS.Gui.Machine

/-!
`gui_draw_pane_border` of `gui/gui.c`.
-/

namespace LifeOS.Gui.Machine
open LifeOS.Library.Ints LifeOS.Library.Loops

structure Pane where
  x : CInt
  y : CInt
  width : CInt
  height : CInt
  borderColor : BitVec 32

def guiDrawPaneBorder (p : Pane) (fb : Frame) : Option Frame := do
  let right ← p.x.add p.width
  let x2 ← right.sub 1
  let bottom ← p.y.add p.height
  let y2 ← bottom.sub 1
  let fb ← forUpTo p.x x2 (fun x fb => do
    let fb ← fbDrawPixel x p.y p.borderColor fb
    fbDrawPixel x y2 p.borderColor fb) fb
  forUpTo p.y y2 (fun y fb => do
    let fb ← fbDrawPixel p.x y p.borderColor fb
    fbDrawPixel x2 y p.borderColor fb) fb

structure Pane.InRange (p : Pane) : Prop where
  right : Fits (p.x.val + p.width.val)
  x2 : Fits (p.x.val + p.width.val - 1)
  bottom : Fits (p.y.val + p.height.val)
  y2 : Fits (p.y.val + p.height.val - 1)

/-- The edges of the rectangle of the pane; it is empty when a size is not positive. -/
def Pane.perimeter (p : Pane) : Shape :=
  {q | q ∈ rectangle p.x.val p.y.val p.width.val p.height.val ∧
    (q.1 = p.x.val ∨ q.1 = p.x.val + p.width.val - 1 ∨ q.2 = p.y.val ∨ q.2 = p.y.val + p.height.val - 1)}

/-- The edges that one loop draws while the other size is not positive. -/
def Pane.strayEdges (p : Pane) : Shape :=
  {q | (p.width.val ≤ 0 ∧ (p.y.val ≤ q.2 ∧ q.2 < p.y.val + p.height.val) ∧
      (q.1 = p.x.val ∨ q.1 = p.x.val + p.width.val - 1)) ∨
    (p.height.val ≤ 0 ∧ (p.x.val ≤ q.1 ∧ q.1 < p.x.val + p.width.val) ∧
      (q.2 = p.y.val ∨ q.2 = p.y.val + p.height.val - 1))}

def Pane.rows (p : Pane) (fb : Frame) : Frame :=
  forRange p.width.val.toNat (fun i fb =>
    Gui.fbDrawPixel (p.x.val + i) (p.y.val + p.height.val - 1) p.borderColor
      (Gui.fbDrawPixel (p.x.val + i) p.y.val p.borderColor fb)) fb

def Pane.columns (p : Pane) (fb : Frame) : Frame :=
  forRange p.height.val.toNat (fun j fb =>
    Gui.fbDrawPixel (p.x.val + p.width.val - 1) (p.y.val + j) p.borderColor
      (Gui.fbDrawPixel p.x.val (p.y.val + j) p.borderColor fb)) fb

theorem twoPixels_eq (x y x' y' : CInt) (color : BitVec 32) (fb : Frame) :
    ((fbDrawPixel x y color fb).bind fun fb => fbDrawPixel x' y' color fb) =
      some (Gui.fbDrawPixel x'.val y'.val color (Gui.fbDrawPixel x.val y.val color fb)) := by
  rw [fbDrawPixel_eq, Option.bind_some, fbDrawPixel_eq]

theorem guiDrawPaneBorder_eq (p : Pane) (inRange : p.InRange) (fb : Frame) :
    guiDrawPaneBorder p fb = some (p.columns (p.rows fb)) := by
  obtain ⟨right, x2, bottom, y2⟩ := inRange
  have across : p.x.val + p.width.val - 1 + 1 - p.x.val = p.width.val := by omega
  have down : p.y.val + p.height.val - 1 + 1 - p.y.val = p.height.val := by omega
  have high := right.2
  have high' := bottom.2
  have rows := forUpTo_eq
    (fun x fb => (fbDrawPixel x p.y p.borderColor fb).bind fun fb =>
      fbDrawPixel x ⟨p.y.val + p.height.val - 1, y2.1, y2.2⟩ p.borderColor fb)
    (fun i fb => Gui.fbDrawPixel (p.x.val + i) (p.y.val + p.height.val - 1) p.borderColor
      (Gui.fbDrawPixel (p.x.val + i) p.y.val p.borderColor fb))
    p.x ⟨p.x.val + p.width.val - 1, x2.1, x2.2⟩ fb (by dsimp only; omega)
    (fun k i t _ place => by rw [twoPixels_eq, place])
  have columns := forUpTo_eq
    (fun y fb => (fbDrawPixel p.x y p.borderColor fb).bind fun fb =>
      fbDrawPixel ⟨p.x.val + p.width.val - 1, x2.1, x2.2⟩ y p.borderColor fb)
    (fun j fb => Gui.fbDrawPixel (p.x.val + p.width.val - 1) (p.y.val + j) p.borderColor
      (Gui.fbDrawPixel p.x.val (p.y.val + j) p.borderColor fb))
    p.y ⟨p.y.val + p.height.val - 1, y2.1, y2.2⟩ (p.rows fb) (by dsimp only; omega)
    (fun k i t _ place => by rw [twoPixels_eq, place])
  dsimp only at rows columns
  rw [across] at rows
  rw [down] at columns
  have farColumn : CInt.sub ⟨p.x.val + p.width.val, right.1, right.2⟩ 1 =
      some ⟨p.x.val + p.width.val - 1, x2.1, x2.2⟩ := CInt.sub_fits x2
  have farRow : CInt.sub ⟨p.y.val + p.height.val, bottom.1, bottom.2⟩ 1 =
      some ⟨p.y.val + p.height.val - 1, y2.1, y2.2⟩ := CInt.sub_fits y2
  unfold guiDrawPaneBorder
  simp only [CInt.add_fits right, CInt.add_fits bottom, farColumn, farRow, Option.bind_eq_bind, Option.bind_some]
  rw [rows, Option.bind_some]
  exact columns

theorem rows_draws (p : Pane) : Draws p.rows (⋃ i : Fin p.width.val.toNat,
    point (p.x.val + i.val) p.y.val ∪ point (p.x.val + i.val) (p.y.val + p.height.val - 1)) p.borderColor :=
  Draws.loop (fun i : Fin p.width.val.toNat => Draws.andThen
    (fbDrawPixel_draws (p.x.val + i.val) p.y.val p.borderColor)
    (fbDrawPixel_draws (p.x.val + i.val) (p.y.val + p.height.val - 1) p.borderColor))

theorem columns_draws (p : Pane) : Draws p.columns (⋃ j : Fin p.height.val.toNat,
    point p.x.val (p.y.val + j.val) ∪ point (p.x.val + p.width.val - 1) (p.y.val + j.val)) p.borderColor :=
  Draws.loop (fun j : Fin p.height.val.toNat => Draws.andThen
    (fbDrawPixel_draws p.x.val (p.y.val + j.val) p.borderColor)
    (fbDrawPixel_draws (p.x.val + p.width.val - 1) (p.y.val + j.val) p.borderColor))

theorem border_draws (p : Pane) :
    Draws (fun fb => p.columns (p.rows fb)) (p.perimeter ∪ p.strayEdges) p.borderColor := by
  apply (Draws.andThen (rows_draws p) (columns_draws p)).congr
  rintro ⟨qx, qy⟩
  simp only [Set.mem_union, Set.mem_iUnion, point, Set.mem_ofPred_eq, Prod.mk.injEq, Pane.perimeter, Pane.strayEdges,
    rectangle]
  constructor
  · rintro (⟨i, ⟨rfl, rfl⟩ | ⟨rfl, rfl⟩⟩ | ⟨j, ⟨rfl, rfl⟩ | ⟨rfl, rfl⟩⟩)
    all_goals omega
  · intro member
    by_cases across : (p.x.val ≤ qx ∧ qx < p.x.val + p.width.val) ∧ (qy = p.y.val ∨ qy = p.y.val + p.height.val - 1)
    · refine Or.inl ⟨⟨(qx - p.x.val).toNat, by omega⟩, ?_⟩
      dsimp only
      omega
    · refine Or.inr ⟨⟨(qy - p.y.val).toNat, by omega⟩, ?_⟩
      dsimp only
      omega

theorem perimeter_disjoint (p : Pane) (q : Int × Int) (stray : q ∈ p.strayEdges) : q ∉ p.perimeter := by
  obtain ⟨qx, qy⟩ := q
  simp only [Set.mem_ofPred_eq, Pane.perimeter, Pane.strayEdges, rectangle] at stray ⊢
  omega

/-- The border is exact if and only if the stray edges on the screen have its colour already. -/
theorem border_exact_iff (p : Pane) (inRange : p.InRange) (fb : Frame) :
    (∃ fb', guiDrawPaneBorder p fb = some fb' ∧ Clipped p.perimeter p.borderColor fb fb') ↔
      ∀ px py : Nat, px < fbWidth → py < fbHeight → ((px : Int), (py : Int)) ∈ p.strayEdges →
        fb (pixelIndex px py) = p.borderColor := by
  have drawn := clipped_of_draws (border_draws p) fb
  rw [guiDrawPaneBorder_eq p inRange fb]
  constructor
  · rintro ⟨fb', ran, exact_border⟩ px py column row stray
    obtain rfl := Option.some.inj ran
    rw [← exact_border.outside px py column row (perimeter_disjoint p _ stray)]
    exact drawn.inside px py column row (Or.inr stray)
  · intro coloured
    refine ⟨_, rfl, ?_, ?_, drawn.beyond⟩
    · exact fun px py column row member => drawn.inside px py column row (Or.inl member)
    · intro px py column row away
      by_cases stray : ((px : Int), (py : Int)) ∈ p.strayEdges
      · rw [coloured px py column row stray]
        exact drawn.inside px py column row (Or.inr stray)
      · exact drawn.outside px py column row (fun either => either.elim away stray)

/-- Two columns of five pixels are drawn for a pane of width zero. -/
def emptyPane : Pane :=
  ⟨100, 100, 0, 5, 0xFF#32⟩

theorem emptyPane_inRange : emptyPane.InRange := by
  refine ⟨?_, ?_, ?_, ?_⟩
  all_goals
    unfold emptyPane
    decide

theorem empty_pane_drawn :
    ¬∃ fb', guiDrawPaneBorder emptyPane (fun _ => 0#32) = some fb' ∧
      Clipped emptyPane.perimeter emptyPane.borderColor (fun _ => 0#32) fb' := by
  rintro ⟨fb', ran, exact_border⟩
  rw [guiDrawPaneBorder_eq emptyPane emptyPane_inRange] at ran
  obtain rfl := Option.some.inj ran
  have stray : (((100 : Nat) : Int), ((100 : Nat) : Int)) ∈ emptyPane.strayEdges := by
    refine Or.inl ⟨by decide, by decide, Or.inl rfl⟩
  have coloured := (clipped_of_draws (border_draws emptyPane) (fun _ => 0#32)).inside 100 100 (by decide) (by decide)
    (Or.inr stray)
  have kept := exact_border.outside 100 100 (by decide) (by decide) (perimeter_disjoint emptyPane _ stray)
  exact absurd (coloured.symm.trans kept) (by decide)

/-- A framebuffer that has the colour everywhere. -/
theorem coloured_border :
    emptyPane.InRange ∧ ((∃ fb', guiDrawPaneBorder emptyPane (fun _ => 0xFF#32) = some fb' ∧
        Clipped emptyPane.perimeter emptyPane.borderColor (fun _ => 0xFF#32) fb') ↔
      ∀ px py : Nat, px < fbWidth → py < fbHeight → ((px : Int), (py : Int)) ∈ emptyPane.strayEdges →
        (fun _ => 0xFF#32 : Frame) (pixelIndex px py) = emptyPane.borderColor) :=
  ⟨emptyPane_inRange, border_exact_iff emptyPane emptyPane_inRange (fun _ => 0xFF#32)⟩

end LifeOS.Gui.Machine
