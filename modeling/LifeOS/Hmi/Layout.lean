import LifeOS.Hmi.Pane

/-!
The layout of the panes. There are ten ways to choose a number of panes and the active one
among them, so what holds of the sizes is checked for each.
-/

namespace LifeOS.Hmi
open LifeOS.Library.Loops LifeOS.Library.Strings

/-- The sizes of the panes, as the array entries that the layout has set. -/
def sizes (total : BitVec 32) (a : Axis) (first : Fin 4 → BitVec 32) : List Nat :=
  List.ofFn fun i : Fin a.grid => (layoutAxis total a first (entry a i)).toNat

def edge (total : BitVec 32) (a : Axis) (i : Nat) : Nat :=
  ((sizes total a (fun _ => 0#32)).take i).sum

theorem sizes_independent (total : BitVec 32) (a : Axis) (first second : Fin 4 → BitVec 32) :
    sizes total a first = sizes total a second := by
  unfold sizes
  congr 1
  funext i
  rw [layoutAxis_independent total a first second i]

/-- What the layout of one direction is to be, with the positions that the drawing uses. -/
structure LaidOut (total : BitVec 32) (a : Axis) : Prop where
  positive : ∀ size ∈ sizes total a (fun _ => 0#32), 0 < size
  whole : (sizes total a (fun _ => 0#32)).sum = total.toNat
  boundaries : ∀ i : Fin (a.grid - 1),
    (boundary a (positions a (layoutAxis total a (fun _ => 0#32))) i).toNat = edge total a (i.val + 1) ∧
      edge total a (i.val + 1) + 1 < total.toNat
  start : (positions a (layoutAxis total a (fun _ => 0#32)) (entry a ⟨a.active, a.inside⟩)).toNat =
      edge total a a.active ∧ edge total a a.active + 1 < total.toNat

instance (total : BitVec 32) (a : Axis) : Decidable (LaidOut total a) :=
  decidable_of_iff
    ((∀ size ∈ sizes total a (fun _ => 0#32), 0 < size) ∧
      (sizes total a (fun _ => 0#32)).sum = total.toNat ∧
      (∀ i : Fin (a.grid - 1),
        (boundary a (positions a (layoutAxis total a (fun _ => 0#32))) i).toNat = edge total a (i.val + 1) ∧
          edge total a (i.val + 1) + 1 < total.toNat) ∧
      (positions a (layoutAxis total a (fun _ => 0#32)) (entry a ⟨a.active, a.inside⟩)).toNat =
          edge total a a.active ∧ edge total a a.active + 1 < total.toNat)
    ⟨fun ⟨positive, whole, boundaries, start⟩ => ⟨positive, whole, boundaries, start⟩,
      fun ⟨positive, whole, boundaries, start⟩ => ⟨positive, whole, boundaries, start⟩⟩

/-- A property of an axis holds of all when it holds of the ten. -/
theorem axis_cases (holds : Axis → Prop)
    (one : holds ⟨1, 0, by decide, by decide⟩)
    (two : ∀ k : Fin 2, holds ⟨2, k.val, by decide, k.isLt⟩)
    (three : ∀ k : Fin 3, holds ⟨3, k.val, by decide, k.isLt⟩)
    (four : ∀ k : Fin 4, holds ⟨4, k.val, by decide, k.isLt⟩) (a : Axis) : holds a := by
  obtain ⟨grid, active, few, inside⟩ := a
  have sizes : grid = 1 ∨ grid = 2 ∨ grid = 3 ∨ grid = 4 := by omega
  rcases sizes with rfl | rfl | rfl | rfl
  · have zero : active = 0 := by omega
    subst zero
    exact one
  · exact two ⟨active, inside⟩
  · exact three ⟨active, inside⟩
  · exact four ⟨active, inside⟩

theorem laidOut_columns (a : Axis) : LaidOut 80#32 a := by
  apply axis_cases (LaidOut 80#32) <;> decide +kernel

theorem laidOut_rows (a : Axis) : LaidOut 25#32 a := by
  apply axis_cases (LaidOut 25#32) <;> decide +kernel

/-- The positions depend on the layout alone, so not on what the arrays held. -/
theorem positions_independent (total : BitVec 32) (a : Axis) (first second : Fin 4 → BitVec 32) :
    positions a (layoutAxis total a first) = positions a (layoutAxis total a second) := by
  have same (i : Nat) (before : i < a.grid - 1) (bound : i < 4) :
      layoutAxis total a first ⟨i, bound⟩ = layoutAxis total a second ⟨i, bound⟩ :=
    layoutAxis_independent total a first second ⟨i, Nat.lt_of_lt_pred before⟩
  unfold positions
  congr 1
  funext i pos
  dsimp only
  rw [same i.val i.isLt]

end LifeOS.Hmi
