import Mathlib.Algebra.GroupWithZero.Nat
import Mathlib.Logic.Function.Basic
import Mathlib.Data.List.Basic

/-!
Circular buffers of a fixed capacity: the contents read from a start index for a
number of entries, and what a store at either end does to them. Start indices are
plain numbers; only their residue modulo the capacity matters.
-/

namespace LifeOS.Library.Ring

variable {α : Type*} {cap : Nat} [NeZero cap]

def slot (cap : Nat) [NeZero cap] (start offset : Nat) : Fin cap :=
  Fin.ofNat cap (start + offset)

/-- `count` entries, oldest first, read from `start`. -/
def contents (slots : Fin cap → α) (start count : Nat) : List α :=
  (List.range count).map (fun offset => slots (slot cap start offset))

theorem slot_val (start offset : Nat) : (slot cap start offset).val = (start + offset) % cap := rfl

theorem slot_mod (start offset : Nat) : slot cap (start % cap) offset = slot cap start offset := by
  apply Fin.ext
  simp only [slot_val, Nat.mod_add_mod]

theorem slot_succ (start offset : Nat) : slot cap (start + 1) offset = slot cap start (offset + 1) := by
  apply Fin.ext
  simp only [slot_val]
  congr 1
  omega

theorem slot_ne (start first second : Nat) (order : first < second) (near : second < first + cap) :
    slot cap start first ≠ slot cap start second := by
  intro same
  have residues : (start + second) % cap = (start + first) % cap := congrArg Fin.val same.symm
  have gap := Nat.sub_mod_eq_zero_of_mod_eq residues
  have small : start + second - (start + first) = second - first := by omega
  rw [small, Nat.mod_eq_of_lt (by omega)] at gap
  omega

@[simp]
theorem contents_length (slots : Fin cap → α) (start count : Nat) :
    (contents slots start count).length = count := by
  simp [contents]

theorem contents_getElem (slots : Fin cap → α) (start count k : Nat)
    (inside : k < (contents slots start count).length) :
    (contents slots start count)[k] = slots (slot cap start k) := by
  simp [contents]

theorem contents_succ (slots : Fin cap → α) (start count : Nat) :
    contents slots start (count + 1) = contents slots start count ++ [slots (slot cap start count)] := by
  simp only [contents, List.range_succ, List.map_append, List.map_cons, List.map_nil]

theorem contents_cons (slots : Fin cap → α) (start count : Nat) :
    contents slots start (count + 1) = slots (slot cap start 0) :: contents slots (start + 1) count := by
  simp only [contents, List.range_succ_eq_map, List.map_cons, List.map_map]
  congr 1
  apply List.map_congr_left
  intro offset _
  exact congrArg slots (slot_succ start offset).symm

theorem contents_mod (slots : Fin cap → α) (start count : Nat) :
    contents slots (start % cap) count = contents slots start count := by
  simp only [contents, slot_mod]

theorem contents_update_free (slots : Fin cap → α) (start count offset : Nat) (value : α)
    (beyond : count ≤ offset) (near : offset < cap) :
    contents (Function.update slots (slot cap start offset) value) start count =
      contents slots start count := by
  simp only [contents]
  apply List.map_congr_left
  intro k member
  have inside := List.mem_range.mp member
  exact Function.update_of_ne (slot_ne start k offset (by omega) (by omega)) _ _

theorem contents_push (slots : Fin cap → α) (start count : Nat) (value : α) (room : count < cap) :
    contents (Function.update slots (slot cap start count) value) start (count + 1) =
      contents slots start count ++ [value] := by
  rw [contents_succ, contents_update_free slots start count count value (Nat.le_refl count) room,
    Function.update_self]

/-- Storing into a full ring and moving the start drops exactly the oldest entry. -/
theorem contents_push_full (slots : Fin cap → α) (start count : Nat) (value : α) (full : count = cap) :
    contents (Function.update slots (slot cap start count) value) (start + 1) count =
      (contents slots start count).tail ++ [value] := by
  obtain ⟨room, rfl⟩ : ∃ room, count = room + 1 :=
    Nat.exists_eq_succ_of_ne_zero (full ▸ NeZero.ne cap)
  rw [contents_cons slots start room, List.tail_cons, ← slot_succ start room]
  exact contents_push slots (start + 1) room value (by omega)

end LifeOS.Library.Ring
