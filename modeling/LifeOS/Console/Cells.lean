import LifeOS.Console.Text

/-!
The screen in row-major order: the place of the cursor, the cell at a place, and what
printing without a scroll does to both.
-/

namespace LifeOS.Console
open LifeOS.Library.Strings

namespace Text

def place (t : Text) : Nat := t.y.val * 80 + t.x.val

def cellAt (t : Text) (q : Nat) : Cell := t.screen (Fin.ofNat 25 (q / 80)) (Fin.ofNat 80 (q % 80))

theorem place_inside (t : Text) : t.place < 2000 := by
  unfold place
  omega

end Text

theorem putc_inside (t : Text) (ch : Byte) (visible : ch ≠ newline ∧ ch ≠ backspace)
    (inside : t.x.val + 1 < 80) :
    t.putc ch = { t.store t.y t.x (cellOf ch) with x := ⟨t.x.val + 1, inside⟩ } := by
  unfold Text.putc
  rw [if_neg visible.1, if_neg visible.2]
  exact dif_pos inside

theorem putc_edge (t : Text) (ch : Byte) (visible : ch ≠ newline ∧ ch ≠ backspace)
    (edge : ¬t.x.val + 1 < 80) (below : t.y.val + 1 < 25) :
    t.putc ch = { t.store t.y t.x (cellOf ch) with x := 0, y := ⟨t.y.val + 1, below⟩ } := by
  unfold Text.putc
  rw [if_neg visible.1, if_neg visible.2]
  have wraps : ¬(t.store t.y t.x (cellOf ch)).x.val + 1 < 80 := edge
  dsimp only
  rw [dif_neg wraps]
  exact dif_pos below

theorem setCursor_inside (t : Text) (x y : BitVec 8) (column : x.toNat < 80) (row : y.toNat < 25) :
    t.setCursor x y = { t with x := ⟨x.toNat, column⟩, y := ⟨y.toNat, row⟩ } := by
  unfold Text.setCursor
  rw [dif_pos column]
  exact dif_pos row

theorem cellAt_store (t : Text) (y : Fin 25) (x : Fin 80) (v : Cell) (q : Nat) (inside : q < 2000) :
    (t.store y x v).cellAt q = if q = y.val * 80 + x.val then v else t.cellAt q := by
  unfold Text.cellAt Text.store
  dsimp only
  by_cases row : Fin.ofNat 25 (q / 80) = y
  · rw [row, Function.update_self]
    by_cases column : Fin.ofNat 80 (q % 80) = x
    · rw [column, Function.update_self, if_pos]
      simp only [Fin.ext_iff, Fin.val_ofNat] at row column
      omega
    · rw [Function.update_of_ne column, if_neg]
      simp only [Fin.ext_iff, Fin.val_ofNat] at row column
      omega
  · rw [Function.update_of_ne row, if_neg]
    simp only [Fin.ext_iff, Fin.val_ofNat] at row
    omega

theorem putc_next (t : Text) (ch : Byte) (visible : ch ≠ newline ∧ ch ≠ backspace)
    (room : t.place + 1 < 2000) :
    (t.putc ch).place = t.place + 1 ∧
      ∀ q < 2000, (t.putc ch).cellAt q = if q = t.place then cellOf ch else t.cellAt q := by
  by_cases inside : t.x.val + 1 < 80
  · rw [putc_inside t ch visible inside]
    exact ⟨rfl, fun q below => cellAt_store t t.y t.x (cellOf ch) q below⟩
  · have below : t.y.val + 1 < 25 := by
      unfold Text.place at room
      omega
    rw [putc_edge t ch visible inside below]
    refine ⟨?_, fun q few => cellAt_store t t.y t.x (cellOf ch) q few⟩
    unfold Text.place
    change (t.y.val + 1) * 80 + 0 = _
    omega

theorem write_spec (s : List Byte) (t : Text) (visible : ∀ ch ∈ s, ch ≠ newline ∧ ch ≠ backspace)
    (room : t.place + s.length < 2000) :
    (t.write s).place = t.place + s.length ∧
      (∀ k (inside : k < s.length), (t.write s).cellAt (t.place + k) = cellOf (s.get ⟨k, inside⟩)) ∧
      ∀ q < 2000, (q < t.place ∨ t.place + s.length ≤ q) → (t.write s).cellAt q = t.cellAt q := by
  induction s generalizing t with
  | nil => exact ⟨rfl, fun _ never => (Nat.not_lt_zero _ never).elim, fun _ _ _ => rfl⟩
  | cons ch s ih =>
    have longer : (ch :: s).length = s.length + 1 := rfl
    obtain ⟨moved, stored⟩ := putc_next t ch (visible ch List.mem_cons_self) (by omega)
    obtain ⟨after, written, kept⟩ := ih (t.putc ch)
      (fun c member => visible c (List.mem_cons_of_mem ch member)) (by omega)
    rw [moved] at after written kept
    rw [Text.write]
    refine ⟨by omega, ?_, ?_⟩
    · intro k inside
      cases k with
      | zero =>
        rw [kept _ (by omega) (.inl (by omega)), stored _ (by omega), if_pos (Nat.add_zero _)]
        rfl
      | succ k =>
        rw [show t.place + (k + 1) = t.place + 1 + k by omega]
        exact written k (Nat.lt_of_succ_lt_succ inside)
    · intro q below outside
      rw [kept q below (by omega), stored q below, if_neg (by omega)]

theorem place_setCursor (t : Text) (x y : BitVec 8) (column : x.toNat < 80) (row : y.toNat < 25) :
    (t.setCursor x y).place = y.toNat * 80 + x.toNat := by
  rw [setCursor_inside t x y column row]
  rfl

theorem screen_setCursor (t : Text) (x y : BitVec 8) : (t.setCursor x y).screen = t.screen := by
  unfold Text.setCursor
  split <;> split <;> rfl

theorem cellAt_setCursor (t : Text) (x y : BitVec 8) (q : Nat) : (t.setCursor x y).cellAt q = t.cellAt q := by
  unfold Text.cellAt
  rw [screen_setCursor]

end LifeOS.Console
