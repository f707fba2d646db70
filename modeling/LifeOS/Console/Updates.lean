import LifeOS.Library.Ring
import LifeOS.Console.Screen

/-!
What the console's functions do to each part of its state: the loops as whole-row and
whole-screen updates, and the parts that a function leaves alone.
-/

namespace LifeOS.Console
open LifeOS.Library.Loops LifeOS.Library.Strings

def vgaRow (y : Fin 25) : Part ConsoleState Row where
  get c := c.vgaBuffer y
  put row c := { c with vgaBuffer := Function.update c.vgaBuffer y row }
  get_put _ _ := Function.update_self _ _ _
  put_put _ _ c := by simp
  put_get c := by simp

def screenRow (y : Fin 25) : Part ConsoleState Row where
  get c := c.screenBuffer y
  put row c := { c with screenBuffer := Function.update c.screenBuffer y row }
  get_put _ _ := Function.update_self _ _ _
  put_put _ _ c := by simp
  put_get c := by simp

def scrollbackRow (i : Fin 100) : Part ConsoleState Row where
  get c := c.scrollback i
  put row c := { c with scrollback := Function.update c.scrollback i row }
  get_put _ _ := Function.update_self _ _ _
  put_put _ _ c := by simp
  put_get c := by simp

def vgaRows : Part ConsoleState (Fin 25 → Row) where
  get c := c.vgaBuffer
  put rows c := { c with vgaBuffer := rows }
  get_put _ _ := rfl
  put_put _ _ _ := rfl
  put_get _ := rfl

theorem fill_vga (y : Fin 25) (val : ConsoleState → Row)
    (stable : ∀ rows c, val { c with vgaBuffer := rows } = val c) (c : ConsoleState) :
    forFin 80 (fun x c => setVga y x (val c x) c) c =
      { c with vgaBuffer := Function.update c.vgaBuffer y (val c) } :=
  forFin_fill (vgaRow y) val (fun _ _ => stable _ _) c

theorem fill_vga_rows (val : Fin 25 → ConsoleState → Row)
    (stable : ∀ y rows c, val y { c with vgaBuffer := rows } = val y c) (c : ConsoleState) :
    forFin 25 (fun y c => forFin 80 (fun x c => setVga y x (val y c x) c) c) c =
      { c with vgaBuffer := fun y => val y c } := by
  have rows : (fun (y : Fin 25) (c : ConsoleState) => forFin 80 (fun x c => setVga y x (val y c x) c) c) =
      fun y c => vgaRows.put (Function.update (vgaRows.get c) y (val y c)) c := by
    funext y c
    exact fill_vga y (val y) (stable y) c
  rw [rows]
  exact forFin_fill vgaRows (fun c y => val y c) (fun rows c => funext fun y => stable y rows c) c

theorem fill_screen (y : Fin 25) (val : ConsoleState → Row)
    (stable : ∀ row c, val { c with screenBuffer := Function.update c.screenBuffer y row } = val c)
    (c : ConsoleState) :
    forFin 80 (fun x c => setScreen y x (val c x) c) c =
      { c with screenBuffer := Function.update c.screenBuffer y (val c) } :=
  forFin_fill (screenRow y) val stable c

theorem fill_scrollback (i : Fin 100) (row : Row) (c : ConsoleState) :
    forFin 80 (fun x c => setScrollback i x (row x) c) c =
      { c with scrollback := Function.update c.scrollback i row } :=
  forFin_fill (scrollbackRow i) (fun _ => row) (fun _ _ => rfl) c

theorem copyToVga_eq (c : ConsoleState) : copyToVga c = { c with vgaBuffer := c.screenBuffer } :=
  fill_vga_rows (fun y c => c.screenBuffer y) (fun _ _ _ => rfl) c

theorem shift_rows (c : ConsoleState) :
    forFin 24 (fun y c => forFin 80 (fun x c => setScreen y.castSucc x (c.screenBuffer y.succ x) c) c) c =
      { c with screenBuffer := fun y =>
          if inside : y.val < 24 then c.screenBuffer ⟨y.val + 1, by omega⟩ else c.screenBuffer y } := by
  have shifted := forFin_invariant 24
    (fun y c => forFin 80 (fun x c => setScreen y.castSucc x (c.screenBuffer y.succ x) c) c)
    (fun k t => t = { c with screenBuffer := fun y =>
      if inside : y.val < k ∧ y.val < 24 then c.screenBuffer ⟨y.val + 1, by omega⟩ else c.screenBuffer y }) c
    (by simp)
    (by
      intro i t shape
      rw [fill_screen i.castSucc (fun c => c.screenBuffer i.succ)
        (fun row c => Function.update_of_ne (by simp [Fin.ext_iff]) _ _), shape]
      congr 1
      funext y
      by_cases here : y = i.castSucc
      · rw [here, Function.update_self]
        have moved : i.castSucc.val < i.val + 1 ∧ i.castSucc.val < 24 := by simp
        have kept : ¬(i.succ.val < i.val ∧ i.succ.val < 24) := by simp
        rw [dif_pos moved]
        dsimp only
        rw [dif_neg kept]
        rfl
      · rw [Function.update_of_ne here]
        have apart : y.val ≠ i.val := fun same => here (Fin.ext same)
        simp only [show (y.val < i.val + 1 ∧ y.val < 24) ↔ (y.val < i.val ∧ y.val < 24) by omega])
  simpa using shifted

def stored (c : ConsoleState) : List Row :=
  Library.Ring.contents c.scrollback c.sbStart.val c.sbCount.val

theorem stored_length (c : ConsoleState) : (stored c).length = c.sbCount.val :=
  Library.Ring.contents_length _ _ _

/-- A push appends to the ring and, when it is full, drops its oldest line. -/
theorem scrollbackPush_eq (line : Row) (c : ConsoleState) :
    ∃ slots start count, scrollbackPush line c =
        { c with scrollback := slots, sbStart := start, sbCount := count } ∧
      Library.Ring.contents slots start.val count.val =
        (stored c ++ [line]).drop (c.sbCount.val + 1 - 100) := by
  have filled := fill_scrollback (Fin.ofNat 100 (c.sbStart.val + c.sbCount.val)) line c
  have length := stored_length c
  have bounded := c.sbCount.isLt
  unfold scrollbackPush
  simp only [filled]
  by_cases room : c.sbCount.val < 100
  · simp only [dif_pos room]
    refine ⟨_, _, _, rfl, ?_⟩
    rw [show c.sbCount.val + 1 - 100 = 0 by omega, List.drop_zero]
    exact Library.Ring.contents_push c.scrollback c.sbStart.val c.sbCount.val line room
  · have full : c.sbCount.val = 100 := by omega
    simp only [dif_neg room]
    refine ⟨_, _, _, rfl, ?_⟩
    have pushed := Library.Ring.contents_push_full c.scrollback c.sbStart.val c.sbCount.val line full
    have some_line : stored c ≠ [] := by
      intro none
      rw [none, full] at length
      simp at length
    rw [show c.sbCount.val + 1 - 100 = 1 by omega, List.drop_one, List.tail_append_of_ne_nil some_line]
    rw [show (Fin.ofNat 100 (c.sbStart.val + 1)).val = (c.sbStart.val + 1) % 100 by rfl,
      Library.Ring.contents_mod]
    exact pushed

def scrolledUp (screen : Fin 25 → Row) : Fin 25 → Row := fun y =>
  if inside : y.val < 24 then screen ⟨y.val + 1, by omega⟩ else fun _ => blank

/-- A scroll pushes the top row, moves the others up and, at the bottom view, shows it. -/
theorem scrollScreen_eq (c : ConsoleState) :
    ∃ slots start count, scrollScreen c =
        { c with scrollback := slots, sbStart := start, sbCount := count,
                 screenBuffer := scrolledUp c.screenBuffer,
                 vgaBuffer := if c.sbView = 0 then scrolledUp c.screenBuffer else c.vgaBuffer } ∧
      Library.Ring.contents slots start.val count.val =
        (stored c ++ [c.screenBuffer 0]).drop (c.sbCount.val + 1 - 100) := by
  obtain ⟨slots, start, count, pushed, ring⟩ := scrollbackPush_eq (c.screenBuffer 0) c
  refine ⟨slots, start, count, ?_, ring⟩
  have last (rows : Fin 25 → Row) : Function.update (fun y : Fin 25 =>
      if inside : y.val < 24 then rows ⟨y.val + 1, by omega⟩ else rows y) 24 (fun _ => blank) =
        scrolledUp rows := by
    funext y
    by_cases bottom : y = 24
    · rw [bottom, Function.update_self]
      rfl
    · have inside : y.val < 24 := by
        have bound := y.isLt
        have apart : y.val ≠ 24 := fun same => bottom (Fin.ext same)
        omega
      rw [Function.update_of_ne bottom, dif_pos inside, scrolledUp, dif_pos inside]
  have cleared := fill_screen 24 (fun _ _ => blank) (fun _ _ => rfl)
  simp only [scrollScreen, pushed, shift_rows, cleared, last, copyToVga_eq]
  by_cases bottom : c.sbView = 0
  · simp only [if_pos bottom]
  · simp only [if_neg bottom]

def bothRow (y : Fin 25) : Part ConsoleState (Fin 80 → Cell × Cell) where
  get c x := (c.screenBuffer y x, c.vgaBuffer y x)
  put row c :=
    { c with screenBuffer := Function.update c.screenBuffer y (fun x => (row x).1),
             vgaBuffer := Function.update c.vgaBuffer y (fun x => (row x).2) }
  get_put := by simp
  put_put := by simp
  put_get := by simp

def bothRows : Part ConsoleState (Fin 25 → Row × Row) where
  get c y := (c.screenBuffer y, c.vgaBuffer y)
  put rows c := { c with screenBuffer := fun y => (rows y).1, vgaBuffer := fun y => (rows y).2 }
  get_put := by simp
  put_put := by simp
  put_get := by simp

theorem clear_rows (c : ConsoleState) :
    forFin 25 (fun y c => forFin 80 (fun x c => setVga y x blank (setScreen y x blank c)) c) c =
      { c with screenBuffer := fun _ _ => blank, vgaBuffer := fun _ _ => blank } := by
  have pair {ι β γ : Type} [DecidableEq ι] (f : ι → β × γ) (i : ι) (v : β × γ) :
      (fun j => (Function.update f i v j).1) = Function.update (fun j => (f j).1) i v.1 ∧
        (fun j => (Function.update f i v j).2) = Function.update (fun j => (f j).2) i v.2 :=
    ⟨funext (Function.apply_update (fun _ => Prod.fst) f i v),
      funext (Function.apply_update (fun _ => Prod.snd) f i v)⟩
  have cells (y : Fin 25) : (fun (x : Fin 80) (c : ConsoleState) => setVga y x blank (setScreen y x blank c)) =
      fun x c => (bothRow y).put (Function.update ((bothRow y).get c) x (blank, blank)) c := by
    funext x c
    simp only [bothRow, pair, setVga, setScreen]
  have rows : (fun (y : Fin 25) (c : ConsoleState) =>
      forFin 80 (fun x c => setVga y x blank (setScreen y x blank c)) c) =
        fun y c => bothRows.put (Function.update (bothRows.get c) y (fun _ => blank, fun _ => blank)) c := by
    funext y c
    rw [cells, forFin_fill (bothRow y) (fun _ _ => (blank, blank)) (fun _ _ => rfl) c]
    simp only [bothRow, bothRows, pair]
  rw [rows]
  exact forFin_fill bothRows (fun _ _ => (fun _ => blank, fun _ => blank)) (fun _ _ => rfl) c

end LifeOS.Console
