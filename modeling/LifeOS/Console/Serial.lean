import LifeOS.Console.Commands
import LifeOS.Console.Text
import LifeOS.Hmi.Pane

/-!
What output sends to the serial port. `console_putc` sends every character, so the port
records what is printed, wherever it goes on the screen.
-/

namespace LifeOS.Console
open LifeOS.Hmi LifeOS.Library.Loops LifeOS.Library.Strings

def sent (c : ConsoleState) : List (BitVec 16 × Byte) := c.ports.serial

def Prints (s : List Byte) (c d : ConsoleState) : Prop := sent d = sent c ++ s.map (fun ch => (serialPort, ch))

theorem Prints.trans {first second : List Byte} {c d e : ConsoleState} (early : Prints first c d)
    (late : Prints second d e) : Prints (first ++ second) c e := by
  unfold Prints at early late ⊢
  rw [late, early, List.map_append, List.append_assoc]

theorem prints_nothing {c d : ConsoleState} (same : sent d = sent c) : Prints [] c d :=
  same.trans (List.append_nil _).symm

theorem Prints.unique {first second : List Byte} {c d : ConsoleState} (one : Prints first c d)
    (other : Prints second c d) : first = second := by
  have same := List.append_cancel_left ((one : sent d = _).symm.trans other)
  have injective : Function.Injective (fun ch : Byte => (serialPort, ch)) := fun _ _ equal => (Prod.mk.inj equal).2
  exact injective.list_map same

@[simp]
theorem sent_updateCursor (c : ConsoleState) : sent (updateCursor c) = sent c := rfl

@[simp]
theorem sent_renderView (c : ConsoleState) : sent (renderView c) = sent c := by
  rw [renderView_eq]
  rfl

@[simp]
theorem sent_ensureBottom (c : ConsoleState) : sent (ensureBottom c) = sent c := by
  unfold ensureBottom
  split
  · rw [sent_renderView]
    rfl
  · rfl

@[simp]
theorem sent_nextRow (c : ConsoleState) : sent (nextRow c) = sent c := by
  unfold nextRow
  split
  · rfl
  · obtain ⟨slots, start, count, scrolled, _⟩ := scrollScreen_eq c
    rw [scrolled]
    rfl

@[simp]
theorem sent_storeCell (v : Cell) (c : ConsoleState) : sent (storeCell v c) = sent c := by
  rw [storeCell_eq]
  unfold plot
  dsimp only
  split <;> rfl

@[simp]
theorem sent_cursorBack (c : ConsoleState) : sent (cursorBack c) = sent c := by
  unfold cursorBack
  split
  · rfl
  · split <;> rfl

theorem prints_putc (ch : Byte) (c : ConsoleState) : Prints [ch] c (consolePutc ch c) := by
  have start : Prints [ch] c (ensureBottom (serialPutc ch c)) := sent_ensureBottom _
  unfold consolePutc Prints at *
  generalize ensureBottom (serialPutc ch c) = d at start ⊢
  have finish (e : ConsoleState) : sent (if e.sbView = 0 then updateCursor e else e) = sent e := by
    split <;> rfl
  dsimp only
  rw [finish, ← start]
  by_cases line : ch = newline
  · rw [if_pos line, sent_nextRow]
    rfl
  · rw [if_neg line]
    by_cases erase : ch = backspace
    · rw [if_pos erase, sent_storeCell, sent_cursorBack]
    · have stored := sent_storeCell (cellOf ch) d
      rw [if_neg erase]
      generalize storeCell (cellOf ch) d = e at stored ⊢
      split
      · exact stored
      · rw [sent_nextRow]
        exact stored

theorem prints_write (s : List Byte) (c : ConsoleState) : Prints s c (consoleWrite s c) := by
  induction s generalizing c with
  | nil => exact prints_nothing rfl
  | cons ch s ih => exact (prints_putc ch c).trans (ih (consolePutc ch c))

theorem prints_clear (c : ConsoleState) : Prints [] c (consoleClear c) := by
  apply prints_nothing
  unfold consoleClear
  rw [clear_rows]
  rfl

theorem prints_setCursor (x y : BitVec 8) (c : ConsoleState) : Prints [] c (consoleSetCursor x y c) := by
  apply prints_nothing
  unfold consoleSetCursor
  by_cases column : x.toNat < 80 <;> by_cases row : y.toNat < 25 <;>
    simp only [column, row, dite_true, dite_false] <;> rfl

/-- The character of the prompt that no other output has. -/
def promptMark : Byte := 0x3E#8

def Unmarked (c d : ConsoleState) : Prop := ∃ s, promptMark ∉ s ∧ Prints s c d

theorem Unmarked.trans {c d e : ConsoleState} (early : Unmarked c d) (late : Unmarked d e) : Unmarked c e := by
  obtain ⟨first, none_first, prints_first⟩ := early
  obtain ⟨second, none_second, prints_second⟩ := late
  refine ⟨first ++ second, ?_, prints_first.trans prints_second⟩
  rw [List.mem_append, not_or]
  exact ⟨none_first, none_second⟩

theorem unmarked_nothing {c d : ConsoleState} (prints : Prints [] c d) : Unmarked c d :=
  ⟨[], List.not_mem_nil, prints⟩

theorem unmarked_putc (ch : Byte) (other : ch ≠ promptMark) (c : ConsoleState) : Unmarked c (consolePutc ch c) :=
  ⟨[ch], fun member => other (List.mem_singleton.mp member).symm, prints_putc ch c⟩

theorem unmarked_write (s : List Byte) (none_marked : promptMark ∉ s) (c : ConsoleState) :
    Unmarked c (consoleWrite s c) :=
  ⟨s, none_marked, prints_write s c⟩

theorem unmarked_drawLines (p : Panes) (c : ConsoleState) : Unmarked c (drawLines p c) := by
  have printed (ch : Byte) (other : ch ≠ promptMark) (d : ConsoleState) (held : Unmarked c d) :
      Unmarked c (consolePutc ch d) := held.trans (unmarked_putc ch other d)
  have moved (x y : BitVec 8) (d : ConsoleState) (held : Unmarked c d) : Unmarked c (consoleSetCursor x y d) :=
    held.trans (unmarked_nothing (prints_setCursor x y d))
  unfold drawLines
  apply moved
  apply forFin_preserves _ _ (Unmarked c)
  · apply forFin_preserves _ _ (Unmarked c)
    · apply forFin_preserves _ _ (Unmarked c) _ (unmarked_nothing (prints_nothing rfl))
      intro i d held
      apply forFin_preserves _ _ (Unmarked c) _ held
      exact fun y e later => printed _ (by decide) _ (moved _ _ e later)
    · intro j d held
      apply forFin_preserves _ _ (Unmarked c) _ (moved _ _ d held)
      exact fun _ e later => printed _ (by decide) e later
  · intro i d held
    apply forFin_preserves _ _ (Unmarked c) _ held
    exact fun j e later => printed _ (by decide) _ (moved _ _ e later)

theorem decDigits_unmarked (room : Nat) (value : BitVec 64) (buf : List Byte) (none_marked : promptMark ∉ buf) :
    promptMark ∉ decDigits room value buf := by
  induction room generalizing value buf with
  | zero => exact none_marked
  | succ room ih =>
    unfold decDigits
    split
    · exact none_marked
    · apply ih
      intro member
      rcases List.mem_cons.mp member with digit | behind
      · have same := congrArg BitVec.toNat digit
        have few : (value % 10#64).toNat < 10 := by
          rw [BitVec.toNat_umod]
          exact Nat.mod_lt _ (by decide)
        rw [BitVec.toNat_ofNat] at same
        change 62 = _ at same
        omega
      · exact none_marked behind

theorem unmarked_writeDec (value : BitVec 64) (c : ConsoleState) : Unmarked c (consoleWriteDec value c) := by
  unfold consoleWriteDec
  split
  · exact unmarked_putc _ (by decide) c
  · exact unmarked_write _ (decDigits_unmarked 20 value [] List.not_mem_nil) c

theorem hexDigit_unmarked : ∀ value : BitVec 8, hexDigit value ≠ promptMark := by decide +kernel

theorem unmarked_writeHex16 (value : BitVec 16) (c : ConsoleState) : Unmarked c (consoleWriteHex16 value c) := by
  have pair (v : BitVec 8) (d : ConsoleState) : Unmarked d (consoleWriteHex8 v d) :=
    (unmarked_putc _ (hexDigit_unmarked _) d).trans (unmarked_putc _ (hexDigit_unmarked _) _)
  exact (pair _ c).trans (pair _ _)

theorem className_unmarked (classCode : BitVec 8) : promptMark ∉ ascii (pciClassName classCode) := by
  have names : ∀ entry ∈ pciClassMap, promptMark ∉ ascii entry.2 := by decide +kernel
  unfold pciClassName
  cases found : pciClassMap.lookup classCode with
  | none => decide +kernel
  | some name =>
    obtain ⟨before, behind, whole, _⟩ := List.lookup_eq_some_iff.mp found
    have member : (classCode, name) ∈ pciClassMap := by
      rw [whole]
      exact List.mem_append_right _ List.mem_cons_self
    exact names _ member

theorem unmarked_say (s : String) (none_marked : promptMark ∉ ascii s) (c : ConsoleState) : Unmarked c (say s c) :=
  unmarked_write (ascii s) none_marked c

theorem unmarked_showHelp (c : ConsoleState) : Unmarked c (showHelp c) := by
  unfold showHelp
  exact (unmarked_say _ (by decide +kernel) c).trans <| (unmarked_say _ (by decide +kernel) _).trans <|
    (unmarked_say _ (by decide +kernel) _).trans <| (unmarked_say _ (by decide +kernel) _).trans <|
    (unmarked_say _ (by decide +kernel) _).trans <| (unmarked_say _ (by decide +kernel) _).trans <|
    (unmarked_say _ (by decide +kernel) _).trans (unmarked_say _ (by decide +kernel) _)

theorem unmarked_showDevice (inv : ComputeInventory) (i : Fin 256) (c : ConsoleState) :
    Unmarked c (showDevice inv i c) := by
  unfold showDevice
  exact (unmarked_say _ (by decide +kernel) c).trans <| (unmarked_writeDec _ _).trans <|
    (unmarked_say _ (by decide +kernel) _).trans <| (unmarked_writeHex16 _ _).trans <|
    (unmarked_say _ (by decide +kernel) _).trans <| (unmarked_writeHex16 _ _).trans <|
    (unmarked_say _ (by decide +kernel) _).trans <| (unmarked_say _ (className_unmarked _) _).trans
      (unmarked_say _ (by decide +kernel) _)

theorem unmarked_showInfo (inv : ComputeInventory) (c : ConsoleState) : Unmarked c (showInfo inv c) := by
  have heading : Unmarked c (say "\nPCI device list:\n" (consoleWriteDec (inv.pciDevices.setWidth 64)
      (say "\nPCI devices: " (consoleWriteDec inv.memoryBytes (say "\nMemory bytes: "
        (consoleWriteDec (inv.cpuCores.setWidth 64) (say "CPU cores: " c))))))) :=
    (unmarked_say _ (by decide +kernel) c).trans <| (unmarked_writeDec _ _).trans <|
      (unmarked_say _ (by decide +kernel) _).trans <| (unmarked_writeDec _ _).trans <|
      (unmarked_say _ (by decide +kernel) _).trans <| (unmarked_writeDec _ _).trans
        (unmarked_say _ (by decide +kernel) _)
  unfold showInfo
  apply forFin_preserves _ _ (Unmarked c) _ heading
  intro i d held
  exact held.trans (unmarked_showDevice inv _ d)

end LifeOS.Console
