import LifeOS.Console.Scrollback

/-!
Whole lines on the sheet of `console_write`: short lines of characters that take no part in
the layout stand there as they were printed.
-/

namespace LifeOS.Console
open LifeOS.Library.Strings

/-- The characters that neither break a line nor take one back. -/
def Legible (line : List Byte) : Prop := ∀ ch ∈ line, ch ≠ newline ∧ ch ≠ backspace

instance (line : List Byte) : Decidable (Legible line) := inferInstanceAs (Decidable (∀ _ ∈ _, _))

theorem Legible.append {first second : List Byte} (front : Legible first) (back : Legible second) :
    Legible (first ++ second) := by
  intro ch member
  rcases List.mem_append.mp member with early | late
  · exact front ch early
  · exact back ch late

def lineText (lines : List (List Byte)) : List Byte := lines.flatMap fun line => line ++ [newline]

theorem lineText_cons (line : List Byte) (lines : List (List Byte)) :
    lineText (line :: lines) = line ++ newline :: lineText lines := by
  rw [lineText, List.flatMap_cons, List.append_assoc]
  rfl

theorem lineText_append (first second : List (List Byte)) :
    lineText (first ++ second) = lineText first ++ lineText second :=
  List.flatMap_append

def Sheet.write (s : Sheet) (text : List Byte) : Sheet := text.foldl (fun s ch => s.type ch) s

theorem Sheet.write_append (s : Sheet) (first second : List Byte) :
    s.write (first ++ second) = (s.write first).write second :=
  List.foldl_append

theorem write_shows (text : List Byte) (t : Text) (s : Sheet) (plain : ∀ ch ∈ text, ch ≠ backspace)
    (shows : Shows t s) : Shows (Text.write text t) (s.write text) := by
  induction text generalizing t s with
  | nil => exact shows
  | cons ch text ih =>
    exact ih _ _ (fun other member => plain other (List.mem_cons_of_mem ch member))
      (putc_shows ch t s (plain ch List.mem_cons_self) shows)

theorem Sheet.write_line (s : Sheet) (line : List Byte) (legible : Legible line)
    (room : s.last.length + line.length < 80) : s.write line = { s with last := s.last ++ line } := by
  induction line generalizing s with
  | nil =>
    rw [List.append_nil]
    rfl
  | cons ch line ih =>
    have ordinary := (legible ch List.mem_cons_self).1
    rw [List.length_cons] at room
    have typed : s.type ch = { s with last := s.last ++ [ch] } := by
      unfold Sheet.type
      rw [if_neg ordinary, if_pos (by omega)]
    change (s.type ch).write line = _
    rw [typed, ih _ (fun other member => legible other (List.mem_cons_of_mem ch member))
      (by rw [List.length_append, List.length_singleton]; omega), List.append_assoc]
    rfl

theorem Sheet.write_lines (done lines : List (List Byte))
    (short : ∀ line ∈ lines, Legible line ∧ line.length < 80) :
    Sheet.write ⟨done, []⟩ (lineText lines) = ⟨done ++ lines, []⟩ := by
  induction lines generalizing done with
  | nil =>
    rw [List.append_nil]
    rfl
  | cons line lines ih =>
    obtain ⟨legible, fits⟩ := short line List.mem_cons_self
    have first := Sheet.write_line ⟨done, []⟩ line legible (by simpa using fits)
    rw [lineText_cons, Sheet.write_append, first]
    change Sheet.write (Sheet.type newline ⟨done, [] ++ line⟩) (lineText lines) = _
    rw [Sheet.type, if_pos rfl, List.nil_append]
    change Sheet.write ⟨done ++ [line], []⟩ (lineText lines) = _
    rw [ih _ (fun other member => short other (List.mem_cons_of_mem line member)), List.append_assoc,
      List.singleton_append]

theorem lineText_plain (lines : List (List Byte)) (legible : ∀ line ∈ lines, Legible line) :
    ∀ ch ∈ lineText lines, ch ≠ backspace := by
  intro ch member
  obtain ⟨line, listed, inside⟩ := List.mem_flatMap.mp member
  rcases List.mem_append.mp inside with text | mark
  · exact (legible line listed ch text).2
  · rw [List.mem_singleton.mp mark]
    decide

theorem Shows.rows {t : Text} {s : Sheet} (shows : Shows t s) (few : s.lines.length ≤ 25) (y : Fin 25) :
    charsOf (t.screen y) = padded (s.lines.getD y.val []) := by
  have above : s.above = 0 := by
    unfold Sheet.above
    omega
  have row := shows.shown.screen y
  rw [above, Nat.zero_add] at row
  exact row

end LifeOS.Console
