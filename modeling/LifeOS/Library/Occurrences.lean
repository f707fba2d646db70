import Mathlib.Data.List.Basic

/-!
How often a word occurs in a list, overlapping occurrences included. A mark inside the word
bounds the number by its own.
-/

namespace LifeOS.Library.Occurrences

variable {α : Type*} [DecidableEq α]

/-- The number of places of a list at which a word that is not empty begins. -/
def occurrences (word : List α) : List α → Nat
  | [] => 0
  | a :: s => (if word <+: a :: s then 1 else 0) + occurrences word s

theorem occurrences_append_le (word before s : List α) : occurrences word s ≤ occurrences word (before ++ s) := by
  induction before with
  | nil => exact Nat.le_refl _
  | cons a before ih => exact Nat.le_trans ih (Nat.le_add_left _ _)

/-- Each occurrence has its own mark, as far behind its start as the word has one. -/
theorem occurrences_le_count (word s : List α) (k : Nat) (mark : α) (here : word[k]? = some mark) :
    occurrences word s ≤ (s.drop k).count mark := by
  induction s with
  | nil => exact Nat.zero_le _
  | cons a s ih =>
    have shifted : s.drop k = ((a :: s).drop k).tail := by
      rw [List.tail_drop]
      rfl
    rw [shifted] at ih
    unfold occurrences
    by_cases begins : word <+: a :: s
    · obtain ⟨rest, whole⟩ := begins
      have inside := (List.getElem?_eq_some_iff.mp here).1
      have first : ((a :: s).drop k).head? = some mark := by
        rw [List.head?_drop, ← whole, List.getElem?_append_left inside, here]
      rw [if_pos ⟨rest, whole⟩]
      cases behind : (a :: s).drop k with
      | nil => simp [behind] at first
      | cons c later =>
        rw [behind] at first ih
        rw [List.head?_cons, Option.some.injEq] at first
        rw [first, List.count_cons_self, List.tail_cons] at *
        omega
    · rw [if_neg begins, Nat.zero_add]
      exact Nat.le_trans ih ((List.tail_sublist _).count_le mark)

/-- Behind text without the mark the word occurs no more often than the mark does in what follows. -/
theorem occurrences_le_of_unmarked (word before s : List α) (k : Nat) (mark : α) (here : word[k]? = some mark)
    (absent : mark ∉ before) : occurrences word (before ++ s) ≤ s.count mark := by
  have bound := occurrences_le_count word (before ++ s) k mark here
  have fewer := ((before ++ s).drop_sublist k).count_le mark
  rw [List.count_append, List.count_eq_zero_of_not_mem absent, Nat.zero_add] at fewer
  exact Nat.le_trans bound fewer

end LifeOS.Library.Occurrences
