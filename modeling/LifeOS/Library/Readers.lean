import LifeOS.Library.Numerals
import Mathlib.Data.List.Basic

/-!
Readers of a text from its front: fixed labels, numbers, words up to a mark, and a counted
repetition. Each reads back what was written, whatever follows.
-/

namespace LifeOS.Library.Readers
open LifeOS.Library.Numerals

variable {α β γ : Type*}

def expect [DecidableEq α] : List α → List α → Option (List α)
  | [], s => some s
  | _ :: _, [] => none
  | a :: label, b :: s => if a = b then expect label s else none

theorem expect_append [DecidableEq α] (label rest : List α) : expect label (label ++ rest) = some rest := by
  induction label with
  | nil => rfl
  | cons a label ih =>
    rw [List.cons_append, expect, if_pos rfl]
    exact ih

/-- The longest front of characters that pass a test, and the rest. -/
def front (test : α → Bool) : List α → List α × List α
  | [] => ([], [])
  | a :: s => if test a then (a :: (front test s).1, (front test s).2) else ([], a :: s)

def Stops (test : α → Bool) (s : List α) : Prop := ∀ a ∈ s.head?, test a = false

theorem Stops.append {test : α → Bool} {s : List α} (rest : List α) (fails : s.head?.map test = some false) :
    Stops test (s ++ rest) := by
  intro a first
  cases s with
  | nil => cases fails
  | cons b s =>
    obtain rfl := Option.some.inj first
    exact Option.some.inj fails

theorem front_append (test : α → Bool) (s rest : List α) (passes : ∀ a ∈ s, test a = true)
    (stops : Stops test rest) : front test (s ++ rest) = (s, rest) := by
  induction s with
  | nil =>
    cases rest with
    | nil => rfl
    | cons b rest =>
      have fails := stops b rfl
      rw [List.nil_append, front, fails]
      rfl
  | cons a s ih =>
    rw [List.cons_append, front, if_pos (passes a List.mem_cons_self),
      ih (fun b member => passes b (List.mem_cons_of_mem a member))]

variable [DecidableEq α]

def number (alphabet s : List α) : Option (Nat × List α) :=
  let (digits, rest) := front (fun a => decide (a ∈ alphabet)) s
  if digits = [] then none else some (value alphabet digits, rest)

theorem number_append (alphabet digits rest : List α) (n : Nat) (numeral : Numeral alphabet digits n)
    (some_digit : digits ≠ []) (stops : Stops (fun a => decide (a ∈ alphabet)) rest) :
    number alphabet (digits ++ rest) = some (n, rest) := by
  have split := front_append (fun a => decide (a ∈ alphabet)) digits rest
    (fun a member => decide_eq_true (numeral.digits a member)) stops
  unfold number
  rw [split]
  dsimp only
  rw [if_neg some_digit, numeral.value]

def upTo (mark : α) (s : List α) : Option (List α × List α) :=
  let (word, rest) := front (fun a => decide (a ≠ mark)) s
  (expect [mark] rest).map (fun rest => (word, rest))

theorem upTo_append (mark : α) (word rest : List α) (plain : mark ∉ word) :
    upTo mark (word ++ mark :: rest) = some (word, rest) := by
  have split := front_append (fun a => decide (a ≠ mark)) word (mark :: rest)
    (by
      intro a member
      apply decide_eq_true
      rintro rfl
      exact plain member)
    (by
      intro a first
      obtain rfl := Option.some.inj first
      exact decide_eq_false (not_not.mpr rfl))
  unfold upTo
  rw [split]
  exact congrArg (Option.map _) (expect_append [mark] rest)

omit [DecidableEq α]

def times (read : List α → Option (β × List α)) : Nat → List α → Option (List β × List α)
  | 0, s => some ([], s)
  | n + 1, s => (read s).bind fun (b, s) => (times read n s).map fun (bs, s) => (b :: bs, s)

theorem times_append (read : List α → Option (β × List α)) (write : γ → List α) (made : γ → β) (items : List γ)
    (rest : List α) (reads : ∀ item ∈ items, ∀ rest, read (write item ++ rest) = some (made item, rest)) :
    times read items.length (items.flatMap write ++ rest) = some (items.map made, rest) := by
  induction items with
  | nil => rfl
  | cons item items ih =>
    have later := ih (fun other member => reads other (List.mem_cons_of_mem item member))
    rw [List.length_cons, times, List.flatMap_cons, List.append_assoc, reads item List.mem_cons_self,
      Option.bind_some]
    dsimp only
    rw [later]
    rfl

end LifeOS.Library.Readers
