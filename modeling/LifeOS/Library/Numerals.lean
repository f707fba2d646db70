import Mathlib.Data.Nat.Digits.Defs

/-!
Numerals over an alphabet of digits, the most significant digit first. The place of a
digit in the alphabet is its value, and the length of the alphabet the base.
-/

namespace LifeOS.Library.Numerals

variable {α : Type*} [DecidableEq α] {alphabet : List α}

def value (alphabet s : List α) : Nat := Nat.ofDigits alphabet.length (s.reverse.map alphabet.idxOf)

structure Numeral (alphabet s : List α) (n : Nat) : Prop where
  digits : ∀ d ∈ s, d ∈ alphabet
  value : value alphabet s = n

theorem value_append (s t : List α) :
    value alphabet (s ++ t) = value alphabet s * alphabet.length ^ t.length + value alphabet t := by
  unfold value
  rw [List.reverse_append, List.map_append, Nat.ofDigits_append, List.length_map, List.length_reverse,
    Nat.add_comm, Nat.mul_comm]

theorem Numeral.append {s t : List α} {n m : Nat} (high : Numeral alphabet s n) (low : Numeral alphabet t m) :
    Numeral alphabet (s ++ t) (n * alphabet.length ^ t.length + m) := by
  refine ⟨?_, ?_⟩
  · intro d member
    rcases List.mem_append.mp member with first | second
    · exact high.digits d first
    · exact low.digits d second
  · rw [value_append, high.value, low.value]

theorem Numeral.digit {d : α} (member : d ∈ alphabet) : Numeral alphabet [d] (alphabet.idxOf d) := by
  refine ⟨?_, ?_⟩
  · intro e single
    rw [List.mem_singleton.mp single]
    exact member
  · exact Nat.ofDigits_singleton

end LifeOS.Library.Numerals
