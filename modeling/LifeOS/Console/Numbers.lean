import LifeOS.Console.Serial
import LifeOS.Library.Numerals

/-!
The numbers that `console_write_dec` and the `console_write_hex` functions print, on the screen
and on the serial line.
-/

namespace LifeOS.Console
open LifeOS.Library.Numerals LifeOS.Library.Strings

def consoleWriteHex64 (value : BitVec 64) (c : ConsoleState) : ConsoleState :=
  consoleWriteHex32 ((value &&& 0xFFFFFFFF#64).setWidth 32) (consoleWriteHex32 ((value >>> 32).setWidth 32) c)

def decimalDigits : List Byte := ascii "0123456789"

def hexDigits : List Byte := ascii "0123456789ABCDEF"

/-- The decimal representation of a number, with no leading zero but for zero itself. -/
structure Decimal (s : List Byte) (n : Nat) : Prop where
  canonical : s = ascii (toString n)
  numeral : Numeral decimalDigits s n
  leading : s.head? = some 0x30#8 → n = 0
  zero : n = 0 → s = [0x30#8]

structure Hexadecimal (s : List Byte) (length n : Nat) : Prop where
  length : s.length = length
  numeral : Numeral hexDigits s n

theorem ascii_toString (n : Nat) :
    ascii (toString n) = (Nat.toDigits 10 n).map (fun ch => BitVec.ofNat 8 ch.toNat) := by
  unfold ascii
  rw [Nat.toString_eq_repr, Nat.toList_repr]

theorem digitChar_byte (d : Nat) (few : d < 10) :
    BitVec.ofNat 8 d.digitChar.toNat = BitVec.ofNat 8 (48 + d) := by
  have all : ∀ d : Fin 10, BitVec.ofNat 8 d.val.digitChar.toNat = BitVec.ofNat 8 (48 + d.val) := by decide
  exact all ⟨d, few⟩

theorem decimalDigits_digit (d : Nat) (few : d < 10) : Numeral decimalDigits [BitVec.ofNat 8 (48 + d)] d := by
  have all : ∀ d : Fin 10, BitVec.ofNat 8 (48 + d.val) ∈ decimalDigits ∧
      decimalDigits.idxOf (BitVec.ofNat 8 (48 + d.val)) = d.val := by decide
  obtain ⟨member, place⟩ := all ⟨d, few⟩
  have digit := Numeral.digit member
  rw [place] at digit
  exact digit

theorem ascii_toString_snoc (n : Nat) (more : 10 ≤ n) :
    ascii (toString n) = ascii (toString (n / 10)) ++ [BitVec.ofNat 8 (48 + n % 10)] := by
  rw [ascii_toString, ascii_toString, Nat.toDigits_of_base_le (by decide) more, List.map_append, List.map_singleton,
    digitChar_byte _ (Nat.mod_lt n (by decide))]

theorem ascii_toString_digit (n : Nat) (few : n < 10) : ascii (toString n) = [BitVec.ofNat 8 (48 + n)] := by
  rw [ascii_toString, Nat.toDigits_of_lt_base few, List.map_singleton, digitChar_byte n few]

theorem toString_numeral (n : Nat) : Numeral decimalDigits (ascii (toString n)) n := by
  induction n using Nat.strongRecOn with
  | ind n ih =>
    by_cases few : n < 10
    · rw [ascii_toString_digit n few]
      exact decimalDigits_digit n few
    · rw [ascii_toString_snoc n (by omega)]
      have longer := (ih (n / 10) (by omega)).append (decimalDigits_digit (n % 10) (Nat.mod_lt n (by decide)))
      change Numeral _ _ (n / 10 * 10 ^ 1 + n % 10) at longer
      rwa [show n / 10 * 10 ^ 1 + n % 10 = n by omega] at longer

theorem toString_leading (n : Nat) (leading : (ascii (toString n)).head? = some 0x30#8) : n = 0 := by
  induction n using Nat.strongRecOn with
  | ind n ih =>
    by_cases few : n < 10
    · rw [ascii_toString_digit n few] at leading
      have digit := congrArg BitVec.toNat (Option.some.inj leading)
      rw [BitVec.toNat_ofNat] at digit
      change (48 + n) % 256 = 48 at digit
      omega
    · rw [ascii_toString_snoc n (by omega)] at leading
      have some_text : ascii (toString (n / 10)) ≠ [] := by
        rw [ascii_toString]
        simp
      rw [List.head?_append_of_ne_nil _ some_text] at leading
      have none := ih (n / 10) (by omega) leading
      omega

theorem toString_decimal (n : Nat) : Decimal (ascii (toString n)) n := by
  refine ⟨rfl, toString_numeral n, toString_leading n, ?_⟩
  rintro rfl
  exact ascii_toString_digit 0 (by decide)

theorem decDigits_eq (room : Nat) (v : BitVec 64) (buf : List Byte) (positive : v ≠ 0#64)
    (fits : v.toNat < 10 ^ room) : decDigits room v buf = ascii (toString v.toNat) ++ buf := by
  induction room generalizing v buf with
  | zero =>
    have none : v.toNat = 0 := Nat.lt_one_iff.mp fits
    exact absurd (BitVec.eq_of_toNat_eq none) positive
  | succ room ih =>
    have quotient : (v / 10#64).toNat = v.toNat / 10 := BitVec.toNat_udiv
    have remainder : (v % 10#64).toNat = v.toNat % 10 := BitVec.toNat_umod
    rw [decDigits, if_neg positive, remainder]
    by_cases few : v.toNat < 10
    · have last : v / 10#64 = 0#64 := BitVec.eq_of_toNat_eq (by rw [quotient]; exact Nat.div_eq_of_lt few)
      rw [ascii_toString_digit _ few, last, Nat.mod_eq_of_lt few]
      cases room with
      | zero => rfl
      | succ room => rw [decDigits, if_pos rfl, List.singleton_append]
    · have more : v / 10#64 ≠ 0#64 := by
        intro zero
        have none := congrArg BitVec.toNat zero
        rw [quotient] at none
        change v.toNat / 10 = 0 at none
        omega
      rw [ih _ _ more (by rw [quotient]; omega), quotient, ascii_toString_snoc v.toNat (by omega), List.append_assoc,
        List.singleton_append]

/-- `console_write_dec` prints the number in decimal; its limit of 20 digits is never met early. -/
theorem consoleWriteDec_eq (v : BitVec 64) : consoleWriteDec v = consoleWrite (ascii (toString v.toNat)) := by
  funext c
  unfold consoleWriteDec
  by_cases zero : v = 0#64
  · rw [if_pos zero, zero]
    have shown := ascii_toString_digit 0 (by decide)
    change _ = consoleWrite (ascii (toString 0)) c
    rw [shown]
    rfl
  · have room : v.toNat < 10 ^ 20 := by omega
    rw [if_neg zero, decDigits_eq 20 v [] zero room, List.append_nil]

theorem toString_short (v : BitVec 64) : (ascii (toString v.toNat)).length ≤ 20 := by
  rw [ascii_toString, List.length_map]
  exact (Nat.length_toDigits_le_iff (by decide) (by decide)).mpr (by omega)

theorem Hexadecimal.append {s t : List Byte} {k l n m : Nat} (high : Hexadecimal s k n) (low : Hexadecimal t l m) :
    Hexadecimal (s ++ t) (k + l) (n * 16 ^ l + m) := by
  refine ⟨?_, ?_⟩
  · rw [List.length_append, high.length, low.length]
  · have joined := high.numeral.append low.numeral
    rw [low.length] at joined
    exact joined

/-- A printing function that writes the text, and so sends its bytes on the serial line. -/
structure Emits (print : ConsoleState → ConsoleState) (s : List Byte) : Prop where
  shown : print = consoleWrite s
  sent : ∀ c, Prints s c (print c)

theorem emits_write {print : ConsoleState → ConsoleState} {s : List Byte} (shown : print = consoleWrite s) :
    Emits print s :=
  ⟨shown, fun c => shown ▸ prints_write s c⟩

def WritesHex (print : ConsoleState → ConsoleState) (length n : Nat) : Prop :=
  ∃ s, Emits print s ∧ Hexadecimal s length n

theorem consoleWrite_append (s t : List Byte) (c : ConsoleState) :
    consoleWrite (s ++ t) c = consoleWrite t (consoleWrite s c) := by
  induction s generalizing c with
  | nil => rfl
  | cons ch s ih => exact ih _

theorem WritesHex.halves {high low : ConsoleState → ConsoleState} {k n m : Nat} (first : WritesHex high k n)
    (second : WritesHex low k m) : WritesHex (fun c => low (high c)) (k + k) (n * 16 ^ k + m) := by
  obtain ⟨s, printed, digits⟩ := first
  obtain ⟨t, printed', digits'⟩ := second
  refine ⟨s ++ t, emits_write ?_, digits.append digits'⟩
  funext c
  rw [consoleWrite_append, printed.shown, printed'.shown]

theorem hexDigit_numeral (value : BitVec 8) : Hexadecimal [hexDigit value] 1 (value.toNat % 16) := by
  have all : ∀ value : BitVec 8, hexDigit value ∈ hexDigits ∧
      hexDigits.idxOf (hexDigit value) = value.toNat % 16 := by decide +kernel
  obtain ⟨member, place⟩ := all value
  have digit := Numeral.digit member
  rw [place] at digit
  exact ⟨rfl, digit⟩

theorem consoleWriteHex8_writes (v : BitVec 8) : WritesHex (consoleWriteHex8 v) 2 v.toNat := by
  have high : WritesHex (consolePutc (hexDigit (v >>> 4))) 1 ((v >>> 4).toNat % 16) :=
    ⟨_, emits_write rfl, hexDigit_numeral (v >>> 4)⟩
  have low : WritesHex (consolePutc (hexDigit v)) 1 (v.toNat % 16) := ⟨_, emits_write rfl, hexDigit_numeral v⟩
  have both := high.halves low
  have whole : (v >>> 4).toNat % 16 * 16 ^ 1 + v.toNat % 16 = v.toNat := by
    rw [BitVec.toNat_ushiftRight, Nat.shiftRight_eq_div_pow]
    omega
  rw [whole] at both
  exact both

theorem halves_toNat (k : Nat) (v : BitVec (4 * k + 4 * k)) :
    ((v >>> (4 * k)).setWidth (4 * k)).toNat * 16 ^ k + (v.setWidth (4 * k)).toNat = v.toNat := by
  have base : 2 ^ (4 * k) = 16 ^ k := by rw [Nat.pow_mul]
  have bound : v.toNat < 16 ^ k * 16 ^ k := by
    rw [← base, ← Nat.pow_add]
    exact v.isLt
  have few : v.toNat / 16 ^ k < 16 ^ k := Nat.div_lt_of_lt_mul bound
  rw [BitVec.toNat_setWidth, BitVec.toNat_setWidth, BitVec.toNat_ushiftRight, Nat.shiftRight_eq_div_pow, base,
    Nat.mod_eq_of_lt few]
  exact Nat.div_add_mod' v.toNat (16 ^ k)

theorem consoleWriteHex16_writes (v : BitVec 16) : WritesHex (consoleWriteHex16 v) 4 v.toNat := by
  have both := (consoleWriteHex8_writes ((v >>> 8).setWidth 8)).halves (consoleWriteHex8_writes (v.setWidth 8))
  exact halves_toNat 2 v ▸ both

theorem consoleWriteHex32_writes (v : BitVec 32) : WritesHex (consoleWriteHex32 v) 8 v.toNat := by
  have both := (consoleWriteHex16_writes ((v >>> 16).setWidth 16)).halves (consoleWriteHex16_writes (v.setWidth 16))
  exact halves_toNat 4 v ▸ both

theorem consoleWriteHex64_writes (v : BitVec 64) : WritesHex (consoleWriteHex64 v) 16 v.toNat := by
  have low : (v &&& 0xFFFFFFFF#64).setWidth 32 = v.setWidth 32 := by
    apply BitVec.eq_of_toNat_eq
    rw [BitVec.toNat_setWidth, BitVec.toNat_setWidth, BitVec.toNat_and]
    exact (congrArg (· % 2 ^ 32) (Nat.and_two_pow_sub_one_eq_mod v.toNat 32)).trans (Nat.mod_mod _ _)
  have both := (consoleWriteHex32_writes ((v >>> 32).setWidth 32)).halves (consoleWriteHex32_writes (v.setWidth 32))
  unfold consoleWriteHex64
  rw [low]
  exact halves_toNat 8 v ▸ both

/-- What the number printing shows and sends for every value: the decimal representation in at most 20
characters, and the value reduced to each width in a fixed count of digits. -/
theorem numbers_printed (v : BitVec 64) :
    (∃ s, Emits (consoleWriteDec v) s ∧ Decimal s v.toNat ∧ s.length ≤ 20) ∧
      WritesHex (consoleWriteHex8 (v.setWidth 8)) 2 (v.toNat % 2 ^ 8) ∧
      WritesHex (consoleWriteHex16 (v.setWidth 16)) 4 (v.toNat % 2 ^ 16) ∧
      WritesHex (consoleWriteHex32 (v.setWidth 32)) 8 (v.toNat % 2 ^ 32) ∧
      WritesHex (consoleWriteHex64 v) 16 v.toNat :=
  ⟨⟨_, emits_write (consoleWriteDec_eq v), toString_decimal v.toNat, toString_short v⟩,
    BitVec.toNat_setWidth 8 v ▸ consoleWriteHex8_writes (v.setWidth 8),
    BitVec.toNat_setWidth 16 v ▸ consoleWriteHex16_writes (v.setWidth 16),
    BitVec.toNat_setWidth 32 v ▸ consoleWriteHex32_writes (v.setWidth 32), consoleWriteHex64_writes v⟩

end LifeOS.Console
