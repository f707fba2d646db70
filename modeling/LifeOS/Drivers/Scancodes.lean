import Mathlib.Data.List.Count
import LifeOS.Drivers.Keyboard

/-!
Whole key events of scancode set 1 through `keyboard_read_char`. The driver knows the
prefix `0xE0` only, so it reads the bytes behind the `0xE1` of Pause as keys of their own.
-/

namespace LifeOS.Drivers
open LifeOS.Library.Strings

/-- The code of a key. A release has the top bit set, and no key has the two codes whose
releases would be the prefixes. -/
structure KeyCode where
  code : Byte
  low : code.toNat < 128
  plain : code ≠ 0x60#8 ∧ code ≠ 0x61#8

def KeyCode.released (k : KeyCode) : Byte := k.code ||| 0x80#8

inductive KeyEvent where
  | press (k : KeyCode)
  | release (k : KeyCode)
  | extendedPress (k : KeyCode)
  | extendedRelease (k : KeyCode)
  | pause

namespace KeyEvent

/-- Pause sends its press and its release at once. -/
def bytes : KeyEvent → List Byte
  | .press k => [k.code]
  | .release k => [k.released]
  | .extendedPress k => [0xE0#8, k.code]
  | .extendedRelease k => [0xE0#8, k.released]
  | .pause => [0xE1#8, 0x1D#8, 0x45#8, 0xE1#8, 0x9D#8, 0xC5#8]

/-- A key that the driver's tables map, where zero means that they do not. -/
def mapped (key : Byte) : List Byte := if key = 0#8 then [] else [key]

/-- What the event is to yield: one key for a press of a mapped key. -/
def typed : KeyEvent → List Byte
  | .press k => mapped (handlePlain k.code)
  | .extendedPress k => mapped (handleExtended k.code)
  | _ => []

end KeyEvent

def readAll : List Byte → Keyboard → List Byte × Keyboard
  | [], k => ([], k)
  | sc :: bytes, k =>
      let (c, k) := keyboardReadChar { k with pending := k.pending ++ [sc] }
      let (keys, k) := readAll bytes k
      (KeyEvent.mapped c ++ keys, k)

def idle : Keyboard := ⟨[], false⟩

/-- The keys of the events in order, and no pending prefix at any boundary. -/
structure Decoded (events : List KeyEvent) : Prop where
  keys : (readAll (events.flatMap KeyEvent.bytes) idle).1 = events.flatMap KeyEvent.typed
  boundaries : ∀ front, front <+: events → (readAll (front.flatMap KeyEvent.bytes) idle).2 = idle

theorem readAll_append (first second : List Byte) (k : Keyboard) :
    readAll (first ++ second) k =
      ((readAll first k).1 ++ (readAll second (readAll first k).2).1, (readAll second (readAll first k).2).2) := by
  induction first generalizing k with
  | nil => rfl
  | cons sc first ih =>
    change (KeyEvent.mapped _ ++ (readAll (first ++ second) _).1, (readAll (first ++ second) _).2) = _
    rw [ih, ← List.append_assoc]
    rfl

theorem KeyCode.press_plain (k : KeyCode) : k.code ≠ 0xE0#8 := by
  intro same
  have low := k.low
  rw [same] at low
  exact absurd low (by decide)

theorem KeyCode.released_plain (k : KeyCode) : k.released ≠ 0xE0#8 := by
  have bytes : ∀ c : Byte, c.toNat < 128 → c ≠ 0x60#8 → c ||| 0x80#8 ≠ 0xE0#8 := by decide +kernel
  exact bytes k.code k.low k.plain.1

theorem KeyCode.released_silent (k : KeyCode) :
    handlePlain k.released = 0#8 ∧ handleExtended k.released = 0#8 := by
  have bytes : ∀ c : Byte, handlePlain (c ||| 0x80#8) = 0#8 ∧ handleExtended (c ||| 0x80#8) = 0#8 := by
    decide +kernel
  exact bytes k.code

theorem readAll_plain (sc : Byte) (plain : sc ≠ 0xE0#8) :
    readAll [sc] idle = (KeyEvent.mapped (handlePlain sc), idle) := by
  have read : keyboardReadChar ⟨[sc], false⟩ = (handlePlain sc, idle) := by
    unfold keyboardReadChar
    dsimp only
    rw [if_neg plain]
    rfl
  change (KeyEvent.mapped (keyboardReadChar ⟨[sc], false⟩).1 ++ [], (keyboardReadChar ⟨[sc], false⟩).2) = _
  rw [read, List.append_nil]

theorem readAll_extended (sc : Byte) (plain : sc ≠ 0xE0#8) :
    readAll [0xE0#8, sc] idle = (KeyEvent.mapped (handleExtended sc), idle) := by
  have read : keyboardReadChar ⟨[sc], true⟩ = (handleExtended sc, idle) := by
    unfold keyboardReadChar
    dsimp only
    rw [if_neg plain]
    rfl
  change (KeyEvent.mapped (keyboardReadChar ⟨[sc], true⟩).1 ++ [], (keyboardReadChar ⟨[sc], true⟩).2) = _
  rw [read, List.append_nil]

namespace KeyEvent

def read : KeyEvent → List Byte
  | .pause => [keyCtrl]
  | event => event.typed

theorem readAll_event (event : KeyEvent) : readAll event.bytes idle = (event.read, idle) := by
  cases event with
  | press k => exact readAll_plain k.code k.press_plain
  | release k =>
    rw [bytes, readAll_plain _ k.released_plain, k.released_silent.1]
    rfl
  | extendedPress k => exact readAll_extended k.code k.press_plain
  | extendedRelease k =>
    rw [bytes, readAll_extended _ k.released_plain, k.released_silent.2]
    rfl
  | pause => rfl

theorem readAll_events (events : List KeyEvent) :
    readAll (events.flatMap bytes) idle = (events.flatMap read, idle) := by
  induction events with
  | nil => rfl
  | cons event events ih =>
    rw [List.flatMap_cons, List.flatMap_cons, readAll_append, readAll_event, ih]

theorem read_eq_typed (event : KeyEvent) (other : event ≠ .pause) : event.read = event.typed := by
  cases event with
  | press k | release k | extendedPress k | extendedRelease k => rfl
  | pause => exact absurd rfl other

theorem typed_length_le (event : KeyEvent) : event.typed.length ≤ event.read.length := by
  cases event with
  | press k | release k | extendedPress k | extendedRelease k => exact Nat.le_refl _
  | pause => decide

theorem length_lt_of_pause (events : List KeyEvent) (paused : .pause ∈ events) :
    (events.flatMap typed).length < (events.flatMap read).length := by
  have fewer (some_events : List KeyEvent) :
      (some_events.flatMap typed).length ≤ (some_events.flatMap read).length := by
    induction some_events with
    | nil => exact Nat.le_refl _
    | cons event rest ih =>
      have here := event.typed_length_le
      rw [List.flatMap_cons, List.flatMap_cons, List.length_append, List.length_append]
      omega
  obtain ⟨front, back, rfl⟩ := List.append_of_mem paused
  have before := fewer front
  have behind := fewer back
  simp only [List.flatMap_append, List.flatMap_cons, List.length_append]
  change _ + (0 + _) < _ + (1 + _)
  omega

end KeyEvent

/-- The driver stays in step exactly while nobody presses Pause. -/
theorem decoded_iff (events : List KeyEvent) : Decoded events ↔ .pause ∉ events := by
  constructor
  · intro decoded paused
    have keys := decoded.keys
    rw [KeyEvent.readAll_events] at keys
    have more := KeyEvent.length_lt_of_pause events paused
    rw [← keys] at more
    exact Nat.lt_irrefl _ more
  · intro others
    refine ⟨?_, ?_⟩
    · rw [KeyEvent.readAll_events]
      apply List.flatMap_congr
      intro event member
      apply event.read_eq_typed
      rintro rfl
      exact others member
    · intro front _
      rw [KeyEvent.readAll_events]

theorem pause_presses_ctrl : ¬∀ events, Decoded events := by
  intro always
  exact absurd (always [.pause]).keys (by decide +kernel)

end LifeOS.Drivers
