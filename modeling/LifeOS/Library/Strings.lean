import Mathlib.Data.List.Basic
import Mathlib.Data.BitVec

/-!
Fixed-size arrays with checked accesses and NUL-terminated strings inside them.
A `char *` is the list of bytes from the pointer to the end of its object, so a
read past the object is visible as the end of the list.
-/

namespace LifeOS.Library.Strings

abbrev Byte := BitVec 8

variable {α : Type*} {n : Nat}

/-- `a[i]`, where `none` is a read outside the array. -/
def load (a : Vector α n) (i : Nat) : Option α := a[i]?

/-- `a[i] = v`, where `none` is a store outside the array. -/
def store (a : Vector α n) (i : Nat) (v : α) : Option (Vector α n) :=
  if inside : i < n then some (a.set i v) else none

theorem load_inside (a : Vector α n) (i : Nat) (inside : i < n) : load a i = some a[i] := by
  simp [load, inside]

theorem store_inside (a : Vector α n) (i : Nat) (v : α) (inside : i < n) :
    store a i v = some (a.set i v) := dif_pos inside

/-- The string at a pointer: the bytes before the first NUL. -/
def text : List Byte → List Byte
  | [] => []
  | c :: object => if c = 0#8 then [] else c :: text object

theorem text_cons (c : Byte) (object : List Byte) :
    text (c :: object) = if c = 0#8 then [] else c :: text object := rfl

theorem zero_notMem_text (object : List Byte) : 0#8 ∉ text object := by
  induction object with
  | nil => simp [text]
  | cons c object ih =>
    by_cases zero : c = 0#8
    · simp [text_cons, zero]
    · simp [text_cons, zero, Ne.symm zero, ih]

theorem text_append_zero (bytes rest : List Byte) (plain : 0#8 ∉ bytes) :
    text (bytes ++ 0#8 :: rest) = bytes := by
  induction bytes with
  | nil => simp [text_cons]
  | cons c bytes ih =>
    have nonzero : c ≠ 0#8 := fun zero => plain (by simp [zero])
    rw [List.cons_append, text_cons, if_neg nonzero,
      ih (fun member => plain (List.mem_cons_of_mem c member))]

theorem exists_rest (object : List Byte) (terminated : 0#8 ∈ object) :
    ∃ rest, object = text object ++ 0#8 :: rest := by
  induction object with
  | nil => simp at terminated
  | cons c object ih =>
    by_cases zero : c = 0#8
    · exact ⟨object, by simp [text_cons, zero]⟩
    · have later : 0#8 ∈ object := 
        (List.mem_cons.mp terminated).resolve_left (Ne.symm zero)
      obtain ⟨rest, shape⟩ := ih later
      refine ⟨rest, ?_⟩
      rw [text_cons, if_neg zero, List.cons_append, ← shape]

structure CString where
  object : List Byte
  terminated : 0#8 ∈ object

def CString.text (s : CString) : List Byte := Strings.text s.object

def CString.ofBytes (bytes : List Byte) : CString := ⟨bytes ++ [0#8], by simp⟩

theorem CString.text_ofBytes (bytes : List Byte) (plain : 0#8 ∉ bytes) :
    (CString.ofBytes bytes).text = bytes :=
  text_append_zero bytes [] plain

theorem CString.zero_notMem_text (s : CString) : 0#8 ∉ s.text :=
  Strings.zero_notMem_text s.object

def ascii (s : String) : List Byte := s.toList.map (fun ch => BitVec.ofNat 8 ch.toNat)

/-- `while (src[i] && i < bound) { dst[i] = src[i]; i++; }`, returning the final index. -/
def copyString (bound : Nat) : List Byte → Nat → Vector Byte n → Option (Nat × Vector Byte n)
  | [], _, _ => none
  | c :: src, i, dst =>
      if c ≠ 0#8 ∧ i < bound then (store dst i c).bind (copyString bound src (i + 1))
      else some (i, dst)

private theorem take_set_succ (a : Vector Byte n) (i : Nat) (c : Byte) (inside : i < n) :
    (a.set i c).toList.take (i + 1) = a.toList.take i ++ [c] := by
  have length : i < a.toList.length := by simpa using inside
  rw [Vector.toList_set, List.take_add_one, List.take_set_of_le (Nat.le_refl i),
    List.getElem?_set_self length, Option.toList_some]

private theorem drop_set_later (a : Vector Byte n) (i k : Nat) (c : Byte) (inside : i < n)
    (later : i < k) : (a.set i c).toList.drop k = a.toList.drop k := by
  rw [Vector.toList_set, List.drop_set_of_lt later]

/-- The loop stays in both objects and copies the text up to the bound. -/
theorem copyString_spec (bound : Nat) (src : List Byte) (i : Nat) (dst : Vector Byte n)
    (terminated : 0#8 ∈ src) (fits : bound ≤ n) (start : i ≤ bound) :
    ∃ copied, copyString bound src i dst = some (i + min (text src).length (bound - i), copied) ∧
      copied.toList = dst.toList.take i ++ (text src).take (bound - i) ++
        dst.toList.drop (i + min (text src).length (bound - i)) := by
  induction src generalizing i dst with
  | nil => simp at terminated
  | cons c src ih =>
    by_cases more : c ≠ 0#8 ∧ i < bound
    · have inside : i < n := by omega
      have later : 0#8 ∈ src := 
        (List.mem_cons.mp terminated).resolve_left (Ne.symm more.1)
      obtain ⟨copied, ran, bytes⟩ := ih (i + 1) (dst.set i c) later (by omega)
      have shape : text (c :: src) = c :: text src := by rw [text_cons, if_neg more.1]
      have count : i + min (text (c :: src)).length (bound - i) =
          i + 1 + min (text src).length (bound - (i + 1)) := by
        rw [shape, List.length_cons]
        omega
      refine ⟨copied, ?_, ?_⟩
      · rw [copyString, if_pos more, store_inside dst i c inside, Option.bind_some, ran, count]
      · rw [bytes, count, take_set_succ dst i c inside, drop_set_later dst i _ c inside (by omega),
          shape, show bound - i = bound - (i + 1) + 1 by omega, List.take_succ_cons]
        simp only [List.append_assoc, List.cons_append, List.nil_append]
    · refine ⟨dst, ?_, ?_⟩
      · rw [copyString, if_neg more]
        by_cases zero : c = 0#8
        · simp [text_cons, zero]
        · have stopped : bound - i = 0 := by
            by_contra positive
            exact more ⟨zero, by omega⟩
          simp [stopped]
      · by_cases zero : c = 0#8
        · simp [text_cons, zero]
        · have stopped : bound - i = 0 := by
            by_contra positive
            exact more ⟨zero, by omega⟩
          simp [stopped]

theorem toList_set_append (a : Vector Byte n) (front back : List Byte) (c d : Byte)
    (shape : a.toList = front ++ d :: back) (inside : front.length < n) :
    (a.set front.length c).toList = front ++ c :: back := by
  rw [Vector.toList_set, shape]
  simp

theorem copyString_terminate (bound : Nat) (src : List Byte) (dst : Vector Byte n)
    (terminated : 0#8 ∈ src) (fits : bound < n) :
    ∃ copied final, copyString bound src 0 dst = some (min (text src).length bound, copied) ∧
      store copied (min (text src).length bound) 0#8 = some final ∧
      0#8 ∈ final.toList ∧ text final.toList = (text src).take bound := by
  obtain ⟨copied, ran, bytes⟩ := copyString_spec bound src 0 dst terminated fits.le (Nat.zero_le _)
  simp only [Nat.zero_add, Nat.sub_zero, List.take_zero, List.nil_append] at ran bytes
  have inside : min (text src).length bound < n := by omega
  have front : ((text src).take bound).length = min (text src).length bound := by
    rw [List.length_take, Nat.min_comm]
  obtain ⟨d, back, tail⟩ : ∃ d back, dst.toList.drop (min (text src).length bound) = d :: back :=
    List.exists_cons_of_length_pos (by simp; omega)
  have placed := toList_set_append copied ((text src).take bound) back 0#8 d (by rw [bytes, tail])
    (by omega)
  simp only [front] at placed
  refine ⟨copied, copied.set _ 0#8 inside, ran, store_inside copied _ 0#8 inside, ?_, ?_⟩
  · rw [placed]
    simp
  · rw [placed]
    exact text_append_zero _ back (fun member => zero_notMem_text src (List.mem_of_mem_take member))

end LifeOS.Library.Strings
