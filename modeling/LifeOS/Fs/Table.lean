import Mathlib.Data.Fintype.Card
import LifeOS.Library.Loops
import LifeOS.Strcmp

/-!
The in-memory file table of `kernel/fs/fs.c`. A `struct file *` is an optional
slot of the table, `none` being the null pointer; caller buffers are separate
from the table.
-/

namespace LifeOS.Fs
open LifeOS.Library.Loops LifeOS.Library.Strings LifeOS.Strcmp

/-- `char name[32]`, which always holds a terminator: zero at boot, then written by `copy_name`. -/
structure NameField where
  bytes : Vector Byte 32
  terminated : 0#8 ∈ bytes.toList

/-- `struct file`; no operation stores a size beyond the data array. -/
structure File where
  name : NameField
  data : Fin 4096 → Byte
  size : Nat
  size_le : size ≤ 4096
  used : Bool

abbrev Table := Fin 16 → File

abbrev Descriptor := Option (Fin 16)

def emptyTable : Table := fun _ =>
  { name := ⟨Vector.replicate 32 0#8, by simp⟩, data := fun _ => 0#8, size := 0,
    size_le := Nat.zero_le _, used := false }

/-- `for (i = 0; i < MAX_FILES; i++)` up to the first slot that passes the test. -/
@[irreducible]
def firstSlot (test : Fin 16 → Bool) : Descriptor := Fin.find? test

def fsInit (files : Table) : Table :=
  forFin 16 (fun i files => Function.update files i { files i with used := false }) files

/-- The two statements of `copy_name`: the bounded copy, then `dst[i] = '\0'`. -/
def copyNameBytes (dst : Vector Byte 32) (src : List Byte) : Option (Vector Byte 32) :=
  (copyString 31 src 0 dst).bind (fun stopped => store stopped.2 stopped.1 0#8)

theorem copyNameBytes_spec (dst : Vector Byte 32) (src : List Byte) (terminated : 0#8 ∈ src) :
    ∃ final, copyNameBytes dst src = some final ∧ 0#8 ∈ final.toList ∧
      text final.toList = (text src).take 31 := by
  obtain ⟨copied, final, ran, stored, ended, bytes⟩ :=
    copyString_terminate 31 src dst terminated (by decide)
  exact ⟨final, by rw [copyNameBytes, ran, Option.bind_some, stored], ended, bytes⟩

/-- `copy_name`, whose accesses never leave the two arrays. -/
def copyName (dst : NameField) (src : CString) : NameField :=
  ⟨(copyNameBytes dst.bytes src.object).getD dst.bytes, by
    obtain ⟨final, ran, ended, _⟩ := copyNameBytes_spec dst.bytes src.object src.terminated
    rw [ran]
    exact ended⟩

/-- `strcmp(f->name, name) == 0` -/
def named (f : File) (name : CString) : Bool :=
  strcmp f.name.bytes.toList name.object == some 0

def fsCreate (name : CString) (files : Table) : Table × Descriptor :=
  match firstSlot (fun i => !(files i).used) with
  | some i =>
      (Function.update files i
        { name := copyName (files i).name name, data := (files i).data, size := 0,
          size_le := Nat.zero_le _, used := true }, some i)
  | none => (files, none)

def fsOpen (name : CString) (files : Table) : Descriptor :=
  firstSlot (fun i => (files i).used && named (files i) name)

/-- `data` is the caller's memory from the pointer on; at most `min len 4096` bytes of it are read. -/
def fsWrite (f : Descriptor) (data : Nat → Byte) (len : Nat) (files : Table) : Table × Int :=
  match f with
  | none => (files, -1)
  | some i =>
      if (files i).used then
        (Function.update files i
          { files i with
            data := forFin (min len 4096)
              (fun k d => Function.update d ⟨k.val, by omega⟩ (data k.val)) (files i).data
            size := min len 4096
            size_le := Nat.min_le_right _ _ }, ((min len 4096 : Nat) : Int))
      else (files, -1)

def fsRead (f : Descriptor) (buf : Nat → Byte) (len : Nat) (files : Table) : (Nat → Byte) × Int :=
  match f with
  | none => (buf, -1)
  | some i =>
      if (files i).used then
        have bound := (files i).size_le
        (forFin (min len (files i).size)
          (fun k b => Function.update b k.val ((files i).data ⟨k.val, by omega⟩)) buf,
          ((min len (files i).size : Nat) : Int))
      else (buf, -1)

/-- The loop of `fs_list` over the slots still to visit, with the caller's array and the count. -/
def listFrom (files : Table) (max : Nat) :
    List (Fin 16) → (Nat → Descriptor) → Nat → (Nat → Descriptor) × Nat
  | [], list, count => (list, count)
  | i :: rest, list, count =>
      if count < max then
        if (files i).used then listFrom files max rest (Function.update list count (some i)) (count + 1)
        else listFrom files max rest list count
      else (list, count)

def fsList (list : Nat → Descriptor) (max : Nat) (files : Table) : (Nat → Descriptor) × Nat :=
  listFrom files max (List.finRange 16) list 0

def fsDelete (name : CString) (files : Table) : Table × Int :=
  match firstSlot (fun i => (files i).used && named (files i) name) with
  | some i =>
      (Function.update files i { files i with used := false, size := 0, size_le := Nat.zero_le _ }, 0)
  | none => (files, -1)

/-- The loop of `fs_rename`, where `none` is the return inside it and the inner
result is the final `src`. -/
def renameScan (oldname newname : CString) (files : Table) :
    List (Fin 16) → Descriptor → Option Descriptor
  | [], src => some src
  | i :: rest, src =>
      let src := if (files i).used && named (files i) oldname then some i else src
      if (files i).used && named (files i) newname then none
      else renameScan oldname newname files rest src

def fsRename (oldname newname : CString) (files : Table) : Table × Int :=
  match renameScan oldname newname files (List.finRange 16) none with
  | none => (files, -1)
  | some none => (files, -1)
  | some (some i) =>
      (Function.update files i { files i with name := copyName (files i).name newname }, 0)

def File.storedName (f : File) : List Byte := text f.name.bytes.toList

def File.contents (f : File) : List Byte :=
  (List.range f.size).map (fun k => if inside : k < 4096 then f.data ⟨k, inside⟩ else 0#8)

def stored (name : CString) : List Byte := name.text.take 31

theorem copyName_text (dst : NameField) (src : CString) :
    text (copyName dst src).bytes.toList = stored src := by
  obtain ⟨final, ran, _, bytes⟩ := copyNameBytes_spec dst.bytes src.object src.terminated
  simp only [copyName, ran, Option.getD_some]
  exact bytes

@[simp]
theorem named_iff (f : File) (name : CString) : named f name = true ↔ f.storedName = name.text := by
  obtain ⟨v, ran, zero⟩ :=
    strcmp_terminated f.name.bytes.toList name.object f.name.terminated name.terminated
  have unfolded : named f name = true ↔ v = 0 := by simp [named, ran]
  exact unfolded.trans zero

end LifeOS.Fs
