import LifeOS.Fs.Operations

/-!
The calls of a client of the file table as labelled steps, with the reply each
call gives. Runs start at `fs_init` on a table of any content.
-/

namespace LifeOS.Fs
open LifeOS.Library.Strings LifeOS.Library.Runs

inductive Call where
  | fsInit
  | fsCreate (name : CString)
  | fsOpen (name : CString)
  | fsWrite (f : Descriptor) (data : Nat → Byte) (len : Nat)
  | fsRead (f : Descriptor) (buf : Nat → Byte) (len : Nat)
  | fsList (list : Nat → Descriptor) (max : Nat)
  | fsDelete (name : CString)
  | fsRename (oldname newname : CString)

/-- What a call returns, with the caller's buffer or array where it fills one. -/
inductive Reply where
  | done
  | file (f : Descriptor)
  | status (value : Int)
  | bytes (buf : Nat → Byte) (count : Int)
  | listed (list : Nat → Descriptor) (count : Nat)

def serve : Call → Table → Table × Reply
  | .fsInit, files => (fsInit files, .done)
  | .fsCreate name, files => ((fsCreate name files).1, .file (fsCreate name files).2)
  | .fsOpen name, files => (files, .file (fsOpen name files))
  | .fsWrite f data len, files => ((fsWrite f data len files).1, .status (fsWrite f data len files).2)
  | .fsRead f buf len, files => (files, .bytes (fsRead f buf len files).1 (fsRead f buf len files).2)
  | .fsList list max, files => (files, .listed (fsList list max files).1 (fsList list max files).2)
  | .fsDelete name, files => ((fsDelete name files).1, .status (fsDelete name files).2)
  | .fsRename oldname newname, files =>
      ((fsRename oldname newname files).1, .status (fsRename oldname newname files).2)

def step (call : Call) (files : Table) : Table := (serve call files).1

def history : List Call → Table → List (Call × Reply)
  | [], _ => []
  | call :: calls, files => (call, (serve call files).2) :: history calls (step call files)

theorem unused_or_used (f : Descriptor) (files : Table) :
    Unused f files ∨ ∃ i, f = some i ∧ (files i).used = true := by
  cases f with
  | none => exact Or.inl (fun i same => by cases same)
  | some i =>
    cases used : (files i).used with
    | false => exact Or.inl (fun j same => by cases same; exact used)
    | true => exact Or.inr ⟨i, rfl, used⟩

theorem fsWrite_cases (f : Descriptor) (data : Nat → Byte) (len : Nat) (files : Table) :
    (Unused f files ∧ fsWrite f data len files = (files, -1)) ∨
    ∃ i, f = some i ∧ (files i).used = true ∧
      fsWrite f data len files =
        (Function.update files i (written (files i) data len), ((min len 4096 : Nat) : Int)) := by
  rcases unused_or_used f files with unused | ⟨i, rfl, used⟩
  · exact Or.inl ⟨unused, fsWrite_unused f data len files unused⟩
  · exact Or.inr ⟨i, rfl, used, fsWrite_used i data len files used⟩

theorem fsDelete_cases (name : CString) (files : Table) :
    ((∀ i, ¬Live files i name.text) ∧ fsDelete name files = (files, -1)) ∨
    ∃ i, fsOpen name files = some i ∧
      fsDelete name files = (Function.update files i (freed (files i)), 0) := by
  rw [fsDelete_eq]
  cases opened : fsOpen name files with
  | none => exact Or.inl ⟨(fsOpen_eq_none_iff name files).mp opened, rfl⟩
  | some i => exact Or.inr ⟨i, rfl, rfl⟩

theorem update_used (files : Table) (i : Fin 16) (new : File) (same : new.used = (files i).used)
    (f : Fin 16) : (Function.update files i new f).used = (files f).used := by
  by_cases here : f = i
  · rw [here, Function.update_self, same]
  · rw [Function.update_of_ne here]

theorem fsWrite_used_same (f : Descriptor) (data : Nat → Byte) (len : Nat) (files : Table) (i : Fin 16) :
    ((fsWrite f data len files).1 i).used = (files i).used := by
  rcases fsWrite_cases f data len files with ⟨_, ran⟩ | ⟨j, _, _, ran⟩
  · rw [ran]
  · simp only [ran, update_used files j _ (written_used (files j) data len)]

theorem fsRename_used_same (oldname newname : CString) (files : Table) (i : Fin 16) :
    ((fsRename oldname newname files).1 i).used = (files i).used := by
  rcases fsRename_cases oldname newname files with ⟨_, ran⟩ | ⟨j, _, _, ran⟩
  · rw [ran]
  · simp only [ran, update_used files j _ (renamed_used (files j) newname)]

theorem live_of_fsOpen {name : CString} {files : Table} {i : Fin 16}
    (opened : fsOpen name files = some i) : Live files i name.text :=
  ((fsOpen_eq_some_iff name files i).mp opened).1

theorem fsOpen_le_of_live {name : CString} {files : Table} {i j : Fin 16}
    (opened : fsOpen name files = some i) (live : Live files j name.text) : i ≤ j := by
  by_contra lower
  exact ((fsOpen_eq_some_iff name files i).mp opened).2 j (not_le.mp lower) live

end LifeOS.Fs
