import Mathlib.Data.Finmap

/-!
What the file table is for: a finite map from names to contents with room for
sixteen names and 4096 bytes of contents a name. Only the order of a listing is
left open.
-/

namespace LifeOS.Fs

abbrev Name := List (BitVec 8)

abbrev Contents := List (BitVec 8)

structure Directory where
  files : Finmap (fun _ : Name => Contents)
  capacity : files.keys.card ≤ 16
  bounded : ∀ n bytes, files.lookup n = some bytes → bytes.length ≤ 4096

/-- Requests name their file; a transfer without a target is one through a
descriptor that denotes no file. -/
inductive Request where
  | init
  | create (n : Name)
  | open (n : Name)
  | write (target : Option Name) (bytes : Contents)
  | read (target : Option Name) (len : Nat)
  | list (limit : Nat)
  | delete (n : Name)
  | rename (old new : Name)

/-- A returned descriptor is null, or denotes a file of some name or none. -/
abbrev Denoted := Option (Option Name)

inductive Answer where
  | done
  | file (f : Denoted)
  | status (value : Int)
  | bytes (count : Int) (data : Contents)
  | names (count : Nat) (listed : List Denoted)

/-- The answers a directory may give, with the directory it becomes. -/
inductive Served : Request → Directory → Answer → Directory → Prop where
  | init (d d' : Directory) : d'.files = ∅ → Served .init d .done d'
  | create (d d' : Directory) (n : Name) : n ∉ d.files → d.files.keys.card < 16 →
      d'.files = d.files.insert n [] → Served (.create n) d (.file (some (some n))) d'
  | createFull (d : Directory) (n : Name) : d.files.keys.card = 16 →
      Served (.create n) d (.file none) d
  | open (d : Directory) (n : Name) : n ∈ d.files → Served (.open n) d (.file (some (some n))) d
  | openAbsent (d : Directory) (n : Name) : n ∉ d.files → Served (.open n) d (.file none) d
  | write (d d' : Directory) (n : Name) (bytes : Contents) : n ∈ d.files →
      d'.files = d.files.insert n (bytes.take 4096) →
      Served (.write (some n) bytes) d (.status (bytes.take 4096).length) d'
  | writeNowhere (d : Directory) (bytes : Contents) : Served (.write none bytes) d (.status (-1)) d
  | read (d : Directory) (n : Name) (bytes : Contents) (len : Nat) : d.files.lookup n = some bytes →
      Served (.read (some n) len) d (.bytes (bytes.take len).length (bytes.take len)) d
  | readNowhere (d : Directory) (len : Nat) : Served (.read none len) d (.bytes (-1) []) d
  | list (d : Directory) (limit : Nat) (listed : List Name) : listed.Nodup →
      (16 ≤ limit → listed.toFinset = d.files.keys) → (∀ n ∈ listed, n ∈ d.files) →
      Served (.list limit) d (.names listed.length (listed.map fun n => some (some n))) d
  | delete (d d' : Directory) (n : Name) : n ∈ d.files → d'.files = d.files.erase n →
      Served (.delete n) d (.status 0) d'
  | deleteAbsent (d : Directory) (n : Name) : n ∉ d.files → Served (.delete n) d (.status (-1)) d
  | rename (d d' : Directory) (old new : Name) (bytes : Contents) : d.files.lookup old = some bytes →
      new ∉ d.files → d'.files = (d.files.erase old).insert new bytes →
      Served (.rename old new) d (.status 0) d'
  | renameBlocked (d : Directory) (old new : Name) : old ∉ d.files ∨ new ∈ d.files →
      Served (.rename old new) d (.status (-1)) d

inductive Session : List (Request × Answer) → Directory → Directory → Prop where
  | nil (d : Directory) : Session [] d d
  | cons {request : Request} {answer : Answer} {rest : List (Request × Answer)}
      {d mid last : Directory} : Served request d answer mid → Session rest mid last →
      Session ((request, answer) :: rest) d last

def Directory.empty : Directory where
  files := ∅
  capacity := by simp
  bounded := by simp

end LifeOS.Fs
