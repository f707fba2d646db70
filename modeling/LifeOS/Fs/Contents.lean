import LifeOS.Fs.Calls

/-!
Contents of files across runs. Slot data is never cleared, so what a reader gets
rests on the size and the used flag alone: the contents of a file in use are the
bytes of the last write through its slot since the slot was handed out.
-/

namespace LifeOS.Fs
open LifeOS.Library.Strings LifeOS.Library.Runs

/-- The bytes of the last write through slot `f` since the creation that handed
the slot out, updated by one event of the run. -/
def track (f : Fin 16) (bytes : List Byte) : Call × Reply → List Byte
  | (.fsCreate _, .file (some i)) => if i = f then [] else bytes
  | (.fsWrite (some i) data len, _) => if i = f then kept data len else bytes
  | _ => bytes

def lastWrite (f : Fin 16) (events : List (Call × Reply)) : List Byte := events.foldl (track f) []

/-- Every file in use holds the bytes the events so far give it. -/
def Tracked (files : Table) (bytes : Fin 16 → List Byte) : Prop :=
  ∀ i, (files i).used = true → (files i).contents = bytes i

theorem tracked_fsInit (files : Table) (bytes : Fin 16 → List Byte) : Tracked (fsInit files) bytes := by
  intro i used
  rw [fsInit_apply] at used
  cases used

theorem tracked_fsCreate (name : CString) (files : Table) (bytes : Fin 16 → List Byte)
    (held : Tracked files bytes) :
    Tracked (fsCreate name files).1
      (fun f => track f (bytes f) (.fsCreate name, .file (fsCreate name files).2)) := by
  rcases fsCreate_cases name files with ⟨_, ran⟩ | ⟨i, _, _, ran⟩
  · rw [ran]
    exact held
  · rw [ran]
    intro j used
    by_cases here : j = i
    · subst here
      simp [track]
    · simp only [Function.update_of_ne here] at used ⊢
      simpa [track, Ne.symm here] using held j used

theorem tracked_fsWrite (f : Descriptor) (data : Nat → Byte) (len : Nat) (reply : Reply) (files : Table)
    (bytes : Fin 16 → List Byte) (held : Tracked files bytes) :
    Tracked (fsWrite f data len files).1
      (fun j => track j (bytes j) (.fsWrite f data len, reply)) := by
  rcases fsWrite_cases f data len files with ⟨unused, ran⟩ | ⟨i, rfl, used, ran⟩
  · rw [ran]
    intro j usedJ
    cases f with
    | none => exact held j usedJ
    | some i =>
      have apart : i ≠ j := by
        intro same
        have free := unused j (congrArg some same)
        rw [usedJ] at free
        cases free
      simpa [track, apart] using held j usedJ
  · rw [ran]
    intro j usedJ
    by_cases here : j = i
    · subst here
      simp [track]
    · simp only [Function.update_of_ne here] at usedJ ⊢
      simpa [track, Ne.symm here] using held j usedJ

theorem contents_fsDelete (name : CString) (files : Table) (j : Fin 16)
    (used : ((fsDelete name files).1 j).used = true) : (fsDelete name files).1 j = files j := by
  rcases fsDelete_cases name files with ⟨_, ran⟩ | ⟨i, _, ran⟩
  · rw [ran]
  · rw [ran] at used ⊢
    by_cases here : j = i
    · subst here
      simp at used
    · exact Function.update_of_ne here _ _

theorem contents_fsRename (oldname newname : CString) (files : Table) (j : Fin 16) :
    ((fsRename oldname newname files).1 j).contents = (files j).contents ∧
      ((fsRename oldname newname files).1 j).used = (files j).used := by
  rcases fsRename_cases oldname newname files with ⟨_, ran⟩ | ⟨i, _, _, ran⟩
  · rw [ran]
    exact ⟨rfl, rfl⟩
  · rw [ran]
    by_cases here : j = i
    · subst here
      simp
    · simp [Function.update_of_ne here]

theorem tracked_step (call : Call) (files : Table) (bytes : Fin 16 → List Byte)
    (held : Tracked files bytes) :
    Tracked (step call files) (fun f => track f (bytes f) (call, (serve call files).2)) := by
  cases call with
  | fsInit => exact tracked_fsInit files _
  | fsCreate name => exact tracked_fsCreate name files bytes held
  | fsOpen name => exact held
  | fsWrite f data len => exact tracked_fsWrite f data len _ files bytes held
  | fsRead f buf len => exact held
  | fsList list max => exact held
  | fsDelete name =>
    intro j used
    have same := contents_fsDelete name files j used
    change ((fsDelete name files).1 j).used = true at used
    rw [same] at used
    change ((fsDelete name files).1 j).contents = bytes j
    rw [same]
    exact held j used
  | fsRename oldname newname =>
    intro j used
    obtain ⟨contents, flag⟩ := contents_fsRename oldname newname files j
    exact contents.trans (held j (flag ▸ used))

theorem tracked_run (calls : List Call) (files : Table) (bytes : Fin 16 → List Byte)
    (held : Tracked files bytes) :
    Tracked (run step calls files) (fun f => (history calls files).foldl (track f) (bytes f)) := by
  induction calls generalizing files bytes with
  | nil => exact held
  | cons call calls ih => exact ih (step call files) _ (tracked_step call files bytes held)

/-- A call other than a write through `f` leaves the contents of `f` alone while it stays in use. -/
theorem contents_step (call : Call) (files : Table) (f : Fin 16) (before : (files f).used = true)
    (after : (step call files f).used = true) (other : ∀ data n, call ≠ .fsWrite (some f) data n) :
    (step call files f).contents = (files f).contents := by
  cases call with
  | fsInit =>
    change (fsInit files f).used = true at after
    rw [fsInit_apply] at after
    cases after
  | fsCreate name =>
    change ((fsCreate name files).1 f).contents = _
    rcases fsCreate_cases name files with ⟨_, ran⟩ | ⟨i, free, _, ran⟩
    · rw [ran]
    · have apart : f ≠ i := by
        intro same
        rw [← same, before] at free
        cases free
      simp only [ran, Function.update_of_ne apart]
  | fsOpen name => rfl
  | fsWrite g data len =>
    change ((fsWrite g data len files).1 f).contents = _
    rcases fsWrite_cases g data len files with ⟨_, ran⟩ | ⟨i, rfl, _, ran⟩
    · rw [ran]
    · have apart : f ≠ i := fun same => other data len (by rw [same])
      simp only [ran, Function.update_of_ne apart]
  | fsRead g buf len => rfl
  | fsList list max => rfl
  | fsDelete name => exact congrArg File.contents (contents_fsDelete name files f after)
  | fsRename oldname newname => exact (contents_fsRename oldname newname files f).1

theorem fsRead_congr (f : Fin 16) (buf : Nat → Byte) (len : Nat) (first second : Table)
    (usedFirst : (first f).used = true) (usedSecond : (second f).used = true)
    (same : (first f).contents = (second f).contents) :
    fsRead (some f) buf len first = fsRead (some f) buf len second := by
  rw [fsRead_used f buf len first usedFirst, fsRead_used f buf len second usedSecond, same]

/-- A file just handed out reads as empty, whatever its slot held before. -/
theorem fsRead_created (name : CString) (files : Table) (f : Fin 16) (buf : Nat → Byte) (len : Nat)
    (handed : (fsCreate name files).2 = some f) :
    fsRead (some f) buf len (fsCreate name files).1 = (buf, 0) := by
  rcases fsCreate_cases name files with ⟨_, ran⟩ | ⟨i, _, _, ran⟩
  · rw [ran] at handed
    cases handed
  · rw [ran] at handed ⊢
    cases handed
    rw [fsRead_used _ buf len _ (by simp)]
    simp only [Function.update_self, created_contents, List.length_nil, Nat.min_zero, Nat.cast_zero]
    congr 1

/-- In every run every file in use reads back a prefix of the last write through its
descriptor and leaves the rest of the buffer alone; no call but such a write changes
that, and a reused slot shows nothing of its former file. -/
theorem reads_return_last_write (files : Table) (calls : List Call) :
    let now := run step calls (fsInit files)
    (∀ f buf len, (now f).used = true →
      let bytes := lastWrite f (history calls (fsInit files))
      fsRead (some f) buf len now =
        (overlay bytes (min len bytes.length) buf, ((min len bytes.length : Nat) : Int))) ∧
    (∀ call f buf len, (now f).used = true → (step call now f).used = true →
      (∀ data n, call ≠ .fsWrite (some f) data n) →
      fsRead (some f) buf len (step call now) = fsRead (some f) buf len now) ∧
    (∀ name f buf len, (fsCreate name now).2 = some f →
      fsRead (some f) buf len (fsCreate name now).1 = (buf, 0)) := by
  intro now
  refine ⟨?_, ?_, ?_⟩
  · intro f buf len used
    have tracked : (now f).contents = lastWrite f (history calls (fsInit files)) :=
      tracked_run calls (fsInit files) (fun _ => []) (tracked_fsInit files _) f used
    simp only [← tracked]
    exact fsRead_used f buf len now used
  · intro call f buf len before after other
    exact fsRead_congr f buf len _ _ after before (contents_step call now f before after other)
  · intro name f buf len handed
    exact fsRead_created name now f buf len handed

end LifeOS.Fs
