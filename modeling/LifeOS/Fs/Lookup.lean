import LifeOS.Fs.Calls

/-!
A file stays where its name finds it. `fs_open` returns the first slot that stores
the whole name, so a later call can only take the answer away by storing the same
31 bytes into a slot before it.
-/

namespace LifeOS.Fs
open LifeOS.Library.Strings LifeOS.Library.Runs

/-- A call about a file of another name, of those that leave the table set up. -/
def OfOther (name : CString) : Call → Prop
  | .fsInit => False
  | .fsCreate other => other.text ≠ name.text
  | .fsDelete other => other.text ≠ name.text
  | .fsRename oldname _ => oldname.text ≠ name.text
  | _ => True

/-- The call stores the bytes of `name` in no slot before `f`: a creation takes the
lowest free slot, a rename that goes through changes the last match. -/
def StoresBehind (name : CString) (f : Fin 16) : Call → Table → Prop
  | .fsCreate other, files => stored other = name.text → ∀ i, (files i).used = false → f < i
  | .fsRename oldname newname, files =>
      stored newname = name.text → (∀ i, ¬Live files i newname.text) →
        ∀ i, Live files i oldname.text → (∀ j, i < j → ¬Live files j oldname.text) → f < i
  | _, _ => True

theorem fsOpen_congr (name : CString) (first second : Table)
    (same : ∀ i, Live first i name.text ↔ Live second i name.text) :
    fsOpen name first = fsOpen name second := by
  apply Option.ext
  intro i
  simp only [fsOpen_eq_some_iff, same]

/-- A slot that did not carry the name hides the found one only from before it. -/
theorem fsOpen_update_iff (name : CString) (files : Table) (f i : Fin 16) (new : File)
    (opened : fsOpen name files = some f) (other : ¬Live files i name.text) :
    fsOpen name (Function.update files i new) = some f ↔
      (new.used = true → new.storedName = name.text → f < i) := by
  obtain ⟨live, before⟩ := (fsOpen_eq_some_iff name files f).mp opened
  have apart : f ≠ i := fun same => other (same ▸ live)
  rw [fsOpen_eq_some_iff, live_update_of_ne files apart]
  constructor
  · rintro ⟨_, still⟩ used same
    by_contra low
    have below : i < f := by omega
    exact still i below ((live_update_self files i new name.text).mpr ⟨used, same⟩)
  · intro behind
    refine ⟨live, fun j lower => ?_⟩
    by_cases here : j = i
    · rw [here, live_update_self]
      rintro ⟨used, same⟩
      have above := behind used same
      omega
    · rw [live_update_of_ne files here]
      exact before j lower

theorem live_written (files : Table) (i : Fin 16) (data : Nat → Byte) (len : Nat) (n : List Byte)
    (j : Fin 16) : Live (Function.update files i (written (files i) data len)) j n ↔ Live files j n := by
  by_cases here : j = i
  · rw [here, live_update_self, written_used, written_storedName, Live]
  · exact live_update_of_ne files here _ n

theorem fsCreate_found_iff (name other : CString) (files : Table) (f : Fin 16)
    (opened : fsOpen name files = some f) :
    fsOpen name (fsCreate other files).1 = some f ↔ StoresBehind name f (.fsCreate other) files := by
  rcases fsCreate_cases other files with ⟨full, ran⟩ | ⟨i, free, lowest, ran⟩
  · rw [ran]
    refine ⟨fun _ _ i free => ?_, fun _ => opened⟩
    rw [full i] at free
    cases free
  · have empty : ¬Live files i name.text := fun live => by simp [live.1] at free
    rw [ran, fsOpen_update_iff name files f i _ opened empty, created_used, created_storedName]
    constructor
    · intro behind same k unused
      exact lt_of_lt_of_le (behind rfl same) (lowest_le lowest unused)
    · exact fun behind _ same => behind same i free

theorem fsDelete_found (name other : CString) (files : Table) (f : Fin 16)
    (opened : fsOpen name files = some f) (apart : other.text ≠ name.text) :
    fsOpen name (fsDelete other files).1 = some f := by
  rcases fsDelete_cases other files with ⟨_, ran⟩ | ⟨i, found, ran⟩
  · rw [ran]
    exact opened
  · have carries : ¬Live files i name.text := fun live =>
      apart ((live_of_fsOpen found).2.symm.trans live.2)
    rw [ran, fsOpen_update_iff name files f i _ opened carries]
    exact fun used => by simp at used

theorem fsRename_found_iff (name oldname newname : CString) (files : Table) (f : Fin 16)
    (opened : fsOpen name files = some f) (apart : oldname.text ≠ name.text) :
    fsOpen name (fsRename oldname newname files).1 = some f ↔
      StoresBehind name f (.fsRename oldname newname) files := by
  rcases fsRename_last oldname newname files with ⟨blocked, ran⟩ | ⟨i, source, last, clear, ran⟩
  · rw [ran]
    exact ⟨fun _ _ absent i source => (not_blocked blocked ⟨i, source⟩ absent).elim, fun _ => opened⟩
  · have carries : ¬Live files i name.text := fun live => apart (source.2.symm.trans live.2)
    rw [ran, fsOpen_update_iff name files f i _ opened carries, renamed_used, renamed_storedName]
    constructor
    · intro behind same _ k found later
      have same_slot : k = i := by
        rcases lt_trichotomy k i with lower | equal | above
        · exact absurd source (later i lower)
        · exact equal
        · exact absurd found (last k above)
      rw [same_slot]
      exact behind source.1 same
    · exact fun behind _ same => behind same clear i source last

theorem step_found_iff (name : CString) (f : Fin 16) (call : Call) (other : OfOther name call)
    (files : Table) (opened : fsOpen name files = some f) :
    fsOpen name (step call files) = some f ↔ StoresBehind name f call files := by
  cases call with
  | fsInit => exact other.elim
  | fsCreate new => exact fsCreate_found_iff name new files f opened
  | fsOpen _ => exact ⟨fun _ => trivial, fun _ => opened⟩
  | fsWrite g data len =>
    refine ⟨fun _ => trivial, fun _ => ?_⟩
    change fsOpen name (fsWrite g data len files).1 = some f
    rcases fsWrite_cases g data len files with ⟨_, ran⟩ | ⟨i, _, _, ran⟩
    · rw [ran]
      exact opened
    · rw [ran, fsOpen_congr name _ files (live_written files i data len name.text)]
      exact opened
  | fsRead _ _ _ => exact ⟨fun _ => trivial, fun _ => opened⟩
  | fsList _ _ => exact ⟨fun _ => trivial, fun _ => opened⟩
  | fsDelete old => exact ⟨fun _ => trivial, fun _ => fsDelete_found name old files f opened other⟩
  | fsRename oldname newname => exact fsRename_found_iff name oldname newname files f opened other

/-- A new file opens under its own name when the name survives the copy. -/
theorem created_opens_iff (name : CString) (files : Table) (f : Fin 16)
    (fresh : fsOpen name files = none) (made : (fsCreate name files).2 = some f) :
    fsOpen name (fsCreate name files).1 = some f ↔ name.text.length ≤ 31 := by
  have absent := (fsOpen_eq_none_iff name files).mp fresh
  rcases fsCreate_cases name files with ⟨_, ran⟩ | ⟨i, _, _, ran⟩
  · simp [ran] at made
  · have same : i = f := by simpa [ran] using made
    subst same
    rw [ran, fsOpen_eq_some_iff, live_update_self, created_storedName, stored_eq_text_iff]
    constructor
    · exact fun found => found.1.2
    · intro short
      refine ⟨⟨rfl, short⟩, fun j lower => ?_⟩
      rw [live_update_of_ne files (ne_of_lt lower)]
      exact absent j

/-- The name a file was created with keeps finding it exactly when it fits the name
field and no later call about other files stores its bytes before it. -/
theorem created_found_iff (files : Table) (calls later : List Call) (name : CString) (f : Fin 16)
    (fresh : fsOpen name (run step calls (fsInit files)) = none)
    (made : (fsCreate name (run step calls (fsInit files))).2 = some f)
    (others : ∀ call ∈ later, OfOther name call) :
    Throughout step (fun now => fsOpen name now = some f) later
        (fsCreate name (run step calls (fsInit files))).1 ↔
      name.text.length ≤ 31 ∧
        Along step (StoresBehind name f) later (fsCreate name (run step calls (fsInit files))).1 := by
  have opens := created_opens_iff name _ f fresh made
  have exactly := throughout_iff_along_mem step (StoresBehind name f)
    (fun now => fsOpen name now = some f) later
    (fun call member now => step_found_iff name f call (others call member) now)
    (fsCreate name (run step calls (fsInit files))).1
  constructor
  · intro held
    have start := throughout_first step _ later _ held
    exact ⟨opens.mp start, (exactly start).mp held⟩
  · rintro ⟨short, behind⟩
    exact (exactly (opens.mpr short)).mpr behind

theorem created_found_beside_other :
    Throughout step (fun now => fsOpen (CString.ofBytes [0x61#8]) now = some 0)
      [.fsCreate (CString.ofBytes [0x62#8]), .fsList (fun _ => none) 16,
        .fsDelete (CString.ofBytes [0x62#8])]
      (fsCreate (CString.ofBytes [0x61#8]) (fsInit emptyTable)).1 :=
  (created_found_iff emptyTable [] _ (CString.ofBytes [0x61#8]) 0 (by decide +kernel) (by decide +kernel)
    (by
      intro call member
      simp only [List.mem_cons, List.not_mem_nil, or_false] at member
      rcases member with rfl | rfl | rfl
      · exact fun same => absurd same (by decide)
      · trivial
      · exact fun same => absurd same (by decide))).mpr
    ⟨by decide, fun same => absurd same (by decide), trivial, trivial, trivial⟩

/-- A file created under a name of 32 bytes is not found by it. -/
theorem long_name_not_found :
    ¬∀ calls later name f, fsOpen name (run step calls (fsInit emptyTable)) = none →
      (fsCreate name (run step calls (fsInit emptyTable))).2 = some f →
      (∀ call ∈ later, OfOther name call) →
      Throughout step (fun now => fsOpen name now = some f) later
        (fsCreate name (run step calls (fsInit emptyTable))).1 := by
  intro always
  have found := always [] [] (CString.ofBytes (List.replicate 32 0x62#8)) 0 (by decide +kernel)
    (by decide +kernel) (by simp)
  have opened : fsOpen (CString.ofBytes (List.replicate 32 0x62#8))
      (fsCreate (CString.ofBytes (List.replicate 32 0x62#8)) (fsInit emptyTable)).1 = some 0 := found
  exact not_live_of_long (by decide) _ 0 (live_of_fsOpen opened)

end LifeOS.Fs
