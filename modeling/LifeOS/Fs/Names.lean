import LifeOS.Fs.Calls

/-!
Uniqueness of stored names. `fs_rename` looks for its target among the live names,
but with the full string while names are stored cut to 31 bytes, and `fs_create`
does not look at all. The guard `Unaliased` is what the two checks would have to
establish, and a run keeps names unique exactly when its steps meet it.
-/

namespace LifeOS.Fs
open LifeOS.Library.Strings LifeOS.Library.Runs

/-- The call does not store a name that another live file already carries. -/
def Unaliased : Call → Table → Prop
  | .fsCreate name, files =>
      (∃ i, (files i).used = false) → ∀ i, ¬Live files i (stored name)
  | .fsRename oldname newname, files =>
      (∃ i, Live files i oldname.text) → (∀ i, ¬Live files i newname.text) →
        ∀ i, Live files i (stored newname) → Live files i oldname.text
  | _, _ => True

structure NamesUnique (files : Table) : Prop where
  distinct : Distinct files
  listed_opens : ∀ list max k, k < (fsList list max files).2 →
    ∃ i, (fsList list max files).1 k = some i ∧
      ∀ name : CString, name.text = (files i).storedName → fsOpen name files = some i
  deleted_gone : ∀ name, (fsDelete name files).2 = 0 →
    fsOpen name (fsDelete name files).1 = none ∧ (fsDelete name (fsDelete name files).1).2 = -1

/-- Replacing one file keeps names distinct exactly when its name is not taken elsewhere. -/
theorem distinct_update_iff (files : Table) (i : Fin 16) (new : File) (distinct : Distinct files) :
    Distinct (Function.update files i new) ↔
      (new.used = true → ∀ j, j ≠ i → ¬Live files j new.storedName) := by
  constructor
  · intro kept used j apart live
    apply apart
    apply kept j i
    · rw [Function.update_of_ne apart]
      exact live.1
    · rw [Function.update_self]
      exact used
    · rw [Function.update_of_ne apart, Function.update_self]
      exact live.2
  · intro free j k usedJ usedK same
    by_cases atJ : j = i
    · by_cases atK : k = i
      · rw [atJ, atK]
      · subst atJ
        rw [Function.update_self] at usedJ same
        rw [Function.update_of_ne atK] at usedK same
        exact absurd ⟨usedK, same.symm⟩ (free usedJ k atK)
    · by_cases atK : k = i
      · subst atK
        rw [Function.update_self] at usedK same
        rw [Function.update_of_ne atJ] at usedJ same
        exact absurd ⟨usedJ, same⟩ (free usedK j atJ)
      · rw [Function.update_of_ne atJ] at usedJ same
        rw [Function.update_of_ne atK] at usedK same
        exact distinct j k usedJ usedK same

theorem distinct_update (files : Table) (i : Fin 16) (new : File) (distinct : Distinct files)
    (used : new.used = true → (files i).used = true)
    (name : new.used = true → new.storedName = (files i).storedName) :
    Distinct (Function.update files i new) := by
  rw [distinct_update_iff files i new distinct]
  intro live j apart other
  exact apart (distinct j i other.1 (used live) (other.2.trans (name live)))

theorem distinct_of_unused (files : Table) (unused : ∀ i, (files i).used = false) : Distinct files := by
  intro i j live
  rw [unused i] at live
  cases live

theorem distinct_fsInit (files : Table) : Distinct (fsInit files) := by
  apply distinct_of_unused
  intro i
  rw [fsInit_apply]

theorem fsCreate_distinct_iff (name : CString) (files : Table) (distinct : Distinct files) :
    Distinct (fsCreate name files).1 ↔ Unaliased (.fsCreate name) files := by
  rcases fsCreate_cases name files with ⟨full, ran⟩ | ⟨i, free, _, ran⟩
  · rw [ran]
    refine ⟨fun _ room => ?_, fun _ => distinct⟩
    obtain ⟨j, free⟩ := room
    rw [full j] at free
    cases free
  · rw [ran, distinct_update_iff files i _ distinct, created_used, created_storedName]
    constructor
    · intro absent _ j live
      by_cases here : j = i
      · subst here
        rw [live.1] at free
        cases free
      · exact absent rfl j here live
    · intro absent _ j _
      exact absent ⟨i, free⟩ j

theorem fsRename_distinct_iff (oldname newname : CString) (files : Table) (distinct : Distinct files) :
    Distinct (fsRename oldname newname files).1 ↔ Unaliased (.fsRename oldname newname) files := by
  rcases fsRename_cases oldname newname files with ⟨blocked, ran⟩ | ⟨i, source, clear, ran⟩
  · rw [ran]
    exact ⟨fun _ present absent => (not_blocked blocked present absent).elim, fun _ => distinct⟩
  · rw [ran, distinct_update_iff files i _ distinct, renamed_used, renamed_storedName]
    constructor
    · intro absent _ _ j live
      by_cases here : j = i
      · exact here ▸ source
      · exact absurd live (absent source.1 j here)
    · intro allowed _ j apart live
      exact apart ((allowed ⟨i, source⟩ clear j live).unique distinct source)

theorem step_distinct_iff (call : Call) (files : Table) (distinct : Distinct files) :
    Distinct (step call files) ↔ Unaliased call files := by
  cases call with
  | fsInit => exact ⟨fun _ => trivial, fun _ => distinct_fsInit files⟩
  | fsCreate name => exact fsCreate_distinct_iff name files distinct
  | fsOpen name => exact ⟨fun _ => trivial, fun _ => distinct⟩
  | fsWrite f data len =>
    refine ⟨fun _ => trivial, fun _ => ?_⟩
    change Distinct (fsWrite f data len files).1
    rcases fsWrite_cases f data len files with ⟨_, ran⟩ | ⟨i, _, used, ran⟩
    · rw [ran]
      exact distinct
    · rw [ran]
      exact distinct_update files i _ distinct (fun _ => used) (fun _ => rfl)
  | fsRead f buf len => exact ⟨fun _ => trivial, fun _ => distinct⟩
  | fsList list max => exact ⟨fun _ => trivial, fun _ => distinct⟩
  | fsDelete name =>
    refine ⟨fun _ => trivial, fun _ => ?_⟩
    change Distinct (fsDelete name files).1
    rcases fsDelete_cases name files with ⟨_, ran⟩ | ⟨i, _, ran⟩
    · rw [ran]
      exact distinct
    · rw [ran]
      exact distinct_update files i _ distinct (fun live => by simp at live) (fun live => by simp at live)
  | fsRename oldname newname => exact fsRename_distinct_iff oldname newname files distinct

theorem absent_after_delete (name : CString) (files : Table) (distinct : Distinct files)
    (deleted : (fsDelete name files).2 = 0) (j : Fin 16) :
    ¬Live (fsDelete name files).1 j name.text := by
  rcases fsDelete_cases name files with ⟨_, ran⟩ | ⟨i, opened, ran⟩
  · rw [ran] at deleted
    cases deleted
  · rw [ran]
    rintro ⟨used, same⟩
    by_cases here : j = i
    · subst here
      simp at used
    · simp only [Function.update_of_ne here] at used same
      exact here (Live.unique distinct ⟨used, same⟩ (live_of_fsOpen opened))

theorem namesUnique_iff (files : Table) : NamesUnique files ↔ Distinct files := by
  refine ⟨fun unique => unique.distinct, fun distinct => ⟨distinct, ?_, ?_⟩⟩
  · intro list max k inside
    obtain ⟨total, cells⟩ := fsList_spec list max files
    rw [total] at inside
    refine ⟨((liveSlots files).take max)[k], ?_, ?_⟩
    · rw [cells k, if_pos inside, List.getElem?_eq_getElem inside]
    · intro name same
      have member := List.mem_of_mem_take (List.getElem_mem inside)
      exact fsOpen_of_live name files _ distinct ⟨(mem_liveSlots files _).mp member, same.symm⟩
  · intro name deleted
    have absent := absent_after_delete name files distinct deleted
    refine ⟨(fsOpen_eq_none_iff name _).mpr absent, ?_⟩
    rcases fsDelete_cases name (fsDelete name files).1 with ⟨_, ran⟩ | ⟨i, opened, _⟩
    · rw [ran]
    · exact absurd (live_of_fsOpen opened) (absent i)

/-- Every state of a run has unique names, with all that follows for listing and
deleting, exactly when no step of the run stores a name that is already live. -/
theorem names_unique_iff_unaliased (files : Table) (calls : List Call) :
    Throughout step NamesUnique calls (fsInit files) ↔ Along step Unaliased calls (fsInit files) := by
  apply throughout_iff_along
  · intro call now unique
    rw [namesUnique_iff, step_distinct_iff call now unique.distinct]
  · exact (namesUnique_iff _).mpr (distinct_fsInit files)

/-- Creating the same name twice makes two live files of that name; deleting it then
leaves the second one to be opened. -/
theorem create_twice_duplicates :
    ¬∀ calls : List Call, NamesUnique (run step calls (fsInit emptyTable)) := by
  intro always
  have unique := always [.fsCreate (CString.ofBytes [0x61#8]), .fsCreate (CString.ofBytes [0x61#8])]
  have impossible := unique.distinct 0 1 (by decide +kernel) (by decide +kernel) (by decide +kernel)
  exact absurd impossible (by decide)

end LifeOS.Fs
