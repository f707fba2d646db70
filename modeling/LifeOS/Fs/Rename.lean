import LifeOS.Fs.Names

/-!
What a client may expect of `fs_rename`, and which file it picks. Its one scan
compares whole strings while `copy_name` keeps 31 bytes, and it goes on to the
last match where `fs_open` and `fs_delete` stop at the first.
-/

namespace LifeOS.Fs
open LifeOS.Library.Strings LifeOS.Library.Runs

/-- The call moves the open descriptor from the old name to the new one, or does nothing. -/
structure RenameContract (oldname newname : CString) (files : Table) : Prop where
  succeeds_iff : (fsRename oldname newname files).2 = 0 ↔
    fsOpen oldname files ≠ none ∧ fsOpen newname files = none
  moves : (fsRename oldname newname files).2 = 0 → ∃ i, fsOpen oldname files = some i ∧
    fsOpen newname (fsRename oldname newname files).1 = some i ∧
    fsOpen oldname (fsRename oldname newname files).1 = none ∧
    ((fsRename oldname newname files).1 i).size = (files i).size ∧
    ((fsRename oldname newname files).1 i).data = (files i).data ∧
    (∀ j, j ≠ i → (fsRename oldname newname files).1 j = files j) ∧
    Distinct (fsRename oldname newname files).1
  fails : (fsRename oldname newname files).2 ≠ 0 → fsRename oldname newname files = (files, -1)

theorem renameContract_of_failed (oldname newname : CString) (files : Table)
    (blocked : (∃ i, Live files i newname.text) ∨ ∀ i, ¬Live files i oldname.text)
    (ran : fsRename oldname newname files = (files, -1)) : RenameContract oldname newname files where
  succeeds_iff := by
    rw [fsOpen_ne_none_iff, fsOpen_eq_none_iff]
    exact ⟨fun zero => by simp [ran] at zero,
      fun possible => (not_blocked blocked possible.1 possible.2).elim⟩
  moves := fun zero => by simp [ran] at zero
  fails := fun _ => ran

theorem renameContract_of_short (oldname newname : CString) (files : Table) (distinct : Distinct files)
    (short : newname.text.length ≤ 31) (i : Fin 16) (source : Live files i oldname.text)
    (clear : ∀ j, ¬Live files j newname.text)
    (ran : fsRename oldname newname files = (Function.update files i (renamed (files i) newname), 0)) :
    RenameContract oldname newname files where
  succeeds_iff := by
    rw [ran, fsOpen_ne_none_iff, fsOpen_eq_none_iff]
    exact ⟨fun _ => ⟨⟨i, source⟩, clear⟩, fun _ => rfl⟩
  moves := by
    intro _
    have apart : newname.text ≠ oldname.text := fun same => clear i (same ▸ source)
    have kept : (stored newname) = newname.text := (stored_eq_text_iff newname).mpr short
    have after : Distinct (fsRename oldname newname files).1 := by
      rw [fsRename_distinct_iff oldname newname files distinct]
      intro _ _ j live
      rw [kept] at live
      exact absurd live (clear j)
    simp only [ran] at after ⊢
    refine ⟨i, fsOpen_of_live oldname files i distinct source, ?_, ?_, ?_, ?_, ?_, after⟩
    · apply fsOpen_of_live newname _ i after
      rw [live_update_self, renamed_used, renamed_storedName]
      exact ⟨source.1, kept⟩
    · rw [fsOpen_eq_none_iff]
      intro j live
      by_cases here : j = i
      · rw [here, live_update_self, renamed_storedName, kept] at live
        exact apart live.2
      · rw [live_update_of_ne files here] at live
        exact here (live.unique distinct source)
    · rw [Function.update_self, renamed_size]
    · rw [Function.update_self, renamed_data]
    · intro j other
      rw [Function.update_of_ne other]
  fails := fun nonzero => by simp [ran] at nonzero

/-- Among distinct names the contract holds of exactly the requests that fail or
whose new name survives the 31 bytes of `copy_name`. -/
theorem rename_contract_iff (oldname newname : CString) (files : Table) (distinct : Distinct files) :
    RenameContract oldname newname files ↔
      ((∃ i, Live files i oldname.text) → (∀ i, ¬Live files i newname.text) →
        newname.text.length ≤ 31) := by
  rcases fsRename_cases oldname newname files with ⟨blocked, ran⟩ | ⟨i, source, clear, ran⟩
  · exact ⟨fun _ present absent => (not_blocked blocked present absent).elim,
      fun _ => renameContract_of_failed oldname newname files blocked ran⟩
  · constructor
    · intro contract _ _
      by_contra long
      obtain ⟨j, _, found, _⟩ := contract.moves (by rw [ran])
      exact not_live_of_long (by omega) _ j (live_of_fsOpen found)
    · intro fits
      have short := fits ⟨i, source⟩ clear
      exact renameContract_of_short oldname newname files distinct short i source clear ran

def oneFile : Table := (fsCreate (CString.ofBytes [0x61#8]) (fsInit emptyTable)).1

theorem distinct_oneFile : Distinct oneFile := by
  apply (fsCreate_distinct_iff _ _ (distinct_fsInit emptyTable)).mpr
  intro _ i live
  have unused : (fsInit emptyTable i).used = false := by rw [fsInit_apply]
  rw [live.1] at unused
  cases unused

theorem rename_short_contract :
    RenameContract (CString.ofBytes [0x61#8]) (CString.ofBytes [0x62#8]) oneFile :=
  (rename_contract_iff _ _ oneFile distinct_oneFile).mpr (fun _ _ => by decide)

/-- Renaming `a` to a name of 32 bytes succeeds, and the new name opens nothing. -/
theorem long_rename_loses_file :
    ¬∀ files oldname newname, Distinct files → RenameContract oldname newname files := by
  intro always
  have contract := always oneFile (CString.ofBytes [0x61#8])
    (CString.ofBytes (List.replicate 32 0x62#8)) distinct_oneFile
  obtain ⟨i, _, found, _⟩ := contract.moves (by decide +kernel)
  exact not_live_of_long (by decide) _ i (live_of_fsOpen found)

/-- Deleting and renaming act on the slot that opening the same name returns. -/
structure LookupsAgree (name newname : CString) (files : Table) : Prop where
  deleted : (fsDelete name files).2 = 0 → ∃ i, fsOpen name files = some i ∧
    ((fsDelete name files).1 i).used = false ∧ ∀ j, j ≠ i → (fsDelete name files).1 j = files j
  renamed : (fsRename name newname files).2 = 0 → ∃ i, fsOpen name files = some i ∧
    (fsRename name newname files).1 =
      Function.update files i { files i with name := copyName (files i).name newname }

/-- Two fields holding the same 31 bytes hold the same terminator behind them. -/
theorem nameField_ext (a b : NameField) (same : text a.bytes.toList = text b.bytes.toList)
    (full : (text a.bytes.toList).length = 31) : a = b := by
  have bytes : ∀ f : NameField, (text f.bytes.toList).length = 31 →
      f.bytes.toList = text f.bytes.toList ++ [0#8] := by
    intro f full
    obtain ⟨rest, shape⟩ := exists_rest f.bytes.toList f.terminated
    have total : f.bytes.toList.length = 32 := by simp
    rw [shape, List.length_append, List.length_cons, full] at total
    have nothing : rest = [] := List.eq_nil_of_length_eq_zero (by omega)
    rw [nothing] at shape
    exact shape
  have equal : a.bytes.toList = b.bytes.toList := by
    rw [bytes a full, bytes b (same ▸ full), same]
  cases a
  cases b
  simp only [NameField.mk.injEq]
  exact Vector.toList_inj.mp equal

/-- Storing a longer name over its own first 31 bytes changes nothing. -/
theorem renamed_eq_self (f : File) (name : CString) (long : 31 < name.text.length)
    (same : stored name = f.storedName) : renamed f name = f := by
  have text_eq := copyName_text f.name name
  have full : (stored name).length = 31 := by
    rw [stored, List.length_take]
    omega
  have field : copyName f.name name = f.name :=
    nameField_ext _ _ (text_eq.trans same) (by rw [text_eq, full])
  rw [renamed, field]

theorem deleted_opened (name : CString) (files : Table) (success : (fsDelete name files).2 = 0) :
    ∃ i, fsOpen name files = some i ∧ ((fsDelete name files).1 i).used = false ∧
      ∀ j, j ≠ i → (fsDelete name files).1 j = files j := by
  rcases fsDelete_cases name files with ⟨_, ran⟩ | ⟨i, opened, ran⟩
  · simp [ran] at success
  · refine ⟨i, opened, ?_, fun j apart => ?_⟩
    · simp [ran]
    · simp [ran, apart]

/-- Renaming the last match agrees with opening the first when they are one slot,
or when the copy puts the old name back. -/
theorem renamed_opened_iff (name newname : CString) (files : Table) (last : Fin 16)
    (live : Live files last name.text) (later : ∀ j, last < j → ¬Live files j name.text)
    (clear : ∀ j, ¬Live files j newname.text) :
    (∃ i, fsOpen name files = some i ∧
        Function.update files last (renamed (files last) newname) =
          Function.update files i { files i with name := copyName (files i).name newname }) ↔
      ((∀ i j, Live files i name.text → Live files j name.text → i = j) ∨
        stored newname = name.text) := by
  constructor
  · rintro ⟨i, opened, equal⟩
    by_cases one : i = last
    · left
      have only : ∀ k, Live files k name.text → k = i := by
        intro k other
        have low := fsOpen_le_of_live opened other
        have high : k ≤ last := not_lt.mp (fun above => later k above other)
        omega
      intro j k first second
      rw [only j first, only k second]
    · right
      have cell := congrFun equal last
      rw [Function.update_self, Function.update_of_ne (Ne.symm one)] at cell
      rw [← renamed_storedName (files last) newname, cell, live.2]
  · rintro (unique | same)
    · refine ⟨last, ?_, rfl⟩
      rw [fsOpen_eq_some_iff]
      exact ⟨live, fun j below other => absurd (unique j last other live) (ne_of_lt below)⟩
    · have long : 31 < newname.text.length := by
        by_contra short
        have kept := (stored_eq_text_iff newname).mpr (by omega)
        exact clear last (by rw [← kept, same]; exact live)
      have opens : fsOpen name files ≠ none := (fsOpen_ne_none_iff name files).mpr ⟨last, live⟩
      obtain ⟨i, opened⟩ := Option.ne_none_iff_exists'.mp opens
      have again : ∀ j, Live files j name.text → renamed (files j) newname = files j :=
        fun j other => renamed_eq_self (files j) newname long (same.trans other.2.symm)
      refine ⟨i, opened, ?_⟩
      have back := again i (live_of_fsOpen opened)
      rw [again last live, Function.update_eq_self]
      exact (Function.update_eq_self i files).symm.trans (congrArg (Function.update files i) back.symm)

/-- In every table a run reaches, the three scans agree on a name unless a rename
that goes through finds two live files of it and stores another. -/
theorem lookups_agree_iff (files : Table) (calls : List Call) (name newname : CString) :
    LookupsAgree name newname (run step calls (fsInit files)) ↔
      ((∃ i, Live (run step calls (fsInit files)) i name.text) →
        (∀ i, ¬Live (run step calls (fsInit files)) i newname.text) →
          (∀ i j, Live (run step calls (fsInit files)) i name.text →
            Live (run step calls (fsInit files)) j name.text → i = j) ∨
          stored newname = name.text) := by
  generalize run step calls (fsInit files) = now
  rcases fsRename_last name newname now with ⟨blocked, ran⟩ | ⟨last, live, later, clear, ran⟩
  · exact ⟨fun _ source clear => (not_blocked blocked source clear).elim,
      fun _ => ⟨deleted_opened name now, fun success => by simp [ran] at success⟩⟩
  · have exactly := renamed_opened_iff name newname now last live later clear
    constructor
    · intro agree _ _
      have acted := agree.renamed (by simp [ran])
      simp only [ran] at acted
      exact exactly.mp acted
    · intro fits
      refine ⟨deleted_opened name now, fun _ => ?_⟩
      simp only [ran]
      exact exactly.mpr (fits ⟨last, live⟩ clear)

/-- Of two files `a` a rename changes the second, where opening returns the first. -/
theorem rename_takes_second :
    ¬∀ calls name newname, LookupsAgree name newname (run step calls (fsInit emptyTable)) := by
  intro always
  have agree := always [.fsCreate (CString.ofBytes [0x61#8]), .fsCreate (CString.ofBytes [0x61#8])]
    (CString.ofBytes [0x61#8]) (CString.ofBytes [0x62#8])
  obtain ⟨i, opened, equal⟩ := agree.renamed (by decide +kernel)
  have first : i = 0 := by
    apply Option.some_injective
    rw [← opened]
    decide +kernel
  have cell := congrArg File.storedName (congrFun equal 1)
  rw [first, Function.update_of_ne (by decide)] at cell
  exact absurd cell (by decide +kernel)

end LifeOS.Fs
