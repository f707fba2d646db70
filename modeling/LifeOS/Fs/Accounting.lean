import LifeOS.Fs.Calls

/-!
What failing calls leave behind, and the number of slots in use over a run: every
creation that goes through adds one and every deletion takes one away.
-/

namespace LifeOS.Fs
open LifeOS.Library.Strings LifeOS.Library.Runs

def Reply.Failed : Reply → Prop
  | .file f => f = none
  | .status value => value = -1
  | .bytes _ count => count = -1
  | _ => False

/-- The creations and deletions that went through since the table was set up. -/
structure Totals where
  creates : Nat
  deletes : Nat

def Totals.count (totals : Totals) : Call × Reply → Totals
  | (.fsInit, _) => ⟨0, 0⟩
  | (.fsCreate _, .file (some _)) => { totals with creates := totals.creates + 1 }
  | (.fsDelete _, .status value) =>
      if value = 0 then { totals with deletes := totals.deletes + 1 } else totals
  | _ => totals

theorem liveSlots_length (files : Table) : (liveSlots files).length = (liveSet files).card := by
  rw [← List.toFinset_card_of_nodup (liveSlots_nodup files)]
  congr 1
  ext i
  rw [List.mem_toFinset, mem_liveSlots, mem_liveSet]

theorem liveSet_of_used (files after : Table) (same : ∀ i, (after i).used = (files i).used) :
    liveSet after = liveSet files := by
  ext i
  rw [mem_liveSet, mem_liveSet, same i]

theorem liveSet_take (files : Table) (i : Fin 16) (new : File) (used : new.used = true) :
    liveSet (Function.update files i new) = insert i (liveSet files) := by
  ext j
  by_cases here : j = i
  · simp [here, mem_liveSet, used]
  · simp [here, mem_liveSet]

theorem liveSet_free (files : Table) (i : Fin 16) (new : File) (free : new.used = false) :
    liveSet (Function.update files i new) = (liveSet files).erase i := by
  ext j
  by_cases here : j = i
  · simp [here, mem_liveSet, free]
  · simp [here, mem_liveSet]

def Balanced (files : Table) (totals : Totals) : Prop :=
  (liveSlots files).length + totals.deletes = totals.creates

theorem balanced_fsInit (files : Table) : Balanced (fsInit files) ⟨0, 0⟩ := by
  have empty : liveSet (fsInit files) = ∅ := by
    ext i
    simp [mem_liveSet, fsInit_apply]
  rw [Balanced, liveSlots_length, empty, Finset.card_empty, Nat.zero_add]

theorem balanced_of_used (files after : Table) (totals : Totals)
    (same : ∀ i, (after i).used = (files i).used) (balanced : Balanced files totals) :
    Balanced after totals := by
  rw [Balanced, liveSlots_length, liveSet_of_used files after same, ← liveSlots_length]
  exact balanced

theorem balanced_fsCreate (name : CString) (files : Table) (totals : Totals)
    (balanced : Balanced files totals) :
    Balanced (fsCreate name files).1
      (totals.count (.fsCreate name, .file (fsCreate name files).2)) := by
  rcases fsCreate_cases name files with ⟨_, ran⟩ | ⟨i, free, _, ran⟩
  · rw [ran]
    exact balanced
  · have outside : i ∉ liveSet files := by simp [mem_liveSet, free]
    rw [Balanced, liveSlots_length] at balanced ⊢
    simp only [ran, Totals.count, liveSet_take files i _ (created_used (files i) name),
      Finset.card_insert_of_notMem outside]
    omega

theorem balanced_fsDelete (name : CString) (files : Table) (totals : Totals)
    (balanced : Balanced files totals) :
    Balanced (fsDelete name files).1
      (totals.count (.fsDelete name, .status (fsDelete name files).2)) := by
  rcases fsDelete_cases name files with ⟨_, ran⟩ | ⟨i, opened, ran⟩
  · rw [ran]
    exact balanced
  · have inside : i ∈ liveSet files := (mem_liveSet files i).mpr (live_of_fsOpen opened).1
    have positive : 0 < (liveSet files).card := Finset.card_pos.mpr ⟨i, inside⟩
    rw [Balanced, liveSlots_length] at balanced ⊢
    simp only [ran, Totals.count, if_true, liveSet_free files i _ (freed_used (files i)),
      Finset.card_erase_of_mem inside]
    omega

theorem balanced_step (call : Call) (files : Table) (totals : Totals) (balanced : Balanced files totals) :
    Balanced (step call files) (totals.count (call, (serve call files).2)) := by
  cases call with
  | fsInit => exact balanced_fsInit files
  | fsCreate name => exact balanced_fsCreate name files totals balanced
  | fsOpen _ => exact balanced
  | fsWrite f data len =>
    exact balanced_of_used files _ totals (fsWrite_used_same f data len files) balanced
  | fsRead _ _ _ => exact balanced
  | fsList _ _ => exact balanced
  | fsDelete name => exact balanced_fsDelete name files totals balanced
  | fsRename oldname newname =>
    exact balanced_of_used files _ totals (fsRename_used_same oldname newname files) balanced

theorem balanced_run (calls : List Call) (files : Table) (totals : Totals)
    (balanced : Balanced files totals) :
    Balanced (run step calls files) ((history calls files).foldl Totals.count totals) := by
  induction calls generalizing files totals with
  | nil => exact balanced
  | cons call calls ih => exact ih (step call files) _ (balanced_step call files totals balanced)

theorem step_of_failed (call : Call) (files : Table) (failed : (serve call files).2.Failed) :
    step call files = files := by
  cases call with
  | fsInit => exact failed.elim
  | fsCreate name =>
    change (fsCreate name files).2 = none at failed
    change (fsCreate name files).1 = files
    rcases fsCreate_cases name files with ⟨_, ran⟩ | ⟨i, _, _, ran⟩
    · rw [ran]
    · simp [ran] at failed
  | fsOpen _ => rfl
  | fsWrite f data len =>
    change (fsWrite f data len files).2 = -1 at failed
    change (fsWrite f data len files).1 = files
    rcases fsWrite_cases f data len files with ⟨_, ran⟩ | ⟨i, _, _, ran⟩
    · rw [ran]
    · simp only [ran] at failed
      omega
  | fsRead _ _ _ => rfl
  | fsList _ _ => rfl
  | fsDelete name =>
    change (fsDelete name files).2 = -1 at failed
    change (fsDelete name files).1 = files
    rcases fsDelete_cases name files with ⟨_, ran⟩ | ⟨i, _, ran⟩
    · rw [ran]
    · simp [ran] at failed
  | fsRename oldname newname =>
    change (fsRename oldname newname files).2 = -1 at failed
    change (fsRename oldname newname files).1 = files
    rcases fsRename_cases oldname newname files with ⟨_, ran⟩ | ⟨i, _, _, ran⟩
    · rw [ran]
    · simp [ran] at failed

theorem buffer_of_failed (f : Descriptor) (buf : Nat → Byte) (len : Nat) (files : Table)
    (failed : (fsRead f buf len files).2 = -1) : (fsRead f buf len files).1 = buf := by
  rcases unused_or_used f files with unused | ⟨i, rfl, used⟩
  · rw [fsRead_unused f buf len files unused]
  · rw [fsRead_used i buf len files used] at failed
    simp only at failed
    omega

/-- What every reached table promises about failures, free slots and listings. -/
structure Accounted (files : Table) (totals : Totals) : Prop where
  failed_table : ∀ call, (serve call files).2.Failed → step call files = files
  failed_buffer : ∀ f buf len, (fsRead f buf len files).2 = -1 → (fsRead f buf len files).1 = buf
  balance : (liveSlots files).length + totals.deletes = totals.creates
  create_fails_iff : ∀ name, (fsCreate name files).2 = none ↔ (liveSlots files).length = 16
  create_lowest : ∀ name i, (fsCreate name files).2 = some i →
    (files i).used = false ∧ (∀ j, j < i → (files j).used = true) ∧
      ((fsCreate name files).1 i).used = true ∧ ∀ j, j ≠ i → (fsCreate name files).1 j = files j
  list_count : ∀ list max, (fsList list max files).2 = min max (liveSlots files).length
  list_live : ∀ list max k, k < (fsList list max files).2 →
    ∃ i, (fsList list max files).1 k = some i ∧ (files i).used = true
  list_ordered : ∀ list max k l, k < l → l < (fsList list max files).2 →
    ∃ i j, (fsList list max files).1 k = some i ∧ (fsList list max files).1 l = some j ∧ i < j
  list_beyond : ∀ list max k, (fsList list max files).2 ≤ k → (fsList list max files).1 k = list k

theorem fsCreate_none_iff (name : CString) (files : Table) :
    (fsCreate name files).2 = none ↔ (liveSlots files).length = 16 := by
  rw [liveSlots_length, liveSet_full_iff]
  rcases fsCreate_cases name files with ⟨full, ran⟩ | ⟨i, free, _, ran⟩
  · simp [ran, full]
  · refine ⟨fun failed => by simp [ran] at failed, fun full => ?_⟩
    rw [full i] at free
    cases free

theorem fsCreate_lowest (name : CString) (files : Table) (i : Fin 16)
    (made : (fsCreate name files).2 = some i) :
    (files i).used = false ∧ (∀ j, j < i → (files j).used = true) ∧
      ((fsCreate name files).1 i).used = true ∧ ∀ j, j ≠ i → (fsCreate name files).1 j = files j := by
  rcases fsCreate_cases name files with ⟨_, ran⟩ | ⟨k, free, lowest, ran⟩
  · simp [ran] at made
  · have same : k = i := by simpa [ran] using made
    subst same
    refine ⟨free, lowest, by simp [ran], fun j apart => ?_⟩
    simp [ran, apart]

theorem liveSlots_ascending (files : Table) : (liveSlots files).Pairwise (· < ·) :=
  (List.pairwise_lt_finRange 16).filter _

theorem fsList_inside (list : Nat → Descriptor) (max k : Nat) (files : Table)
    (inside : k < ((liveSlots files).take max).length) :
    (fsList list max files).1 k = some ((liveSlots files).take max)[k] := by
  rw [(fsList_spec list max files).2 k, if_pos inside, List.getElem?_eq_getElem inside]

/-- In every table a run reaches failures change nothing, the slots in use are the
creations less the deletions, and a listing holds the first of them in order. -/
theorem slots_accounted (files : Table) (calls : List Call) :
    Accounted (run step calls (fsInit files))
      ((history calls (fsInit files)).foldl Totals.count ⟨0, 0⟩) where
  failed_table := fun call => step_of_failed call _
  failed_buffer := fun f buf len => buffer_of_failed f buf len _
  balance := balanced_run calls (fsInit files) ⟨0, 0⟩ (balanced_fsInit files)
  create_fails_iff := fun name => fsCreate_none_iff name _
  create_lowest := fun name i => fsCreate_lowest name _ i
  list_count := fun list max => by
    rw [(fsList_spec list max _).1, List.length_take]
  list_live := fun list max k inside => by
    rw [(fsList_spec list max _).1] at inside
    have member := List.mem_of_mem_take (List.getElem_mem inside)
    exact ⟨_, fsList_inside list max k _ inside, (mem_liveSlots _ _).mp member⟩
  list_ordered := fun list max k l before inside => by
    rw [(fsList_spec list max _).1] at inside
    have ordered := (liveSlots_ascending (run step calls (fsInit files))).sublist
      (List.take_sublist max _)
    exact ⟨_, _, fsList_inside list max k _ (before.trans inside), fsList_inside list max l _ inside,
      List.pairwise_iff_getElem.mp ordered k l (before.trans inside) inside before⟩
  list_beyond := fun list max k beyond => by
    obtain ⟨total, cells⟩ := fsList_spec list max (run step calls (fsInit files))
    rw [cells k, if_neg (by omega)]

end LifeOS.Fs
