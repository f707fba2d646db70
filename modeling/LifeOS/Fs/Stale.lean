import LifeOS.Fs.Calls

/-!
Descriptors of deleted files. A descriptor is the address of a slot and carries no
trace of the file it was handed out for, so it is rejected while the slot is free
and works again once `fs_create` has taken the slot.
-/

namespace LifeOS.Fs
open LifeOS.Library.Strings LifeOS.Library.Runs

structure Inert (f : Fin 16) (files : Table) : Prop where
  write : ∀ data len, fsWrite (some f) data len files = (files, -1)
  read : ∀ buf len, fsRead (some f) buf len files = (buf, -1)

theorem inert_iff (f : Fin 16) (files : Table) : Inert f files ↔ (files f).used = false := by
  constructor
  · intro inert
    rw [← Bool.not_eq_true]
    intro used
    have rejected := congrArg Prod.snd (inert.write (fun _ => 0#8) 0)
    rw [fsWrite_used f _ _ files used] at rejected
    simp at rejected
  · intro free
    have unused : Unused (some f) files := by
      intro i same
      cases same
      exact free
    exact ⟨fun data len => fsWrite_unused (some f) data len files unused,
      fun buf len => fsRead_unused (some f) buf len files unused⟩

/-- A creation finds a free slot before `f`; the other calls take no slot. -/
def LeavesFree (f : Fin 16) : Call → Table → Prop
  | .fsCreate _, files => ∃ j, j < f ∧ (files j).used = false
  | _, _ => True

theorem fsCreate_leaves_iff (name : CString) (files : Table) (f : Fin 16)
    (free : (files f).used = false) :
    ((fsCreate name files).1 f).used = false ↔ LeavesFree f (.fsCreate name) files := by
  rcases fsCreate_cases name files with ⟨full, _⟩ | ⟨i, unused, lowest, ran⟩
  · rw [full f] at free
    cases free
  · simp only [ran]
    constructor
    · intro still
      have apart : i ≠ f := by
        intro same
        subst same
        simp at still
      exact ⟨i, lt_of_le_of_ne (lowest_le lowest free) apart, unused⟩
    · rintro ⟨j, below, empty⟩
      have first := lowest_le lowest empty
      have apart : f ≠ i := by omega
      rw [Function.update_of_ne apart]
      exact free

theorem step_leaves_iff (f : Fin 16) (call : Call) (files : Table) (free : (files f).used = false) :
    (step call files f).used = false ↔ LeavesFree f call files := by
  cases call with
  | fsInit =>
    refine ⟨fun _ => trivial, fun _ => ?_⟩
    change (fsInit files f).used = false
    rw [fsInit_apply]
  | fsCreate name => exact fsCreate_leaves_iff name files f free
  | fsOpen _ => exact ⟨fun _ => trivial, fun _ => free⟩
  | fsWrite g data len =>
    refine ⟨fun _ => trivial, fun _ => ?_⟩
    change ((fsWrite g data len files).1 f).used = false
    rw [fsWrite_used_same]
    exact free
  | fsRead _ _ _ => exact ⟨fun _ => trivial, fun _ => free⟩
  | fsList _ _ => exact ⟨fun _ => trivial, fun _ => free⟩
  | fsDelete name =>
    refine ⟨fun _ => trivial, fun _ => ?_⟩
    change ((fsDelete name files).1 f).used = false
    rcases fsDelete_cases name files with ⟨_, ran⟩ | ⟨i, _, ran⟩
    · rw [ran]
      exact free
    · simp only [ran]
      by_cases here : f = i
      · rw [here, Function.update_self, freed_used]
      · rw [Function.update_of_ne here]
        exact free
  | fsRename oldname newname =>
    refine ⟨fun _ => trivial, fun _ => ?_⟩
    change ((fsRename oldname newname files).1 f).used = false
    rw [fsRename_used_same]
    exact free

theorem free_after_delete (name : CString) (files : Table) (f : Fin 16)
    (opened : fsOpen name files = some f) : (step (.fsDelete name) files f).used = false := by
  change ((fsDelete name files).1 f).used = false
  rw [fsDelete_eq, opened]
  simp

/-- The descriptor of a deleted file stays inert through exactly the runs in which
every `fs_create` finds a free slot before it. -/
theorem stale_inert_iff (files : Table) (calls later : List Call) (name : CString) (f : Fin 16)
    (opened : fsOpen name (run step calls (fsInit files)) = some f) :
    Throughout step (Inert f) later (step (.fsDelete name) (run step calls (fsInit files))) ↔
      Along step (LeavesFree f) later (step (.fsDelete name) (run step calls (fsInit files))) := by
  apply throughout_iff_along
  · intro call now inert
    rw [inert_iff, step_leaves_iff f call now ((inert_iff f now).mp inert)]
  · rw [inert_iff]
    exact free_after_delete name _ f opened

/-- Opened as `b` in slot 1 and deleted with `a` gone as well: creating `c` takes slot 0. -/
theorem stale_inert_behind_free :
    Throughout step (Inert 1) [.fsCreate (CString.ofBytes [0x63#8])]
      (step (.fsDelete (CString.ofBytes [0x62#8]))
        (run step [.fsCreate (CString.ofBytes [0x61#8]), .fsCreate (CString.ofBytes [0x62#8]),
          .fsDelete (CString.ofBytes [0x61#8])] (fsInit emptyTable))) :=
  (stale_inert_iff emptyTable _ _ (CString.ofBytes [0x62#8]) 1 (by decide +kernel)).mpr
    ⟨⟨0, by decide, by decide +kernel⟩, trivial⟩

/-- Once `b` has taken the slot of the deleted `a`, the old descriptor reaches `b`. -/
theorem stale_descriptor_reaches_new_file :
    ¬∀ calls later name f, fsOpen name (run step calls (fsInit emptyTable)) = some f →
      Throughout step (Inert f) later (step (.fsDelete name) (run step calls (fsInit emptyTable))) := by
  intro always
  have held := always [.fsCreate (CString.ofBytes [0x61#8])] [.fsCreate (CString.ofBytes [0x62#8])]
    (CString.ofBytes [0x61#8]) 0 (by decide +kernel)
  have free := (inert_iff 0 _).mp (throughout_last step _ _ _ held)
  exact absurd free (by decide +kernel)

end LifeOS.Fs
