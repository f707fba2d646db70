import LifeOS.Fs.Table
import LifeOS.Library.Runs

/-!
What each file operation does to the table, one description a function, and the
calls of a client as labelled steps. The later modules never unfold an operation.
-/

namespace LifeOS.Fs
open LifeOS.Library.Loops LifeOS.Library.Strings LifeOS.Library

theorem stored_length (name : CString) : (stored name).length ≤ 31 :=
  List.length_take_le 31 name.text

theorem stored_eq_text_iff (name : CString) : stored name = name.text ↔ name.text.length ≤ 31 := by
  constructor
  · intro same
    have bound := stored_length name
    rw [same] at bound
    exact bound
  · exact List.take_of_length_le

theorem storedName_length (f : File) : f.storedName.length ≤ 31 := by
  obtain ⟨rest, shape⟩ := exists_rest f.name.bytes.toList f.name.terminated
  have total : f.name.bytes.toList.length = 32 := by simp
  rw [shape] at total
  simp only [List.length_append, List.length_cons] at total
  simp only [File.storedName]
  omega

def Live (files : Table) (i : Fin 16) (n : List Byte) : Prop :=
  (files i).used = true ∧ (files i).storedName = n

def Distinct (files : Table) : Prop :=
  ∀ i j, (files i).used = true → (files j).used = true →
    (files i).storedName = (files j).storedName → i = j

theorem Live.unique {files : Table} {i j : Fin 16} {n : List Byte} (distinct : Distinct files)
    (first : Live files i n) (second : Live files j n) : i = j :=
  distinct i j first.1 second.1 (first.2.trans second.2.symm)

theorem not_live_of_long {name : CString} (long : 31 < name.text.length) (files : Table) (i : Fin 16) :
    ¬Live files i name.text := by
  intro live
  have bound := storedName_length (files i)
  rw [live.2] at bound
  omega

theorem live_update_self (files : Table) (i : Fin 16) (new : File) (n : List Byte) :
    Live (Function.update files i new) i n ↔ new.used = true ∧ new.storedName = n := by
  rw [Live, Function.update_self]

theorem live_update_of_ne (files : Table) {i j : Fin 16} (apart : j ≠ i) (new : File) (n : List Byte) :
    Live (Function.update files i new) j n ↔ Live files j n := by
  rw [Live, Live, Function.update_of_ne apart]

theorem fsInit_apply (files : Table) (i : Fin 16) :
    fsInit files i = { files i with used := false } := by
  have filled := forFin_invariant 16
    (fun i (files : Table) => Function.update files i { files i with used := false })
    (fun k now => ∀ j : Fin 16, now j = if j.val < k then { files j with used := false } else files j)
    files (fun j => by simp)
    (by
      intro k now held j
      by_cases same : j = k
      · subst same
        simp [held]
      · have apart : j.val ≠ k.val := fun equal => same (Fin.ext equal)
        rw [Function.update_of_ne same, held j]
        congr 1
        exact propext (by omega))
  rw [fsInit, filled i, if_pos i.isLt]

theorem matches_iff (files : Table) (name : CString) (i : Fin 16) :
    ((files i).used && named (files i) name) = true ↔ Live files i name.text := by
  rw [Bool.and_eq_true, named_iff, Live]

theorem matches_eq_false_iff (files : Table) (name : CString) (i : Fin 16) :
    ((files i).used && named (files i) name) = false ↔ ¬Live files i name.text := by
  rw [← matches_iff, Bool.not_eq_true]

theorem firstSlot_eq_some_iff (test : Fin 16 → Bool) (i : Fin 16) :
    firstSlot test = some i ↔ test i = true ∧ ∀ j, j < i → test j = false := by
  unfold firstSlot
  exact Fin.find?_eq_some_iff

theorem firstSlot_eq_none_iff (test : Fin 16 → Bool) :
    firstSlot test = none ↔ ∀ i, test i = false := by
  unfold firstSlot
  exact Fin.find?_eq_none_iff

theorem fsOpen_eq_some_iff (name : CString) (files : Table) (i : Fin 16) :
    fsOpen name files = some i ↔
      Live files i name.text ∧ ∀ j, j < i → ¬Live files j name.text := by
  simp only [fsOpen, firstSlot_eq_some_iff, matches_iff, matches_eq_false_iff]

theorem fsOpen_eq_none_iff (name : CString) (files : Table) :
    fsOpen name files = none ↔ ∀ i, ¬Live files i name.text := by
  simp only [fsOpen, firstSlot_eq_none_iff, matches_eq_false_iff]

theorem fsOpen_ne_none_iff (name : CString) (files : Table) :
    fsOpen name files ≠ none ↔ ∃ i, Live files i name.text := by
  rw [ne_eq, fsOpen_eq_none_iff]
  push Not
  rfl

theorem fsOpen_of_live (name : CString) (files : Table) (i : Fin 16) (distinct : Distinct files)
    (live : Live files i name.text) : fsOpen name files = some i := by
  rw [fsOpen_eq_some_iff]
  refine ⟨live, fun j before other => ?_⟩
  have same := live.unique distinct other
  omega

theorem contents_length (f : File) : f.contents.length = f.size := by
  simp [File.contents]

theorem no_bytes_fit : 0 ≤ 4096 := Nat.zero_le _

def created (old : File) (name : CString) : File :=
  { name := copyName old.name name, data := old.data, size := 0, size_le := no_bytes_fit, used := true }

@[simp]
theorem created_used (old : File) (name : CString) : (created old name).used = true := rfl

@[simp]
theorem created_storedName (old : File) (name : CString) :
    (created old name).storedName = stored name := copyName_text old.name name

@[simp]
theorem created_contents (old : File) (name : CString) : (created old name).contents = [] := rfl

theorem fsCreate_cases (name : CString) (files : Table) :
    ((∀ i, (files i).used = true) ∧ fsCreate name files = (files, none)) ∨
    ∃ i, (files i).used = false ∧ (∀ j, j < i → (files j).used = true) ∧
      fsCreate name files = (Function.update files i (created (files i) name), some i) := by
  cases found : firstSlot (fun i => !(files i).used) with
  | none =>
    left
    have all := (firstSlot_eq_none_iff _).mp found
    exact ⟨fun i => by simpa using all i, by simp only [fsCreate, found]⟩
  | some i =>
    right
    obtain ⟨free, before⟩ := (firstSlot_eq_some_iff _ i).mp found
    exact ⟨i, by simpa using free, fun j lower => by simpa using before j lower,
      by simp only [fsCreate, found, created]⟩

theorem kept_fit (len : Nat) : min len 4096 ≤ 4096 := Nat.min_le_right _ _

theorem kept_inside {len : Nat} (k : Fin (min len 4096)) : k.val < 4096 :=
  Nat.lt_of_lt_of_le k.isLt (kept_fit len)

theorem lowest_le {files : Table} {i k : Fin 16} (lowest : ∀ j, j < i → (files j).used = true)
    (free : (files k).used = false) : i ≤ k := by
  by_contra above
  have busy := lowest k (not_le.mp above)
  rw [free] at busy
  cases busy

def written (old : File) (data : Nat → Byte) (len : Nat) : File :=
  { old with
    data := forFin (min len 4096)
      (fun k d => Function.update d ⟨k.val, kept_inside k⟩ (data k.val)) old.data
    size := min len 4096
    size_le := kept_fit len }

@[simp]
theorem written_used (old : File) (data : Nat → Byte) (len : Nat) :
    (written old data len).used = old.used := rfl

@[simp]
theorem written_storedName (old : File) (data : Nat → Byte) (len : Nat) :
    (written old data len).storedName = old.storedName := rfl

def kept (data : Nat → Byte) (len : Nat) : List Byte := (List.range (min len 4096)).map data

@[simp]
theorem written_contents (old : File) (data : Nat → Byte) (len : Nat) :
    (written old data len).contents = kept data len := by
  simp only [File.contents, kept, written]
  apply List.map_congr_left
  intro k member
  have inside := List.mem_range.mp member
  rw [dif_pos (by omega)]
  exact forFin_update_at (fun k : Fin (min len 4096) => (⟨k.val, by omega⟩ : Fin 4096))
    (fun k => data k.val) old.data
    (fun a b same => Fin.ext (Fin.mk.inj same)) ⟨k, inside⟩

theorem fsWrite_used (i : Fin 16) (data : Nat → Byte) (len : Nat) (files : Table)
    (used : (files i).used = true) :
    fsWrite (some i) data len files =
      (Function.update files i (written (files i) data len), ((min len 4096 : Nat) : Int)) := by
  simp only [fsWrite, if_pos used, written]

def Unused (f : Descriptor) (files : Table) : Prop := ∀ i, f = some i → (files i).used = false

theorem fsWrite_unused (f : Descriptor) (data : Nat → Byte) (len : Nat) (files : Table)
    (unused : Unused f files) : fsWrite f data len files = (files, -1) := by
  cases f with
  | none => rfl
  | some i =>
    have free := unused i rfl
    simp [fsWrite, free]

theorem fsRead_unused (f : Descriptor) (buf : Nat → Byte) (len : Nat) (files : Table)
    (unused : Unused f files) : fsRead f buf len files = (buf, -1) := by
  cases f with
  | none => rfl
  | some i =>
    have free := unused i rfl
    simp [fsRead, free]

def overlay (bytes : List Byte) (count : Nat) (buf : Nat → Byte) : Nat → Byte :=
  fun k => if k < count then bytes.getD k 0#8 else buf k

theorem fsRead_used (i : Fin 16) (buf : Nat → Byte) (len : Nat) (files : Table)
    (used : (files i).used = true) :
    fsRead (some i) buf len files =
      (overlay (files i).contents (min len (files i).contents.length) buf,
        ((min len (files i).contents.length : Nat) : Int)) := by
  have bound := (files i).size_le
  rw [contents_length]
  simp only [fsRead, if_pos used]
  congr 1
  funext k
  by_cases inside : k < min len (files i).size
  · have copied := forFin_update_at (fun k : Fin (min len (files i).size) => k.val)
      (fun k => (files i).data ⟨k.val, by omega⟩) buf (fun a b same => Fin.ext same) ⟨k, inside⟩
    simp only at copied
    rw [copied, overlay, if_pos inside]
    have low : k < (files i).size := by omega
    have wide : k < 4096 := by omega
    simp [File.contents, List.getD_eq_getElem?_getD, low, wide]
  · rw [overlay, if_neg inside]
    apply forFin_update_off
    intro j same
    exact inside (same ▸ j.isLt)

def freed (old : File) : File := { old with used := false, size := 0, size_le := no_bytes_fit }

@[simp]
theorem freed_used (old : File) : (freed old).used = false := rfl

theorem fsDelete_eq (name : CString) (files : Table) :
    fsDelete name files = match fsOpen name files with
      | some i => (Function.update files i (freed (files i)), 0)
      | none => (files, -1) := rfl

def renamed (old : File) (name : CString) : File := { old with name := copyName old.name name }

@[simp]
theorem renamed_used (old : File) (name : CString) : (renamed old name).used = old.used := rfl

@[simp]
theorem renamed_contents (old : File) (name : CString) : (renamed old name).contents = old.contents := rfl

theorem renamed_size (old : File) (name : CString) : (renamed old name).size = old.size := rfl

theorem renamed_data (old : File) (name : CString) : (renamed old name).data = old.data := rfl

@[simp]
theorem renamed_storedName (old : File) (name : CString) :
    (renamed old name).storedName = stored name := copyName_text old.name name

private theorem renameScan_blocked (oldname newname : CString) (files : Table) (slots : List (Fin 16))
    (src : Descriptor) (i : Fin 16) (member : i ∈ slots) (live : Live files i newname.text) :
    renameScan oldname newname files slots src = none := by
  induction slots generalizing src with
  | nil => simp at member
  | cons j slots ih =>
    by_cases here : Live files j newname.text
    · rw [renameScan, if_pos ((matches_iff files newname j).mpr here)]
    · have later : i ∈ slots := by
        rcases List.mem_cons.mp member with same | later
        · exact absurd (same ▸ live) here
        · exact later
      have blocked := (matches_eq_false_iff files newname j).mpr here
      rw [renameScan, blocked]
      exact ih _ later

private theorem renameScan_clear (oldname newname : CString) (files : Table) (slots : List (Fin 16))
    (ascending : slots.Pairwise (· < ·)) (src : Descriptor)
    (clear : ∀ i ∈ slots, ¬Live files i newname.text) :
    ∃ last, renameScan oldname newname files slots src = some last ∧
      ((last = src ∧ ∀ i ∈ slots, ¬Live files i oldname.text) ∨
        ∃ i ∈ slots, last = some i ∧ Live files i oldname.text ∧
          ∀ j ∈ slots, i < j → ¬Live files j oldname.text) := by
  induction slots generalizing src with
  | nil => exact ⟨src, rfl, Or.inl ⟨rfl, by simp⟩⟩
  | cons j slots ih =>
    obtain ⟨below, ascending⟩ := List.pairwise_cons.mp ascending
    have blocked := (matches_eq_false_iff files newname j).mpr (clear j (by simp))
    obtain ⟨last, ran, shape⟩ := ih ascending
      (if (files j).used && named (files j) oldname then some j else src)
      (fun i member => clear i (List.mem_cons_of_mem j member))
    refine ⟨last, by rw [renameScan, blocked]; exact ran, ?_⟩
    rcases shape with ⟨same, absent⟩ | ⟨i, member, same, live, later⟩
    · by_cases here : Live files j oldname.text
      · rw [if_pos ((matches_iff files oldname j).mpr here)] at same
        refine Or.inr ⟨j, by simp, same, here, fun i member above => ?_⟩
        rcases List.mem_cons.mp member with equal | member
        · exact absurd (equal ▸ above) (lt_irrefl j)
        · exact absent i member
      · rw [(matches_eq_false_iff files oldname j).mpr here] at same
        refine Or.inl ⟨same, fun i member => ?_⟩
        rcases List.mem_cons.mp member with equal | later
        · exact equal ▸ here
        · exact absent i later
    · refine Or.inr ⟨i, List.mem_cons_of_mem j member, same, live, fun k among above => ?_⟩
      rcases List.mem_cons.mp among with equal | among
      · have lower := below i member
        rw [equal] at above
        exact absurd (lower.trans above) (lt_irrefl j)
      · exact later k among above

/-- Renaming fails when the target is live or the source is not, and otherwise
changes the name of the last file stored under the old one. -/
theorem fsRename_last (oldname newname : CString) (files : Table) :
    (((∃ i, Live files i newname.text) ∨ ∀ i, ¬Live files i oldname.text) ∧
      fsRename oldname newname files = (files, -1)) ∨
    ∃ i, Live files i oldname.text ∧ (∀ j, i < j → ¬Live files j oldname.text) ∧
      (∀ j, ¬Live files j newname.text) ∧
      fsRename oldname newname files = (Function.update files i (renamed (files i) newname), 0) := by
  by_cases taken : ∃ i, Live files i newname.text
  · obtain ⟨i, live⟩ := taken
    have stopped := renameScan_blocked oldname newname files (List.finRange 16) none i
      (List.mem_finRange i) live
    exact Or.inl ⟨Or.inl ⟨i, live⟩, by simp only [fsRename, stopped]⟩
  · have clear : ∀ i, ¬Live files i newname.text := fun i live => taken ⟨i, live⟩
    obtain ⟨last, ran, shape⟩ := renameScan_clear oldname newname files (List.finRange 16)
      (List.pairwise_lt_finRange 16) none (fun i _ => clear i)
    rcases shape with ⟨rfl, absent⟩ | ⟨i, _, rfl, live, later⟩
    · exact Or.inl ⟨Or.inr (fun i => absent i (List.mem_finRange i)), by simp only [fsRename, ran]⟩
    · refine Or.inr ⟨i, live, fun j => later j (List.mem_finRange j), clear, ?_⟩
      simp only [fsRename, ran, renamed]

theorem fsRename_cases (oldname newname : CString) (files : Table) :
    (((∃ i, Live files i newname.text) ∨ ∀ i, ¬Live files i oldname.text) ∧
      fsRename oldname newname files = (files, -1)) ∨
    ∃ i, Live files i oldname.text ∧ (∀ j, ¬Live files j newname.text) ∧
      fsRename oldname newname files = (Function.update files i (renamed (files i) newname), 0) := by
  rcases fsRename_last oldname newname files with failed | ⟨i, live, _, clear, ran⟩
  · exact Or.inl failed
  · exact Or.inr ⟨i, live, clear, ran⟩

theorem not_blocked {oldname newname : CString} {files : Table}
    (blocked : (∃ i, Live files i newname.text) ∨ ∀ i, ¬Live files i oldname.text)
    (source : ∃ i, Live files i oldname.text) (clear : ∀ i, ¬Live files i newname.text) : False := by
  rcases blocked with ⟨j, taken⟩ | missing
  · exact clear j taken
  · obtain ⟨i, live⟩ := source
    exact missing i live

def liveSlots (files : Table) : List (Fin 16) := (List.finRange 16).filter (fun i => (files i).used)

theorem mem_liveSlots (files : Table) (i : Fin 16) : i ∈ liveSlots files ↔ (files i).used = true := by
  simp [liveSlots, List.mem_finRange]

theorem liveSlots_nodup (files : Table) : (liveSlots files).Nodup :=
  (List.nodup_finRange 16).filter _

def liveSet (files : Table) : Finset (Fin 16) := Finset.univ.filter (fun i => (files i).used = true)

theorem mem_liveSet (files : Table) (i : Fin 16) : i ∈ liveSet files ↔ (files i).used = true := by
  simp [liveSet]

theorem liveSet_full_iff (files : Table) : (liveSet files).card = 16 ↔ ∀ i, (files i).used = true := by
  constructor
  · intro all i
    have whole : liveSet files = Finset.univ := Finset.eq_univ_of_card _ (by simpa using all)
    rw [← mem_liveSet, whole]
    exact Finset.mem_univ i
  · intro all
    have whole : liveSet files = Finset.univ := by
      ext i
      simp [mem_liveSet, all i]
    rw [whole, Finset.card_univ, Fintype.card_fin]

private theorem listFrom_spec (files : Table) (max : Nat) (slots : List (Fin 16))
    (list : Nat → Descriptor) (count : Nat) :
    let found := (slots.filter (fun i => (files i).used)).take (max - count)
    (listFrom files max slots list count).2 = count + found.length ∧
      ∀ k, (listFrom files max slots list count).1 k =
        if k < count then list k else if k < count + found.length then found[k - count]? else list k := by
  induction slots generalizing list count with
  | nil => exact ⟨by simp [listFrom], fun k => by simp [listFrom]; omega⟩
  | cons i slots ih =>
    by_cases more : count < max
    · cases used : (files i).used with
      | false =>
        have skipped := ih list count
        simpa [listFrom, more, used] using skipped
      | true =>
        obtain ⟨total, cells⟩ := ih (Function.update list count (some i)) (count + 1)
        obtain ⟨room, budget⟩ : ∃ room, max - count = room + 1 := ⟨max - count - 1, by omega⟩
        have rest : max - (count + 1) = room := by omega
        rw [rest] at total cells
        simp only [listFrom, if_pos more, used, if_true, List.filter_cons, budget,
          List.take_succ_cons, List.length_cons]
        refine ⟨by omega, fun k => (cells k).trans ?_⟩
        generalize (slots.filter (fun i => (files i).used)).take room = found
        rcases Nat.lt_trichotomy k count with low | rfl | high
        · have lower : k < count + 1 := by omega
          simp only [if_pos low, if_pos lower, Function.update_of_ne (show k ≠ count by omega)]
        · have here : k < k + 1 := by omega
          have inside : k < k + (found.length + 1) := by omega
          simp [here, inside]
        · have notLower : ¬k < count + 1 := by omega
          have notLow : ¬k < count := by omega
          have index : k - count = k - (count + 1) + 1 := by omega
          have bound : k < count + 1 + found.length ↔ k < count + (found.length + 1) := by omega
          simp only [if_neg notLow, if_neg notLower, index, List.getElem?_cons_succ, bound,
            Function.update_of_ne (show k ≠ count by omega)]
    · have stopped : max - count = 0 := by omega
      refine ⟨by simp [listFrom, more, stopped], fun k => ?_⟩
      simp [listFrom, more, stopped]
      omega

/-- `fs_list` stores the first `max` live slots in order and leaves the rest of the array alone. -/
theorem fsList_spec (list : Nat → Descriptor) (max : Nat) (files : Table) :
    (fsList list max files).2 = ((liveSlots files).take max).length ∧
      ∀ k, (fsList list max files).1 k =
        if k < ((liveSlots files).take max).length then ((liveSlots files).take max)[k]? else list k := by
  obtain ⟨total, cells⟩ := listFrom_spec files max (List.finRange 16) list 0
  simp only [Nat.sub_zero, Nat.zero_add] at total cells
  exact ⟨total, fun k => by rw [fsList, cells k]; rfl⟩

end LifeOS.Fs
