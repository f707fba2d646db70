import LifeOS.Fs.Directory
import LifeOS.Fs.Names

/-!
The table implements the directory: with names of at most 31 bytes and no creation
of a live name, every run of the calls is a session of the directory.
-/

namespace LifeOS.Fs
open LifeOS.Library.Strings LifeOS.Library.Runs

structure Represents (files : Table) (m : Finmap (fun _ : Name => Contents)) : Prop where
  distinct : Distinct files
  held : ∀ i, (files i).used = true → m.lookup (files i).storedName = some (files i).contents
  only : ∀ n, n ∈ m → ∃ i, Live files i n

variable {files : Table} {m : Finmap (fun _ : Name => Contents)}

theorem Represents.mem_iff (rep : Represents files m) (n : Name) : n ∈ m ↔ ∃ i, Live files i n := by
  refine ⟨rep.only n, ?_⟩
  rintro ⟨i, used, rfl⟩
  exact Finmap.mem_of_lookup_eq_some (rep.held i used)

theorem Represents.lookup (rep : Represents files m) {i : Fin 16} {n : Name}
    (live : Live files i n) : m.lookup n = some (files i).contents :=
  live.2 ▸ rep.held i live.1

theorem Represents.keys_eq (rep : Represents files m) :
    m.keys = (liveSet files).image (fun i => (files i).storedName) := by
  ext n
  rw [Finmap.mem_keys, rep.mem_iff n]
  simp [Live, mem_liveSet]

theorem Represents.keys_card (rep : Represents files m) : m.keys.card = (liveSet files).card := by
  rw [rep.keys_eq]
  apply Finset.card_image_of_injOn
  intro i usedI j usedJ same
  exact rep.distinct i j ((mem_liveSet files i).mp usedI) ((mem_liveSet files j).mp usedJ) same

def Represents.directory (rep : Represents files m) : Directory where
  files := m
  capacity := by
    rw [rep.keys_card]
    exact (Finset.card_le_univ _).trans (by simp)
  bounded := by
    intro n bytes found
    obtain ⟨i, live⟩ := rep.only n (Finmap.mem_of_lookup_eq_some found)
    have same := (rep.lookup live).symm.trans found
    rw [← Option.some.inj same, contents_length]
    exact (files i).size_le

theorem Represents.full_iff (rep : Represents files m) :
    m.keys.card = 16 ↔ ∀ i, (files i).used = true :=
  rep.keys_card ▸ liveSet_full_iff files

theorem represents_of_unused (unused : ∀ i, (files i).used = false) : Represents files ∅ where
  distinct := distinct_of_unused files unused
  held := by
    intro i used
    rw [unused i] at used
    cases used
  only := fun n member => absurd member Finmap.notMem_empty

theorem Represents.free (rep : Represents files m) (i : Fin 16) (new : File)
    (used : (files i).used = true) (gone : new.used = false) :
    Represents (Function.update files i new) (m.erase (files i).storedName) where
  distinct := distinct_update files i new rep.distinct (fun live => by rw [gone] at live; cases live)
    (fun live => by rw [gone] at live; cases live)
  held := by
    intro j usedJ
    by_cases here : j = i
    · subst here
      rw [Function.update_self, gone] at usedJ
      cases usedJ
    · rw [Function.update_of_ne here] at usedJ ⊢
      have apart : (files j).storedName ≠ (files i).storedName :=
        fun same => here (rep.distinct j i usedJ used same)
      rw [Finmap.lookup_erase_ne apart]
      exact rep.held j usedJ
  only := by
    intro n member
    obtain ⟨other, present⟩ := Finmap.mem_erase.mp member
    obtain ⟨j, live⟩ := rep.only n present
    have apart : j ≠ i := fun same => other (by rw [← live.2, same])
    exact ⟨j, by rw [Function.update_of_ne apart]; exact live.1,
      by rw [Function.update_of_ne apart]; exact live.2⟩

theorem Represents.store (rep : Represents files m) (i : Fin 16) (new : File)
    (free : (files i).used = false) (used : new.used = true)
    (fresh : ∀ j, ¬Live files j new.storedName) :
    Represents (Function.update files i new) (m.insert new.storedName new.contents) where
  distinct := (distinct_update_iff files i new rep.distinct).mpr (fun _ j _ => fresh j)
  held := by
    intro j usedJ
    by_cases here : j = i
    · subst here
      rw [Function.update_self]
      exact Finmap.lookup_insert m
    · rw [Function.update_of_ne here] at usedJ ⊢
      have apart : (files j).storedName ≠ new.storedName := fun same => fresh j ⟨usedJ, same⟩
      rw [Finmap.lookup_insert_of_ne m apart]
      exact rep.held j usedJ
  only := by
    intro n member
    rcases Finmap.mem_insert.mp member with same | present
    · exact ⟨i, by rw [Function.update_self]; exact used, by rw [Function.update_self]; exact same.symm⟩
    · obtain ⟨j, live⟩ := rep.only n present
      have apart : j ≠ i := by
        intro same
        rw [← same, live.1] at free
        cases free
      exact ⟨j, by rw [Function.update_of_ne apart]; exact live.1,
        by rw [Function.update_of_ne apart]; exact live.2⟩

theorem Represents.replace (rep : Represents files m) (i : Fin 16) (new : File)
    (used : (files i).used = true) (usedNew : new.used = true)
    (fresh : ∀ j, j ≠ i → ¬Live files j new.storedName) :
    Represents (Function.update files i new)
      ((m.erase (files i).storedName).insert new.storedName new.contents) := by
  have emptied := rep.free i (freed (files i)) used rfl
  have refilled := emptied.store i new (by rw [Function.update_self]; rfl) usedNew (by
    intro j live
    by_cases here : j = i
    · subst here
      have busy := live.1
      rw [Function.update_self] at busy
      cases busy
    · exact fresh j here ⟨by simpa [Function.update_of_ne here] using live.1,
        by simpa [Function.update_of_ne here] using live.2⟩)
  rwa [Function.update_idem] at refilled

theorem insert_erase_self (n : Name) (bytes : Contents) :
    (m.erase n).insert n bytes = m.insert n bytes := by
  apply Finmap.ext_lookup
  intro k
  by_cases same : k = n
  · rw [same, Finmap.lookup_insert, Finmap.lookup_insert]
  · rw [Finmap.lookup_insert_of_ne _ same, Finmap.lookup_insert_of_ne _ same, Finmap.lookup_erase_ne same]

/-- Stored names fit their field, and no creation names a live file. -/
def Disciplined : Call → Table → Prop
  | .fsCreate name, files => name.text.length ≤ 31 ∧ fsOpen name files = none
  | .fsRename _ newname, _ => newname.text.length ≤ 31
  | _, _ => True

def target (files : Table) (f : Descriptor) : Option Name :=
  f.bind (fun i => if (files i).used then some (files i).storedName else none)

def request (files : Table) : Call → Request
  | .fsInit => .init
  | .fsCreate name => .create name.text
  | .fsOpen name => .open name.text
  | .fsWrite f data len => .write (target files f) ((List.range len).map data)
  | .fsRead f _ len => .read (target files f) len
  | .fsList _ max => .list max
  | .fsDelete name => .delete name.text
  | .fsRename oldname newname => .rename oldname.text newname.text

def denoted (files : Table) (f : Descriptor) : Denoted := f.map fun i => target files (some i)

/-- A reply as the directory sees it, over the table that the call leaves. -/
def answer (files : Table) : Reply → Answer
  | .done => .done
  | .file f => .file (denoted files f)
  | .status value => .status value
  | .bytes buf count => .bytes count ((List.range count.toNat).map buf)
  | .listed list count => .names count ((List.range count).map fun k => denoted files (list k))

def trace : List Call → Table → List (Request × Answer)
  | [], _ => []
  | call :: calls, files =>
      (request files call, answer (step call files) (serve call files).2) :: trace calls (step call files)

theorem stored_of_short {name : CString} (short : name.text.length ≤ 31) : stored name = name.text :=
  (stored_eq_text_iff name).mpr short

theorem target_of_unused {f : Descriptor} (unused : Unused f files) : target files f = none := by
  cases f with
  | none => rfl
  | some i =>
    have free := unused i rfl
    simp [target, free]

theorem target_of_used {i : Fin 16} (used : (files i).used = true) :
    target files (some i) = some (files i).storedName := by
  simp [target, used]

theorem target_of_fsOpen {name : CString} {i : Fin 16} (opened : fsOpen name files = some i) :
    target files (some i) = some name.text := by
  have live := live_of_fsOpen opened
  rw [target_of_used live.1, live.2]

/-- The table after a call represents the directory that served it. -/
def Simulated (files : Table) (d : Directory) (call : Call) : Prop :=
  ∃ d', Served (request files call) d (answer (step call files) (serve call files).2) d' ∧
    Represents (step call files) d'.files

variable {d : Directory}

theorem simulated_fsInit : Simulated files d .fsInit := by
  have rep : Represents (step .fsInit files) ∅ := represents_of_unused (fun i => by
    change (fsInit files i).used = false
    rw [fsInit_apply])
  exact ⟨rep.directory, .init d rep.directory rfl, rep⟩

theorem simulated_fsCreate (rep : Represents files d.files) (name : CString)
    (disciplined : Disciplined (.fsCreate name) files) : Simulated files d (.fsCreate name) := by
  obtain ⟨short, absent⟩ := disciplined
  have fresh := (fsOpen_eq_none_iff name files).mp absent
  rcases fsCreate_cases name files with ⟨full, ran⟩ | ⟨i, free, _, ran⟩
  · refine ⟨d, ?_, ?_⟩
    · simp only [serve, ran, request, answer]
      exact .createFull d _ (rep.full_iff.mpr full)
    · simpa only [step, serve, ran] using rep
  · have next := rep.store i (created (files i) name) free rfl
      (by rw [created_storedName, stored_of_short short]; exact fresh)
    rw [created_storedName, stored_of_short short, created_contents] at next
    have room : d.files.keys.card < 16 := by
      apply Nat.lt_of_le_of_ne d.capacity
      intro full
      have busy := rep.full_iff.mp full i
      rw [free] at busy
      cases busy
    have new : name.text ∉ d.files := fun member => by
      obtain ⟨j, live⟩ := rep.only _ member
      exact fresh j live
    have here : denoted (Function.update files i (created (files i) name)) (some i) = some (some name.text) := by
      have used : (Function.update files i (created (files i) name) i).used = true := by
        rw [Function.update_self]
        rfl
      rw [denoted, Option.map_some, target_of_used used, Function.update_self, created_storedName,
        stored_of_short short]
    refine ⟨next.directory, ?_, ?_⟩
    · simp only [step, serve, ran, request, answer, here]
      exact .create d next.directory _ new room rfl
    · simp only [step, serve, ran]
      exact next

theorem simulated_fsOpen (rep : Represents files d.files) (name : CString) :
    Simulated files d (.fsOpen name) := by
  refine ⟨d, ?_, rep⟩
  cases opened : fsOpen name files with
  | none =>
    have absent := (fsOpen_eq_none_iff name files).mp opened
    simp only [request, serve, answer, opened]
    apply Served.openAbsent
    intro member
    obtain ⟨j, live⟩ := rep.only _ member
    exact absent j live
  | some i =>
    have here : denoted files (some i) = some (some name.text) := congrArg some (target_of_fsOpen opened)
    simp only [request, step, serve, answer, opened, here]
    exact .open d name.text ((rep.mem_iff name.text).mpr ⟨i, live_of_fsOpen opened⟩)

theorem kept_eq_take (data : Nat → Byte) (len : Nat) :
    kept data len = ((List.range len).map data).take 4096 := by
  rw [kept, ← List.map_take, List.take_range, Nat.min_comm]

theorem kept_length (data : Nat → Byte) (len : Nat) : (kept data len).length = min len 4096 := by
  simp [kept]

theorem simulated_fsWrite (rep : Represents files d.files) (f : Descriptor) (data : Nat → Byte)
    (len : Nat) : Simulated files d (.fsWrite f data len) := by
  rcases fsWrite_cases f data len files with ⟨unused, ran⟩ | ⟨i, rfl, used, ran⟩
  · refine ⟨d, ?_, ?_⟩
    · simp only [serve, ran, request, answer, target_of_unused unused]
      exact .writeNowhere d _
    · simpa only [step, serve, ran] using rep
  · have next := rep.replace i (written (files i) data len) used used (fun j apart live =>
      apart (rep.distinct j i live.1 used live.2))
    rw [written_storedName, written_contents, insert_erase_self, kept_eq_take] at next
    refine ⟨next.directory, ?_, ?_⟩
    · have count : ((min len 4096 : Nat) : Int) = ((((List.range len).map data).take 4096).length : Nat) := by
        rw [← kept_eq_take, kept_length]
      simp only [serve, ran, request, answer, target_of_used used, count]
      exact .write d next.directory _ _ ((rep.mem_iff _).mpr ⟨i, used, rfl⟩) rfl
    · simp only [step, serve, ran]
      exact next

theorem simulated_fsRead (rep : Represents files d.files) (f : Descriptor) (buf : Nat → Byte)
    (len : Nat) : Simulated files d (.fsRead f buf len) := by
  refine ⟨d, ?_, rep⟩
  rcases unused_or_used f files with unused | ⟨i, rfl, used⟩
  · simp only [serve, fsRead_unused f buf len files unused, request, answer, target_of_unused unused]
    exact .readNowhere d len
  · have filled : (List.range (min len (files i).contents.length)).map
        (overlay (files i).contents (min len (files i).contents.length) buf) =
        (files i).contents.take len := by
      apply List.ext_getElem
      · simp
      · intro k low high
        simp only [List.length_map, List.length_range] at low
        have inside : k < (files i).contents.length := by omega
        simp [overlay, low, inside]
    have count : ((min len (files i).contents.length : Nat) : Int) =
        (((files i).contents.take len).length : Nat) := by
      rw [List.length_take]
    simp only [serve, fsRead_used i buf len files used, request, answer, target_of_used used,
      Int.toNat_natCast, filled]
    rw [count]
    exact .read d _ _ len (rep.held i used)

theorem simulated_fsList (rep : Represents files d.files) (list : Nat → Descriptor) (max : Nat) :
    Simulated files d (.fsList list max) := by
  refine ⟨d, ?_, rep⟩
  obtain ⟨total, cells⟩ := fsList_spec list max files
  have count : (fsList list max files).2 =
      (((liveSlots files).take max).map fun i => (files i).storedName).length := by
    rw [total, List.length_map]
  have listed : (List.range (fsList list max files).2).map (fun k => denoted files ((fsList list max files).1 k)) =
      (((liveSlots files).take max).map fun i => (files i).storedName).map fun n => some (some n) := by
    apply List.ext_getElem
    · rw [List.length_map, List.length_range, count, List.length_map, List.length_map, List.length_map]
    · intro k first _
      have inside : k < ((liveSlots files).take max).length := by
        rw [List.length_map, List.length_range, total] at first
        exact first
      have live := (mem_liveSlots files _).mp (List.mem_of_mem_take (List.getElem_mem inside))
      have cell : (fsList list max files).1 k = some ((liveSlots files).take max)[k] := by
        rw [cells k, if_pos inside, List.getElem?_eq_getElem inside]
      rw [List.getElem_map, List.getElem_range, cell, List.getElem_map, List.getElem_map, denoted, Option.map_some,
        target_of_used live]
  simp only [step, serve, request, answer, listed]
  rw [count]
  apply Served.list
  · apply List.Nodup.map_on
    · intro i first j second same
      exact rep.distinct i j ((mem_liveSlots files i).mp (List.mem_of_mem_take first))
        ((mem_liveSlots files j).mp (List.mem_of_mem_take second)) same
    · exact (liveSlots_nodup files).sublist (List.take_sublist max _)
  · intro wide
    have all : (liveSlots files).take max = liveSlots files := by
      apply List.take_of_length_le
      calc
        _ ≤ (List.finRange 16).length := List.length_filter_le _ _
        _ = 16 := List.length_finRange
        _ ≤ max := wide
    ext n
    rw [all, Finmap.mem_keys, rep.mem_iff n]
    simp [mem_liveSlots, Live]
  · intro n member
    obtain ⟨i, inside, rfl⟩ := List.mem_map.mp member
    exact (rep.mem_iff _).mpr ⟨i, (mem_liveSlots files i).mp (List.mem_of_mem_take inside), rfl⟩

theorem simulated_fsDelete (rep : Represents files d.files) (name : CString) :
    Simulated files d (.fsDelete name) := by
  rcases fsDelete_cases name files with ⟨absent, ran⟩ | ⟨i, opened, ran⟩
  · have missing : name.text ∉ d.files := fun member => by
      obtain ⟨j, live⟩ := rep.only _ member
      exact absent j live
    refine ⟨d, ?_, ?_⟩
    · simp only [serve, ran, request, answer]
      exact .deleteAbsent d _ missing
    · simpa only [step, serve, ran] using rep
  · have live := live_of_fsOpen opened
    have next := rep.free i (freed (files i)) live.1 rfl
    rw [live.2] at next
    refine ⟨next.directory, ?_, ?_⟩
    · simp only [serve, ran, request, answer]
      exact .delete d next.directory _ ((rep.mem_iff _).mpr ⟨i, live⟩) rfl
    · simp only [step, serve, ran]
      exact next

theorem simulated_fsRename (rep : Represents files d.files) (oldname newname : CString)
    (short : newname.text.length ≤ 31) : Simulated files d (.fsRename oldname newname) := by
  rcases fsRename_cases oldname newname files with ⟨blocked, ran⟩ | ⟨i, live, clear, ran⟩
  · refine ⟨d, ?_, ?_⟩
    · simp only [serve, ran, request, answer]
      apply Served.renameBlocked
      rcases blocked with taken | missing
      · exact Or.inr ((rep.mem_iff _).mpr taken)
      · exact Or.inl (fun member => by
          obtain ⟨j, live⟩ := rep.only _ member
          exact missing j live)
    · simpa only [step, serve, ran] using rep
  · have next := rep.replace i (renamed (files i) newname) live.1 live.1
      (by rw [renamed_storedName, stored_of_short short]; exact fun j _ => clear j)
    rw [renamed_storedName, renamed_contents, stored_of_short short, live.2] at next
    have unused : newname.text ∉ d.files := fun member => by
      obtain ⟨j, taken⟩ := rep.only _ member
      exact clear j taken
    refine ⟨next.directory, ?_, ?_⟩
    · simp only [serve, ran, request, answer]
      exact .rename d next.directory _ _ _ (rep.lookup live) unused rfl
    · simp only [step, serve, ran]
      exact next

/-- One disciplined call is served by the directory the table represents. -/
theorem simulated_step (rep : Represents files d.files) (call : Call)
    (disciplined : Disciplined call files) : Simulated files d call := by
  cases call with
  | fsInit => exact simulated_fsInit
  | fsCreate name => exact simulated_fsCreate rep name disciplined
  | fsOpen name => exact simulated_fsOpen rep name
  | fsWrite f data len => exact simulated_fsWrite rep f data len
  | fsRead f buf len => exact simulated_fsRead rep f buf len
  | fsList list max => exact simulated_fsList rep list max
  | fsDelete name => exact simulated_fsDelete rep name
  | fsRename oldname newname => exact simulated_fsRename rep oldname newname disciplined

theorem simulated_run (calls : List Call) (files : Table) (d : Directory)
    (rep : Represents files d.files) (disciplined : Along step Disciplined calls files) :
    ∃ last, Session (trace calls files) d last ∧ Represents (run step calls files) last.files := by
  induction calls generalizing files d with
  | nil => exact ⟨d, .nil d, rep⟩
  | cons call calls ih =>
    obtain ⟨mid, served, repMid⟩ := simulated_step rep call disciplined.1
    obtain ⟨last, session, repLast⟩ := ih (step call files) mid repMid disciplined.2
    exact ⟨last, .cons served session, repLast⟩

/-- Every disciplined run from `fs_init` is a session of the directory, which starts
empty and is spelled out by the final table; opened descriptors denote their names. -/
theorem table_refines_directory (files : Table) (calls : List Call)
    (disciplined : Along step Disciplined calls (fsInit files)) :
    ∃ d, Session (trace calls (fsInit files)) Directory.empty d ∧
      Represents (run step calls (fsInit files)) d.files ∧
      ∀ name f, fsOpen name (run step calls (fsInit files)) = some f →
        target (run step calls (fsInit files)) (some f) = some name.text := by
  have start : Represents (fsInit files) Directory.empty.files :=
    represents_of_unused (fun i => by rw [fsInit_apply])
  obtain ⟨d, session, rep⟩ := simulated_run calls (fsInit files) Directory.empty start disciplined
  exact ⟨d, session, rep, fun name f opened => target_of_fsOpen opened⟩

def configCalls : List Call :=
  [.fsCreate (CString.ofBytes [0x63#8]), .fsWrite (some 0) (fun _ => 0x68#8) 5,
    .fsRename (CString.ofBytes [0x63#8]) (CString.ofBytes [0x64#8])]

theorem config_session :
    ∃ d, Session (trace configCalls (fsInit emptyTable)) Directory.empty d ∧
      Represents (run step configCalls (fsInit emptyTable)) d.files ∧
      ∀ name f, fsOpen name (run step configCalls (fsInit emptyTable)) = some f →
        target (run step configCalls (fsInit emptyTable)) (some f) = some name.text :=
  table_refines_directory emptyTable configCalls
    ⟨⟨by decide, by decide +kernel⟩, trivial, show (CString.ofBytes [0x64#8]).text.length ≤ 31 by decide,
      trivial⟩

end LifeOS.Fs
