import LifeOS.Acpi.Accessors

/-!
Where `acpi_init` reads: the entries of the root table, the headers of the registered
tables and the fields of the FADTs, compared with the lengths that the tables declare.
-/

namespace LifeOS.Acpi
open LifeOS.Console LifeOS.Library.Access LifeOS.Library.Memory LifeOS.Library.Strings

variable (m : Mem)

def entryRead (root : Root) (k : Nat) : Read Part :=
  ⟨.entry, root.sdt + 36#64 + BitVec.ofNat 64 (width root.useXsdt * k), width root.useXsdt⟩

theorem fetchEntry_reads (root : Root) (i : Nat) : (fetchEntry m root i).reads = [entryRead root i] := by
  unfold fetchEntry entryRead width
  by_cases wide : root.useXsdt = true
  · rw [if_pos wide, if_pos wide]
    rfl
  · rw [if_neg wide, if_neg wide]
    rfl

def TableRead (added : List Addr) (r : Read Part) : Prop :=
  ∃ a ∈ added, r.tag = .header a ∧ r.Within a.toNat 4 ∨
    IsFadt m a ∧ (r = ⟨.fadt a, a + 64#64, 4⟩ ∨ r = ⟨.fadt a, a + 68#64, 4⟩)

theorem registerTable_reads (a : Addr) (s : AcpiState) (usable : Usable a) :
    (∀ r ∈ (registerTable m a s).reads, TableRead m [a] r) ∧
      (IsFadt m a → ⟨.fadt a, a + 68#64, 4⟩ ∈ (registerTable m a s).reads) := by
  have nonzero : a ≠ 0#64 := fun zero => absurd usable.1 (by rw [zero]; decide)
  have low := usable.2
  have four : sigFacp.length = 4 := rfl
  have compared (r : Read Part) (member : r ∈ (compares m (Part.header a) sigFacp a).reads) :
      r.tag = .header a ∧ r.Within a.toNat 4 :=
    ⟨compares_tags m (Part.header a) sigFacp a r member,
      compares_reads m (Part.header a) sigFacp a (by omega) r member⟩
  unfold registerTable
  simp only [if_pos usable.2, if_neg nonzero, reads_bind, compares_value]
  by_cases fadt : Holds m sigFacp a
  · rw [if_pos (decide_eq_true fadt)]
    constructor
    · intro r member
      rcases List.mem_append.mp member with header | fields
      · exact ⟨a, List.mem_singleton.mpr rfl, .inl (compared r header)⟩
      · refine ⟨a, List.mem_singleton.mpr rfl, .inr ⟨fadt, ?_⟩⟩
        rcases List.mem_cons.mp fields with first | rest
        · exact .inl first
        · exact .inr (List.mem_singleton.mp rest)
    · intro _
      exact List.mem_append_right _ (List.mem_cons_of_mem _ (List.mem_singleton.mpr rfl))
  · rw [if_neg (fun same => fadt (of_decide_eq_true same))]
    constructor
    · intro r member
      rw [reads_pure, List.append_nil] at member
      exact ⟨a, List.mem_singleton.mpr rfl, .inl (compared r member)⟩
    · exact fun present => (fadt present).elim

variable {m}

theorem TableRead.mono {fewer more : List Addr} {r : Read Part} (read : TableRead m fewer r)
    (subset : ∀ a ∈ fewer, a ∈ more) : TableRead m more r := by
  obtain ⟨a, member, what⟩ := read
  exact ⟨a, subset a member, what⟩

variable (m)

def added (root : Root) (left i : Nat) (s : AcpiState) : List Addr :=
  (((List.range' i left).map (entryAt m root)).filter Usable).take (16 - s.tables.length)

theorem added_usable (root : Root) (left i : Nat) (s : AcpiState) (more : s.tables.length < 16)
    (usable : Usable (entryAt m root i)) :
    added m root (left + 1) i s =
      entryAt m root i :: added m root left (i + 1) (registerTable m (entryAt m root i) s).value := by
  have count : (registerTable m (entryAt m root i) s).value.tables.length = s.tables.length + 1 := by
    rw [(registerTable_usable m _ s usable).tables, List.length_append, List.length_singleton]
  unfold added
  rw [count, List.range'_succ, List.map_cons, List.filter_cons, if_pos (decide_eq_true usable),
    show 16 - s.tables.length = 16 - (s.tables.length + 1) + 1 by omega, List.take_succ_cons]

theorem added_unusable (root : Root) (left i : Nat) (s : AcpiState) (unusable : ¬Usable (entryAt m root i)) :
    added m root (left + 1) i s = added m root left (i + 1) s := by
  unfold added
  rw [List.range'_succ, List.map_cons, List.filter_cons,
    if_neg (fun same => unusable (of_decide_eq_true same))]

theorem scanEntries_reads (root : Root) (left i : Nat) (s : AcpiState) (room : s.tables.length ≤ 16) :
    (∀ r ∈ (scanEntries m root left i s).reads,
        (∃ k, k < i + left ∧ r = entryRead root k) ∨ TableRead m (added m root left i s) r) ∧
      ∀ a ∈ added m root left i s, IsFadt m a →
        ⟨.fadt a, a + 68#64, 4⟩ ∈ (scanEntries m root left i s).reads := by
  induction left generalizing i s with
  | zero =>
    refine ⟨fun _ never => (List.not_mem_nil never).elim, ?_⟩
    intro a member
    have nothing : added m root 0 i s = [] := List.take_nil
    rw [nothing] at member
    exact (List.not_mem_nil member).elim
  | succ left ih =>
    rw [scanEntries]
    by_cases more : s.tables.length < 16
    · rw [if_pos more, reads_bind, reads_bind, fetchEntry_value, fetchEntry_reads, List.singleton_append]
      by_cases usable : Usable (entryAt m root i)
      · obtain ⟨here, field⟩ := registerTable_reads m (entryAt m root i) s usable
        have count : (registerTable m (entryAt m root i) s).value.tables.length = s.tables.length + 1 := by
          rw [(registerTable_usable m _ s usable).tables, List.length_append, List.length_singleton]
        obtain ⟨later, fields⟩ := ih (i + 1) (registerTable m (entryAt m root i) s).value (by omega)
        rw [added_usable m root left i s more usable]
        constructor
        · intro r member
          rcases List.mem_cons.mp member with entry | rest
          · exact .inl ⟨i, by omega, entry⟩
          rcases List.mem_append.mp rest with own | others
          · exact .inr ((here r own).mono (fun a single => List.mem_singleton.mp single ▸ List.mem_cons_self))
          · rcases later r others with ⟨k, below, same⟩ | read
            · exact .inl ⟨k, by omega, same⟩
            · exact .inr (read.mono (fun a member => List.mem_cons_of_mem _ member))
        · intro a member fadt
          rcases List.mem_cons.mp member with first | rest
          · rw [first] at fadt ⊢
            exact List.mem_cons_of_mem _ (List.mem_append_left _ (field fadt))
          · exact List.mem_cons_of_mem _ (List.mem_append_right _ (fields a rest fadt))
      · rw [registerTable_unusable m _ s usable, reads_pure, value_pure, List.nil_append,
          added_unusable m root left i s usable]
        obtain ⟨later, fields⟩ := ih (i + 1) s room
        constructor
        · intro r member
          rcases List.mem_cons.mp member with entry | rest
          · exact .inl ⟨i, by omega, entry⟩
          · rcases later r rest with ⟨k, below, same⟩ | read
            · exact .inl ⟨k, by omega, same⟩
            · exact .inr read
        · exact fun a member fadt => List.mem_cons_of_mem _ (fields a member fadt)
    · rw [if_neg more]
      have nothing : added m root (left + 1) i s = [] := by
        unfold added
        rw [show 16 - s.tables.length = 0 by omega, List.take_zero]
      rw [nothing]
      exact ⟨fun _ never => (List.not_mem_nil never).elim, fun _ never => (List.not_mem_nil never).elim⟩

theorem first_entry_read (root : Root) (left : Nat) (s : AcpiState) (some_left : 0 < left)
    (room : s.tables.length < 16) : entryRead root 0 ∈ (scanEntries m root left 0 s).reads := by
  obtain ⟨left, rfl⟩ : ∃ n, left = n + 1 := ⟨left - 1, by omega⟩
  rw [scanEntries, if_pos room, reads_bind, fetchEntry_reads]
  exact List.mem_cons_self

/-- What is read on the way to the root table and in its header. -/
def Early (part : Part) : Prop := part = .segment ∨ part = .rsdp ∨ part = .root

theorem scanFrom_early (e : Addr) (fuel : Nat) (p : Addr) :
    ∀ r ∈ (scanFrom m e fuel p).reads, Early r.tag := by
  induction fuel generalizing p with
  | zero => exact fun _ never => (List.not_mem_nil never).elim
  | succ fuel ih =>
    intro r member
    rw [scanFrom] at member
    by_cases room : p.toNat + 36 ≤ e.toNat
    · rw [if_pos room, reads_bind, List.mem_append] at member
      rcases member with compared | later
      · exact .inr (.inl (compares_tags m Part.rsdp sigRsdp p r compared))
      · split at later
        · exact (List.not_mem_nil later).elim
        · exact ih (p + 16#64) r later
    · rw [if_neg room] at member
      exact (List.not_mem_nil member).elim

theorem findRsdp_early : ∀ r ∈ (findRsdp m).reads, Early r.tag := by
  intro r member
  unfold findRsdp at member
  rw [reads_bind, List.mem_append] at member
  rcases member with segment | scans
  · exact .inl (by rw [List.mem_singleton.mp segment])
  rw [reads_bind, List.mem_append] at scans
  rcases scans with ebda | bios
  · exact scanFrom_early m _ _ _ r ebda
  · split at bios
    · exact scanFrom_early m _ _ _ r bios
    · exact (List.not_mem_nil bios).elim

theorem rootPointer_early (rsdp : Addr) : ∀ r ∈ (rootPointer m rsdp).reads, Early r.tag := by
  intro r member
  unfold rootPointer at member
  rw [reads_bind, List.mem_append] at member
  rcases member with revision | pointers
  · exact .inr (.inl (by rw [List.mem_singleton.mp revision]))
  rw [reads_bind, List.mem_append] at pointers
  rcases pointers with xsdt | rsdt
  · unfold xsdtAddress at xsdt
    split at xsdt
    · exact .inr (.inl (by rw [List.mem_singleton.mp xsdt]))
    · exact (List.not_mem_nil xsdt).elim
  · split at rsdt
    · exact (List.not_mem_nil rsdt).elim
    · rw [reads_bind, reads_pure, List.append_nil] at rsdt
      exact .inr (.inl (by rw [List.mem_singleton.mp rsdt]))

theorem isRoot_early (sdt : Addr) : ∀ r ∈ (isRoot m sdt).reads, Early r.tag := by
  intro r member
  unfold isRoot at member
  split at member
  · exact (List.not_mem_nil member).elim
  rw [reads_bind, List.mem_append] at member
  rcases member with narrow | wide
  · exact .inr (.inr (compares_tags m Part.root sigRsdt sdt r narrow))
  · split at wide
    · exact (List.not_mem_nil wide).elim
    · exact .inr (.inr (compares_tags m Part.root sigXsdt sdt r wide))

def counted (root : Root) : Nat := (entries (read32 m (root.sdt + 4#64)) root.useXsdt).toNat

theorem acpiInit_reads_accepted (s : AcpiState) (root : Root) (accepted : acceptedRoot m = some root) :
    ∃ early t, (∀ r ∈ early, Early r.tag) ∧ t.tables = [] ∧
      (acpiInit m s).reads = early ++ (scanEntries m root (counted m root) 0 t).reads := by
  obtain ⟨found, pointer, signed⟩ := acceptedRoot_eq_some m root accepted
  unfold acpiInit
  rw [reads_bind, if_neg found, reads_bind, pointer, reads_bind, isRoot_value,
    if_pos (decide_eq_true signed)]
  generalize announce (findRsdp m).value root (s.print (say "ACPI parser initializing\n")) = told
  refine ⟨(findRsdp m).reads ++ (rootPointer m (findRsdp m).value).reads ++ (isRoot m root.sdt).reads ++
    (fetch32 m Part.root (root.sdt + 4#64)).reads, { told with tables := [] }, ?_, rfl, ?_⟩
  · intro r member
    simp only [List.mem_append] at member
    rcases member with ((search | pointers) | signature) | length
    · exact findRsdp_early m r search
    · exact rootPointer_early m _ r pointers
    · exact isRoot_early m _ r signature
    · exact .inr (.inr (by rw [List.mem_singleton.mp length]))
  · unfold parseRoot
    rw [reads_bind, reads_bind, reads_pure, List.append_nil]
    simp only [List.append_assoc]
    rfl

theorem acpiInit_reads_rejected (s : AcpiState) (rejected : acceptedRoot m = none) :
    ∀ r ∈ (acpiInit m s).reads, Early r.tag := by
  intro r member
  unfold acpiInit at member
  rw [reads_bind, List.mem_append] at member
  rcases member with search | rest
  · exact findRsdp_early m r search
  by_cases missing : (findRsdp m).value = 0#64
  · rw [if_pos missing] at rest
    exact (List.not_mem_nil rest).elim
  · have unsigned : ¬RootSigned m (rootPointer m (findRsdp m).value).value.sdt := by
      intro signed
      unfold acceptedRoot at rejected
      dsimp only at rejected
      rw [if_pos ⟨missing, signed⟩] at rejected
      exact Option.some_ne_none _ rejected
    rw [if_neg missing, reads_bind, List.mem_append, reads_bind, List.mem_append, isRoot_value,
      if_neg (fun same => unsigned (of_decide_eq_true same)), reads_pure] at rest
    rcases rest with pointers | signature | never
    · exact rootPointer_early m _ r pointers
    · exact isRoot_early m _ r signature
    · exact (List.not_mem_nil never).elim

theorem acceptedRoot_usable (root : Root) (accepted : acceptedRoot m = some root) : Usable root.sdt := by
  obtain ⟨_, pointer, signed⟩ := acceptedRoot_eq_some m root accepted
  have nonzero : root.sdt.toNat ≠ 0 := fun zero => signed.1 (BitVec.eq_of_toNat_eq zero)
  refine ⟨by omega, ?_⟩
  rw [rootPointer_value] at pointer
  rw [← pointer]
  dsimp only
  split
  · assumption
  · decide

theorem entryRead_start (root : Root) (k : Nat) (low : root.sdt.toNat < 0x80000000) (few : k < 2 ^ 32) :
    (entryRead root k).start.toNat = root.sdt.toNat + 36 + width root.useXsdt * k := by
  have eight : width root.useXsdt * k ≤ 8 * k := by
    unfold width
    split <;> omega
  unfold entryRead
  rw [BitVec.toNat_add, BitVec.toNat_add, BitVec.toNat_ofNat, BitVec.toNat_ofNat]
  omega

theorem counted_lt (root : Root) : counted m root < 2 ^ 32 := BitVec.isLt _

/-- A length that does not cover the header still counts entries, by wrapping around. -/
theorem counted_short (root : Root) (short : declared m root < 36) : 0 < counted m root := by
  unfold declared at short
  have behind : ((read32 m (root.sdt + 4#64)).zeroExtend 64 - 36#64).toNat =
      2 ^ 64 + declared m root - 36 := by
    unfold declared
    bv_omega
  unfold counted entries
  rw [BitVec.toNat_setWidth, BitVec.toNat_udiv, behind]
  unfold declared
  cases root.useXsdt with
  | true =>
    change 0 < (2 ^ 64 + (read32 m (root.sdt + 4#64)).toNat - 36) / 8 % 2 ^ 32
    omega
  | false =>
    change 0 < (2 ^ 64 + (read32 m (root.sdt + 4#64)).toNat - 36) / 4 % 2 ^ 32
    omega

theorem counted_long (root : Root) (long : 36 ≤ declared m root) :
    counted m root = (declared m root - 36) / width root.useXsdt := entries_toNat _ _ long

theorem width_pos (useXsdt : Bool) : 0 < width useXsdt := by
  cases useXsdt <;> decide

theorem first_entry_of_counted (s : AcpiState) (root : Root) (accepted : acceptedRoot m = some root)
    (counts : 0 < counted m root) : entryRead root 0 ∈ (acpiInit m s).reads := by
  obtain ⟨early, t, _, empty, reads⟩ := acpiInit_reads_accepted m s root accepted
  rw [reads]
  exact List.mem_append_right _ (first_entry_read m root _ t counts (by rw [empty]; decide))

def tableLength (a : Addr) : Nat := (read32 m (a + 4#64)).toNat

/-- The reads stay inside the declared tables, and the list inside the root's entries. -/
structure Contained (s : AcpiState) : Prop where
  entries : ∀ r ∈ (acpiInit m s).reads, r.tag = .entry →
    ∃ root, acceptedRoot m = some root ∧ r.Within root.sdt.toNat (declared m root)
  count : ∀ root, acceptedRoot m = some root →
    (acpiInit m s).value.tables.length ≤ (declared m root - 36) / width root.useXsdt
  fields : ∀ r ∈ (acpiInit m s).reads, ∀ a, r.tag = .fadt a → r.Within a.toNat (tableLength m a)

/-- The root table is as long as its header, and every registered FADT as its PM1 fields. -/
def LongEnough : Prop :=
  ∀ root, acceptedRoot m = some root → 36 ≤ declared m root ∧ ∀ a ∈ fadts m root, 72 ≤ tableLength m a

theorem added_first (root : Root) (t : AcpiState) (empty : t.tables = []) :
    added m root (counted m root) 0 t = firstTables m root := by
  unfold added
  rw [empty]
  rfl

theorem firstTables_registered (root : Root) (long : 36 ≤ declared m root) :
    firstTables m root = registered m root := firstTables_listed m root long

theorem late_reads (s : AcpiState) (long : ∀ root, acceptedRoot m = some root → 36 ≤ declared m root)
    (r : Read Part) (member : r ∈ (acpiInit m s).reads) (not_early : ¬Early r.tag) :
    ∃ root, acceptedRoot m = some root ∧
      ((∃ k, k < counted m root ∧ r = entryRead root k) ∨ TableRead m (registered m root) r) := by
  cases root_found : acceptedRoot m with
  | none => exact (not_early (acpiInit_reads_rejected m s root_found r member)).elim
  | some root =>
    obtain ⟨early, t, before, empty, reads⟩ := acpiInit_reads_accepted m s root root_found
    rw [reads] at member
    refine ⟨root, rfl, ?_⟩
    rcases List.mem_append.mp member with front | loop
    · exact (not_early (before r front)).elim
    · have read := (scanEntries_reads m root (counted m root) 0 t (by rw [empty]; decide)).1 r loop
      rw [added_first m root t empty, firstTables_registered m root (long root root_found),
        Nat.zero_add] at read
      exact read

theorem Contained.longEnough {m : Mem} {s : AcpiState} (contained : Contained m s) : LongEnough m := by
  intro root accepted
  obtain ⟨_, low⟩ := acceptedRoot_usable m root accepted
  have long : 36 ≤ declared m root := by
    by_contra short
    have read := first_entry_of_counted m s root accepted (counted_short m root (by omega))
    obtain ⟨other, same, _, inside⟩ := contained.entries _ read rfl
    obtain rfl := Option.some.inj (accepted.symm.trans same)
    rw [entryRead_start root 0 low (by decide)] at inside
    omega
  refine ⟨long, ?_⟩
  intro a member
  obtain ⟨early, t, _, empty, reads⟩ := acpiInit_reads_accepted m s root accepted
  obtain ⟨among, fadt⟩ := mem_fadts member
  obtain ⟨_, below⟩ := (registered_usable among).2
  have place : a ∈ added m root (counted m root) 0 t := by
    rw [added_first m root t empty, firstTables_registered m root long]
    exact among
  have read := (scanEntries_reads m root (counted m root) 0 t (by rw [empty]; decide)).2 a place fadt
  have inside := (contained.fields _ (by rw [reads]; exact List.mem_append_right _ read) a rfl).2
  change (a + 68#64).toNat + 4 ≤ _ at inside
  have field : (a + 68#64).toNat = a.toNat + 68 := by bv_omega
  omega

theorem entryRead_within (root : Root) (k : Nat) (low : root.sdt.toNat < 0x80000000)
    (long : 36 ≤ declared m root) (below : k < counted m root) :
    (entryRead root k).Within root.sdt.toNat (declared m root) := by
  have few := counted_lt m root
  have start := entryRead_start root k low (by omega)
  rw [counted_long m root long] at below
  have fits := (Nat.le_div_iff_mul_le (width_pos _)).mp below
  rw [Nat.succ_mul, Nat.mul_comm] at fits
  refine ⟨by omega, ?_⟩
  change (entryRead root k).start.toNat + width root.useXsdt ≤ _
  omega

theorem field_within (a : Addr) (r : Read Part) (low : a.toNat < 0x80000000) (long : 72 ≤ tableLength m a)
    (field : r = ⟨.fadt a, a + 64#64, 4⟩ ∨ r = ⟨.fadt a, a + 68#64, 4⟩) :
    r.Within a.toNat (tableLength m a) := by
  have first : (a + 64#64).toNat = a.toNat + 64 := by bv_omega
  have second : (a + 68#64).toNat = a.toNat + 68 := by bv_omega
  rcases field with rfl | rfl
  · constructor
    · change a.toNat ≤ (a + 64#64).toNat
      omega
    · change (a + 64#64).toNat + 4 ≤ _
      omega
  · constructor
    · change a.toNat ≤ (a + 68#64).toNat
      omega
    · change (a + 68#64).toNat + 4 ≤ _
      omega

theorem LongEnough.contained {m : Mem} (sound : LongEnough m) (s : AcpiState) : Contained m s := by
  have long (root : Root) (accepted : acceptedRoot m = some root) := (sound root accepted).1
  refine ⟨?_, ?_, ?_⟩
  · intro r member entry
    obtain ⟨root, accepted, what⟩ := late_reads m s long r member
      (by rw [entry]; rintro (h | h | h) <;> cases h)
    rcases what with ⟨k, below, rfl⟩ | ⟨a, _, ⟨header, _⟩ | ⟨_, rfl | rfl⟩⟩
    · exact ⟨root, accepted, entryRead_within m root k (acceptedRoot_usable m root accepted).2
        (long root accepted) below⟩
    · rw [entry] at header
      cases header
    · cases entry
    · cases entry
  · intro root accepted
    rw [(acpiInit_accepted m s root accepted).tables, firstTables_registered m root (long root accepted),
      List.nil_append]
    calc (registered m root).length ≤ ((listed m root).filter Usable).length := List.length_take_le' _ _
      _ ≤ (listed m root).length := List.length_filter_le _ _
      _ = (declared m root - 36) / width root.useXsdt := by
        rw [listed, List.length_map, List.length_range']
  · intro r member a field
    obtain ⟨root, accepted, what⟩ := late_reads m s long r member
      (by rw [field]; rintro (h | h | h) <;> cases h)
    rcases what with ⟨k, _, rfl⟩ | ⟨b, among, ⟨header, _⟩ | ⟨fadt, fields⟩⟩
    · cases field
    · rw [field] at header
      cases header
    · have tag : r.tag = .fadt b := by rcases fields with rfl | rfl <;> rfl
      obtain rfl : a = b := Part.fadt.inj (field.symm.trans tag)
      exact field_within m a r (registered_usable among).2.2
        ((sound root accepted).2 a (List.mem_filter.mpr ⟨among, decide_eq_true fadt⟩)) fields

/-- Parsing stays inside the declared tables exactly when these are long enough. -/
theorem parsing_contained_iff (s : AcpiState) : Contained m s ↔ LongEnough m :=
  ⟨fun contained => contained.longEnough, fun sound => sound.contained s⟩

def shortFadt : Mem := firmware 0x00#8 [0x00#8, 0x10#8]
  [(0x1000#64, sigRsdt ++ [0x28#8]), (0x1024#64, [0x00#8, 0x20#8]), (0x2000#64, sigFacp ++ [0x08#8])]

theorem short_fadt_read : ¬∀ (m : Mem) (s : AcpiState), Contained m s := by
  intro always
  have read : ⟨.fadt 0x2000#64, 0x2044#64, 4⟩ ∈
      (acpiInit shortFadt (AcpiState.boot Terminal.zeroed.con)).reads := by decide +kernel
  have inside := ((always shortFadt (AcpiState.boot Terminal.zeroed.con)).fields _ read 0x2000#64 rfl).2
  have length : tableLength shortFadt 0x2000#64 = 8 := by decide +kernel
  rw [length] at inside
  exact absurd inside (by decide)

def ownKind (root : Root) : Root := ⟨decide (Holds m sigXsdt root.sdt), root.sdt⟩

/-- The entries are read at the width of the signature, and what is registered is listed. -/
def ReadsOwnWidth (s : AcpiState) : Prop :=
  ∀ root, acceptedRoot m = some root →
    (∀ r ∈ (acpiInit m s).reads, r.tag = .entry → r.size = width (ownKind m root).useXsdt) ∧
      ∀ a ∈ (acpiInit m s).value.tables, a ∈ listed m (ownKind m root)

/-- The pointer is of the kind of the signature, with a length that covers the header or no
usable entry counted; or the length leaves no entry to read. -/
def KindsMatch : Prop :=
  ∀ root, acceptedRoot m = some root →
    (root = ownKind m root ∧ (36 ≤ declared m root ∨ ∀ i < counted m root, ¬Usable (entryAt m root i))) ∨
      36 ≤ declared m root ∧ declared m root < 36 + width root.useXsdt

theorem mem_firstTables_nil (root : Root) :
    firstTables m root = [] ↔ ∀ i < counted m root, ¬Usable (entryAt m root i) := by
  unfold firstTables
  rw [List.take_eq_nil_iff, List.filter_eq_nil_iff]
  constructor
  · intro none_usable i below usable
    rcases none_usable with never | unusable
    · exact absurd never (by decide)
    · exact unusable _ (List.mem_map.mpr ⟨i, List.mem_range'_1.mpr ⟨Nat.zero_le i, by
        rw [Nat.zero_add]
        exact below⟩, rfl⟩) (decide_eq_true usable)
  · intro unusable
    refine .inr ?_
    intro a member usable
    obtain ⟨i, among, rfl⟩ := List.mem_map.mp member
    have below := (List.mem_range'_1.mp among).2
    rw [Nat.zero_add] at below
    exact unusable i below (of_decide_eq_true usable)

theorem width_injective (first second : Bool) (same : width first = width second) : first = second := by
  cases first <;> cases second <;> first | rfl | exact absurd same (by decide)

theorem entry_size (s : AcpiState) (root : Root) (accepted : acceptedRoot m = some root) (r : Read Part)
    (member : r ∈ (acpiInit m s).reads) (entry : r.tag = .entry) :
    r.size = width root.useXsdt ∧ 0 < counted m root := by
  obtain ⟨early, t, before, empty, reads⟩ := acpiInit_reads_accepted m s root accepted
  rw [reads] at member
  rcases List.mem_append.mp member with front | loop
  · have contradiction := before r front
    rw [entry] at contradiction
    rcases contradiction with h | h | h <;> cases h
  · rcases (scanEntries_reads m root (counted m root) 0 t (by rw [empty]; decide)).1 r loop with
      ⟨k, below, rfl⟩ | ⟨a, _, ⟨header, _⟩ | ⟨_, rfl | rfl⟩⟩
    · exact ⟨rfl, by omega⟩
    · rw [entry] at header
      cases header
    · cases entry
    · cases entry

theorem listed_short (root : Root) (short : declared m root < 36) : listed m root = [] := by
  unfold listed
  rw [show declared m root - 36 = 0 by omega, Nat.zero_div]
  rfl

theorem ReadsOwnWidth.kindsMatch {m : Mem} {s : AcpiState} (own : ReadsOwnWidth m s) : KindsMatch m := by
  intro root accepted
  obtain ⟨sizes, listed_all⟩ := own root accepted
  rw [(acpiInit_accepted m s root accepted).tables, List.nil_append] at listed_all
  by_cases counts : 0 < counted m root
  · left
    have same := sizes _ (first_entry_of_counted m s root accepted counts) rfl
    have kind : root = ownKind m root := by
      have wide : root.useXsdt = (ownKind m root).useXsdt := width_injective _ _ same
      calc root = ⟨root.useXsdt, root.sdt⟩ := rfl
        _ = ⟨(ownKind m root).useXsdt, root.sdt⟩ := by rw [wide]
    refine ⟨kind, ?_⟩
    by_cases long : 36 ≤ declared m root
    · exact .inl long
    · refine .inr ((mem_firstTables_nil m root).mp ?_)
      rw [← kind, listed_short m root (by omega)] at listed_all
      exact List.eq_nil_iff_forall_not_mem.mpr (fun a member => List.not_mem_nil (listed_all a member))
  · right
    have long : 36 ≤ declared m root := by
      by_contra short
      exact counts (counted_short m root (by omega))
    rw [counted_long m root long] at counts
    have few := (Nat.div_eq_zero_iff.mp (Nat.eq_zero_of_not_pos counts)).resolve_left
      (Nat.pos_iff_ne_zero.mp (width_pos _))
    omega

theorem KindsMatch.readsOwnWidth {m : Mem} (kinds : KindsMatch m) (s : AcpiState) : ReadsOwnWidth m s := by
  intro root accepted
  have sizes (r : Read Part) (member : r ∈ (acpiInit m s).reads) (entry : r.tag = .entry) :=
    entry_size m s root accepted r member entry
  rw [(acpiInit_accepted m s root accepted).tables, List.nil_append]
  rcases kinds root accepted with ⟨kind, long | unusable⟩ | ⟨long, few⟩
  · rw [← kind, firstTables_registered m root long]
    exact ⟨fun r member entry => (sizes r member entry).1, fun a member => (registered_usable member).1⟩
  · rw [← kind, (mem_firstTables_nil m root).mpr unusable]
    exact ⟨fun r member entry => (sizes r member entry).1, fun _ never => (List.not_mem_nil never).elim⟩
  · have nothing : counted m root = 0 := by
      rw [counted_long m root long]
      exact Nat.div_eq_of_lt (by omega)
    rw [(mem_firstTables_nil m root).mpr (fun i below => by omega)]
    refine ⟨?_, fun _ never => (List.not_mem_nil never).elim⟩
    intro r member entry
    have counts := (sizes r member entry).2
    omega

/-- The root is decoded at its own width exactly when the kinds match. -/
theorem root_width_iff (s : AcpiState) : ReadsOwnWidth m s ↔ KindsMatch m :=
  ⟨fun own => own.kindsMatch, fun kinds => kinds.readsOwnWidth s⟩

/-- An RSDT where the RSDP says XSDT. -/
def narrowXsdt : Mem := firmware 0x02#8
  (List.replicate 8 0x00#8 ++ [0x00#8, 0x10#8])
  [(0x1000#64, sigRsdt ++ [0x2C#8]), (0x1024#64, [0x00#8, 0x20#8, 0x00#8, 0x00#8, 0x00#8, 0x30#8])]

theorem narrow_xsdt_fused : ¬∀ (m : Mem) (s : AcpiState), ReadsOwnWidth m s := by
  intro always
  have accepted : acceptedRoot narrowXsdt = some ⟨true, 0x1000#64⟩ := by decide +kernel
  have read : ⟨.entry, 0x1024#64, 8⟩ ∈ (acpiInit narrowXsdt (AcpiState.boot Terminal.zeroed.con)).reads := by
    decide +kernel
  have size := (always narrowXsdt (AcpiState.boot Terminal.zeroed.con) _ accepted).1 _ read rfl
  exact absurd size (by decide +kernel)

end LifeOS.Acpi
