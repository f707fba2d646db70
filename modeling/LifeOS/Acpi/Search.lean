import LifeOS.Acpi.Parser

/-!
The search for the RSDP: one loop bound, the size of the longer structure, serves both
revisions, so the last place where the shorter one fits is never looked at.
-/

namespace LifeOS.Acpi
open LifeOS.Library.Access LifeOS.Library.Memory LifeOS.Library.Strings

inductive Region where
  | ebda
  | bios

def Region.start (m : Mem) : Region → Addr
  | .ebda => (read16 m 0x40e#64).zeroExtend 64 <<< 4
  | .bios => 0xE0000#64

def Region.stop (m : Mem) : Region → Addr
  | .ebda => Region.start m .ebda + 1024#64
  | .bios => 0x100000#64

def step (p : Addr) (k : Nat) : Addr := p + BitVec.ofNat 64 (16 * k)

abbrev Signed (m : Mem) (p : Addr) : Prop := Holds m sigRsdp p

def rsdpSize (m : Mem) (p : Addr) : Nat := if (m (p + 15#64)).toNat < 2 then 20 else 36

/-- An RSDP stands `k` steps behind the start of the region and ends inside. -/
def Matches (m : Mem) (s e : Addr) (k : Nat) : Prop :=
  Signed m (step s k) ∧ s.toNat + 16 * k + rsdpSize m (step s k) ≤ e.toNat

def FindsFirst (m : Mem) (s e result : Addr) : Prop :=
  (∃ k, result = step s k ∧ result ≠ 0#64 ∧ Matches m s e k ∧ ∀ j < k, ¬Matches m s e j) ∨
    result = 0#64 ∧ ∀ k, ¬Matches m s e k

structure SearchExact (m : Mem) (s e : Addr) : Prop where
  first : FindsFirst m s e (scanRsdp m s e).value
  inside : ∀ r ∈ (scanRsdp m s e).reads, r.Within s.toNat (e.toNat - s.toNat)

/-- No signature at the address zero, and no RSDP of a revision below 2 in the last 32 bytes
unless a signature stands before it. -/
structure Visible (m : Mem) (s e : Addr) : Prop where
  nonzero : Signed m s → s ≠ 0#64
  last : (∀ k, s.toNat + 16 * k + 36 ≤ e.toNat → ¬Signed m (step s k)) →
    Signed m (e - 32#64) → 2 ≤ (m (e - 32#64 + 15#64)).toNat

theorem step_zero (p : Addr) : step p 0 = p := by
  unfold step
  exact BitVec.add_zero p

theorem step_succ (p : Addr) (k : Nat) : step p (k + 1) = step (p + 16#64) k := by
  unfold step
  apply BitVec.eq_of_toNat_eq
  simp only [BitVec.toNat_add, BitVec.toNat_ofNat]
  omega

theorem step_toNat (p : Addr) (k : Nat) (fits : p.toNat + 16 * k < 2 ^ 64) :
    (step p k).toNat = p.toNat + 16 * k := by
  unfold step
  rw [BitVec.toNat_add, BitVec.toNat_ofNat]
  omega

theorem scanFrom_value (m : Mem) (e : Addr) (fuel : Nat) (p : Addr) (below : e.toNat < 2 ^ 63)
    (enough : e.toNat < p.toNat + 16 * fuel + 36) :
    (∃ k, (scanFrom m e fuel p).value = step p k ∧ p.toNat + 16 * k + 36 ≤ e.toNat ∧
        Signed m (step p k) ∧ ∀ j < k, ¬Signed m (step p j)) ∨
      (scanFrom m e fuel p).value = 0#64 ∧
        ∀ k, p.toNat + 16 * k + 36 ≤ e.toNat → ¬Signed m (step p k) := by
  induction fuel generalizing p with
  | zero => exact .inr ⟨rfl, fun k inside => by omega⟩
  | succ fuel ih =>
    rw [scanFrom]
    by_cases room : p.toNat + 36 ≤ e.toNat
    · rw [if_pos room, value_bind, compares_value]
      by_cases found : Signed m p
      · rw [if_pos (decide_eq_true found)]
        exact .inl ⟨0, (step_zero p).symm, room, (step_zero p).symm ▸ found,
          fun _ never => (Nat.not_lt_zero _ never).elim⟩
      · rw [if_neg (fun same => found (of_decide_eq_true same))]
        have next : (p + 16#64).toNat = p.toNat + 16 := by bv_omega
        rcases ih (p + 16#64) (by omega) with ⟨k, value, inside, signed, before⟩ | ⟨value, never⟩
        · refine .inl ⟨k + 1, ?_, by omega, ?_, ?_⟩
          · rw [step_succ]
            exact value
          · rw [step_succ]
            exact signed
          · intro j earlier
            cases j with
            | zero => exact (step_zero p).symm ▸ found
            | succ j =>
              rw [step_succ]
              exact before j (by omega)
        · refine .inr ⟨value, ?_⟩
          intro k inside
          cases k with
          | zero => exact (step_zero p).symm ▸ found
          | succ k =>
            rw [step_succ]
            exact never k (by omega)
    · rw [if_neg room]
      exact .inr ⟨rfl, fun k inside => by omega⟩

theorem scanFrom_reads (m : Mem) (e : Addr) (fuel : Nat) (p : Addr) (below : e.toNat < 2 ^ 63) :
    ∀ r ∈ (scanFrom m e fuel p).reads, p.toNat ≤ r.start.toNat ∧ r.start.toNat + r.size ≤ e.toNat := by
  induction fuel generalizing p with
  | zero => exact fun _ never => (List.not_mem_nil never).elim
  | succ fuel ih =>
    intro r member
    rw [scanFrom] at member
    by_cases room : p.toNat + 36 ≤ e.toNat
    · rw [if_pos room, reads_bind, List.mem_append] at member
      rcases member with compared | later
      · have eight : sigRsdp.length = 8 := rfl
        obtain ⟨low, high⟩ := compares_reads m Part.rsdp sigRsdp p (by omega) r compared
        exact ⟨low, by omega⟩
      · split at later
        · exact (List.not_mem_nil later).elim
        · have next : (p + 16#64).toNat = p.toNat + 16 := by bv_omega
          obtain ⟨low, high⟩ := ih (p + 16#64) r later
          exact ⟨by omega, high⟩
    · rw [if_neg room] at member
      exact (List.not_mem_nil member).elim

theorem rsdpSize_cases (m : Mem) (p : Addr) :
    rsdpSize m p = 20 ∧ (m (p + 15#64)).toNat < 2 ∨ rsdpSize m p = 36 ∧ 2 ≤ (m (p + 15#64)).toNat := by
  unfold rsdpSize
  by_cases old : (m (p + 15#64)).toNat < 2
  · exact .inl ⟨if_pos old, old⟩
  · exact .inr ⟨if_neg old, by omega⟩

theorem matches_of_room (m : Mem) (s e : Addr) (k : Nat) (room : s.toNat + 16 * k + 36 ≤ e.toNat)
    (signed : Signed m (step s k)) : Matches m s e k := by
  refine ⟨signed, ?_⟩
  rcases rsdpSize_cases m (step s k) with ⟨size, _⟩ | ⟨size, _⟩ <;> omega

/-- In a region of whole paragraphs, a match without room for the longer structure is a
shorter one in the last 32 bytes. -/
theorem matches_without_room (m : Mem) (s e : Addr) (k : Nat) (below : e.toNat < 2 ^ 63)
    (whole : (e.toNat - s.toNat) % 16 = 0) (tight : ¬s.toNat + 16 * k + 36 ≤ e.toNat)
    (found : Matches m s e k) :
    Signed m (e - 32#64) ∧ (m (e - 32#64 + 15#64)).toNat < 2 := by
  obtain ⟨signed, fits⟩ := found
  rcases rsdpSize_cases m (step s k) with ⟨size, old⟩ | ⟨size, _⟩
  · have place : step s k = e - 32#64 := by
      have at_k := step_toNat s k (by omega)
      apply BitVec.eq_of_toNat_eq
      bv_omega
    rw [place] at signed old
    exact ⟨signed, old⟩
  · omega

theorem matches_last (m : Mem) (s e : Addr) (below : e.toNat < 2 ^ 63)
    (whole : (e.toNat - s.toNat) % 16 = 0) (long : s.toNat + 48 ≤ e.toNat)
    (signed : Signed m (e - 32#64)) (old : (m (e - 32#64 + 15#64)).toNat < 2) :
    Matches m s e ((e.toNat - s.toNat) / 16 - 2) := by
  have place : step s ((e.toNat - s.toNat) / 16 - 2) = e - 32#64 := by
    have at_last := step_toNat s ((e.toNat - s.toNat) / 16 - 2) (by omega)
    apply BitVec.eq_of_toNat_eq
    bv_omega
  unfold Matches
  rw [place]
  refine ⟨signed, ?_⟩
  rcases rsdpSize_cases m (e - 32#64) with ⟨size, _⟩ | ⟨_, recent⟩ <;> omega

theorem searchExact_iff (m : Mem) (s e : Addr) (below : e.toNat < 2 ^ 63)
    (whole : (e.toNat - s.toNat) % 16 = 0) (long : s.toNat + 48 ≤ e.toNat) :
    SearchExact m s e ↔ Visible m s e := by
  have inside : ∀ r ∈ (scanRsdp m s e).reads, r.Within s.toNat (e.toNat - s.toNat) := by
    intro r member
    obtain ⟨low, high⟩ := scanFrom_reads m e _ s below r member
    exact ⟨low, by omega⟩
  rcases scanFrom_value m e (e.toNat - s.toNat) s below (by omega) with
    ⟨k, value, room, signed, before⟩ | ⟨value, never⟩
  · constructor
    · intro ⟨first, _⟩
      refine ⟨?_, fun none_signed => (none_signed k room signed).elim⟩
      intro at_start zero
      have here : k = 0 := by
        by_contra later
        exact before 0 (by omega) ((step_zero s).symm ▸ at_start)
      rw [here] at value
      have null : (scanRsdp m s e).value = 0#64 := by
        calc
          _ = step s 0 := value
          _ = s := step_zero s
          _ = 0#64 := zero
      rcases first with ⟨_, _, nonzero, _⟩ | ⟨_, nothing⟩
      · exact nonzero null
      · exact nothing k (matches_of_room m s e k room signed)
    · intro visible
      refine ⟨.inl ⟨k, value, ?_, matches_of_room m s e k room signed, ?_⟩, inside⟩
      · intro null
        have zero : (step s k).toNat = 0 := congrArg BitVec.toNat (value.symm.trans null)
        rw [step_toNat s k (by omega)] at zero
        have start : s = 0#64 := BitVec.eq_of_toNat_eq (show s.toNat = 0 by omega)
        have here : k = 0 := by omega
        rw [here, step_zero] at signed
        exact visible.nonzero signed start
      · exact fun j earlier found => before j earlier found.1
  · constructor
    · intro ⟨first, _⟩
      have nothing : ∀ k, ¬Matches m s e k := by
        rcases first with ⟨_, _, nonzero, _⟩ | ⟨_, nothing⟩
        · exact (nonzero value).elim
        · exact nothing
      refine ⟨fun at_start => (never 0 (by omega) ((step_zero s).symm ▸ at_start)).elim, ?_⟩
      intro _ signed
      by_contra old
      exact nothing _ (matches_last m s e below whole long signed (by omega))
    · intro visible
      refine ⟨.inr ⟨value, ?_⟩, inside⟩
      intro k found
      by_cases room : s.toNat + 16 * k + 36 ≤ e.toNat
      · exact never k room found.1
      · obtain ⟨signed, old⟩ := matches_without_room m s e k below whole room found
        have recent := visible.last never signed
        omega

/-- In both regions the search is exact where no signature stands at the address zero and no
old RSDP in the last 32 bytes. -/
theorem rsdp_search_exact_iff (m : Mem) (region : Region) :
    SearchExact m (region.start m) (region.stop m) ↔ Visible m (region.start m) (region.stop m) := by
  have bounds : (region.stop m).toNat < 2 ^ 63 ∧
      ((region.stop m).toNat - (region.start m).toNat) % 16 = 0 ∧
      (region.start m).toNat + 48 ≤ (region.stop m).toNat := by
    cases region with
    | ebda =>
      have start : (Region.start m .ebda).toNat < 2 ^ 20 := by
        change (((read16 m 0x40e#64).zeroExtend 64) <<< 4).toNat < 2 ^ 20
        have short := (read16 m 0x40e#64).isLt
        rw [BitVec.toNat_shiftLeft, BitVec.toNat_setWidth, Nat.shiftLeft_eq]
        omega
      have stop : (Region.stop m .ebda).toNat = (Region.start m .ebda).toNat + 1024 := by
        unfold Region.stop
        bv_omega
      omega
    | bios =>
      change 0x100000 < 2 ^ 63 ∧ (0x100000 - 0xE0000) % 16 = 0 ∧ 0xE0000 + 48 ≤ 0x100000
      decide
  exact searchExact_iff m _ _ bounds.1 bounds.2.1 bounds.2.2

/-- An EBDA at 0x90000 with an ACPI 1.0 pointer in its last 32 bytes. -/
def lateRsdp : Mem := holding [(0x40E#64, [0x00#8, 0x90#8]), (0x903E0#64, sigRsdp)]

theorem late_rsdp_missed : ¬∀ (m : Mem) (region : Region), SearchExact m (region.start m) (region.stop m) := by
  intro always
  obtain ⟨nothing, stands⟩ : (scanRsdp lateRsdp 0x90000#64 0x90400#64).value = 0#64 ∧
      Signed lateRsdp 0x903E0#64 ∧ rsdpSize lateRsdp 0x903E0#64 = 20 := by decide +kernel
  have place : Region.start lateRsdp .ebda = 0x90000#64 ∧ Region.stop lateRsdp .ebda = 0x90400#64 := by
    decide +kernel
  have first := (always lateRsdp .ebda).first
  rw [place.1, place.2] at first
  rcases first with ⟨_, _, nonzero, _⟩ | ⟨_, never⟩
  · exact nonzero nothing
  · have last : step 0x90000#64 62 = 0x903E0#64 := by decide
    apply never 62
    unfold Matches
    rw [last, stands.2]
    exact ⟨stands.1, by decide⟩

end LifeOS.Acpi
