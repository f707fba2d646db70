import LifeOS.Library.Strings

/-!
`strcmp` from `lib/string.c`. Both arguments are the bytes from the pointer to the
end of the object, so a comparison that runs past an object has no result.
-/

namespace LifeOS.Strcmp
open LifeOS.Library.Strings

/-- The loop compares plain chars; the difference is taken on unsigned bytes. -/
def strcmp : List Byte → List Byte → Option Int
  | a :: s1, b :: s2 =>
      if a ≠ 0#8 ∧ a = b then strcmp s1 s2 else some ((a.toNat : Int) - b.toNat)
  | _, _ => none

/-- The first difference of two texts; the end of a text counts as zero. -/
def difference : List Byte → List Byte → Int
  | [], [] => 0
  | a :: _, [] => a.toNat
  | [], b :: _ => -b.toNat
  | a :: s, b :: t => if a = b then difference s t else (a.toNat : Int) - b.toNat

theorem strcmp_eq (s1 s2 : List Byte) (first : 0#8 ∈ s1) (second : 0#8 ∈ s2) :
    strcmp s1 s2 = some (difference (text s1) (text s2)) := by
  induction s1 generalizing s2 with
  | nil => exact absurd first List.not_mem_nil
  | cons a s1 ih =>
    cases s2 with
    | nil => exact absurd second List.not_mem_nil
    | cons b s2 =>
      by_cases more : a ≠ 0#8 ∧ a = b
      · obtain ⟨nonzero, rfl⟩ := more
        have rest := ih s2 ((List.mem_cons.mp first).resolve_left (Ne.symm nonzero))
          ((List.mem_cons.mp second).resolve_left (Ne.symm nonzero))
        rw [strcmp, if_pos ⟨nonzero, rfl⟩, rest, text_cons, text_cons, if_neg nonzero, if_neg nonzero,
          difference, if_pos rfl]
      · rw [strcmp, if_neg more, text_cons, text_cons]
        by_cases ended : a = 0#8
        · by_cases both : b = 0#8
          · simp [ended, both, difference]
          · simp [ended, both, difference]
        · have apart : a ≠ b := fun same => more ⟨ended, same⟩
          by_cases other : b = 0#8
          · simp [ended, other, difference]
          · simp [ended, other, apart, difference]

theorem difference_swap (s t : List Byte) : difference t s = -difference s t := by
  induction s generalizing t with
  | nil =>
    cases t with
    | nil => rfl
    | cons b t => exact (Int.neg_neg _).symm
  | cons a s ih =>
    cases t with
    | nil => rfl
    | cons b t =>
      unfold difference
      by_cases same : a = b
      · rw [if_pos same, if_pos same.symm, ih]
      · rw [if_neg same, if_neg (Ne.symm same), Int.neg_sub]

theorem toNat_pos_of_mem {a : Byte} {s : List Byte} (plain : 0#8 ∉ a :: s) : 0 < a.toNat := by
  apply Nat.pos_of_ne_zero
  intro zero
  have null : a = 0#8 := BitVec.eq_of_toNat_eq zero
  exact plain (null ▸ List.mem_cons_self)

theorem difference_eq_zero_iff (s t : List Byte) (first : 0#8 ∉ s) (second : 0#8 ∉ t) :
    difference s t = 0 ↔ s = t := by
  induction s generalizing t with
  | nil =>
    cases t with
    | nil => exact ⟨fun _ => rfl, fun _ => rfl⟩
    | cons b t =>
      have positive := toNat_pos_of_mem second
      simp only [difference, reduceCtorEq, iff_false]
      omega
  | cons a s ih =>
    cases t with
    | nil =>
      have positive := toNat_pos_of_mem first
      simp only [difference, reduceCtorEq, iff_false]
      omega
    | cons b t =>
      rw [List.cons.injEq, difference]
      by_cases same : a = b
      · rw [if_pos same, ih t (fun member => first (List.mem_cons_of_mem a member))
          (fun member => second (List.mem_cons_of_mem b member))]
        exact ⟨fun rest => ⟨same, rest⟩, fun both => both.2⟩
      · have apart : a.toNat ≠ b.toNat := fun equal => same (BitVec.eq_of_toNat_eq equal)
        rw [if_neg same]
        exact ⟨fun zero => absurd zero (by omega), fun both => absurd both.1 same⟩

/-- A negative difference is the lexicographic order of the unsigned bytes. -/
theorem difference_neg_iff (s t : List Byte) (second : 0#8 ∉ t) : difference s t < 0 ↔ s < t := by
  induction s generalizing t with
  | nil =>
    cases t with
    | nil => simp [difference]
    | cons b t =>
      have positive := toNat_pos_of_mem second
      simp only [difference, List.nil_lt_cons, iff_true]
      omega
  | cons a s ih =>
    cases t with
    | nil =>
      simp only [difference, List.not_lt_nil, iff_false]
      omega
    | cons b t =>
      rw [List.cons_lt_cons_iff, difference, BitVec.lt_def]
      by_cases same : a = b
      · rw [if_pos same, ih t (fun member => second (List.mem_cons_of_mem b member)), same]
        exact ⟨fun less => Or.inr ⟨rfl, less⟩,
          fun either => (either.resolve_left (Nat.lt_irrefl _)).2⟩
      · rw [if_neg same]
        exact ⟨fun less => Or.inl (by omega), fun either => by
          have less := either.resolve_right (fun both => same both.1)
          omega⟩

/-- On terminated strings the comparison stays inside both and is zero exactly on equal text. -/
theorem strcmp_terminated (s1 s2 : List Byte) (first : 0#8 ∈ s1) (second : 0#8 ∈ s2) :
    ∃ v, strcmp s1 s2 = some v ∧ (v = 0 ↔ text s1 = text s2) :=
  ⟨_, strcmp_eq s1 s2 first second,
    difference_eq_zero_iff _ _ (zero_notMem_text s1) (zero_notMem_text s2)⟩

/-- What the comparison says of two strings: it ends inside the objects, also where these end
with the terminators, and its sign is the order of the unsigned bytes. -/
structure Compares (s t : CString) (v : Int) : Prop where
  result : strcmp s.object t.object = some v
  bounded : strcmp (s.text ++ [0#8]) (t.text ++ [0#8]) = some v
  equal : v = 0 ↔ s.text = t.text
  less : v < 0 ↔ s.text < t.text
  greater : 0 < v ↔ t.text < s.text

theorem strcmp_compares (s t : CString) : Compares s t (difference s.text t.text) := by
  have terminated (u : CString) : text (u.text ++ [0#8]) = u.text :=
    text_append_zero u.text [] u.zero_notMem_text
  refine ⟨strcmp_eq _ _ s.terminated t.terminated, ?_,
    difference_eq_zero_iff _ _ s.zero_notMem_text t.zero_notMem_text,
    difference_neg_iff _ _ t.zero_notMem_text, ?_⟩
  · rw [strcmp_eq _ _ (by simp) (by simp), terminated, terminated]
  · rw [← difference_neg_iff _ _ s.zero_notMem_text, difference_swap s.text t.text]
    omega

/-- `strcmp` orders the strings by their unsigned bytes, and its sign is antisymmetric and
transitive. -/
theorem strcmp_orders :
    (∀ s t : CString, ∃ v, Compares s t v) ∧
      (∀ s t : CString, ∀ v, strcmp s.object t.object = some v → strcmp t.object s.object = some (-v)) ∧
      ∀ s t u : CString, ∀ v w, strcmp s.object t.object = some v → strcmp t.object u.object = some w →
        v ≤ 0 → w ≤ 0 → ∃ x, strcmp s.object u.object = some x ∧ x ≤ 0 ∧ (v < 0 ∨ w < 0 → x < 0) := by
  refine ⟨fun s t => ⟨_, strcmp_compares s t⟩, ?_, ?_⟩
  · intro s t v first
    have same := Option.some.inj ((strcmp_compares s t).result.symm.trans first)
    rw [(strcmp_compares t s).result, difference_swap s.text t.text, same]
  · intro s t u v w first second upper lower
    have firstIs := Option.some.inj ((strcmp_compares s t).result.symm.trans first)
    have secondIs := Option.some.inj ((strcmp_compares t u).result.symm.trans second)
    have st := strcmp_compares s t
    have tu := strcmp_compares t u
    have su := strcmp_compares s u
    rw [firstIs] at st
    rw [secondIs] at tu
    have before : s.text ≤ t.text := fun above => by
      have positive := st.greater.mpr above
      omega
    have behind : t.text ≤ u.text := fun above => by
      have positive := tu.greater.mpr above
      omega
    have forward : s.text ≤ u.text := List.le_trans before behind
    refine ⟨_, su.result, Int.not_lt.mp (fun above => forward (su.greater.mp above)), ?_⟩
    intro strict
    apply su.less.mpr
    by_contra back
    have whole : u.text ≤ s.text := back
    rcases strict with below | below
    · exact List.le_trans behind whole (st.less.mp below)
    · exact List.le_trans whole before (tu.less.mp below)

end LifeOS.Strcmp
