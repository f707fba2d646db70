import Mathlib.Data.List.FinRange
import Mathlib.Logic.Function.Basic

/-!
Counted loops of a C program as functions of the loop body, with the invariant
rules that replace unrolling. The total loops `forFin` and `forRange` model
bodies that cannot fail; `forUp` and `forDown` model bodies that may access an
array out of bounds, where `none` is the faulting access.
-/

namespace LifeOS.Library.Loops

variable {σ : Type*}

/-- `for (i = 0; i < n; ++i)`, the body seeing the bound of its index. -/
def forFin : (n : Nat) → (Fin n → σ → σ) → σ → σ
  | 0, _, s => s
  | n + 1, body, s => body (Fin.last n) (forFin n (fun i => body i.castSucc) s)

/-- `for (i = 0; i < n; ++i)` with a plain index. -/
def forRange (n : Nat) (body : Nat → σ → σ) (s : σ) : σ :=
  forFin n (fun i => body i.val) s

@[simp]
theorem forFin_zero (body : Fin 0 → σ → σ) (s : σ) : forFin 0 body s = s := rfl

theorem forFin_succ (n : Nat) (body : Fin (n + 1) → σ → σ) (s : σ) :
    forFin (n + 1) body s = body (Fin.last n) (forFin n (fun i => body i.castSucc) s) := rfl

@[simp]
theorem forRange_zero (body : Nat → σ → σ) (s : σ) : forRange 0 body s = s := rfl

theorem forRange_succ (n : Nat) (body : Nat → σ → σ) (s : σ) :
    forRange (n + 1) body s = body n (forRange n body s) := rfl

theorem forFin_invariant (n : Nat) (body : Fin n → σ → σ) (motive : Nat → σ → Prop) (s : σ)
    (start : motive 0 s)
    (step : ∀ (i : Fin n) (t : σ), motive i.val t → motive (i.val + 1) (body i t)) :
    motive n (forFin n body s) := by
  induction n with
  | zero => exact start
  | succ n ih =>
    have before : motive n (forFin n (fun i => body i.castSucc) s) :=
      ih _ (fun i t held => step i.castSucc t held)
    exact step (Fin.last n) _ before

theorem forRange_invariant (n : Nat) (body : Nat → σ → σ) (motive : Nat → σ → Prop) (s : σ)
    (start : motive 0 s)
    (step : ∀ (i : Nat) (t : σ), i < n → motive i t → motive (i + 1) (body i t)) :
    motive n (forRange n body s) :=
  forFin_invariant n _ motive s start (fun i t held => step i.val t i.isLt held)

theorem forFin_preserves (n : Nat) (body : Fin n → σ → σ) (motive : σ → Prop) (s : σ)
    (start : motive s) (step : ∀ (i : Fin n) (t : σ), motive t → motive (body i t)) :
    motive (forFin n body s) :=
  forFin_invariant n body (fun _ => motive) s start step

theorem forFin_map {τ : Type*} (f : σ → τ) (n : Nat) (body : Fin n → σ → σ) (image : Fin n → τ → τ)
    (s : σ) (start : τ) (begins : f s = start) (commutes : ∀ i s, f (body i s) = image i (f s)) :
    f (forFin n body s) = forFin n image start := by
  induction n with
  | zero => exact begins
  | succ n ih =>
    rw [forFin_succ, forFin_succ, commutes, ih _ _ (fun i s => commutes i.castSucc s)]

theorem forFin_related {τ : Type*} (n : Nat) (body : Fin n → σ → σ) (other : Fin n → τ → τ)
    (related : Nat → σ → τ → Prop) (s : σ) (t : τ) (start : related 0 s t)
    (step : ∀ (i : Fin n) (s : σ) (t : τ),
      related i.val s t → related (i.val + 1) (body i s) (other i t)) :
    related n (forFin n body s) (forFin n other t) := by
  induction n with
  | zero => exact start
  | succ n ih => exact step (Fin.last n) _ _ (ih _ _ (fun i s t held => step i.castSucc s t held))

theorem forFin_update_at {ι β : Type*} [DecidableEq ι] {n : Nat} (key : Fin n → ι) (val : Fin n → β)
    (a : ι → β) (separate : Function.Injective key) (i : Fin n) :
    forFin n (fun i a => Function.update a (key i) (val i)) a (key i) = val i := by
  have filled := forFin_invariant n (fun i a => Function.update a (key i) (val i))
    (fun k b => ∀ j : Fin n, j.val < k → b (key j) = val j) a
    (fun j impossible => absurd impossible (Nat.not_lt_zero _))
    (by
      intro i b held j inside
      by_cases same : j = i
      · rw [same, Function.update_self]
      · rw [Function.update_of_ne (fun equal => same (separate equal))]
        have apart : j.val ≠ i.val := fun equal => same (Fin.ext equal)
        exact held j (by omega))
  exact filled i i.isLt

theorem forFin_update_off {ι β : Type*} [DecidableEq ι] {n : Nat} (key : Fin n → ι) (val : Fin n → β)
    (a : ι → β) (j : ι) (outside : ∀ i, key i ≠ j) :
    forFin n (fun i a => Function.update a (key i) (val i)) a j = a j := by
  apply forFin_preserves n _ (fun b => b j = a j) a rfl
  intro i b held
  rw [Function.update_of_ne (outside i).symm, held]

structure Part (σ β : Type*) where
  get : σ → β
  put : β → σ → σ
  get_put : ∀ b s, get (put b s) = b
  put_put : ∀ a b s, put a (put b s) = put a s
  put_get : ∀ s, put (get s) s = s

/-- A loop that stores one entry of a component at each index replaces the component,
when what it stores does not depend on it. -/
theorem forFin_fill {β : Type*} {n : Nat} (part : Part σ (Fin n → β)) (val : σ → Fin n → β)
    (stable : ∀ b s, val (part.put b s) = val s) (s : σ) :
    forFin n (fun i s => part.put (Function.update (part.get s) i (val s i)) s) s =
      part.put (val s) s := by
  have filled := forFin_invariant n
    (fun i s => part.put (Function.update (part.get s) i (val s i)) s)
    (fun k t => t = part.put (fun j => if j.val < k then val s j else part.get s j) s) s
    (by simp [part.put_get])
    (by
      intro i t shape
      rw [shape, part.get_put, part.put_put, stable]
      congr 1
      funext j
      by_cases same : j = i
      · rw [same, Function.update_self, if_pos (by omega)]
      · rw [Function.update_of_ne same]
        have apart : j.val ≠ i.val := fun equal => same (Fin.ext equal)
        simp only [show j.val < i.val + 1 ↔ j.val < i.val by omega])
  simpa using filled

/-- `for (i = lo; i < lo + n; ++i)` with a body that may fault. -/
def forUp : (lo n : Nat) → (Nat → σ → Option σ) → σ → Option σ
  | _, 0, _, s => some s
  | lo, n + 1, body, s => (body lo s).bind (forUp (lo + 1) n body)

/-- `for (i = lo + n; i > lo; --i)` with a body that may fault. -/
def forDown : (lo n : Nat) → (Nat → σ → Option σ) → σ → Option σ
  | _, 0, _, s => some s
  | lo, n + 1, body, s => (body (lo + n + 1) s).bind (forDown lo n body)

theorem forUp_total (lo n : Nat) (body : Nat → σ → Option σ) (motive : Nat → σ → Prop) (s : σ)
    (start : motive lo s)
    (step : ∀ i t, lo ≤ i → i < lo + n → motive i t → ∃ u, body i t = some u ∧ motive (i + 1) u) :
    ∃ u, forUp lo n body s = some u ∧ motive (lo + n) u := by
  induction n generalizing lo s with
  | zero => exact ⟨s, rfl, start⟩
  | succ n ih =>
    obtain ⟨mid, ran, held⟩ := step lo s (Nat.le_refl lo) (by omega) start
    obtain ⟨u, rest, final⟩ := ih (lo + 1) mid held
      (fun i t low high => step i t (by omega) (by omega))
    refine ⟨u, ?_, ?_⟩
    · simp only [forUp, ran, Option.bind_some, rest]
    · have index : lo + 1 + n = lo + (n + 1) := by omega
      exact index ▸ final

theorem forUp_eq (n : Nat) (body : Nat → σ → Option σ) (image : Nat → σ → σ) (s : σ)
    (agree : ∀ i t, i < n → body i t = some (image i t)) : forUp 0 n body s = some (forRange n image s) := by
  obtain ⟨u, ran, final⟩ := forUp_total 0 n body (fun k t => t = forRange k image s) s (forRange_zero image s).symm
    (by
      intro i t _ inside held
      exact ⟨image i t, agree i t (by omega), by rw [held, forRange_succ]⟩)
  rw [ran, final, Nat.zero_add]

/-- Total correctness of a descending loop; the invariant names the index still to come. -/
theorem forDown_total (lo n : Nat) (body : Nat → σ → Option σ) (motive : Nat → σ → Prop) (s : σ)
    (start : motive (lo + n) s)
    (step : ∀ i t, lo ≤ i → i < lo + n → motive (i + 1) t → ∃ u, body (i + 1) t = some u ∧ motive i u) :
    ∃ u, forDown lo n body s = some u ∧ motive lo u := by
  induction n generalizing s with
  | zero => exact ⟨s, rfl, start⟩
  | succ n ih =>
    obtain ⟨mid, ran, held⟩ := step (lo + n) s (by omega) (by omega) start
    obtain ⟨u, rest, final⟩ := ih mid held (fun i t low high => step i t low (by omega))
    exact ⟨u, by simp only [forDown, ran, Option.bind_some, rest], final⟩

/-- Each result of the one operation has a related result of the other. -/
def Follows {τ : Type*} (related : σ → τ → Prop) (f : σ → Option σ) (g : τ → Option τ) : Prop :=
  ∀ s t s', related s t → f s = some s' → ∃ t', g t = some t' ∧ related s' t'

theorem Follows.nothing {τ : Type*} {related : σ → τ → Prop} : Follows related some some := by
  intro s t s' start same
  exact ⟨t, rfl, Option.some.inj same ▸ start⟩

theorem Follows.andThen {τ : Type*} {related : σ → τ → Prop} {f f' : σ → Option σ} {g g' : τ → Option τ}
    (first : Follows related f g) (second : Follows related f' g') :
    Follows related (fun s => (f s).bind f') (fun t => (g t).bind g') := by
  intro s t s' start ran
  obtain ⟨mid, early, late⟩ := Option.bind_eq_some_iff.mp ran
  obtain ⟨t', followed, between⟩ := first s t mid start early
  obtain ⟨last, ended, final⟩ := second mid t' s' between late
  refine ⟨last, ?_, final⟩
  change (g t).bind g' = some last
  rw [followed, Option.bind_some, ended]

theorem Follows.given {τ α : Type*} {related : σ → τ → Prop} (v : Option α) {f : α → σ → Option σ}
    {g : α → τ → Option τ} (each : ∀ a, Follows related (f a) (g a)) :
    Follows related (fun s => v.bind fun a => f a s) (fun t => v.bind fun a => g a t) := by
  cases v with
  | none => exact fun s t s' _ never => (Option.some_ne_none s' never.symm).elim
  | some a => exact each a

theorem forUp_follows {τ : Type*} {related : σ → τ → Prop} (lo n : Nat) (body : Nat → σ → Option σ)
    (other : Nat → τ → Option τ) (each : ∀ i, Follows related (body i) (other i)) :
    Follows related (forUp lo n body) (forUp lo n other) := by
  induction n generalizing lo with
  | zero => exact Follows.nothing
  | succ n ih => exact (each lo).andThen (ih (lo + 1))

theorem items_next {ι : Type*} {n : Nat} (items : Fin n → List ι) (before : List ι) (i : Nat) (inside : i < n) :
    before ++ ((List.finRange n).take (i + 1)).flatMap items =
      before ++ ((List.finRange n).take i).flatMap items ++ items ⟨i, inside⟩ := by
  have next : (List.finRange n).take (i + 1) = (List.finRange n).take i ++ [⟨i, inside⟩] := by
    rw [List.take_add_one]
    simp [inside]
  rw [next, List.flatMap_append, ← List.append_assoc, List.flatMap_singleton]

/-- A loop whose body handles a list of items at each index handles the lists one behind
the other; `held` relates the items handled so far to the state. -/
theorem forUp_visits {ι : Type*} {n : Nat} (body : Nat → σ → Option σ) (items : Fin n → List ι)
    (held : List ι → σ → Prop) (before : List ι) (s : σ) (start : held before s)
    (step : ∀ (i : Fin n) handled t, held handled t → ∃ u, body i.val t = some u ∧ held (handled ++ items i) u) :
    ∃ u, forUp 0 n body s = some u ∧ held (before ++ (List.finRange n).flatMap items) u := by
  obtain ⟨u, ran, final⟩ := forUp_total 0 n body
    (fun k t => held (before ++ ((List.finRange n).take k).flatMap items) t) s
    (by simpa using start)
    (by
      intro i t _ inside handled
      rw [Nat.zero_add] at inside
      obtain ⟨u, ran, later⟩ := step ⟨i, inside⟩ _ t handled
      exact ⟨u, ran, items_next items before i inside ▸ later⟩)
  refine ⟨u, ran, ?_⟩
  rw [Nat.zero_add, List.take_of_length_le (by simp)] at final
  exact final

theorem forRange_visits {ι : Type*} {n : Nat} (body : Nat → σ → σ) (items : Fin n → List ι)
    (held : List ι → σ → Prop) (before : List ι) (s : σ) (start : held before s)
    (step : ∀ (i : Fin n) handled t, held handled t → held (handled ++ items i) (body i.val t)) :
    held (before ++ (List.finRange n).flatMap items) (forRange n body s) := by
  have visited := forRange_invariant n body
    (fun k t => held (before ++ ((List.finRange n).take k).flatMap items) t) s
    (by simpa using start)
    (by
      intro i t inside handled
      exact items_next items before i inside ▸ step ⟨i, inside⟩ _ t handled)
  rw [List.take_of_length_le (by simp)] at visited
  exact visited

-- A loop is reasoned about by its rules; unrolled bounds swamp a definitional check.
attribute [irreducible] forFin

end LifeOS.Library.Loops
