import Mathlib.Init

/-!
Runs of a deterministic step over a list of labels: what holds along the steps,
what holds in every state reached, and the rules that pass from one step to a run.
-/

namespace LifeOS.Library.Runs

variable {ι σ τ : Type*} (step : ι → σ → σ)

def run : List ι → σ → σ
  | [], s => s
  | i :: labels, s => run labels (step i s)

theorem run_append (front back : List ι) (s : σ) :
    run step (front ++ back) s = run step back (run step front s) := by
  induction front generalizing s with
  | nil => rfl
  | cons i front ih => exact ih (step i s)

/-- Each step meets `guard` in the state before it. -/
def Along (guard : ι → σ → Prop) : List ι → σ → Prop
  | [], _ => True
  | i :: labels, s => guard i s ∧ Along guard labels (step i s)

instance Along.decidable (guard : ι → σ → Prop) [∀ i s, Decidable (guard i s)] :
    (labels : List ι) → (s : σ) → Decidable (Along step guard labels s)
  | [], _ => .isTrue trivial
  | i :: labels, s =>
    have := decidable guard labels (step i s)
    inferInstanceAs (Decidable (guard i s ∧ Along step guard labels (step i s)))

theorem along_append (guard : ι → σ → Prop) (front back : List ι) (s : σ) :
    Along step guard (front ++ back) s ↔ Along step guard front s ∧ Along step guard back (run step front s) := by
  induction front generalizing s with
  | nil => exact (true_and _).symm.to_iff
  | cons i front ih => exact (and_congr_right fun _ => ih (step i s)).trans and_assoc.symm

/-- Every state of the run, the first and the last included, meets `good`. -/
def Throughout (good : σ → Prop) : List ι → σ → Prop
  | [], s => good s
  | i :: labels, s => good s ∧ Throughout good labels (step i s)

theorem run_invariant (good : σ → Prop) (preserved : ∀ i s, good s → good (step i s))
    (labels : List ι) (s : σ) (start : good s) : good (run step labels s) := by
  induction labels generalizing s with
  | nil => exact start
  | cons i labels ih => exact ih (step i s) (preserved i s start)

/-- A guarded invariant holds at the end of a run whose steps meet the guard. -/
theorem run_guarded (guard : ι → σ → Prop) (good : σ → Prop)
    (preserved : ∀ i s, good s → guard i s → good (step i s))
    (labels : List ι) (s : σ) (start : good s) (guarded : Along step guard labels s) :
    good (run step labels s) := by
  induction labels generalizing s with
  | nil => exact start
  | cons i labels ih => exact ih (step i s) (preserved i s start guarded.1) guarded.2

theorem throughout_guarded (guard : ι → σ → Prop) (good : σ → Prop)
    (preserved : ∀ i s, good s → guard i s → good (step i s))
    (labels : List ι) (s : σ) (start : good s) (guarded : Along step guard labels s) :
    Throughout step good labels s := by
  induction labels generalizing s with
  | nil => exact start
  | cons i labels ih => exact ⟨start, ih (step i s) (preserved i s start guarded.1) guarded.2⟩

/-- What the guard promises under the invariant holds of every step of such a run. -/
theorem along_guarded (guard promised : ι → σ → Prop) (good : σ → Prop)
    (preserved : ∀ i s, good s → guard i s → good (step i s))
    (kept : ∀ i s, good s → guard i s → promised i s)
    (labels : List ι) (s : σ) (start : good s) (guarded : Along step guard labels s) :
    Along step promised labels s := by
  induction labels generalizing s with
  | nil => trivial
  | cons i labels ih =>
    exact ⟨kept i s start guarded.1, ih (step i s) (preserved i s start guarded.1) guarded.2⟩

theorem throughout_first (good : σ → Prop) (labels : List ι) (s : σ)
    (held : Throughout step good labels s) : good s := by
  cases labels with
  | nil => exact held
  | cons i labels => exact held.1

theorem throughout_last (good : σ → Prop) (labels : List ι) (s : σ)
    (held : Throughout step good labels s) : good (run step labels s) := by
  induction labels generalizing s with
  | nil => exact held
  | cons i labels ih => exact ih (step i s) held.2

theorem throughout_imp (good better : σ → Prop) (weaker : ∀ s, good s → better s)
    (labels : List ι) (s : σ) (held : Throughout step good labels s) :
    Throughout step better labels s := by
  induction labels generalizing s with
  | nil => exact weaker s held
  | cons i labels ih => exact ⟨weaker s held.1, ih (step i s) held.2⟩

theorem throughout_iff_along_mem (guard : ι → σ → Prop) (good : σ → Prop) (labels : List ι)
    (exact_step : ∀ i ∈ labels, ∀ s, good s → (good (step i s) ↔ guard i s))
    (s : σ) (start : good s) :
    Throughout step good labels s ↔ Along step guard labels s := by
  induction labels generalizing s with
  | nil => exact ⟨fun _ => trivial, fun _ => start⟩
  | cons i labels ih =>
    have here := exact_step i (by simp) s start
    have rest := ih (fun j member => exact_step j (List.mem_cons_of_mem i member)) (step i s)
    constructor
    · intro held
      have next := throughout_first step good labels (step i s) held.2
      exact ⟨here.mp next, (rest next).mp held.2⟩
    · intro guarded
      have next := here.mpr guarded.1
      exact ⟨start, (rest next).mpr guarded.2⟩

theorem throughout_iff_along (guard : ι → σ → Prop) (good : σ → Prop)
    (exact_step : ∀ i s, good s → (good (step i s) ↔ guard i s))
    (labels : List ι) (s : σ) (start : good s) :
    Throughout step good labels s ↔ Along step guard labels s :=
  throughout_iff_along_mem step guard good labels (fun i _ => exact_step i) s start

theorem throughout_iff_along_of (invariant : σ → Prop) (guard : ι → σ → Prop) (good : σ → Prop)
    (preserved : ∀ i s, invariant s → invariant (step i s))
    (exact_step : ∀ i s, invariant s → good s → (good (step i s) ↔ guard i s))
    (labels : List ι) (s : σ) (holds : invariant s) (start : good s) :
    Throughout step good labels s ↔ Along step guard labels s := by
  induction labels generalizing s with
  | nil => exact ⟨fun _ => trivial, fun _ => start⟩
  | cons i labels ih =>
    have here := exact_step i s holds start
    have rest := ih (step i s) (preserved i s holds)
    constructor
    · intro held
      have next := throughout_first step good labels (step i s) held.2
      exact ⟨here.mp next, (rest next).mp held.2⟩
    · intro guarded
      have next := here.mpr guarded.1
      exact ⟨start, (rest next).mpr guarded.2⟩

/-- A relation that every pair of equally labelled steps keeps relates whole runs. -/
theorem run_related (other : ι → τ → τ) (related : σ → τ → Prop)
    (preserved : ∀ i s t, related s t → related (step i s) (other i t))
    (labels : List ι) (s : σ) (t : τ) (start : related s t) :
    related (run step labels s) (run other labels t) := by
  induction labels generalizing s t with
  | nil => exact start
  | cons i labels ih => exact ih (step i s) (other i t) (preserved i s t start)

end LifeOS.Library.Runs
