import Mathlib.Data.List.Basic
import Mathlib.Logic.Function.Basic

/-!
Singly linked lists over a partial successor function: the list that the links spell from
a pointer on, and what an appended entry does to it.
-/

namespace LifeOS.Library.Links

variable {α : Type*}

/-- The links from `p` on lead through the entries and end. -/
def Spells (next : α → Option α) : Option α → List α → Prop
  | p, [] => p = none
  | p, a :: rest => p = some a ∧ Spells next (next a) rest

def Linked (next : α → Option α) (l : List α) : Prop :=
  ∀ front a back, l = front ++ a :: back → next a = back.head?

def Path (next : α → Option α) (l : List α) : Prop :=
  ∀ front a b back, l = front ++ a :: b :: back → next a = some b

theorem linked_nil (next : α → Option α) : Linked next [] := by
  intro front a back shape
  simp at shape

theorem Linked.suffix {next : α → Option α} {front back : List α} (linked : Linked next (front ++ back)) :
    Linked next back := by
  intro between a behind shape
  apply linked (front ++ between) a behind
  rw [shape, List.append_assoc]

theorem Linked.path {next : α → Option α} {l back : List α} (linked : Linked next (l ++ back)) :
    Path next l := by
  intro before a b behind shape
  exact linked before a (b :: behind ++ back) (by rw [shape, List.append_assoc, List.cons_append])

theorem Path.congr {next other : α → Option α} {front : List α} {d : α} (path : Path next (front ++ [d]))
    (same : ∀ a ∈ front, other a = next a) : Path other (front ++ [d]) := by
  intro before a b behind shape
  have early : a ∈ front := by
    obtain ⟨body, final, regrouped⟩ :=
      (List.eq_nil_or_concat (b :: behind)).resolve_left (List.cons_ne_nil b behind)
    rw [regrouped, List.concat_eq_append, ← List.cons_append, ← List.append_assoc] at shape
    obtain ⟨fronts, _⟩ := List.append_inj' shape rfl
    rw [fronts]
    simp
  rw [same a early]
  exact path before a b behind shape

theorem Linked.spells {next : α → Option α} (l : List α) (linked : Linked next l) :
    Spells next l.head? l := by
  induction l with
  | nil => rfl
  | cons a rest ih =>
    have link := linked [] a rest rfl
    have whole : Linked next ([a] ++ rest) := linked
    have behind : Linked next rest := whole.suffix
    exact ⟨rfl, link ▸ ih behind⟩

theorem Spells.rest {next : α → Option α} (front : List α) (d : α) (l : List α) (path : Path next (front ++ [d]))
    (spelled : Spells next (front ++ [d]).head? l) :
    ∃ rest, l = front ++ d :: rest ∧ Spells next (next d) rest := by
  induction front generalizing l with
  | nil =>
    cases l with
    | nil => exact absurd spelled (Option.some_ne_none d)
    | cons a rest =>
      have here : d = a := Option.some.inj spelled.1
      rw [← here] at spelled ⊢
      exact ⟨rest, rfl, spelled.2⟩
  | cons c front ih =>
    cases l with
    | nil => exact absurd spelled (Option.some_ne_none c)
    | cons a rest =>
      have here : c = a := Option.some.inj spelled.1
      rw [← here] at spelled ⊢
      obtain ⟨b, behind, shape⟩ := List.exists_cons_of_ne_nil (show front ++ [d] ≠ [] by simp)
      have link : next c = (front ++ [d]).head? := by
        rw [shape]
        exact path [] c b behind (by rw [List.cons_append, shape]; rfl)
      obtain ⟨tail, rfl, ends⟩ := ih rest
        (fun before a b behind shape => path (c :: before) a b behind (by rw [List.cons_append, shape]; rfl))
        (link ▸ spelled.2)
      exact ⟨tail, rfl, ends⟩

theorem not_spells_self {next : α → Option α} (d : α) (loop : next d = some d) (l : List α) :
    ¬Spells next (some d) l := by
  induction l with
  | nil => exact Option.some_ne_none d
  | cons a rest ih =>
    intro spelled
    have here : d = a := Option.some.inj spelled.1
    rw [← here] at spelled
    exact ih (loop ▸ spelled.2)

variable [DecidableEq α]

theorem Linked.snoc {next : α → Option α} (front : List α) (t d : α) (linked : Linked next (front ++ [t]))
    (distinct : (front ++ [t]).Nodup) (fresh : d ∉ front ++ [t]) :
    Linked (Function.update (Function.update next d none) t (some d)) (front ++ [t] ++ [d]) := by
  intro before a back shape
  have other : d ≠ t := fun same => fresh (by simp [same])
  rcases List.eq_nil_or_concat back with rfl | ⟨inner, last, rfl⟩
  · have here : a = d := by
      have ends := congrArg List.getLast? shape
      simp at ends
      exact ends.symm
    rw [here, Function.update_of_ne other, Function.update_self]
    rfl
  · rw [List.concat_eq_append, ← List.cons_append, ← List.append_assoc] at shape
    obtain ⟨old, new⟩ := List.append_inj' shape rfl
    rw [List.concat_eq_append, ← new]
    have member : a ∈ front ++ [t] := by
      rw [old]
      simp
    by_cases atEnd : inner = []
    · subst atEnd
      have here : a = t := by
        have ends := congrArg List.getLast? old
        simp at ends
        exact ends.symm
      rw [here, Function.update_self]
      rfl
    · have away : a ≠ t := by
        intro same
        obtain ⟨body, final, rfl⟩ := (List.eq_nil_or_concat inner).resolve_left atEnd
        rw [List.concat_eq_append, ← List.cons_append, ← List.append_assoc] at old
        obtain ⟨fronts, finals⟩ := List.append_inj' old rfl
        rw [List.nodup_append] at distinct
        have inFront : a ∈ front := by
          rw [fronts]
          simp
        exact distinct.2.2 a inFront t (by simp) same
      have notNew : a ≠ d := fun same => fresh (same ▸ member)
      rw [Function.update_of_ne away, Function.update_of_ne notNew, linked before a inner old]
      obtain ⟨b, rest, rfl⟩ := List.exists_cons_of_ne_nil atEnd
      rfl

end LifeOS.Library.Links
