import Mathlib.Data.List.Nodup
import Mathlib.Data.List.Basic

/-!
A rotation through a growing list: a position that moves to the next entry and
from the last back to the first, while entries join at the end. Between two visits
of one entry every other entry that was there throughout is visited exactly once.
-/

namespace LifeOS.Library.Rotation

variable {α : Type*}

structure Round (α : Type*) where
  queue : List α
  position : Nat
  inside : position < queue.length

inductive Move (α : Type*) where
  | join (x : α)
  | turn

def Round.current (r : Round α) : α := r.queue.get ⟨r.position, r.inside⟩

/-- The entry after the current one, or the first when the current one is last. -/
def Round.successor (r : Round α) : α :=
  if later : r.position + 1 < r.queue.length then r.queue.get ⟨r.position + 1, later⟩
  else r.queue.get ⟨0, Nat.zero_lt_of_lt r.inside⟩

def Round.join (r : Round α) (x : α) : Round α where
  queue := r.queue ++ [x]
  position := r.position
  inside := by
    have bound := r.inside
    simp only [List.length_append, List.length_singleton]
    omega

def Round.turn (r : Round α) : Round α where
  queue := r.queue
  position := if r.position + 1 < r.queue.length then r.position + 1 else 0
  inside := by
    have bound := r.inside
    split <;> omega

def visited : List (Move α) → Round α → List α
  | [], _ => []
  | .join x :: moves, r => visited moves (r.join x)
  | .turn :: moves, r => r.turn.current :: visited moves r.turn

theorem turn_current (r : Round α) : r.turn.current = r.successor := by
  unfold Round.current Round.turn Round.successor
  by_cases later : r.position + 1 < r.queue.length <;> simp [later]

theorem join_current (r : Round α) (x : α) : (r.join x).current = r.current := by
  simp [Round.current, Round.join, List.getElem_append_left r.inside]

/-- From position `p`, entry `j` is still ahead of the return to position `i`. -/
private def Ahead (i p j : Nat) : Prop := (i ≤ p ∧ (j < i ∨ p < j)) ∨ (p < i ∧ p < j ∧ j < i)

private theorem ahead_return (r : Round α) (i j : Nat) (entry : j < r.queue.length)
    (back : r.turn.position = i) : ¬Ahead i r.position j := by
  have bound := r.inside
  unfold Ahead
  simp only [Round.turn] at back
  split at back <;> omega

private theorem ahead_turn (r : Round α) (i j : Nat) (old : i < r.queue.length)
    (entry : j < r.queue.length) (away : r.turn.position ≠ i) :
    (Ahead i r.position j ↔ j = r.turn.position ∨ Ahead i r.turn.position j) ∧
      ¬(j = r.turn.position ∧ Ahead i r.turn.position j) := by
  have bound := r.inside
  unfold Ahead
  by_cases later : r.position + 1 < r.queue.length
  · simp only [Round.turn, if_pos later] at away ⊢
    constructor <;> omega
  · simp only [Round.turn, if_neg later] at away ⊢
    constructor <;> omega

theorem getElem?_join (r : Round α) (x : α) (j : Nat) (u : α) (here : r.queue[j]? = some u) :
    (r.join x).queue[j]? = some u := by
  have bound := (List.getElem?_eq_some_iff.mp here).1
  rw [Round.join, List.getElem?_append_left bound, here]

theorem getElem?_current (r : Round α) : r.queue[r.position]? = some r.current :=
  List.getElem?_eq_getElem r.inside

theorem turn_current_eq_iff (r : Round α) (j : Nat) (u : α) (distinct : r.queue.Nodup)
    (here : r.queue[j]? = some u) : r.turn.current = u ↔ j = r.turn.position := by
  have reached := getElem?_current r.turn
  change r.queue[r.turn.position]? = some r.turn.current at reached
  constructor
  · intro same
    rw [same, ← here] at reached
    exact ((List.getElem?_inj r.turn.inside distinct).mp reached).symm
  · intro same
    rw [← same, here] at reached
    exact (Option.some.inj reached).symm

def Fresh : List (Move α) → Round α → Prop
  | [], _ => True
  | .join x :: moves, r => x ∉ r.queue ∧ Fresh moves (r.join x)
  | .turn :: moves, r => Fresh moves r.turn

theorem join_nodup (r : Round α) (x : α) (distinct : r.queue.Nodup) (fresh : x ∉ r.queue) :
    (r.join x).queue.Nodup := by
  rw [Round.join, List.nodup_append]
  refine ⟨distinct, List.nodup_singleton x, ?_⟩
  intro a member b single same
  rw [List.mem_singleton.mp single] at same
  exact fresh (same ▸ member)

open scoped Classical in
private theorem count_ahead [DecidableEq α] (moves : List (Move α)) (r : Round α)
    (distinct : r.queue.Nodup) (fresh : Fresh moves r) (i j : Nat) (t u : α)
    (entryI : r.queue[i]? = some t) (entryJ : r.queue[j]? = some u)
    (mid : List α) (seen : visited moves r = mid ++ [t]) (first : t ∉ mid) :
    mid.count u = if Ahead i r.position j then 1 else 0 := by
  induction moves generalizing r mid with
  | nil => simp [visited] at seen
  | cons move moves ih =>
    cases move with
    | join x =>
      exact ih (r.join x) (join_nodup r x distinct fresh.1) fresh.2 (getElem?_join r x i t entryI)
        (getElem?_join r x j u entryJ) mid seen first
    | turn =>
      obtain ⟨boundI, _⟩ := List.getElem?_eq_some_iff.mp entryI
      obtain ⟨boundJ, _⟩ := List.getElem?_eq_some_iff.mp entryJ
      cases mid with
      | nil =>
        have back : r.turn.current = t := (List.cons.inj seen).1
        have returned := ((turn_current_eq_iff r i t distinct entryI).mp back).symm
        rw [if_neg (ahead_return r i j boundJ returned)]
        rfl
      | cons x mid =>
        have here : r.turn.current = x := (List.cons.inj seen).1
        have away : r.turn.position ≠ i := by
          intro back
          have same := (turn_current_eq_iff r i t distinct entryI).mpr back.symm
          exact first (by rw [← here, same]; exact List.mem_cons_self)
        have rest := ih r.turn distinct fresh entryI entryJ mid (List.cons.inj seen).2
          (fun member => first (List.mem_cons_of_mem x member))
        obtain ⟨split, never⟩ := ahead_turn r i j boundI boundJ away
        rw [List.count_cons, rest, ← here]
        have reached := turn_current_eq_iff r j u distinct entryJ
        by_cases now : j = r.turn.position
        · have spent : ¬Ahead i r.turn.position j := fun more => never ⟨now, more⟩
          rw [if_neg spent, if_pos (split.mpr (Or.inl now))]
          simp [reached.mpr now]
        · have different : r.turn.current ≠ u := fun same => now (reached.mp same)
          simp [split, now, different]

/-- Between two consecutive visits of `t`, every other entry of the queue at the first
of them is visited exactly once. -/
theorem visited_once [DecidableEq α] (moves : List (Move α)) (r : Round α) (distinct : r.queue.Nodup)
    (fresh : Fresh moves r) (mid : List α) (seen : visited moves r = mid ++ [r.current])
    (first : r.current ∉ mid) (u : α) (member : u ∈ r.queue) (other : u ≠ r.current) :
    mid.count u = 1 := by
  obtain ⟨j, bound, value⟩ := List.getElem_of_mem member
  have entry : r.queue[j]? = some u := by rw [List.getElem?_eq_getElem bound, value]
  have apart : j ≠ r.position := by
    intro same
    subst same
    exact other (Option.some.inj (entry.symm.trans (getElem?_current r)))
  rw [count_ahead moves r distinct fresh r.position j r.current u (getElem?_current r) entry mid seen
    first, if_pos]
  left
  omega

end LifeOS.Library.Rotation
