import Mathlib.Data.Finset.Card
import Mathlib.Data.Finset.Dedup
import LifeOS.Library.Links

/-!
The driver list of `kernel/driver/driver.c`. An `init` callback may register drivers while
`driver_init_all` walks the list, which then grows at its end.
-/

namespace LifeOS.Drivers
open LifeOS.Library.Links

/-- `D` is the type of the pointers to `struct driver` other than null; `ends` is `drv_head`
with `drv_tail`, which are null together, and `next` the field of each structure. -/
structure DriverList (D : Type*) where
  ends : Option (D × D)
  next : D → Option D

variable {D : Type*}

def DriverList.head (s : DriverList D) : Option D := s.ends.map Prod.fst

structure Holds (s : DriverList D) (drvs : List D) : Prop where
  distinct : drvs.Nodup
  head : s.ends.map Prod.fst = drvs.head?
  tail : s.ends.map Prod.snd = drvs.getLast?
  links : Linked s.next drvs

theorem Holds.start (next : D → Option D) : Holds (⟨none, next⟩ : DriverList D) [] :=
  ⟨List.nodup_nil, rfl, rfl, linked_nil next⟩

theorem Holds.spells {s : DriverList D} {drvs : List D} (holds : Holds s drvs) :
    Spells s.next s.head drvs := by
  have head : s.head = drvs.head? := holds.head
  rw [head]
  exact holds.links.spells

variable [DecidableEq D]

def driverRegister (drv : D) (s : DriverList D) : DriverList D :=
  let next := Function.update s.next drv none
  match s.ends with
  | none => ⟨some (drv, drv), next⟩
  | some (head, tail) => ⟨some (head, drv), Function.update next tail (some drv)⟩

/-- The list with the calls of `driver_register` and of the callbacks so far, in order. -/
structure Registry (D : Type*) where
  list : DriverList D
  registered : List D
  invoked : List D

def register (r : Registry D) (drv : D) : Registry D :=
  { r with list := driverRegister drv r.list, registered := r.registered ++ [drv] }

def registerAll (drvs : List D) (r : Registry D) : Registry D := drvs.foldl register r

def Registry.start (next : D → Option D) : Registry D := ⟨⟨none, next⟩, [], []⟩

/-- What a callback registers, which may depend on all that happened before. -/
abbrev Callback (D : Type*) := Registry D → List D

structure Walk (D : Type*) where
  d : Option D
  registry : Registry D

/-- `d->init()` unless it is null. -/
def callInit (init : D → Option (Callback D)) (d : D) (r : Registry D) : Registry D :=
  match init d with
  | none => r
  | some callback => registerAll (callback r) { r with invoked := r.invoked ++ [d] }

/-- One iteration of the loop of `driver_init_all`, and nothing once `d` is null. -/
def Walk.iterate (init : D → Option (Callback D)) (w : Walk D) : Walk D :=
  match w.d with
  | none => w
  | some d =>
      let r := callInit init d w.registry
      ⟨r.list.next d, r⟩

def driverInitAll (init : D → Option (Callback D)) (r : Registry D) : Nat → Walk D
  | 0 => ⟨r.list.head, r⟩
  | n + 1 => (driverInitAll init r n).iterate init

theorem Holds.register {s : DriverList D} {drvs : List D} (holds : Holds s drvs) (drv : D)
    (fresh : drv ∉ drvs) : Holds (driverRegister drv s) (drvs ++ [drv]) := by
  obtain ⟨distinct, head, tail, links⟩ := holds
  have grown : (drvs ++ [drv]).Nodup := by
    rw [List.nodup_append]
    refine ⟨distinct, List.nodup_singleton drv, ?_⟩
    intro d member e single same
    rw [List.mem_singleton.mp single] at same
    exact fresh (same ▸ member)
  unfold driverRegister
  cases ends : s.ends with
  | none =>
    rw [ends] at head
    have empty : drvs = [] := List.head?_eq_none_iff.mp head.symm
    subst empty
    refine ⟨grown, rfl, rfl, ?_⟩
    intro front a back shape
    cases front with
    | nil =>
      obtain ⟨rfl, rfl⟩ := List.cons.inj shape
      exact Function.update_self ..
    | cons b front =>
      have lengths := congrArg List.length shape
      simp at lengths
  | some pair =>
    obtain ⟨first, last⟩ := pair
    rw [ends] at head tail
    obtain ⟨front, rfl⟩ := List.getLast?_eq_some_iff.mp tail.symm
    refine ⟨grown, ?_, ?_, links.snoc front last drv distinct fresh⟩
    · rw [List.head?_append, ← head]
      rfl
    · rw [List.getLast?_append]
      rfl

theorem registerAll_list (drvs : List D) (r : Registry D) :
    (registerAll drvs r).registered = r.registered ++ drvs ∧ (registerAll drvs r).invoked = r.invoked := by
  induction drvs generalizing r with
  | nil => exact ⟨(List.append_nil _).symm, rfl⟩
  | cons drv drvs ih =>
    obtain ⟨registered, invoked⟩ := ih (register r drv)
    refine ⟨registered.trans ?_, invoked⟩
    exact List.append_assoc r.registered [drv] drvs

theorem registerAll_holds (drvs : List D) (r : Registry D) (holds : Holds r.list r.registered)
    (distinct : drvs.Nodup) (fresh : ∀ drv ∈ drvs, drv ∉ r.registered) :
    Holds (registerAll drvs r).list (registerAll drvs r).registered := by
  induction drvs generalizing r with
  | nil => exact holds
  | cons drv drvs ih =>
    obtain ⟨absent, rest⟩ := List.nodup_cons.mp distinct
    apply ih (register r drv) (holds.register drv (fresh drv List.mem_cons_self)) rest
    intro other member
    change other ∉ r.registered ++ [drv]
    rw [List.mem_append, List.mem_singleton]
    rintro (old | same)
    · exact fresh other (List.mem_cons_of_mem drv member) old
    · exact absent (same ▸ member)

theorem length_le_card (pool : Finset D) (drvs : List D) (distinct : drvs.Nodup)
    (inside : ∀ drv ∈ drvs, drv ∈ pool) : drvs.length ≤ pool.card := by
  rw [← List.toFinset_card_of_nodup distinct]
  apply Finset.card_le_card
  intro drv member
  exact inside drv (List.mem_toFinset.mp member)

/-- A callback at the loop's `d` registers distinct drivers of the pool that are not yet on
the list. -/
def Behaves (init : D → Option (Callback D)) (pool : Finset D) (w : Walk D) : Prop :=
  ∀ d callback, w.d = some d → init d = some callback →
    (callback w.registry).Nodup ∧
      ∀ drv ∈ callback w.registry, drv ∈ pool ∧ drv ∉ w.registry.registered

/-- The loop stands behind `done`, whose callbacks it has invoked. -/
structure Walked (init : D → Option (Callback D)) (pool : Finset D) (done : List D) (w : Walk D) : Prop where
  position : ∃ todo, w.registry.registered = done ++ todo ∧ w.d = todo.head?
  invoked : w.registry.invoked = done.filter (fun d => (init d).isSome)
  holds : Holds w.registry.list w.registry.registered
  inside : ∀ drv ∈ w.registry.registered, drv ∈ pool

/-- The registry behind a callback: what it registered follows the drivers on the list. -/
theorem callInit_spec (init : D → Option (Callback D)) (pool : Finset D) (d : D) (r : Registry D)
    (holds : Holds r.list r.registered) (inside : ∀ drv ∈ r.registered, drv ∈ pool)
    (behaves : Behaves init pool ⟨some d, r⟩) :
    ∃ more, (callInit init d r).registered = r.registered ++ more ∧
      (callInit init d r).invoked = r.invoked ++ [d].filter (fun d => (init d).isSome) ∧
      Holds (callInit init d r).list (callInit init d r).registered ∧
      ∀ drv ∈ (callInit init d r).registered, drv ∈ pool := by
  unfold callInit
  cases callback : init d with
  | none =>
    refine ⟨[], (List.append_nil _).symm, ?_, holds, inside⟩
    simp [callback]
  | some registers =>
    obtain ⟨distinct, fresh⟩ := behaves d registers rfl callback
    obtain ⟨registered, invoked⟩ :=
      registerAll_list (registers r) { r with invoked := r.invoked ++ [d] }
    refine ⟨registers r, registered, ?_, ?_, ?_⟩
    · simp [invoked, callback]
    · exact registerAll_holds (registers r) { r with invoked := r.invoked ++ [d] } holds distinct
        (fun drv member => (fresh drv member).2)
    · intro drv member
      rw [registered] at member
      rcases List.mem_append.mp member with old | new
      · exact inside drv old
      · exact (fresh drv new).1

theorem Walked.iterate {init : D → Option (Callback D)} {pool : Finset D} {done : List D} {w : Walk D}
    (walked : Walked init pool done w) (d : D) (here : w.d = some d) (behaves : Behaves init pool w) :
    Walked init pool (done ++ [d]) (w.iterate init) := by
  obtain ⟨⟨todo, registered, cursor⟩, invoked, holds, inside⟩ := walked
  obtain ⟨rest, rfl⟩ : ∃ rest, todo = d :: rest := List.head?_eq_some_iff.mp (cursor.symm.trans here)
  have same : w = ⟨some d, w.registry⟩ := by
    rw [← here]
  obtain ⟨more, grown, called, kept, pooled⟩ :=
    callInit_spec init pool d w.registry holds inside (same ▸ behaves)
  have stepped : w.iterate init =
      ⟨(callInit init d w.registry).list.next d, callInit init d w.registry⟩ := by
    rw [same]
    rfl
  have shape : (callInit init d w.registry).registered = done ++ d :: (rest ++ more) := by
    rw [grown, registered, List.append_assoc, List.cons_append]
  rw [stepped]
  refine ⟨⟨rest ++ more, ?_, kept.links done d (rest ++ more) shape⟩, ?_, kept, pooled⟩
  · change (callInit init d w.registry).registered = _
    rw [shape, List.append_assoc, List.singleton_append]
  · change (callInit init d w.registry).invoked = _
    rw [called, invoked, List.filter_append]

/-- After `n` iterations the loop has ended, or it stands behind `n` drivers. -/
theorem driverInitAll_walked (init : D → Option (Callback D)) (pool : Finset D) (r : Registry D)
    (start : Walked init pool [] ⟨r.list.head, r⟩)
    (behaves : ∀ n, Behaves init pool (driverInitAll init r n)) (n : Nat) :
    ∃ k done, k ≤ n ∧ Walked init pool done (driverInitAll init r k) ∧
      ((driverInitAll init r k).d = none ∨ k = n ∧ done.length = n) := by
  induction n with
  | zero => exact ⟨0, [], Nat.le_refl 0, start, Or.inr ⟨rfl, rfl⟩⟩
  | succ n ih =>
    obtain ⟨k, done, before, walked, ended | ⟨rfl, length⟩⟩ := ih
    · exact ⟨k, done, by omega, walked, Or.inl ended⟩
    · cases here : (driverInitAll init r k).d with
      | none => exact ⟨k, done, by omega, walked, Or.inl here⟩
      | some d =>
        refine ⟨k + 1, done ++ [d], Nat.le_refl _, walked.iterate d here (behaves k), Or.inr ⟨rfl, ?_⟩⟩
        rw [List.length_append, length]
        rfl

/-- Every registered driver that has a callback was called once, in order of registration. -/
structure Initialised (init : D → Option (Callback D)) (order : List D) (w : Walk D) : Prop where
  ended : w.d = none
  registered : order <+: w.registry.registered
  invoked : w.registry.invoked = w.registry.registered.filter (fun d => (init d).isSome)
  once : w.registry.invoked.Nodup

theorem callInit_extends (init : D → Option (Callback D)) (d : D) (r : Registry D) :
    r.registered <+: (callInit init d r).registered := by
  unfold callInit
  cases init d with
  | none => exact List.prefix_refl _
  | some callback =>
    dsimp only
    rw [(registerAll_list _ _).1]
    exact List.prefix_append _ _

theorem driverInitAll_extends (init : D → Option (Callback D)) (r : Registry D) (n : Nat) :
    r.registered <+: (driverInitAll init r n).registry.registered := by
  induction n with
  | zero => exact List.prefix_refl _
  | succ n ih =>
    apply ih.trans
    change _ <+: ((driverInitAll init r n).iterate init).registry.registered
    unfold Walk.iterate
    cases (driverInitAll init r n).d with
    | none => exact List.prefix_refl _
    | some d => exact callInit_extends init d _

/-- The loop ends within one iteration for each driver structure, whatever the callbacks
register, and has called each driver once and in order. -/
theorem drivers_initialised (init : D → Option (Callback D)) (pool : Finset D) (next : D → Option D)
    (order : List D) (distinct : order.Nodup) (inside : ∀ drv ∈ order, drv ∈ pool)
    (behaves : ∀ n, Behaves init pool (driverInitAll init (registerAll order (.start next)) n)) :
    ∃ n, n ≤ pool.card ∧
      Initialised init order (driverInitAll init (registerAll order (.start next)) n) := by
  have holds := registerAll_holds order (.start next) (Holds.start next) distinct
    (fun _ _ => List.not_mem_nil)
  obtain ⟨registered, invoked⟩ := registerAll_list order (Registry.start next)
  have shape : (registerAll order (.start next)).registered = order := registered.trans (List.nil_append order)
  have start : Walked init pool [] ⟨(registerAll order (.start next)).list.head, registerAll order (.start next)⟩ :=
    ⟨⟨_, rfl, holds.head⟩, invoked, holds, fun drv member => inside drv (shape ▸ member)⟩
  obtain ⟨n, done, few, walked, either⟩ := driverInitAll_walked init pool _ start behaves pool.card
  have ordered := driverInitAll_extends init (registerAll order (.start next)) n
  rw [shape] at ordered
  obtain ⟨⟨todo, split, cursor⟩, called, kept, pooled⟩ := walked
  have length := length_le_card pool _ kept.distinct pooled
  rw [split, List.length_append] at length
  have all : todo = [] := by
    rcases either with ended | ⟨_, whole⟩
    · exact List.head?_eq_none_iff.mp (cursor.symm.trans ended)
    · exact List.length_eq_zero_iff.mp (by omega)
  rw [all, List.append_nil] at split
  refine ⟨n, few, ?_, ordered, ?_, ?_⟩
  · rw [cursor, all]
    rfl
  · rw [called, split]
  · rw [called, ← split]
    exact kept.distinct.filter _

def helped : Nat → Option (Callback Nat)
  | 0 => some (fun r => if 2 ∈ r.registered then [] else [2])
  | 1 => none
  | _ => some (fun _ => [])

theorem helped_behaves (w : Walk Nat) : Behaves helped {0, 1, 2} w := by
  intro d callback _ found
  match d with
  | 0 =>
    obtain rfl := Option.some.inj found
    by_cases present : 2 ∈ w.registry.registered
    · simp [present]
    · simp [present]
  | 1 => exact absurd found.symm (Option.some_ne_none callback)
  | d + 2 =>
    obtain rfl := Option.some.inj found
    simp

theorem helper_initialised :
    ∃ n, n ≤ ({0, 1, 2} : Finset Nat).card ∧
      Initialised helped [0, 1] (driverInitAll helped (registerAll [0, 1] (.start (fun _ => none))) n) :=
  drivers_initialised helped {0, 1, 2} (fun _ => none) [0, 1] (by decide) (by decide)
    (fun n => helped_behaves _)

def silent (hasInit : D → Bool) (d : D) : Option (Callback D) :=
  if hasInit d then some (fun _ => []) else none

/-- The list ends and holds every driver registered so far, and each is initialised. -/
structure Harmless (r : Registry D) : Prop where
  listed : ∃ l, Spells r.list.next r.list.head l ∧ ∀ drv ∈ r.registered, drv ∈ l
  initialised : ∀ hasInit : D → Bool, ∃ n, (driverInitAll (silent hasInit) r n).d = none ∧
    ∀ drv ∈ r.registered, hasInit drv = true →
      drv ∈ (driverInitAll (silent hasInit) r n).registry.invoked

omit [DecidableEq D] in
theorem silent_behaves (hasInit : D → Bool) (pool : Finset D) (w : Walk D) :
    Behaves (silent hasInit) pool w := by
  intro d callback _ found
  unfold silent at found
  split at found
  · obtain rfl := Option.some.inj found
    exact ⟨List.nodup_nil, fun _ never => absurd never List.not_mem_nil⟩
  · exact absurd found.symm (Option.some_ne_none callback)

theorem harmless_of_nodup (next : D → Option D) (calls : List D) (distinct : calls.Nodup) :
    Harmless (registerAll calls (.start next)) := by
  have holds := registerAll_holds calls (.start next) (Holds.start next) distinct
    (fun _ _ => List.not_mem_nil)
  refine ⟨⟨_, holds.spells, fun _ member => member⟩, ?_⟩
  intro hasInit
  obtain ⟨n, _, ended, _, invoked, _⟩ := drivers_initialised (silent hasInit) calls.toFinset next calls distinct
    (fun drv member => List.mem_toFinset.mpr member) (fun n => silent_behaves hasInit _ _)
  refine ⟨n, ended, ?_⟩
  intro drv member has
  have kept := (driverInitAll_extends (silent hasInit) (registerAll calls (.start next)) n).subset member
  rw [invoked, List.mem_filter]
  refine ⟨kept, ?_⟩
  simp [silent, has]

theorem first_repeated (calls : List D) (repeats : ¬calls.Nodup) :
    ∃ front drv, front ++ [drv] <+: calls ∧ front.Nodup ∧ drv ∈ front := by
  induction calls using List.reverseRecOn with
  | nil => exact absurd List.nodup_nil repeats
  | append_singleton calls last ih =>
    by_cases distinct : calls.Nodup
    · refine ⟨calls, last, List.prefix_refl _, distinct, ?_⟩
      by_contra fresh
      apply repeats
      rw [List.nodup_append]
      refine ⟨distinct, List.nodup_singleton last, ?_⟩
      intro drv member other single same
      rw [List.mem_singleton.mp single] at same
      exact fresh (same ▸ member)
    · obtain ⟨front, drv, early, rest⟩ := ih distinct
      exact ⟨front, drv, early.trans (List.prefix_append _ _), rest⟩

theorem register_behind (r : Registry D) (drv first last : D) (ends : r.list.ends = some (first, last)) :
    (register r drv).list =
      ⟨some (first, drv), Function.update (Function.update r.list.next drv none) last (some drv)⟩ := by
  change driverRegister drv r.list = _
  unfold driverRegister
  rw [ends]

/-- Registering a driver again leaves the drivers before it in the list, and only the last driver
is linked to it. -/
theorem register_repeated (r : Registry D) (front back : List D) (drv : D)
    (holds : Holds r.list (front ++ drv :: back)) (l : List D)
    (spelled : Spells (register r drv).list.next (register r drv).list.head l) :
    ∃ last ∈ drv :: back, last ∉ front ∧
      (register r drv).list.next drv = (if drv = last then some drv else none) ∧
      ∃ rest, l = front ++ drv :: rest ∧
        Spells (register r drv).list.next ((register r drv).list.next drv) rest := by
  obtain ⟨distinct, head, tail, links⟩ := holds
  obtain ⟨_, _, disjoint⟩ := List.nodup_append.mp distinct
  cases ends : r.list.ends with
  | none =>
    rw [ends] at head
    exact absurd (List.head?_eq_none_iff.mp head.symm) (by simp)
  | some pair =>
    obtain ⟨first, last⟩ := pair
    rw [ends] at head tail
    rw [register_behind r drv first last ends] at spelled ⊢
    have lastBehind : last ∈ drv :: back := by
      rw [List.getLast?_append_of_ne_nil _ (List.cons_ne_nil drv back)] at tail
      exact List.mem_of_getLast? tail.symm
    have path : Path (Function.update (Function.update r.list.next drv none) last (some drv)) (front ++ [drv]) := by
      have before : Linked r.list.next ((front ++ [drv]) ++ back) := by simpa using links
      apply before.path.congr
      intro a early
      have away : a ≠ last := fun same => disjoint a early last lastBehind same
      have other : a ≠ drv := fun same => disjoint a early drv List.mem_cons_self same
      rw [Function.update_of_ne away, Function.update_of_ne other]
    have start : some first = (front ++ [drv]).head? := by
      cases front with
      | nil => exact head
      | cons c front => exact head
    change Spells _ (some first) l at spelled
    rw [start] at spelled
    refine ⟨last, lastBehind, fun early => disjoint last early last lastBehind rfl, ?_,
      spelled.rest front drv l path⟩
    by_cases atEnd : drv = last
    · rw [if_pos atEnd, atEnd]
      exact Function.update_self ..
    · rw [if_neg atEnd]
      exact (Function.update_of_ne atEnd ..).trans (Function.update_self ..)

/-- A repeated driver closes a loop where it was the last, and else cuts off those behind it. -/
theorem not_listed_repeated (r : Registry D) (holds : Holds r.list r.registered) (drv : D)
    (repeated : drv ∈ r.registered) :
    ¬∃ l, Spells (register r drv).list.next (register r drv).list.head l ∧
      ∀ d ∈ (register r drv).registered, d ∈ l := by
  rintro ⟨l, spelled, all⟩
  obtain ⟨front, back, shape⟩ := List.append_of_mem repeated
  rw [shape] at holds
  obtain ⟨last, behind, notEarly, link, rest, rfl, ended⟩ := register_repeated r front back drv holds l spelled
  rw [link] at ended
  by_cases atEnd : drv = last
  · rw [if_pos atEnd] at link ended
    exact not_spells_self drv link rest ended
  · rw [if_neg atEnd] at ended
    have nothing : rest = [] := by
      cases rest with
      | nil => rfl
      | cons d rest => exact absurd ended.1.symm (Option.some_ne_none d)
    have known : last ∈ (register r drv).registered := by
      change last ∈ r.registered ++ [drv]
      rw [shape]
      exact List.mem_append_left _ (List.mem_append_right _ behind)
    have listed := all last known
    rw [nothing] at listed
    rcases List.mem_append.mp listed with early | here
    · exact notEarly early
    · exact atEnd (List.mem_singleton.mp here).symm

/-- Registration stays harmless through a sequence of calls exactly when no driver is
registered twice. -/
theorem harmless_iff (next : D → Option D) (calls : List D) :
    (∀ front, front <+: calls → Harmless (registerAll front (.start next))) ↔ calls.Nodup := by
  constructor
  · intro harmless
    by_contra repeats
    obtain ⟨front, drv, early, distinct, repeated⟩ := first_repeated calls repeats
    have holds := registerAll_holds front (.start next) (Holds.start next) distinct
      (fun _ _ => List.not_mem_nil)
    have known : drv ∈ (registerAll front (.start next)).registered := by
      rw [(registerAll_list front _).1]
      exact repeated
    have last : registerAll (front ++ [drv]) (.start next) = register (registerAll front (.start next)) drv :=
      List.foldl_append
    have listed := (harmless _ early).listed
    rw [last] at listed
    exact not_listed_repeated _ holds drv known listed
  · intro distinct front early
    exact harmless_of_nodup next front (distinct.sublist early.sublist)

/-- A driver registered twice in a row follows itself. -/
theorem registered_twice_loops :
    ¬∀ (next : Nat → Option Nat) (calls : List Nat) (front : List Nat),
      front <+: calls → Harmless (registerAll front (.start next)) := by
  intro always
  obtain ⟨l, spelled, _⟩ := (always (fun _ => none) [0, 0] [0, 0] (List.prefix_refl _)).listed
  have loop : (registerAll [0, 0] (.start (fun _ : Nat => none))).list.next 0 = some 0 := by decide
  exact not_spells_self 0 loop l spelled

end LifeOS.Drivers
