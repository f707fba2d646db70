import LifeOS.Library.Memory

/-!
Computations that read memory and keep a record of what they read: where, how much, and
under which tag. The record of a comparison that stops at the first difference lies in
the compared bytes.
-/

namespace LifeOS.Library.Access
open LifeOS.Library.Memory

structure Read (τ : Type*) where
  tag : τ
  start : Addr
  size : Nat
  deriving DecidableEq

def Read.Within {τ : Type*} (lo len : Nat) (r : Read τ) : Prop :=
  lo ≤ r.start.toNat ∧ r.start.toNat + r.size ≤ lo + len

structure Traced (τ α : Type*) where
  value : α
  reads : List (Read τ)

variable {τ α β : Type}

instance : Monad (Traced τ) where
  pure a := ⟨a, []⟩
  bind t f := ⟨(f t.value).value, t.reads ++ (f t.value).reads⟩

@[simp]
theorem value_pure (a : α) : (pure a : Traced τ α).value = a := rfl

@[simp]
theorem reads_pure (a : α) : (pure a : Traced τ α).reads = [] := rfl

@[simp]
theorem value_bind (t : Traced τ α) (f : α → Traced τ β) : (t >>= f).value = (f t.value).value := rfl

@[simp]
theorem reads_bind (t : Traced τ α) (f : α → Traced τ β) :
    (t >>= f).reads = t.reads ++ (f t.value).reads := rfl

section
variable (m : Mem) (tag : τ) (a : Addr)

def fetch8 : Traced τ (BitVec 8) := ⟨m a, [⟨tag, a, 1⟩]⟩

def fetch16 : Traced τ (BitVec 16) := ⟨read16 m a, [⟨tag, a, 2⟩]⟩

def fetch32 : Traced τ (BitVec 32) := ⟨read32 m a, [⟨tag, a, 4⟩]⟩

def fetch64 : Traced τ (BitVec 64) := ⟨read64 m a, [⟨tag, a, 8⟩]⟩

end

def compares (m : Mem) (tag : τ) : List (BitVec 8) → Addr → Traced τ Bool
  | [], _ => pure true
  | b :: bytes, a => do
    if (← fetch8 m tag a) = b then compares m tag bytes (a + 1#64) else pure false

def Holds (m : Mem) : List (BitVec 8) → Addr → Prop
  | [], _ => True
  | b :: bytes, a => m a = b ∧ Holds m bytes (a + 1#64)

def Holds.decide (m : Mem) : (bytes : List (BitVec 8)) → (a : Addr) → Decidable (Holds m bytes a)
  | [], _ => inferInstanceAs (Decidable True)
  | b :: bytes, a =>
    have := Holds.decide m bytes (a + 1#64)
    inferInstanceAs (Decidable (m a = b ∧ Holds m bytes (a + 1#64)))

instance (m : Mem) (bytes : List (BitVec 8)) (a : Addr) : Decidable (Holds m bytes a) :=
  Holds.decide m bytes a

@[simp]
theorem compares_value (m : Mem) (tag : τ) (bytes : List (BitVec 8)) (a : Addr) :
    (compares m tag bytes a).value = decide (Holds m bytes a) := by
  induction bytes generalizing a with
  | nil => exact (decide_eq_true (show Holds m [] a from trivial)).symm
  | cons b bytes ih =>
    by_cases same : m a = b
    · simp [compares, Holds, fetch8, same, ih]
    · simp [compares, Holds, fetch8, same]

theorem compares_tags (m : Mem) (tag : τ) (bytes : List (BitVec 8)) (a : Addr) :
    ∀ r ∈ (compares m tag bytes a).reads, r.tag = tag := by
  induction bytes generalizing a with
  | nil => exact fun _ never => (List.not_mem_nil never).elim
  | cons b bytes ih =>
    intro r member
    rw [compares, reads_bind, List.mem_append] at member
    rcases member with first | later
    · rw [List.mem_singleton.mp first]
    · split at later
      · exact ih (a + 1#64) r later
      · exact (List.not_mem_nil later).elim

theorem compares_reads (m : Mem) (tag : τ) (bytes : List (BitVec 8)) (a : Addr)
    (fits : a.toNat + bytes.length ≤ 2 ^ 64) :
    ∀ r ∈ (compares m tag bytes a).reads, r.Within a.toNat bytes.length := by
  induction bytes generalizing a with
  | nil => exact fun _ never => (List.not_mem_nil never).elim
  | cons b bytes ih =>
    rw [List.length_cons] at fits ⊢
    intro r member
    rw [compares, reads_bind, List.mem_append] at member
    rcases member with first | later
    · obtain rfl := List.mem_singleton.mp first
      exact ⟨Nat.le_refl _, by change a.toNat + 1 ≤ _; omega⟩
    · split at later
      · cases bytes with
        | nil => exact (List.not_mem_nil later).elim
        | cons c bytes =>
          rw [List.length_cons] at fits ih ⊢
          have next : (a + 1#64).toNat = a.toNat + 1 := by bv_omega
          obtain ⟨low, high⟩ := ih (a + 1#64) (by omega) r later
          exact ⟨by omega, by omega⟩
      · exact (List.not_mem_nil later).elim

end LifeOS.Library.Access
