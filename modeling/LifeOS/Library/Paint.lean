import LifeOS.Library.Loops

/-!
Operations that set a region of a readable array to one value and leave the rest of it, and
a further part of the state, alone. A loop of them paints the union of its regions.
-/

namespace LifeOS.Library.Paint
open LifeOS.Library.Loops

variable {σ ι β γ : Type*} (read : σ → ι → β) (rest : σ → γ)

structure Paints (f : σ → σ) (region : ι → Prop) (v : β) : Prop where
  inside : ∀ s i, region i → read (f s) i = v
  outside : ∀ s i, ¬region i → read (f s) i = read s i
  kept : ∀ s, rest (f s) = rest s

variable {read rest}

theorem Paints.loop {n : Nat} {body : Fin n → σ → σ} {region : Fin n → ι → Prop} {v : β}
    (each : ∀ k, Paints read rest (body k) (region k) v) :
    Paints read rest (fun s => forFin n body s) (fun i => ∃ k, region k i) v := by
  have painted (s : σ) := forFin_invariant n body
    (fun m t => (∀ i, (∃ k : Fin n, k.val < m ∧ region k i) → read t i = v) ∧
      (∀ i, (¬∃ k : Fin n, k.val < m ∧ region k i) → read t i = read s i) ∧ rest t = rest s) s
    ⟨fun i some => absurd some (by simp), fun i _ => rfl, rfl⟩
    (by
      intro k t ⟨inside, outside, kept⟩
      refine ⟨?_, ?_, ((each k).kept t).trans kept⟩
      · intro i ⟨j, before, member⟩
        by_cases now : region k i
        · exact (each k).inside t i now
        · have earlier : j.val < k.val := by
            have apart : j.val ≠ k.val := fun same => now (Fin.ext same ▸ member)
            omega
          rw [(each k).outside t i now]
          exact inside i ⟨j, earlier, member⟩
      · intro i never
        have not_now : ¬region k i := fun member => never ⟨k, by omega, member⟩
        rw [(each k).outside t i not_now]
        exact outside i (fun ⟨j, before, member⟩ => never ⟨j, by omega, member⟩))
  refine ⟨?_, ?_, fun s => (painted s).2.2⟩
  · exact fun s i ⟨k, member⟩ => (painted s).1 i ⟨k, k.isLt, member⟩
  · exact fun s i never => (painted s).2.1 i (fun ⟨k, _, member⟩ => never ⟨k, member⟩)

theorem Paints.nothing {v : β} : Paints read rest (fun s => s) (fun _ => False) v :=
  ⟨fun _ _ never => never.elim, fun _ _ _ => rfl, fun _ => rfl⟩

theorem Paints.andThen {f g : σ → σ} {first second : ι → Prop} {v : β} (before : Paints read rest f first v)
    (behind : Paints read rest g second v) : Paints read rest (fun s => g (f s)) (fun i => first i ∨ second i) v := by
  refine ⟨?_, ?_, fun s => (behind.kept (f s)).trans (before.kept s)⟩
  · intro s i either
    by_cases later : second i
    · exact behind.inside (f s) i later
    · rw [behind.outside (f s) i later]
      exact before.inside s i (either.resolve_right later)
  · intro s i neither
    rw [behind.outside (f s) i (fun later => neither (Or.inr later))]
    exact before.outside s i (fun early => neither (Or.inl early))

theorem Paints.congr {f : σ → σ} {region other : ι → Prop} {v : β} (paints : Paints read rest f region v)
    (same : ∀ i, region i ↔ other i) : Paints read rest f other v :=
  ⟨fun s i member => paints.inside s i ((same i).mpr member),
    fun s i never => paints.outside s i (fun member => never ((same i).mp member)), paints.kept⟩

end LifeOS.Library.Paint
