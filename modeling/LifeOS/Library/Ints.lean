import LifeOS.Library.Loops
import Mathlib.Data.BitVec

/-!
The 32-bit `int` and `unsigned` of C. An `int` operation whose value does not fit has no
result; the conversions between the two are modulo `2 ^ 32`.
-/

namespace LifeOS.Library.Ints
open LifeOS.Library.Loops

abbrev Unsigned := BitVec 32

structure CInt where
  val : Int
  low : -2147483648 ≤ val
  high : val < 2147483648

def Fits (n : Int) : Prop := -2147483648 ≤ n ∧ n < 2147483648

instance (n : Int) : Decidable (Fits n) := inferInstanceAs (Decidable (_ ∧ _))

def CInt.of (n : Int) : Option CInt := if fits : Fits n then some ⟨n, fits.1, fits.2⟩ else none

theorem CInt.of_fits {n : Int} (fits : Fits n) : CInt.of n = some ⟨n, fits.1, fits.2⟩ := dif_pos fits

def CInt.add (a b : CInt) : Option CInt := CInt.of (a.val + b.val)

def CInt.sub (a b : CInt) : Option CInt := CInt.of (a.val - b.val)

theorem CInt.add_fits {a b : CInt} (fits : Fits (a.val + b.val)) :
    a.add b = some ⟨a.val + b.val, fits.1, fits.2⟩ := CInt.of_fits fits

theorem CInt.sub_fits {a b : CInt} (fits : Fits (a.val - b.val)) :
    a.sub b = some ⟨a.val - b.val, fits.1, fits.2⟩ := CInt.of_fits fits

def CInt.toUnsigned (a : CInt) : Unsigned := BitVec.ofInt 32 a.val

def CInt.ofUnsigned (v : Unsigned) : CInt :=
  ⟨v.toInt, BitVec.le_toInt v, BitVec.toInt_lt⟩

instance (n : Nat) : OfNat CInt n := ⟨CInt.ofUnsigned (BitVec.ofNat 32 n)⟩

theorem CInt.zero_val : (0 : CInt).val = 0 := rfl

theorem CInt.one_val : (1 : CInt).val = 1 := rfl

theorem CInt.toUnsigned_eq (a : CInt) (positive : 0 ≤ a.val) : a.toUnsigned = BitVec.ofNat 32 a.val.toNat := by
  have same : a.val = (a.val.toNat : Int) := (Int.toNat_of_nonneg positive).symm
  unfold CInt.toUnsigned
  rw [same, BitVec.ofInt_natCast, Int.toNat_natCast]

theorem CInt.ofUnsigned_val (v : Unsigned) (small : v.toNat < 2147483648) : (CInt.ofUnsigned v).val = v.toNat := by
  unfold CInt.ofUnsigned
  exact BitVec.toInt_eq_toNat_of_lt (by omega)

variable {σ : Type*}

/-- `n` rounds of a loop with `++i`. -/
def forInt (body : CInt → σ → Option σ) : (n : Nat) → CInt → σ → Option σ
  | 0, _, s => some s
  | n + 1, i, s => (body i s).bind fun s => (i.add 1).bind fun i => forInt body n i s

/-- `for (int i = lo; i < hi; ++i)` -/
def forBelow (lo hi : CInt) (body : CInt → σ → Option σ) (s : σ) : Option σ :=
  forInt body (hi.val - lo.val).toNat lo s

/-- `for (int i = lo; i <= hi; ++i)` -/
def forUpTo (lo hi : CInt) (body : CInt → σ → Option σ) (s : σ) : Option σ :=
  forInt body (hi.val + 1 - lo.val).toNat lo s

/-- Total correctness of a loop whose counter does not run past the last `int`. -/
theorem forInt_total (body : CInt → σ → Option σ) (n : Nat) (lo : CInt) (motive : Nat → σ → Prop) (s : σ)
    (room : lo.val + n < 2147483648) (start : motive 0 s)
    (step : ∀ k (i : CInt) t, k < n → i.val = lo.val + k → motive k t →
      ∃ u, body i t = some u ∧ motive (k + 1) u) :
    ∃ u, forInt body n lo s = some u ∧ motive n u := by
  induction n generalizing lo s motive with
  | zero => exact ⟨s, rfl, start⟩
  | succ n ih =>
    obtain ⟨mid, ran, held⟩ := step 0 lo s (Nat.succ_pos n) (by omega) start
    have low := lo.low
    have fits : Fits (lo.val + (1 : CInt).val) := by
      rw [CInt.one_val]
      unfold Fits
      omega
    obtain ⟨u, rest, final⟩ := ih ⟨lo.val + 1, fits.1, fits.2⟩ (fun k => motive (k + 1)) mid
      (by dsimp only; omega) held
      (fun k i t inside place => step (k + 1) i t (by omega) (by dsimp only at place; omega))
    refine ⟨u, ?_, final⟩
    rw [forInt, ran, Option.bind_some, CInt.add_fits fits, Option.bind_some]
    exact rest

theorem forInt_eq (body : CInt → σ → Option σ) (image : Nat → σ → σ) (n : Nat) (lo : CInt) (s : σ)
    (room : lo.val + n < 2147483648)
    (agree : ∀ k (i : CInt) t, k < n → i.val = lo.val + k → body i t = some (image k t)) :
    forInt body n lo s = some (forRange n image s) := by
  obtain ⟨u, ran, final⟩ := forInt_total body n lo (fun k t => t = forRange k image s) s room
    (forRange_zero image s).symm
    (by
      intro k i t inside place held
      exact ⟨image k t, agree k i t inside place, by rw [held, forRange_succ]⟩)
  rw [ran, final]

theorem forBelow_eq (body : CInt → σ → Option σ) (image : Nat → σ → σ) (hi : CInt) (s : σ)
    (agree : ∀ k (i : CInt) t, k < hi.val.toNat → i.val = k → body i t = some (image k t)) :
    forBelow 0 hi body s = some (forRange hi.val.toNat image s) := by
  have high := hi.high
  have rounds : hi.val - (0 : CInt).val = hi.val := Int.sub_zero hi.val
  unfold forBelow
  rw [rounds]
  apply forInt_eq
  · rw [CInt.zero_val]
    omega
  · intro k i t inside place
    exact agree k i t inside (place.trans (Int.zero_add _))

theorem forBelow_const_eq (n : Nat) (hi : CInt) (bound : hi.val = n) (body : CInt → σ → Option σ)
    (image : Fin n → σ → σ) (s : σ)
    (agree : ∀ (k : Fin n) (i : CInt) t, i.val = k.val → body i t = some (image k t)) :
    forBelow 0 hi body s = some (forFin n image s) := by
  have count : hi.val.toNat = n := by omega
  have rounds := forBelow_eq body (fun k t => if inside : k < n then image ⟨k, inside⟩ t else t) hi s
    (by
      intro k i t inside place
      rw [count] at inside
      rw [dif_pos inside]
      exact agree ⟨k, inside⟩ i t place)
  have same : (fun (k : Fin n) t => if inside : k.val < n then image ⟨k.val, inside⟩ t else t) = image := by
    funext k t
    rw [dif_pos k.isLt]
  rw [count, forRange, same] at rounds
  exact rounds

theorem forBelow_follows {τ : Type*} {related : σ → τ → Prop} (lo hi : CInt) (body : CInt → σ → Option σ)
    (other : CInt → τ → Option τ) (each : ∀ i, Follows related (body i) (other i)) :
    Follows related (forBelow lo hi body) (forBelow lo hi other) := by
  have rounds (n : Nat) (i : CInt) : Follows related (forInt body n i) (forInt other n i) := by
    induction n generalizing i with
    | zero => exact Follows.nothing
    | succ n ih => exact (each i).andThen (Follows.given (i.add 1) ih)
  exact rounds _ lo

theorem forUpTo_eq (body : CInt → σ → Option σ) (image : Nat → σ → σ) (lo hi : CInt) (s : σ)
    (room : hi.val + 1 < 2147483648)
    (agree : ∀ k (i : CInt) t, k < (hi.val + 1 - lo.val).toNat → i.val = lo.val + k → body i t = some (image k t)) :
    forUpTo lo hi body s = some (forRange (hi.val + 1 - lo.val).toNat image s) := by
  have high := lo.high
  apply forInt_eq _ _ _ _ _ _ agree
  omega

end LifeOS.Library.Ints
