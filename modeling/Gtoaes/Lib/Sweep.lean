import Mathlib.Algebra.BigOperators.Intervals
import Mathlib.Data.List.Range

/-!
Counting loops, upwards and downwards. A loop is proved by what holds before its `i`-th
pass. Where a pass stores to one cell of an array, the cell is read back from the pass
that stored to it; a sum that is taken off term by term has a closed form.
-/

namespace Gtoaes.Lib

variable {σ : Type*}

/-- `for (i = lo; i < hi; ++i)` -/
def sweep (lo hi : ℕ) (body : ℕ → σ → σ) (s : σ) : σ :=
  (List.range' lo (hi - lo)).foldl (fun s i => body i s) s

/-- `for (i = hi - 1; i >= 0; --i)` -/
def sweepDown (body : ℕ → σ → σ) : ℕ → σ → σ
  | 0, s => s
  | i + 1, s => sweepDown body i (body i s)

variable {lo hi : ℕ} {body : ℕ → σ → σ} {s : σ}

theorem sweep_of_le (h : hi ≤ lo) : sweep lo hi body s = s := by
  rw [sweep, Nat.sub_eq_zero_of_le h]
  rfl

theorem sweep_succ (h : lo ≤ hi) :
    sweep lo (hi + 1) body s = body hi (sweep lo hi body s) := by
  rw [sweep, Nat.sub_add_comm h, List.range'_concat, List.foldl_append]
  simp [sweep, Nat.add_sub_cancel' h]

/-- What holds before the first pass and is kept by each holds in the end. -/
theorem sweep_induction {motive : ℕ → σ → Prop} (hle : lo ≤ hi) (h : motive lo s)
    (hstep : ∀ i s, lo ≤ i → i < hi → motive i s → motive (i + 1) (body i s)) :
    motive hi (sweep lo hi body s) := by
  induction hi, hle using Nat.le_induction with
  | base =>
      rw [sweep_of_le le_rfl]
      exact h
  | succ hi hle ih =>
      rw [sweep_succ hle]
      exact hstep hi _ hle (Nat.lt_succ_self hi)
        (ih fun i s hlow hhigh => hstep i s hlow (Nat.lt_succ_of_lt hhigh))

theorem sweepDown_induction {motive : ℕ → σ → Prop} (h : motive hi s)
    (hstep : ∀ i s, i < hi → motive (i + 1) s → motive i (body i s)) :
    motive 0 (sweepDown body hi s) := by
  induction hi generalizing s with
  | zero => exact h
  | succ hi ih =>
      exact ih (hstep hi s (Nat.lt_succ_self hi) h)
        fun i s hi => hstep i s (Nat.lt_succ_of_lt hi)

section Update

variable {κ V : Type*} [DecidableEq κ] {cell : ℕ → κ} {f : ℕ → (κ → V) → V} {a : κ → V}

/-- A cell that no pass stores to stays. -/
theorem sweep_update_of_ne {k : κ} (h : ∀ i, lo ≤ i → i < hi → cell i ≠ k) :
    sweep lo hi (fun i a => Function.update a (cell i) (f i a)) a k = a k := by
  rcases Nat.le_total lo hi with hle | hle
  · refine sweep_induction (motive := fun _ (z : κ → V) => z k = a k) hle rfl
      fun i z hlow hhigh hz => ?_
    rw [Function.update_of_ne (h i hlow hhigh).symm, hz]
  · rw [sweep_of_le hle]

/-- A cell has what the last pass that stores to it made of the array it found. -/
theorem sweep_update_self {i : ℕ} (hlow : lo ≤ i) (hhigh : i < hi)
    (h : ∀ j, i < j → j < hi → cell j ≠ cell i) :
    sweep lo hi (fun i a => Function.update a (cell i) (f i a)) a (cell i) =
      f i (sweep lo i (fun i a => Function.update a (cell i) (f i a)) a) := by
  induction hi, hhigh using Nat.le_induction with
  | base => rw [sweep_succ hlow, Function.update_self]
  | succ hi hle ih =>
      rw [sweep_succ (by omega), Function.update_of_ne (h hi hle (Nat.lt_succ_self hi)).symm]
      exact ih fun j hij hj => h j hij (Nat.lt_succ_of_lt hj)

/-- Downwards, where a pass stores to its own cell and reads the cell above it. -/
theorem sweepDown_update (f : ℕ → V → V → V) {a z : ℕ → V}
    (hz : sweepDown (fun i a => Function.update a i (f i (a i) (a (i + 1)))) hi a = z) :
    (∀ i < hi, z i = f i (a i) (z (i + 1))) ∧ ∀ i, hi ≤ i → z i = a i := by
  induction hi generalizing a with
  | zero => exact ⟨fun i h => absurd h (Nat.not_lt_zero i), fun i _ => by rw [← hz]; rfl⟩
  | succ hi ih =>
      obtain ⟨hbelow, habove⟩ := ih hz
      dsimp only at hbelow habove
      have hstays : ∀ i, hi + 1 ≤ i → z i = a i := by
        intro i hle
        rw [habove i (by omega), Function.update_of_ne (by omega)]
      refine ⟨fun i hlt => ?_, hstays⟩
      rcases Nat.lt_succ_iff_lt_or_eq.mp hlt with hlt | rfl
      · rw [hbelow i hlt, Function.update_of_ne hlt.ne]
      · rw [habove i le_rfl, Function.update_self, hstays (i + 1) le_rfl]

end Update

section Sums

variable {K : Type*} [AddCommGroup K]

theorem sweep_sub (hle : lo ≤ hi) (f : ℕ → K) (s : K) :
    sweep lo hi (fun j sum => sum - f j) s = s - ∑ j ∈ Finset.Ico lo hi, f j := by
  refine sweep_induction (motive := fun i t => t = s - ∑ j ∈ Finset.Ico lo i, f j) hle (by simp) ?_
  rintro i t hlow - rfl
  rw [Finset.sum_Ico_succ_top hlow, sub_sub]

theorem sweep_add (hle : lo ≤ hi) (f : ℕ → K) (s : K) :
    sweep lo hi (fun j sum => sum + f j) s = s + ∑ j ∈ Finset.Ico lo hi, f j := by
  refine sweep_induction (motive := fun i t => t = s + ∑ j ∈ Finset.Ico lo i, f j) hle (by simp) ?_
  rintro i t hlow - rfl
  rw [Finset.sum_Ico_succ_top hlow, add_assoc]

end Sums

theorem sweep_mul {K : Type*} [CommMonoid K] (hle : lo ≤ hi) (f : ℕ → K) (s : K) :
    sweep lo hi (fun j prod => prod * f j) s = s * ∏ j ∈ Finset.Ico lo hi, f j := by
  refine sweep_induction (motive := fun i t => t = s * ∏ j ∈ Finset.Ico lo i, f j) hle (by simp) ?_
  rintro i t hlow - rfl
  rw [Finset.prod_Ico_succ_top hlow, mul_assoc]

end Gtoaes.Lib
