import Mathlib.LinearAlgebra.Matrix.Block
import Mathlib.Tactic.FieldSimp
import Mathlib.Tactic.LinearCombination

/-!
Triangular factors kept in one matrix. Elimination column by column leaves the
multipliers below the diagonal, in the place of the zeros they make; rows are swapped
with the multipliers they carry.

After `k` columns the matrix stands for the product of a unit lower and an upper
factor, which is the given matrix with its rows permuted (`Factors`). Swapping two rows
that are still to be done, and one step of elimination, keep this.
-/

namespace Gtoaes.Lib

open Matrix

variable {n : ℕ} {K : Type*} [Field K]

/-- The unit lower factor: what stands below the diagonal in the first `k` columns. -/
def lowerFactor (k : ℕ) (M : Matrix (Fin n) (Fin n) K) : Matrix (Fin n) (Fin n) K :=
  fun i p => if p < i ∧ p.val < k then M i p else if p = i then 1 else 0

/-- The other factor: zeros below the diagonal in the first `k` columns. -/
def upperFactor (k : ℕ) (M : Matrix (Fin n) (Fin n) K) : Matrix (Fin n) (Fin n) K :=
  fun p j => if j < p ∧ j.val < k then 0 else M p j

/-- The rows of `A`, in the order `σ`, are the product of the factors in `M`. -/
def Factors (A : Matrix (Fin n) (Fin n) K) (σ : Equiv.Perm (Fin n)) (k : ℕ)
    (M : Matrix (Fin n) (Fin n) K) : Prop :=
  A.submatrix σ id = lowerFactor k M * upperFactor k M

/-- One step of elimination: every row below takes as much of the pivot row away as
clears its entry, and keeps the multiplier there. -/
def eliminate (k : Fin n) (M : Matrix (Fin n) (Fin n) K) : Matrix (Fin n) (Fin n) K :=
  fun i j =>
    if k < i then
      if j = k then M i k / M k k else if k < j then M i j - M i k / M k k * M k j else M i j
    else M i j

/-- An entry of the product, by the multipliers of its row. -/
theorem factors_apply (k : ℕ) (M : Matrix (Fin n) (Fin n) K) (i j : Fin n) :
    (lowerFactor k M * upperFactor k M) i j =
      (∑ p, if p < i ∧ p.val < k then M i p * upperFactor k M p j else 0) + upperFactor k M i j := by
  have hdiag : upperFactor k M i j = ∑ p, if p = i then upperFactor k M p j else 0 := by simp
  rw [mul_apply, hdiag, ← Finset.sum_add_distrib]
  refine Finset.sum_congr rfl fun p _ => ?_
  rw [lowerFactor]
  split_ifs with hlow hsame
  · exact absurd hsame hlow.1.ne
  · rw [add_zero]
  · rw [one_mul, zero_add]
  · rw [zero_mul, zero_add]

namespace Factors

variable {A M : Matrix (Fin n) (Fin n) K} {σ : Equiv.Perm (Fin n)} {k : ℕ}

/-- Before the first step. -/
theorem init (A : Matrix (Fin n) (Fin n) K) : Factors A 1 0 A := by
  ext i j
  rw [factors_apply]
  simp [upperFactor]

/-- Swapping rows from the `k`-th on leaves each on its side of the first `k`. -/
theorem lt_swap_iff {i q : Fin n} (hi : k ≤ i.val) (hq : k ≤ q.val) {p : Fin n} (hp : p.val < k)
    (r : Fin n) : p < Equiv.swap i q r ↔ p < r := by
  rw [Equiv.swap_apply_def]
  split_ifs with h h'
  · rw [h, Fin.lt_def, Fin.lt_def]
    omega
  · rw [h', Fin.lt_def, Fin.lt_def]
    omega
  · rfl

theorem swap_of_lt {i q : Fin n} (hi : k ≤ i.val) (hq : k ≤ q.val) {p : Fin n} (hp : p.val < k) :
    Equiv.swap i q p = p := by
  apply Equiv.swap_apply_of_ne_of_ne
  · rintro rfl
    omega
  · rintro rfl
    omega

/-- Two rows that are still to be done are swapped. -/
theorem swap (h : Factors A σ k M) {i q : Fin n} (hi : k ≤ i.val) (hq : k ≤ q.val) :
    Factors A (σ * Equiv.swap i q) k (M.submatrix (Equiv.swap i q) id) := by
  ext r j
  have hentry := congrFun (congrFun h (Equiv.swap i q r)) j
  rw [factors_apply] at hentry ⊢
  refine hentry.trans (congrArg₂ (· + ·) (Finset.sum_congr rfl fun p _ => ?_) ?_)
  · by_cases hp : p.val < k
    · have hrow : upperFactor k (M.submatrix (Equiv.swap i q) id) p j = upperFactor k M p j := by
        rw [upperFactor, upperFactor, submatrix_apply, swap_of_lt hi hq hp, id]
      simp only [lt_swap_iff hi hq hp, hrow, submatrix_apply, id]
    · simp only [hp, and_false, if_false]
  · by_cases hj : j.val < k
    · simp only [upperFactor, lt_swap_iff hi hq hj, submatrix_apply, id]
    · simp only [upperFactor, hj, and_false, if_false, submatrix_apply, id]

/-- Down to the pivot row, the rows stay. -/
theorem upperFactor_eliminate_of_le {k p : Fin n} (hp : p ≤ k) (j : Fin n) :
    upperFactor (k + 1) (Lib.eliminate k M) p j = upperFactor k M p j := by
  have hrow : Lib.eliminate k M p j = M p j := if_neg hp.not_gt
  have hdone : j < p ∧ j.val < k.val + 1 ↔ j < p ∧ j.val < k.val := by
    simp only [Fin.lt_def, Fin.le_def] at hp ⊢
    omega
  simp only [upperFactor, hrow, hdone]

/-- Below it, they lose their multiple of the pivot row. -/
theorem upperFactor_eliminate_of_lt {k p : Fin n} (hp : k < p) (hpivot : M k k ≠ 0) (j : Fin n) :
    upperFactor (k + 1) (Lib.eliminate k M) p j =
      upperFactor k M p j - M p k / M k k * upperFactor k M k j := by
  rcases lt_trichotomy j k with h | h | h
  · have hbelow : j < p ∧ j.val < k.val := ⟨h.trans hp, h⟩
    have hbelow' : j < p ∧ j.val < k.val + 1 := ⟨h.trans hp, Nat.lt_succ_of_lt h⟩
    simp only [upperFactor, if_pos hbelow, if_pos hbelow', if_pos (And.intro h hbelow.2), mul_zero,
      sub_zero]
  · subst h
    have hbelow : j < p ∧ j.val < j.val + 1 := ⟨hp, Nat.lt_succ_self _⟩
    simp only [upperFactor, if_pos hbelow, lt_irrefl, and_false, if_false]
    field_simp
    ring
  · have hright : ¬ (j < p ∧ j.val < k.val + 1) := fun hj => by
      have := Fin.lt_def.mp h
      omega
    have hright' : ¬ (j < p ∧ j.val < k.val) := fun hj => hright ⟨hj.1, by omega⟩
    have hright'' : ¬ (j < k ∧ j.val < k.val) := fun hj => absurd hj.1 h.asymm
    simp only [upperFactor, if_neg hright, if_neg hright', if_neg hright'', Lib.eliminate, if_pos hp,
      if_neg h.ne', if_pos h]

/-- A step of elimination with a pivot. -/
theorem eliminate {k : Fin n} (h : Factors A σ k M) (hpivot : M k k ≠ 0) :
    Factors A σ (k + 1) (eliminate k M) := by
  ext i j
  have hentry := congrFun (congrFun h i) j
  rw [factors_apply] at hentry ⊢
  rw [hentry]
  -- the new multiplier of the row is one more summand
  have hsum : (∑ p, if p < i ∧ p.val < k.val + 1 then
        Lib.eliminate k M i p * upperFactor (k + 1) (Lib.eliminate k M) p j else 0) =
      (∑ p, if p < i ∧ p.val < k.val then M i p * upperFactor k M p j else 0) +
        if k < i then M i k / M k k * upperFactor k M k j else 0 := by
    have hsingle : (if k < i then M i k / M k k * upperFactor k M k j else 0) =
        ∑ p, if p = k then (if k < i then M i k / M k k * upperFactor k M k j else 0) else 0 := by
      simp
    rw [hsingle, ← Finset.sum_add_distrib]
    refine Finset.sum_congr rfl fun p _ => ?_
    rcases lt_trichotomy p k with hp | rfl | hp
    · have hcount : p.val < k.val ∧ p.val < k.val + 1 := ⟨hp, Nat.lt_succ_of_lt hp⟩
      have hcell : Lib.eliminate k M i p = M i p := by
        simp only [Lib.eliminate, if_neg hp.ne, if_neg hp.asymm, ite_self]
      simp only [hcount, and_true, if_neg hp.ne, add_zero, hcell, upperFactor_eliminate_of_le hp.le]
    · simp only [Nat.lt_succ_self, and_true, lt_irrefl, and_false, if_false, zero_add, if_true,
        upperFactor_eliminate_of_le le_rfl]
      by_cases hi : p < i
      · simp only [Lib.eliminate, if_pos hi, if_true]
      · rw [if_neg hi, if_neg hi]
    · have hcount : ¬ p.val < k.val ∧ ¬ p.val < k.val + 1 := by
        have := Fin.lt_def.mp hp
        omega
      simp only [hcount, and_false, if_false, if_neg hp.ne', add_zero]
  rw [hsum]
  by_cases hi : k < i
  · rw [if_pos hi, upperFactor_eliminate_of_lt hi hpivot]
    ring
  · rw [if_neg hi, upperFactor_eliminate_of_le (not_lt.mp hi), add_zero]

/-- The lower factor does not count for the determinant. -/
theorem det_eq_upper (h : Factors A σ k M) :
    A.det = Equiv.Perm.sign σ * (upperFactor k M).det := by
  have htriangular : (lowerFactor k M).IsLowerTriangular := by
    intro i j hij
    have hlt : i < j := hij
    rw [lowerFactor, if_neg fun hj => hlt.asymm hj.1, if_neg hlt.ne']
  have hlower : (lowerFactor k M).det = 1 := by
    rw [det_of_isLowerTriangular _ htriangular]
    exact Finset.prod_eq_one fun i _ => by simp [lowerFactor]
  have hdet := congrArg det h
  rw [det_permute, det_mul, hlower, one_mul] at hdet
  rw [← hdet, ← mul_assoc, ← Int.cast_mul, ← Units.val_mul, Int.units_mul_self]
  simp

/-- The determinant, once every column is done. -/
theorem det_eq (h : Factors A σ n M) : A.det = Equiv.Perm.sign σ * ∏ i, M i i := by
  have htriangular : (upperFactor n M).IsUpperTriangular := by
    intro i j hij
    exact if_pos ⟨hij, j.isLt⟩
  rw [h.det_eq_upper, det_of_isUpperTriangular htriangular]
  congr 1
  exact Finset.prod_congr rfl fun i _ => by simp [upperFactor]

/-- Where no pivot is left in a column, the matrix is singular. -/
theorem det_eq_zero (h : Factors A σ k M) {c : Fin n} (hc : c.val = k)
    (hcolumn : ∀ i : Fin n, k ≤ i.val → M i c = 0) : A.det = 0 := by
  -- the first `k` rows, and those below, which keep a column of zeros
  rw [h.det_eq_upper, twoBlockTriangular_det (upperFactor k M) (fun i => i.val < k)]
  · refine mul_eq_zero_of_right _ (mul_eq_zero_of_right _ ?_)
    apply det_eq_zero_of_column_eq_zero ⟨c, by omega⟩
    rintro ⟨i, hi⟩
    show upperFactor k M i c = 0
    rw [upperFactor, if_neg (by omega)]
    exact hcolumn i (by omega)
  · intro i hi j hj
    exact if_pos ⟨by rw [Fin.lt_def]; omega, hj⟩

theorem exists_pivot (h : Factors A σ k M) (hA : A.det ≠ 0) {c : Fin n} (hc : c.val = k) :
    ∃ i : Fin n, k ≤ i.val ∧ M i c ≠ 0 := by
  by_contra hnone
  refine hA (h.det_eq_zero hc fun i hi => ?_)
  by_contra hpivot
  exact hnone ⟨i, hi, hpivot⟩

theorem diag_ne_zero (h : Factors A σ n M) (hA : A.det ≠ 0) (i : Fin n) : M i i ≠ 0 := by
  intro hzero
  have hproduct : ∏ i, M i i = 0 := Finset.prod_eq_zero (Finset.mem_univ i) hzero
  rw [h.det_eq, hproduct, mul_zero] at hA
  exact hA rfl

/-- Substitution forwards and backwards solves the system. -/
theorem mulVec_eq (h : Factors A σ n M) {b y x : Fin n → K}
    (hforward : ∀ i, (∑ j, if j < i then M i j * y j else 0) + y i = b (σ i))
    (hback : ∀ i, M i i * x i + (∑ j, if i < j then M i j * x j else 0) = y i) :
    A.mulVec x = b := by
  have hupper : (upperFactor n M).mulVec x = y := by
    ext i
    have hdiag : M i i * x i = ∑ j, if j = i then M i j * x j else 0 := by simp
    rw [← hback i, hdiag, ← Finset.sum_add_distrib, mulVec, dotProduct]
    refine Finset.sum_congr rfl fun j _ => ?_
    rcases lt_trichotomy j i with hj | rfl | hj
    · simp [upperFactor, hj, hj.ne, hj.asymm]
    · simp [upperFactor]
    · simp [upperFactor, hj, hj.ne', hj.asymm]
  have hlower : (lowerFactor n M).mulVec y = fun i => b (σ i) := by
    ext i
    have hdiag : y i = ∑ j, if j = i then y j else 0 := by simp
    rw [← hforward i, hdiag, ← Finset.sum_add_distrib, mulVec, dotProduct]
    refine Finset.sum_congr rfl fun j _ => ?_
    rcases lt_trichotomy j i with hj | rfl | hj
    · simp [lowerFactor, hj, hj.ne]
    · simp [lowerFactor]
    · simp [lowerFactor, hj.ne', hj.asymm]
  have hproduct : (A.submatrix σ id).mulVec x = fun i => b (σ i) := by
    rw [h, ← mulVec_mulVec, hupper, hlower]
  ext i
  have hrow := congrFun hproduct (σ.symm i)
  simpa [mulVec, dotProduct] using hrow

end Factors

end Gtoaes.Lib
