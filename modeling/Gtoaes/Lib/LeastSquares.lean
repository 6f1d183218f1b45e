import Mathlib.Algebra.Order.Field.Basic
import Mathlib.LinearAlgebra.Matrix.DotProduct
import Mathlib.LinearAlgebra.Matrix.ToLinearEquiv
import Mathlib.Tactic.Abel

/-!
Least squares over an ordered field. A row of the matrix `B` is a basis function at the
samples; coefficients that solve the normal equations leave residuals at right angles to
every row, and so what other coefficients miss is more by a sum of squares.
-/

namespace Gtoaes.Lib

open Matrix

variable {ι κ K : Type*} [Fintype ι] [Fintype κ] [Field K]

/-- What the values of a combination of the rows miss. -/
def residual (B : Matrix ι κ K) (y : κ → K) (c : ι → K) : κ → K := c ᵥ* B - y

def deviation (B : Matrix ι κ K) (y : κ → K) (c : ι → K) : K :=
  residual B y c ⬝ᵥ residual B y c

variable {B : Matrix ι κ K} {y : κ → K} {c : ι → K}

/-- The normal equations say that the residuals are orthogonal to the rows. -/
theorem normalEquations_iff : (B * Bᵀ) *ᵥ c = B *ᵥ y ↔ B *ᵥ residual B y c = 0 := by
  rw [residual, mulVec_sub, sub_eq_zero, ← mulVec_mulVec, mulVec_transpose]

theorem deviation_eq (hc : B *ᵥ residual B y c = 0) (z : ι → K) :
    deviation B y z = deviation B y c + ((z - c) ᵥ* B) ⬝ᵥ ((z - c) ᵥ* B) := by
  have hsplit : residual B y z = residual B y c + (z - c) ᵥ* B := by
    rw [residual, residual, sub_vecMul]
    abel
  have hortho : (z - c) ᵥ* B ⬝ᵥ residual B y c = 0 := by
    rw [← dotProduct_mulVec, hc, dotProduct_zero]
  have hortho' : residual B y c ⬝ᵥ (z - c) ᵥ* B = 0 := by rw [dotProduct_comm, hortho]
  rw [deviation, hsplit, add_dotProduct, dotProduct_add, dotProduct_add, hortho, hortho',
    add_zero, zero_add, deviation]

variable [LinearOrder K] [IsStrictOrderedRing K]

theorem dotProduct_self_nonneg (v : κ → K) : 0 ≤ v ⬝ᵥ v :=
  Finset.sum_nonneg fun k _ => mul_self_nonneg (v k)

/-- A solution of the normal equations deviates least. -/
theorem deviation_le (hc : B *ᵥ residual B y c = 0) (z : ι → K) :
    deviation B y c ≤ deviation B y z := by
  rw [deviation_eq hc z]
  exact le_add_of_nonneg_right (dotProduct_self_nonneg _)

variable (hB : ∀ z, z ᵥ* B = 0 → z = 0)
include hB

/-- Where the rows are independent, it alone does. -/
theorem eq_of_deviation_le (hc : B *ᵥ residual B y c = 0) {z : ι → K}
    (hz : deviation B y z ≤ deviation B y c) : z = c := by
  rw [deviation_eq hc z, add_le_iff_nonpos_right] at hz
  have hzero := hz.antisymm (dotProduct_self_nonneg _)
  exact sub_eq_zero.mp (hB _ (dotProduct_self_eq_zero.mp hzero))

/-- Independent rows have a regular normal matrix. -/
theorem det_normal_ne_zero [DecidableEq ι] : (B * Bᵀ).det ≠ 0 := by
  intro hdet
  obtain ⟨v, hne, hv⟩ := exists_mulVec_eq_zero_iff.mpr hdet
  rw [← mulVec_mulVec, mulVec_transpose] at hv
  have hzero : v ᵥ* B ⬝ᵥ v ᵥ* B = 0 := by rw [← dotProduct_mulVec, hv, dotProduct_zero]
  exact hne (hB v (dotProduct_self_eq_zero.mp hzero))

end Gtoaes.Lib
