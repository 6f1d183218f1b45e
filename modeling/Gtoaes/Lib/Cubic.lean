import Mathlib.Algebra.Polynomial.Derivative
import Mathlib.Tactic.ComputeDegree
import Mathlib.Tactic.FieldSimp
import Mathlib.Tactic.LinearCombination
import Mathlib.Tactic.Ring

/-!
Cubics between two nodes from their values and second derivatives there, and chains of
such cubics. Two neighbours have one slope at the node between them just where the second
derivatives at three nodes in a row satisfy a linear equation; such equations are solved
by elimination from the one end and substitution from the other.
-/

namespace Gtoaes.Lib

open Polynomial

variable {K : Type*} [Field K]

/-! ### One cubic -/

/-- The cubic that is `y₀` at `x₀` and `y₁` at `x₁`, with second derivatives `m₀` and `m₁`. -/
noncomputable def cubicPiece (x₀ x₁ y₀ y₁ m₀ m₁ : K) : K[X] :=
  let A := C (x₁ - x₀)⁻¹ * (C x₁ - X)
  let B := C (x₁ - x₀)⁻¹ * (X - C x₀)
  A * C y₀ + B * C y₁ +
    ((A * A - 1) * A * C m₀ + (B * B - 1) * B * C m₁) * C ((x₁ - x₀) * (x₁ - x₀) / 6)

section CubicPiece

variable {x₀ x₁ : K} (y₀ y₁ m₀ m₁ : K)

theorem eval_cubicPiece (x : K) :
    (cubicPiece x₀ x₁ y₀ y₁ m₀ m₁).eval x =
      (x₁ - x) / (x₁ - x₀) * y₀ + (x - x₀) / (x₁ - x₀) * y₁ +
        (((x₁ - x) / (x₁ - x₀) * ((x₁ - x) / (x₁ - x₀)) - 1) * ((x₁ - x) / (x₁ - x₀)) * m₀ +
          ((x - x₀) / (x₁ - x₀) * ((x - x₀) / (x₁ - x₀)) - 1) * ((x - x₀) / (x₁ - x₀)) * m₁) *
          (x₁ - x₀) * (x₁ - x₀) / 6 := by
  simp only [cubicPiece, eval_add, eval_mul, eval_sub, eval_C, eval_X, eval_one]
  ring

theorem natDegree_cubicPiece_le : (cubicPiece x₀ x₁ y₀ y₁ m₀ m₁).natDegree ≤ 3 := by
  simp only [cubicPiece]
  compute_degree

theorem derivative_cubicPiece : (cubicPiece x₀ x₁ y₀ y₁ m₀ m₁).derivative =
    C (x₁ - x₀)⁻¹ * (C y₁ - C y₀) +
      (C 3 * ((C (x₁ - x₀)⁻¹ * (X - C x₀)) * (C (x₁ - x₀)⁻¹ * (X - C x₀))) * C m₁ -
          C 3 * ((C (x₁ - x₀)⁻¹ * (C x₁ - X)) * (C (x₁ - x₀)⁻¹ * (C x₁ - X))) * C m₀ +
            C m₀ - C m₁) *
        (C (x₁ - x₀)⁻¹ * C ((x₁ - x₀) * (x₁ - x₀) / 6)) := by
  simp only [cubicPiece, derivative_add, derivative_mul, derivative_sub, derivative_C,
    derivative_X, derivative_one, C_ofNat]
  ring

variable (h : x₁ - x₀ ≠ 0)

include h

theorem eval_cubicPiece_left : (cubicPiece x₀ x₁ y₀ y₁ m₀ m₁).eval x₀ = y₀ := by
  rw [eval_cubicPiece]
  field_simp
  ring

theorem eval_cubicPiece_right : (cubicPiece x₀ x₁ y₀ y₁ m₀ m₁).eval x₁ = y₁ := by
  rw [eval_cubicPiece]
  field_simp
  ring

variable [CharZero K]

theorem slope_cubicPiece (x : K) :
    (cubicPiece x₀ x₁ y₀ y₁ m₀ m₁).derivative.eval x =
      (y₁ - y₀) / (x₁ - x₀) + ((x - x₀) ^ 2 * m₁ - (x₁ - x) ^ 2 * m₀) / (2 * (x₁ - x₀)) -
        (x₁ - x₀) * (m₁ - m₀) / 6 := by
  rw [derivative_cubicPiece]
  simp only [eval_add, eval_mul, eval_sub, eval_C, eval_X]
  field_simp
  ring

/-- The second derivative runs straight from the one node to the other. -/
theorem second_cubicPiece (x : K) :
    (cubicPiece x₀ x₁ y₀ y₁ m₀ m₁).derivative.derivative.eval x =
      (x - x₀) / (x₁ - x₀) * m₁ + (x₁ - x) / (x₁ - x₀) * m₀ := by
  rw [derivative_cubicPiece]
  simp only [derivative_add, derivative_mul, derivative_sub, derivative_C, derivative_X,
    eval_add, eval_mul, eval_sub, eval_C, eval_X, eval_one, eval_zero]
  field_simp
  ring

theorem slope_cubicPiece_left : (cubicPiece x₀ x₁ y₀ y₁ m₀ m₁).derivative.eval x₀ =
    (y₁ - y₀) / (x₁ - x₀) - (x₁ - x₀) / 6 * (2 * m₀ + m₁) := by
  rw [slope_cubicPiece y₀ y₁ m₀ m₁ h]
  field_simp
  ring

theorem slope_cubicPiece_right : (cubicPiece x₀ x₁ y₀ y₁ m₀ m₁).derivative.eval x₁ =
    (y₁ - y₀) / (x₁ - x₀) + (x₁ - x₀) / 6 * (m₀ + 2 * m₁) := by
  rw [slope_cubicPiece y₀ y₁ m₀ m₁ h]
  field_simp
  ring

theorem second_cubicPiece_left :
    (cubicPiece x₀ x₁ y₀ y₁ m₀ m₁).derivative.derivative.eval x₀ = m₀ := by
  rw [second_cubicPiece y₀ y₁ m₀ m₁ h, sub_self, zero_div, zero_mul, zero_add, div_self h, one_mul]

theorem second_cubicPiece_right :
    (cubicPiece x₀ x₁ y₀ y₁ m₀ m₁).derivative.derivative.eval x₁ = m₁ := by
  rw [second_cubicPiece y₀ y₁ m₀ m₁ h, sub_self, zero_div, zero_mul, add_zero, div_self h, one_mul]

end CubicPiece

/-- Neighbours have one slope where the second derivatives satisfy an equation. -/
theorem slope_eq_iff [CharZero K] {x₀ x₁ x₂ y₀ y₁ y₂ m₀ m₁ m₂ : K} (h₀ : x₁ - x₀ ≠ 0)
    (h₁ : x₂ - x₁ ≠ 0) (h : x₂ - x₀ ≠ 0) :
    (cubicPiece x₀ x₁ y₀ y₁ m₀ m₁).derivative.eval x₁ =
        (cubicPiece x₁ x₂ y₁ y₂ m₁ m₂).derivative.eval x₁ ↔
      (x₁ - x₀) / (x₂ - x₀) * m₀ + 2 * m₁ + (1 - (x₁ - x₀) / (x₂ - x₀)) * m₂ =
        6 * ((y₂ - y₁) / (x₂ - x₁) - (y₁ - y₀) / (x₁ - x₀)) / (x₂ - x₀) := by
  have hdiff : (y₁ - y₀) / (x₁ - x₀) + (x₁ - x₀) / 6 * (m₀ + 2 * m₁) -
        ((y₂ - y₁) / (x₂ - x₁) - (x₂ - x₁) / 6 * (2 * m₁ + m₂)) =
      (x₂ - x₀) / 6 * ((x₁ - x₀) / (x₂ - x₀) * m₀ + 2 * m₁ + (1 - (x₁ - x₀) / (x₂ - x₀)) * m₂ -
        6 * ((y₂ - y₁) / (x₂ - x₁) - (y₁ - y₀) / (x₁ - x₀)) / (x₂ - x₀)) := by
    field_simp
    ring
  have hscale : (x₂ - x₀) / 6 ≠ 0 := div_ne_zero h (by norm_num)
  rw [slope_cubicPiece_right y₀ y₁ m₀ m₁ h₀, slope_cubicPiece_left y₁ y₂ m₁ m₂ h₁, ← sub_eq_zero,
    hdiff, mul_eq_zero, or_iff_right hscale, sub_eq_zero]

/-- Cubics between neighbouring nodes, of one value and one slope where two meet. -/
structure PiecewiseCubic (n : ℕ) (x : ℕ → K) where
  piece : ℕ → K[X]
  degree_le : ∀ i, i + 1 < n → (piece i).natDegree ≤ 3
  value_eq : ∀ i, i + 2 < n → (piece i).eval (x (i + 1)) = (piece (i + 1)).eval (x (i + 1))
  slope_eq : ∀ i, i + 2 < n →
    (piece i).derivative.eval (x (i + 1)) = (piece (i + 1)).derivative.eval (x (i + 1))

/-- Values and second derivatives at the nodes that satisfy the equation at every node
between two others. -/
theorem PiecewiseCubic.exists_of_moments [CharZero K] {n : ℕ} {x : ℕ → K} (y m : ℕ → K)
    (hx : ∀ i, i + 1 < n → x (i + 1) - x i ≠ 0) (hx' : ∀ i, i + 2 < n → x (i + 2) - x i ≠ 0)
    (hm : ∀ i, i + 2 < n →
      (x (i + 1) - x i) / (x (i + 2) - x i) * m i + 2 * m (i + 1) +
          (1 - (x (i + 1) - x i) / (x (i + 2) - x i)) * m (i + 2) =
        6 * ((y (i + 2) - y (i + 1)) / (x (i + 2) - x (i + 1)) -
          (y (i + 1) - y i) / (x (i + 1) - x i)) / (x (i + 2) - x i)) :
    ∃ S : PiecewiseCubic n x,
      S.piece = fun i => cubicPiece (x i) (x (i + 1)) (y i) (y (i + 1)) (m i) (m (i + 1)) := by
  refine ⟨⟨_, fun i _ => natDegree_cubicPiece_le .., fun i hi => ?_, fun i hi => ?_⟩, rfl⟩
  · rw [eval_cubicPiece_right _ _ _ _ (hx i (by omega)),
      eval_cubicPiece_left _ _ _ _ (hx (i + 1) hi)]
  · exact (slope_eq_iff (hx i (by omega)) (hx (i + 1) hi) (hx' i hi)).mpr (hm i hi)

/-! ### Elimination -/

/-- An equation in three unknowns in a row, the first of which is given by the second. -/
theorem row_iff {a b c r γ ρ z₀ z₁ z₂ : K} (h₀ : z₀ = γ * z₁ + ρ) (hp : a * γ + b ≠ 0) :
    a * z₀ + b * z₁ + c * z₂ = r ↔ z₁ = -c / (a * γ + b) * z₂ + (r - a * ρ) / (a * γ + b) := by
  rw [h₀, div_mul_eq_mul_div, ← add_div, eq_div_iff hp]
  constructor <;> intro h <;> linear_combination h

end Gtoaes.Lib
