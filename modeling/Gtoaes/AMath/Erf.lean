import Gtoaes.Lib.Bisect
import Mathlib.Analysis.Complex.ExponentialBounds
import Mathlib.Analysis.SpecialFunctions.Exp

/-!
The normal distribution. `erf` is a rational approximation under an exponential, with a
small step at 0; `reverse_erf` looks for its argument by bisection, and goes on until the
value is close.
-/

namespace Gtoaes

open Lib

section

variable {K : Type} [Field K] [LinearOrder K] (exp : K → K)

/-- The polynomial of `erf`. -/
def erfPoly (t : K) : K :=
  1.00002368 + t * (0.37409196 + t * (0.09678418 + t * (-0.18628806 + t * (0.27886807 + t *
    (-1.13520398 + t * (1.48851587 + t * (-0.82215223 + t * 0.17087277)))))))

/-- `y` of `erf`, before it is taken from 1. -/
def erfTail (x : K) : K :=
  let z := |x|
  let t := 1.0 / (1.0 + 0.5 * z)
  t * exp (-z * z - 1.26551223 + t * erfPoly t)

def erf (x : K) : K := if x ≥ 0.0 then 1.0 - erfTail exp x else erfTail exp x - 1.0

/-- The interval in which `reverse_erf` looks. -/
def erfInterval (z : K) : K × K := if z ≥ 0 then (0, 4.0) else (-4.0, 0)

/-- `reverse_erf`, in so many iterations. -/
def reverseErf (fuel : ℕ) (z : K) : Option K :=
  Loop.run (Bisect.body (erf exp) z (1.2 / 10 ^ 7)) fuel 1 (erfInterval z)

/-- `CNDF` -/
def cndf (sqrt : K → K) (x mu sigma : K) : K :=
  let z := (x - mu) / sqrt 2.0 / sigma
  0.5 * (1 + erf exp z)

/-- `RCNDF` -/
def rcndf (sqrt : K → K) (fuel : ℕ) (p mu sigma : K) : Option K :=
  (reverseErf exp fuel (p * 2.0 - 1)).map fun z => z * sqrt 2.0 * sigma + mu

end

open Real

/-! ### The values of `erf` -/

theorem erfTail_pos (x : ℝ) : 0 < erfTail exp x := by
  have ht : (0 : ℝ) < 1.0 / (1.0 + 0.5 * |x|) := by positivity
  exact mul_pos ht (exp_pos _)

theorem erf_of_nonneg {x : ℝ} (hx : 0 ≤ x) : erf exp x = 1 - erfTail exp x := by
  rw [erf, if_pos (by norm_num; exact hx)]
  norm_num

theorem erf_of_neg {x : ℝ} (hx : x < 0) : erf exp x = erfTail exp x - 1 := by
  rw [erf, if_neg (by norm_num; exact hx)]
  norm_num

theorem erfTail_neg (x : ℝ) : erfTail exp (-x) = erfTail exp x := by
  rw [erfTail, erfTail, abs_neg]

theorem continuous_erfTail : Continuous (erfTail exp) := by
  obtain ⟨t, ht⟩ : ∃ t : ℝ → ℝ, t = fun x => 1.0 / (1.0 + 0.5 * |x|) := ⟨_, rfl⟩
  have hcont : Continuous t := by
    rw [ht]
    refine Continuous.div (by fun_prop) (by fun_prop) fun x => ?_
    positivity
  have htail : erfTail exp = fun x => t x * exp (-|x| * |x| - 1.26551223 + t x * erfPoly (t x)) := by
    rw [ht]
    rfl
  rw [htail]
  unfold erfPoly
  fun_prop

/-- At 0 the tail is a little above 1. -/
theorem one_le_erfTail_zero : 1 ≤ erfTail exp 0 := by
  have htail : erfTail exp 0 = exp (3 / 10 ^ 8) := by
    norm_num [erfTail, erfPoly]
  rw [htail]
  exact one_le_exp (by norm_num)

/-- At 4 there is next to nothing. -/
theorem erfTail_four : erfTail exp 4 ≤ 1 / 10 ^ 7 := by
  have htail : erfTail exp 4 ≤ 1 / 3 * exp (-16) := by
    have hargument : -|4| * |4| - 1.26551223 + 1.0 / (1.0 + 0.5 * |4|) *
        erfPoly (1.0 / (1.0 + 0.5 * |4|)) ≤ (-16 : ℝ) := by
      rw [abs_of_pos (by norm_num : (0 : ℝ) < 4)]
      norm_num [erfPoly]
    have hfactor : 1.0 / (1.0 + 0.5 * |4|) = (1 / 3 : ℝ) := by
      rw [abs_of_pos (by norm_num : (0 : ℝ) < 4)]
      norm_num
    rw [erfTail]
    exact mul_le_mul hfactor.le (exp_le_exp.mpr hargument) (exp_pos _).le (by norm_num)
  have hexp : exp (-16) ≤ 1 / (2.7 : ℝ) ^ 16 := by
    rw [exp_neg, show (16 : ℝ) = ((16 : ℕ) : ℝ) * 1 by norm_num, exp_nat_mul, one_div]
    refine inv_anti₀ (by positivity) (pow_le_pow_left₀ (by norm_num) ?_ 16)
    linarith [exp_one_gt_d9]
  have hpow : 1 / (2.7 : ℝ) ^ 16 ≤ 3 / 10 ^ 7 := by norm_num
  linarith

/-! ### Bisection -/

theorem erfInterval_of_nonneg {z : ℝ} (hz : 0 ≤ z) : erfInterval z = (0, 4) := by
  rw [erfInterval, if_pos hz]
  norm_num

theorem erfInterval_of_neg {z : ℝ} (hz : z < 0) : erfInterval z = (-4, 0) := by
  rw [erfInterval, if_neg (not_le.mpr hz)]
  norm_num

/-- Within its range, `reverse_erf` ends. -/
theorem reverseErf_ends {z : ℝ} (hz : -1 ≤ z ∧ z ≤ 1) :
    ∃ fuel x, reverseErf exp fuel z = some x ∧ |erf exp x - z| ≤ 1.2 / 10 ^ 7 := by
  have hends : Loop.Terminates (Bisect.body (erf exp) z (1.2 / 10 ^ 7)) 1 (erfInterval z) := by
    have hzero := one_le_erfTail_zero
    have hfour := erfTail_four
    have hpos := erfTail_pos 4
    by_cases hsign : 0 ≤ z
    · rw [erfInterval_of_nonneg hsign]
      have hencl : Bisect.Encloses (fun x => 1 - erfTail exp x) 0 4 z (1 / 10 ^ 7) (0, 4) :=
        ⟨le_rfl, by norm_num, le_rfl, by dsimp only; linarith, by dsimp only; linarith [hz.2]⟩
      exact hencl.terminates (by norm_num) (by norm_num)
        (continuous_const.sub continuous_erfTail).continuousOn (fun x hx _ => erf_of_nonneg hx.le) 1
    · -- the interval ends at the step, on the far side of which no middle lies
      rw [erfInterval_of_neg (not_le.mp hsign)]
      have hfour' : erfTail exp (-4) ≤ 1 / 10 ^ 7 := (erfTail_neg 4).trans_le hfour
      have hencl : Bisect.Encloses (fun x => erfTail exp x - 1) (-4) 0 z (1 / 10 ^ 7) (-4, 0) :=
        ⟨le_rfl, by norm_num, le_rfl, by dsimp only; linarith [hz.1], by dsimp only; linarith⟩
      exact hencl.terminates (by norm_num) (by norm_num)
        (continuous_erfTail.sub continuous_const).continuousOn (fun x _ hx => erf_of_neg hx) 1
  obtain ⟨fuel, x, hx⟩ := hends
  exact ⟨fuel, x, hx, Bisect.close_of_run hx⟩

/-- Outside of it, by what counts as close, it does not. -/
theorem reverseErf_none {z : ℝ} (hz : z ≤ -1 - 1.2 / 10 ^ 7 ∨ 1 + 1.2 / 10 ^ 7 ≤ z) (fuel : ℕ) :
    reverseErf exp fuel z = none := by
  have hnever : ¬ Loop.Terminates (Bisect.body (erf exp) z (1.2 / 10 ^ 7)) 1 (erfInterval z) := by
    rcases hz with hz | hz
    · rw [erfInterval_of_neg (by linarith)]
      refine Bisect.not_terminates (a := -4) (b := 0) (fun x _ hx => ?_) le_rfl (by norm_num) le_rfl 1
      rw [erf_of_neg hx]
      exact lt_abs.mpr (.inl (by linarith [erfTail_pos x]))
    · rw [erfInterval_of_nonneg (by linarith)]
      refine Bisect.not_terminates (a := 0) (b := 4) (fun x hx _ => ?_) le_rfl (by norm_num) le_rfl 1
      rw [erf_of_nonneg hx.le]
      exact lt_abs.mpr (.inr (by linarith [erfTail_pos x]))
  exact Option.eq_none_iff_forall_not_mem.mpr fun x hx => hnever ⟨fuel, x, hx⟩

/-! ### Quantiles -/

theorem cndf_of_erf (x mu : ℝ) {sigma : ℝ} (hsigma : sigma ≠ 0) :
    cndf exp sqrt (x * sqrt 2.0 * sigma + mu) mu sigma = 0.5 * (1 + erf exp x) := by
  have hsqrt : sqrt 2.0 ≠ 0 := (sqrt_pos.mpr (by norm_num)).ne'
  have harg : (x * sqrt 2.0 * sigma + mu - mu) / sqrt 2.0 / sigma = x := by
    field_simp
    ring
  rw [cndf, harg]

/-- `RCNDF` finds a quantile for every probability, to within what counts as close; for what
is no probability, by that much, it does not end. -/
theorem rcndf_ends (mu : ℝ) {sigma : ℝ} (hsigma : sigma ≠ 0) (p : ℝ) :
    (0 ≤ p ∧ p ≤ 1 → ∃ fuel x, rcndf exp sqrt fuel p mu sigma = some x) ∧
      (∀ fuel x, rcndf exp sqrt fuel p mu sigma = some x →
        (-0.6 / 10 ^ 7 < p ∧ p < 1 + 0.6 / 10 ^ 7) ∧
          |cndf exp sqrt x mu sigma - p| ≤ 0.6 / 10 ^ 7) := by
  refine ⟨fun hp => ?_, fun fuel x hx => ?_⟩
  · obtain ⟨fuel, x, hx, -⟩ := reverseErf_ends (z := p * 2.0 - 1) ⟨by linarith, by linarith⟩
    exact ⟨fuel, x * sqrt 2.0 * sigma + mu, by rw [rcndf, hx]; rfl⟩
  · obtain ⟨z, hz, rfl⟩ := Option.map_eq_some_iff.mp hx
    have hclose := Bisect.close_of_run hz
    rw [abs_le] at hclose
    refine ⟨?_, ?_⟩
    · constructor
      · by_contra hlow
        rw [reverseErf_none (.inl (by linarith)) fuel] at hz
        cases hz
      · by_contra hhigh
        rw [reverseErf_none (.inr (by linarith)) fuel] at hz
        cases hz
    · rw [cndf_of_erf z mu hsigma, abs_le]
      constructor
      · linarith
      · linarith

/-- The median. -/
theorem rcndf_ends_half : ∃ fuel x, rcndf exp sqrt fuel (1 / 2) 0 1 = some x :=
  (rcndf_ends 0 one_ne_zero (1 / 2)).1 ⟨by norm_num, by norm_num⟩

end Gtoaes
