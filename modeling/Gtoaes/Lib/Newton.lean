import Mathlib.Analysis.Calculus.Deriv.MeanValue
import Mathlib.Topology.Algebra.Module.ModuleTopology
import Gtoaes.Lib.Loop

/-!
Iterations that come nearer to a point by a fixed factor each time, and a loop that
goes on until two of its values are close. The distance of two values tells how far it
is to the point, so the loop stops, and near the point.

Newton's method is such an iteration from any start on where the slope lies between two
positive bounds that are less than a factor of two apart.
-/

namespace Gtoaes.Lib.Newton

/-- Every value is nearer to `r` than the one before, by the factor `q`. -/
structure Nearer (next : ℝ → ℝ) (r q : ℝ) : Prop where
  nonneg : 0 ≤ q
  lt_one : q < 1
  near : ∀ x, |next x - r| ≤ q * |x - r|

/-- The loop that iterates until two values are close; it keeps the last two. -/
noncomputable def body (next : ℝ → ℝ) (tol : ℝ) (_ : ℕ) (x : ℝ × ℝ) : ℝ × ℝ ⊕ ℝ :=
  if |x.1 - x.2| > tol then .inl (x.2, next x.2) else .inr x.2

section

variable {next : ℝ → ℝ} {r q tol : ℝ}

theorem Nearer.step_le (h : Nearer next r q) (x : ℝ) : |x - next x| ≤ (1 + q) * |x - r| := by
  calc |x - next x| = |(x - r) - (next x - r)| := by rw [sub_sub_sub_cancel_right]
    _ ≤ |x - r| + |next x - r| := abs_sub _ _
    _ ≤ |x - r| + q * |x - r| := by linarith [h.near x]
    _ = (1 + q) * |x - r| := by ring

theorem Nearer.le_step (h : Nearer next r q) (x : ℝ) : (1 - q) * |x - r| ≤ |x - next x| := by
  have htri : |x - r| ≤ |x - next x| + |next x - r| := abs_sub_le _ _ _
  linarith [h.near x]

/-- Where two values are close, the later one is close to the point. -/
theorem Nearer.close (h : Nearer next r q) {x : ℝ} (hx : |x - next x| ≤ tol) :
    |next x - r| ≤ q / (1 - q) * tol := by
  have hpos : 0 < 1 - q := sub_pos.mpr h.lt_one
  have hdist : |x - r| ≤ tol / (1 - q) := by
    rw [le_div_iff₀ hpos]
    linarith [h.le_step x]
  calc |next x - r| ≤ q * |x - r| := h.near x
    _ ≤ q * (tol / (1 - q)) := mul_le_mul_of_nonneg_left hdist h.nonneg
    _ = q / (1 - q) * tol := by ring

/-- The loop, from where `n` iterations are enough. -/
theorem Nearer.run_of_pow (h : Nearer next r q) (n k : ℕ) (x : ℝ)
    (hn : (1 + q) * (q ^ n * |x - r|) ≤ tol) :
    ∃ fuel y, Loop.run (body next tol) fuel k (x, next x) = some y ∧
      |y - r| ≤ q / (1 - q) * tol := by
  induction n generalizing k x with
  | zero =>
      have hclose : |x - next x| ≤ tol := by
        rw [pow_zero, one_mul] at hn
        exact (h.step_le x).trans hn
      exact ⟨1, next x, by simp [Loop.run, body, hclose.not_gt], h.close hclose⟩
  | succ n ih =>
      by_cases hclose : |x - next x| ≤ tol
      · exact ⟨1, next x, by simp [Loop.run, body, hclose.not_gt], h.close hclose⟩
      · have hfar : |x - next x| > tol := not_le.mp hclose
        have hnext : (1 + q) * (q ^ n * |next x - r|) ≤ tol := by
          refine le_trans ?_ hn
          have hpow : q ^ n * |next x - r| ≤ q ^ n * (q * |x - r|) :=
            mul_le_mul_of_nonneg_left (h.near x) (pow_nonneg h.nonneg n)
          calc (1 + q) * (q ^ n * |next x - r|) ≤ (1 + q) * (q ^ n * (q * |x - r|)) :=
                mul_le_mul_of_nonneg_left hpow (by linarith [h.nonneg])
            _ = (1 + q) * (q ^ (n + 1) * |x - r|) := by ring
        obtain ⟨fuel, y, hrun, hy⟩ := ih (k + 1) (next x) hnext
        exact ⟨fuel + 1, y, by simpa [Loop.run, body, hfar] using hrun, hy⟩

/-- The loop stops, near the point. -/
theorem Nearer.run (h : Nearer next r q) (htol : 0 < tol) (k : ℕ) (x : ℝ) :
    ∃ fuel y, Loop.run (body next tol) fuel k (x, next x) = some y ∧
      |y - r| ≤ q / (1 - q) * tol := by
  have hbound : 0 < (1 + q) * (|x - r| + 1) :=
    mul_pos (by linarith [h.nonneg]) (by linarith [abs_nonneg (x - r)])
  obtain ⟨n, hn⟩ := exists_pow_lt_of_lt_one (div_pos htol hbound) h.lt_one
  refine h.run_of_pow n k x ?_
  have hle : q ^ n * |x - r| ≤ q ^ n * (|x - r| + 1) :=
    mul_le_mul_of_nonneg_left (by linarith) (pow_nonneg h.nonneg n)
  calc (1 + q) * (q ^ n * |x - r|) ≤ (1 + q) * (q ^ n * (|x - r| + 1)) :=
        mul_le_mul_of_nonneg_left hle (by linarith [h.nonneg])
    _ = q ^ n * ((1 + q) * (|x - r| + 1)) := by ring
    _ ≤ tol := ((lt_div_iff₀ hbound).mp hn).le

end

/-! ### Newton's method -/

/-- A function with its slope, which lies between two positive bounds. -/
structure Slope (f f' : ℝ → ℝ) (lo hi : ℝ) : Prop where
  deriv : ∀ x, HasDerivAt f (f' x) x
  lower : ∀ x, lo ≤ f' x
  upper : ∀ x, f' x ≤ hi
  pos : 0 < lo

noncomputable def step (f f' : ℝ → ℝ) (x : ℝ) : ℝ := x - f x / f' x

variable {f f' : ℝ → ℝ} {lo hi : ℝ}

theorem Slope.chord (h : Slope f f' lo hi) (x y : ℝ) : ∃ z, f x - f y = f' z * (x - y) := by
  rcases lt_trichotomy x y with hlt | rfl | hlt
  · obtain ⟨z, -, hz⟩ := exists_hasDerivAt_eq_slope f f' hlt
      (fun t _ => (h.deriv t).continuousAt.continuousWithinAt) fun t _ => h.deriv t
    refine ⟨z, ?_⟩
    rw [hz]
    field_simp [sub_ne_zero.mpr hlt.ne']
    ring
  · exact ⟨x, by simp⟩
  · obtain ⟨z, -, hz⟩ := exists_hasDerivAt_eq_slope f f' hlt
      (fun t _ => (h.deriv t).continuousAt.continuousWithinAt) fun t _ => h.deriv t
    refine ⟨z, ?_⟩
    rw [hz, div_mul_cancel₀ _ (sub_ne_zero.mpr hlt.ne')]

/-- There is a zero. -/
theorem Slope.exists_root (h : Slope f f' lo hi) : ∃ r, f r = 0 := by
  have hd : 0 ≤ |f 0| / lo := div_nonneg (abs_nonneg _) h.pos.le
  have hmul : lo * (|f 0| / lo) = |f 0| := mul_div_cancel₀ _ h.pos.ne'
  have hright : 0 ≤ f (|f 0| / lo) := by
    obtain ⟨z, hz⟩ := h.chord (|f 0| / lo) 0
    rw [sub_zero] at hz
    have hrise : lo * (|f 0| / lo) ≤ f' z * (|f 0| / lo) :=
      mul_le_mul_of_nonneg_right (h.lower z) hd
    linarith [neg_abs_le (f 0)]
  have hleft : f (-(|f 0| / lo)) ≤ 0 := by
    obtain ⟨z, hz⟩ := h.chord 0 (-(|f 0| / lo))
    rw [zero_sub, neg_neg] at hz
    have hrise : lo * (|f 0| / lo) ≤ f' z * (|f 0| / lo) :=
      mul_le_mul_of_nonneg_right (h.lower z) hd
    linarith [le_abs_self (f 0)]
  have hcont : ContinuousOn f (Set.Icc (-(|f 0| / lo)) (|f 0| / lo)) := fun t _ =>
    (h.deriv t).continuousAt.continuousWithinAt
  obtain ⟨r, -, hr⟩ := intermediate_value_Icc (by linarith) hcont ⟨hleft, hright⟩
  exact ⟨r, hr⟩

/-- A step brings the argument nearer to a zero. -/
theorem Slope.nearer (h : Slope f f' lo hi) (hratio : hi < 2 * lo) {r : ℝ} (hr : f r = 0) :
    Nearer (step f f') r ((hi - lo) / lo) where
  nonneg := div_nonneg (sub_nonneg.mpr ((h.lower r).trans (h.upper r))) h.pos.le
  lt_one := (div_lt_one h.pos).mpr (by linarith)
  near x := by
    obtain ⟨z, hz⟩ := h.chord x r
    rw [hr, sub_zero] at hz
    have hslope : 0 < f' x := h.pos.trans_le (h.lower x)
    have hstep : step f f' x - r = (f' x - f' z) / f' x * (x - r) := by
      rw [step, hz]
      field_simp
      ring
    have hratio : |(f' x - f' z) / f' x| ≤ (hi - lo) / lo := by
      rw [abs_div, abs_of_pos hslope]
      refine div_le_div₀ (sub_nonneg.mpr ((h.lower r).trans (h.upper r))) ?_ h.pos (h.lower x)
      rw [abs_le]
      constructor
      · linarith [h.lower x, h.upper z]
      · linarith [h.lower z, h.upper x]
    rw [hstep, abs_mul]
    exact mul_le_mul_of_nonneg_right hratio (abs_nonneg _)

end Gtoaes.Lib.Newton
