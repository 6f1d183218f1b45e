import Mathlib.Analysis.SpecialFunctions.Complex.Arg
import Mathlib.Analysis.SpecialFunctions.Trigonometric.Bounds
import Mathlib.Analysis.SpecialFunctions.Trigonometric.Inverse
import Gtoaes.Astro.Series
import Gtoaes.Lib.Newton

/-!
The eccentric anomaly in `MoonPosition`: Kepler's equation is solved by Newton's method
until two values lie within 0.005. The mean anomaly is not reduced to one turn, but the
two values to start with are, so the iteration may begin many turns away from where it
ends. It gets there all the same, as the slope is close to 1 everywhere.
-/

namespace Gtoaes

open Lib

/-- The functions of `math.h` on the real numbers. -/
noncomputable def realTrig : Trig ℝ where
  sin := Real.sin
  cos := Real.cos
  tan := Real.tan
  asin := Real.arcsin
  sqrt := Real.sqrt
  atan2 y x := Complex.arg ⟨x, y⟩

namespace AtInstant

/-- What is zero at the eccentric anomaly. -/
noncomputable def keplerGap (o : MoonOrbit ℝ) (x : ℝ) : ℝ := x - o.e * Real.sin x - o.m

section

variable {o : MoonOrbit ℝ}

theorem slope_keplerGap (hlow : 0 ≤ o.e) (hhigh : o.e < 1) :
    Newton.Slope (keplerGap o) (fun x => 1 - o.e * Real.cos x) (1 - o.e) (1 + o.e) where
  deriv x := ((hasDerivAt_id x).sub ((Real.hasDerivAt_sin x).const_mul o.e)).sub_const o.m
  lower x := by
    have hcos : o.e * Real.cos x ≤ o.e * 1 := mul_le_mul_of_nonneg_left (Real.cos_le_one x) hlow
    linarith
  upper x := by
    have hcos : o.e * (-1) ≤ o.e * Real.cos x :=
      mul_le_mul_of_nonneg_left (Real.neg_one_le_cos x) hlow
    linarith
  pos := sub_pos.mpr hhigh

theorem keplerNext_eq (o : MoonOrbit ℝ) :
    keplerNext realTrig o = Newton.step (keplerGap o) fun x => 1 - o.e * Real.cos x := rfl

theorem keplerBody_eq (o : MoonOrbit ℝ) :
    keplerBody realTrig o = Newton.body (keplerNext realTrig o) 0.005 := rfl

/-- The first value, before it is reduced to one turn, is close to the anomaly already. -/
theorem first_close (hlow : 0 ≤ o.e) {x : ℝ} (hx : keplerGap o x = 0) :
    |o.m + o.e * Real.sin o.m * (1 + o.e * Real.cos o.m) - x| ≤ 3 / 2 * o.e ^ 2 := by
  have hroot : x - o.m = o.e * Real.sin x := by
    rw [keplerGap] at hx
    linarith
  have hnear : |x - o.m| ≤ o.e := by
    rw [hroot, abs_mul, abs_of_nonneg hlow]
    exact mul_le_of_le_one_right hlow (Real.abs_sin_le_one x)
  have hsines : |Real.sin o.m - Real.sin x| ≤ o.e := by
    rw [abs_sub_comm]
    exact (Real.abs_sin_sub_sin_le x o.m).trans hnear
  have hproduct : |Real.sin o.m * Real.cos o.m| ≤ 1 / 2 := by
    rw [abs_le]
    have hsum := Real.sin_sq_add_cos_sq o.m
    constructor
    · linarith [sq_nonneg (Real.sin o.m + Real.cos o.m)]
    · linarith [sq_nonneg (Real.sin o.m - Real.cos o.m)]
  have hgap : o.m + o.e * Real.sin o.m * (1 + o.e * Real.cos o.m) - x =
      o.e * (Real.sin o.m - Real.sin x) + o.e ^ 2 * (Real.sin o.m * Real.cos o.m) := by
    linear_combination -hroot
  rw [hgap]
  refine (abs_add_le _ _).trans ?_
  rw [abs_mul, abs_mul, abs_of_nonneg hlow, abs_of_nonneg (sq_nonneg o.e)]
  have hfirst := mul_le_mul_of_nonneg_left hsines hlow
  have hsecond := mul_le_mul_of_nonneg_left hproduct (sq_nonneg o.e)
  linarith [sq o.e]

/-- The loop of `MoonPosition` ends, near the eccentric anomaly or whole turns from it. -/
theorem kepler_run (hlow : 0 ≤ o.e) (hhigh : o.e ≤ 0.055) {x : ℝ} (hx : keplerGap o x = 0) :
    ∃ fuel y, kepler realTrig fuel o = some y ∧ ∃ k : ℤ, |y + k * au2Pi - x| ≤ 1 / 100 := by
  have hslope := slope_keplerGap hlow (show o.e < 1 by linarith)
  have hnearer := hslope.nearer (by linarith) hx
  rw [← keplerNext_eq] at hnearer
  obtain ⟨first, hfirst⟩ : ∃ first,
      o.m + o.e * Real.sin o.m * (1 + o.e * Real.cos o.m) = first := ⟨_, rfl⟩
  have hkepler : ∀ fuel, kepler realTrig fuel o = Loop.run (keplerBody realTrig o) fuel 0
      (cycmod first au2Pi, cycmod (keplerNext realTrig o (cycmod first au2Pi)) au2Pi) := by
    intro fuel
    rw [← hfirst]
    rfl
  generalize cycmod (keplerNext realTrig o (cycmod first au2Pi)) au2Pi = second at hkepler
  by_cases hclose : |cycmod first au2Pi - second| ≤ 0.005
  · -- the loop is not entered
    refine ⟨1, second, ?_, ⌊first / au2Pi⌋, ?_⟩
    · rw [hkepler, keplerBody_eq]
      simp [Loop.run, Newton.body, hclose.not_gt]
    · have hturns : second + ⌊first / au2Pi⌋ * au2Pi - x =
          (second - cycmod first au2Pi) + (first - x) := by
        rw [cycmod]
        ring
      have hnear := first_close hlow hx
      rw [hfirst] at hnear
      rw [hturns]
      refine (abs_add_le _ _).trans ?_
      rw [abs_sub_comm]
      have hsq : o.e ^ 2 ≤ 0.055 ^ 2 := pow_le_pow_left₀ hlow hhigh 2
      linarith
  · obtain ⟨fuel, y, hrun, hy⟩ := hnearer.run (show (0 : ℝ) < 0.005 by norm_num) 1 second
    refine ⟨fuel + 1, y, ?_, 0, ?_⟩
    · rw [hkepler, keplerBody_eq]
      simpa [Loop.run, Newton.body, not_le.mp hclose] using hrun
    · have hrate : (1 + o.e - (1 - o.e)) / (1 - o.e) ≤ 1 / 2 := by
        rw [div_le_iff₀ (by linarith)]
        linarith
      have hfactor : (1 + o.e - (1 - o.e)) / (1 - o.e) /
          (1 - (1 + o.e - (1 - o.e)) / (1 - o.e)) ≤ 1 :=
        (div_le_one (by linarith)).mpr (by linarith)
      rw [Int.cast_zero, zero_mul, add_zero]
      linarith

end

/-- Wherever the moon is, the loop for its eccentric anomaly ends, and within 0.01 of the
solution of Kepler's equation, but for whole turns. -/
theorem moonPosition_ends (mjd : ℝ) (s : SunStored ℝ) :
    ∃ (anomaly y : ℝ) (turns : ℤ) (enough : ℕ),
      anomaly - (moonOrbit mjd).e * Real.sin anomaly = (moonOrbit mjd).m ∧
      |y + turns * au2Pi - anomaly| ≤ 1 / 100 ∧
      ∀ fuel ≥ enough, moonPosition realTrig fuel mjd s =
        some (moonAt realTrig (moonOrbit mjd) s y) := by
  have hlow : (0 : ℝ) ≤ (moonOrbit mjd).e := by norm_num [moonOrbit]
  have hhigh : (moonOrbit mjd).e ≤ (0.055 : ℝ) := by norm_num [moonOrbit]
  obtain ⟨anomaly, hroot⟩ := (slope_keplerGap hlow (show (moonOrbit mjd).e < 1 by
    linarith)).exists_root
  obtain ⟨enough, y, hrun, turns, hy⟩ := kepler_run hlow hhigh hroot
  refine ⟨anomaly, y, turns, enough, by rw [keplerGap] at hroot; linarith, hy, fun fuel hfuel => ?_⟩
  rw [moonPosition, kepler, Loop.run_of_le hrun hfuel, Option.map_some]

end AtInstant

end Gtoaes
