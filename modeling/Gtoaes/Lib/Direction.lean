import Mathlib.Analysis.Real.Pi.Bounds
import Mathlib.Analysis.SpecialFunctions.Complex.Arg
import Mathlib.Analysis.SpecialFunctions.Trigonometric.Bounds

/-!
Directions on the sphere: a longitude and a latitude stand for a unit vector, and an
inverse tangent of two arguments and an inverse sine give them back. The longitude may
be off by a little, which moves the vector by no more than that; and a turn about an axis
moves two vectors apart by no more than twice what they were.
-/

namespace Gtoaes.Lib

open Real

/-- The unit vector in the direction of a longitude and a latitude. -/
noncomputable def direction (l b : ℝ) : ℝ × ℝ × ℝ := (cos b * cos l, cos b * sin l, sin b)

/-- The square of the length of a vector. -/
def sqLength (v : ℝ × ℝ × ℝ) : ℝ := v.1 ^ 2 + v.2.1 ^ 2 + v.2.2 ^ 2

theorem sqLength_direction (l b : ℝ) : sqLength (direction l b) = 1 := by
  have hl := sin_sq_add_cos_sq l
  have hb := sin_sq_add_cos_sq b
  simp only [sqLength, direction]
  linear_combination cos b ^ 2 * hl + hb

theorem dist_triple (v w : ℝ × ℝ × ℝ) {ε : ℝ} : dist v w ≤ ε ↔
    |v.1 - w.1| ≤ ε ∧ |v.2.1 - w.2.1| ≤ ε ∧ |v.2.2 - w.2.2| ≤ ε := by
  rw [Prod.dist_eq, Prod.dist_eq, max_le_iff, max_le_iff, Real.dist_eq, Real.dist_eq, Real.dist_eq]

/-- A longitude that is off by a little. -/
theorem dist_direction_le (l l' b : ℝ) : dist (direction l b) (direction l' b) ≤ |l - l'| := by
  have hb : |cos b| ≤ 1 := abs_cos_le_one b
  rw [dist_triple]
  simp only [direction]
  refine ⟨?_, ?_, ?_⟩
  · rw [← mul_sub, abs_mul]
    exact (mul_le_of_le_one_left (abs_nonneg _) hb).trans (abs_cos_sub_cos_le l l')
  · rw [← mul_sub, abs_mul]
    exact (mul_le_of_le_one_left (abs_nonneg _) hb).trans (abs_sin_sub_sin_le l l')
  · rw [sub_self, abs_zero]
    exact abs_nonneg _

/-- A longitude that is off by a little and by a turn. -/
theorem dist_direction_turn (l b turn : ℝ) :
    dist (direction (l + turn) b) (direction l b) ≤ |turn - 2 * π| := by
  have hturn : direction (l + 2 * π) b = direction l b := by
    rw [direction, direction, cos_add_two_pi, sin_add_two_pi]
  rw [← hturn]
  refine (dist_direction_le _ _ b).trans_eq ?_
  rw [add_sub_add_left_eq_sub]

section

variable {x y z : ℝ}

theorem norm_mk (x y : ℝ) : ‖(⟨x, y⟩ : ℂ)‖ = √(x ^ 2 + y ^ 2) := by
  rw [Complex.norm_eq_sqrt_sq_add_sq]

/-- The longitude of a vector gives back its part in the plane. -/
theorem mul_cos_arg (x y : ℝ) : √(x ^ 2 + y ^ 2) * cos (Complex.arg ⟨x, y⟩) = x := by
  by_cases hzero : (⟨x, y⟩ : ℂ) = 0
  · have hx : x = 0 := congrArg Complex.re hzero
    have hy : y = 0 := congrArg Complex.im hzero
    simp [hx, hy]
  · rw [Complex.cos_arg hzero, norm_mk, mul_div_cancel₀]
    rw [← norm_mk]
    exact norm_ne_zero_iff.mpr hzero

theorem mul_sin_arg (x y : ℝ) : √(x ^ 2 + y ^ 2) * sin (Complex.arg ⟨x, y⟩) = y := by
  by_cases hzero : (⟨x, y⟩ : ℂ) = 0
  · have hx : x = 0 := congrArg Complex.re hzero
    have hy : y = 0 := congrArg Complex.im hzero
    simp [hx, hy]
  · rw [Complex.sin_arg, norm_mk, mul_div_cancel₀]
    rw [← norm_mk]
    exact norm_ne_zero_iff.mpr hzero

/-- Stretching the vector does not change its longitude. -/
theorem arg_stretch {c : ℝ} (hc : 0 < c) (x y : ℝ) :
    Complex.arg ⟨c * x, c * y⟩ = Complex.arg ⟨x, y⟩ := by
  rw [← Complex.arg_real_mul ⟨x, y⟩ hc]
  congr 1
  apply Complex.ext <;> simp

/-- The longitude and the latitude of a unit vector give it back. -/
theorem direction_arg_arcsin (h : sqLength (x, y, z) = 1) :
    direction (Complex.arg ⟨x, y⟩) (arcsin z) = (x, y, z) := by
  have hsq : x ^ 2 + y ^ 2 + z ^ 2 = 1 := h
  have hcos : cos (arcsin z) = √(x ^ 2 + y ^ 2) := by
    rw [cos_arcsin]
    congr 1
    linarith
  have hz : -1 ≤ z ∧ z ≤ 1 := abs_le.mp (abs_le_one_iff_mul_self_le_one.mpr (by
    linarith [sq_nonneg x, sq_nonneg y, sq z]))
  rw [direction, hcos, mul_cos_arg, mul_sin_arg, sin_arcsin hz.1 hz.2]

/-- So does the latitude by the inverse tangent, up to the length. -/
theorem direction_arg_arg {r : ℝ} (hr : r = √(x ^ 2 + y ^ 2 + z ^ 2)) :
    r * cos (Complex.arg ⟨√(x ^ 2 + y ^ 2), z⟩) = √(x ^ 2 + y ^ 2) ∧
      r * sin (Complex.arg ⟨√(x ^ 2 + y ^ 2), z⟩) = z := by
  have hlength : r = √(√(x ^ 2 + y ^ 2) ^ 2 + z ^ 2) := by
    rw [hr, sq_sqrt (add_nonneg (sq_nonneg x) (sq_nonneg y))]
  rw [hlength]
  exact ⟨mul_cos_arg _ _, mul_sin_arg _ _⟩

end

/-! ### Turns about an axis -/

/-- A turn about the second axis, with the pole at `t = π / 2` where it was. -/
noncomputable def tilt (t : ℝ) (v : ℝ × ℝ × ℝ) : ℝ × ℝ × ℝ :=
  (v.1 * sin t - v.2.2 * cos t, v.2.1, v.1 * cos t + v.2.2 * sin t)

/-- The turn back. -/
noncomputable def untilt (t : ℝ) (v : ℝ × ℝ × ℝ) : ℝ × ℝ × ℝ :=
  (v.1 * sin t + v.2.2 * cos t, v.2.1, v.2.2 * sin t - v.1 * cos t)

/-- A turn about the first axis. -/
noncomputable def roll (t : ℝ) (v : ℝ × ℝ × ℝ) : ℝ × ℝ × ℝ :=
  (v.1, v.2.1 * cos t + v.2.2 * sin t, v.2.2 * cos t - v.2.1 * sin t)

/-- A turn about the third axis. -/
noncomputable def spin (t : ℝ) (v : ℝ × ℝ × ℝ) : ℝ × ℝ × ℝ :=
  (v.1 * cos t + v.2.1 * sin t, v.2.1 * cos t - v.1 * sin t, v.2.2)

section

variable (t : ℝ) (v w : ℝ × ℝ × ℝ)

theorem untilt_tilt : untilt t (tilt t v) = v := by
  have ht := sin_sq_add_cos_sq t
  refine Prod.ext ?_ (Prod.ext rfl ?_)
  · simp only [untilt, tilt]
    linear_combination v.1 * ht
  · simp only [untilt, tilt]
    linear_combination v.2.2 * ht

theorem tilt_untilt : tilt t (untilt t v) = v := by
  have ht := sin_sq_add_cos_sq t
  refine Prod.ext ?_ (Prod.ext rfl ?_)
  · simp only [untilt, tilt]
    linear_combination v.1 * ht
  · simp only [untilt, tilt]
    linear_combination v.2.2 * ht

theorem roll_neg_roll : roll (-t) (roll t v) = v := by
  have ht := sin_sq_add_cos_sq t
  simp only [roll, cos_neg, sin_neg]
  refine Prod.ext rfl (Prod.ext ?_ ?_)
  · linear_combination v.2.1 * ht
  · linear_combination v.2.2 * ht

theorem spin_neg_spin : spin (-t) (spin t v) = v := by
  have ht := sin_sq_add_cos_sq t
  simp only [spin, cos_neg, sin_neg]
  refine Prod.ext ?_ (Prod.ext ?_ rfl)
  · linear_combination v.1 * ht
  · linear_combination v.2.1 * ht

theorem sqLength_tilt : sqLength (tilt t v) = sqLength v := by
  have ht := sin_sq_add_cos_sq t
  simp only [sqLength, tilt]
  linear_combination (v.1 ^ 2 + v.2.2 ^ 2) * ht

theorem sqLength_untilt : sqLength (untilt t v) = sqLength v := by
  have ht := sin_sq_add_cos_sq t
  simp only [sqLength, untilt]
  linear_combination (v.1 ^ 2 + v.2.2 ^ 2) * ht

theorem sqLength_roll : sqLength (roll t v) = sqLength v := by
  have ht := sin_sq_add_cos_sq t
  simp only [sqLength, roll]
  linear_combination (v.2.1 ^ 2 + v.2.2 ^ 2) * ht

theorem sqLength_spin : sqLength (spin t v) = sqLength v := by
  have ht := sin_sq_add_cos_sq t
  simp only [sqLength, spin]
  linear_combination (v.1 ^ 2 + v.2.1 ^ 2) * ht

/-- Two numbers of a turned vector move by no more than both together. -/
theorem abs_turned {x x' z z' ε : ℝ} (hx : |x - x'| ≤ ε) (hz : |z - z'| ≤ ε) {c s : ℝ}
    (hc : |c| ≤ 1) (hs : |s| ≤ 1) : |(x * c + z * s) - (x' * c + z' * s)| ≤ 2 * ε := by
  have heq : (x * c + z * s) - (x' * c + z' * s) = (x - x') * c + (z - z') * s := by ring
  rw [heq]
  refine (abs_add_le _ _).trans ?_
  rw [abs_mul, abs_mul, two_mul]
  exact add_le_add ((mul_le_of_le_one_right (abs_nonneg _) hc).trans hx)
    ((mul_le_of_le_one_right (abs_nonneg _) hs).trans hz)

variable {v w} {ε : ℝ}

theorem dist_tilt_le (h : dist v w ≤ ε) : dist (tilt t v) (tilt t w) ≤ 2 * ε := by
  obtain ⟨hx, hy, hz⟩ := (dist_triple v w).mp h
  have hε : 0 ≤ ε := (abs_nonneg _).trans hx
  have hs := abs_sin_le_one t
  have hc := abs_cos_le_one t
  have hc' : |-cos t| ≤ 1 := by rwa [abs_neg]
  refine (dist_triple _ _).mpr ⟨?_, ?_, ?_⟩
  · simpa only [tilt, mul_neg, ← sub_eq_add_neg] using abs_turned hx hz hs hc'
  · exact hy.trans (by linarith)
  · exact abs_turned hx hz hc hs

theorem dist_untilt_le (h : dist v w ≤ ε) : dist (untilt t v) (untilt t w) ≤ 2 * ε := by
  obtain ⟨hx, hy, hz⟩ := (dist_triple v w).mp h
  have hε : 0 ≤ ε := (abs_nonneg _).trans hx
  have hs := abs_sin_le_one t
  have hc := abs_cos_le_one t
  have hc' : |-cos t| ≤ 1 := by rwa [abs_neg]
  refine (dist_triple _ _).mpr ⟨?_, ?_, ?_⟩
  · exact abs_turned hx hz hs hc
  · exact hy.trans (by linarith)
  · simpa only [untilt, mul_neg, ← sub_eq_add_neg] using abs_turned hz hx hs hc'

theorem dist_roll_le (h : dist v w ≤ ε) : dist (roll t v) (roll t w) ≤ 2 * ε := by
  obtain ⟨hx, hy, hz⟩ := (dist_triple v w).mp h
  have hε : 0 ≤ ε := (abs_nonneg _).trans hx
  have hs := abs_sin_le_one t
  have hc := abs_cos_le_one t
  have hs' : |-sin t| ≤ 1 := by rwa [abs_neg]
  refine (dist_triple _ _).mpr ⟨hx.trans (by linarith), ?_, ?_⟩
  · exact abs_turned hy hz hc hs
  · simpa only [roll, mul_neg, ← sub_eq_add_neg] using abs_turned hz hy hc hs'

theorem dist_spin_le (h : dist v w ≤ ε) : dist (spin t v) (spin t w) ≤ 2 * ε := by
  obtain ⟨hx, hy, hz⟩ := (dist_triple v w).mp h
  have hε : 0 ≤ ε := (abs_nonneg _).trans hx
  have hs := abs_sin_le_one t
  have hc := abs_cos_le_one t
  have hs' : |-sin t| ≤ 1 := by rwa [abs_neg]
  refine (dist_triple _ _).mpr ⟨?_, ?_, hz.trans (by linarith)⟩
  · exact abs_turned hx hy hc hs
  · simpa only [spin, mul_neg, ← sub_eq_add_neg] using abs_turned hy hx hc hs'

end

end Gtoaes.Lib
