import Gtoaes.Lib.Direction
import Mathlib.Analysis.Quaternion
import Mathlib.Geometry.Euclidean.Angle.Unoriented.TriangleInequality

/-!
Great circles. The arc between two unit vectors is a metric of the sphere; no turn changes
it, and it is not more than three times what the vectors differ in any of their numbers.
-/

namespace Gtoaes.Lib

open Real

/-- The scalar product. -/
def dotTriple (v w : ℝ × ℝ × ℝ) : ℝ := v.1 * w.1 + v.2.1 * w.2.1 + v.2.2 * w.2.2

/-- The arc of the great circle through two unit vectors. -/
noncomputable def greatArc (v w : ℝ × ℝ × ℝ) : ℝ := arccos (dotTriple v w)

section

variable {u v w : ℝ × ℝ × ℝ}

theorem dotTriple_comm (v w : ℝ × ℝ × ℝ) : dotTriple v w = dotTriple w v := by
  simp only [dotTriple]
  ring

theorem sqLength_sub (hv : sqLength v = 1) (hw : sqLength w = 1) :
    sqLength (v - w) = 2 - 2 * dotTriple v w := by
  simp only [sqLength] at hv hw
  simp only [sqLength, dotTriple, Prod.fst_sub, Prod.snd_sub]
  linear_combination hv + hw

theorem sqLength_nonneg (v : ℝ × ℝ × ℝ) : 0 ≤ sqLength v :=
  add_nonneg (add_nonneg (sq_nonneg _) (sq_nonneg _)) (sq_nonneg _)

theorem sqLength_eq_zero : sqLength v = 0 ↔ v = 0 := by
  refine ⟨fun h => ?_, fun h => ?_⟩
  · simp only [sqLength] at h
    have hx := sq_nonneg v.1
    have hy := sq_nonneg v.2.1
    have hz := sq_nonneg v.2.2
    refine Prod.ext ?_ (Prod.ext ?_ ?_)
    · exact pow_eq_zero_iff two_ne_zero |>.mp (by linarith)
    · exact pow_eq_zero_iff two_ne_zero |>.mp (by linarith)
    · exact pow_eq_zero_iff two_ne_zero |>.mp (by linarith)
  · rw [h]
    simp [sqLength]

theorem sqLength_neg (v : ℝ × ℝ × ℝ) : sqLength (-v) = sqLength v := by
  simp only [sqLength, Prod.fst_neg, Prod.snd_neg, neg_sq]

/-- The cosine of an arc is that of two unit vectors. -/
theorem abs_dotTriple_le (hv : sqLength v = 1) (hw : sqLength w = 1) : |dotTriple v w| ≤ 1 := by
  have hminus := sqLength_nonneg (v - w)
  have hplus := sqLength_nonneg (v - -w)
  have hneg : dotTriple v (-w) = -dotTriple v w := by
    simp only [dotTriple, Prod.fst_neg, Prod.snd_neg]
    ring
  rw [sqLength_sub hv hw] at hminus
  rw [sqLength_sub hv ((sqLength_neg w).trans hw), hneg] at hplus
  exact abs_le.mpr ⟨by linarith, by linarith⟩

theorem cos_greatArc (hv : sqLength v = 1) (hw : sqLength w = 1) :
    cos (greatArc v w) = dotTriple v w := by
  obtain ⟨hlow, hhigh⟩ := abs_le.mp (abs_dotTriple_le hv hw)
  exact cos_arccos hlow hhigh

theorem greatArc_comm (v w : ℝ × ℝ × ℝ) : greatArc v w = greatArc w v := by
  rw [greatArc, greatArc, dotTriple_comm]

theorem greatArc_eq_zero_iff (hv : sqLength v = 1) (hw : sqLength w = 1) :
    greatArc v w = 0 ↔ v = w := by
  rw [greatArc, arccos_eq_zero, ← sub_eq_zero, ← sqLength_eq_zero, sqLength_sub hv hw]
  have hle := (abs_le.mp (abs_dotTriple_le hv hw)).2
  constructor
  · intro h
    linarith
  · intro h
    linarith

/-- A vector as a quaternion without a real part. -/
noncomputable def ofTriple (v : ℝ × ℝ × ℝ) : Quaternion ℝ := ⟨0, v.1, v.2.1, v.2.2⟩

theorem inner_ofTriple (v w : ℝ × ℝ × ℝ) : inner ℝ (ofTriple v) (ofTriple w) = dotTriple v w := by
  rw [Quaternion.inner_def, Quaternion.re_mul, Quaternion.re_star, Quaternion.imI_star,
    Quaternion.imJ_star, Quaternion.imK_star]
  simp only [ofTriple, dotTriple]
  ring

theorem norm_ofTriple (hv : sqLength v = 1) : ‖ofTriple v‖ = 1 := by
  have hsq : ‖ofTriple v‖ ^ 2 = 1 := by
    rw [← real_inner_self_eq_norm_sq, inner_ofTriple]
    simpa only [dotTriple, sqLength, sq] using hv
  exact (pow_eq_one_iff_of_nonneg (norm_nonneg _) two_ne_zero).mp hsq

theorem angle_ofTriple (hv : sqLength v = 1) (hw : sqLength w = 1) :
    InnerProductGeometry.angle (ofTriple v) (ofTriple w) = greatArc v w := by
  rw [InnerProductGeometry.angle, inner_ofTriple, norm_ofTriple hv, norm_ofTriple hw, mul_one,
    div_one, greatArc]

theorem greatArc_triangle (hu : sqLength u = 1) (hv : sqLength v = 1) (hw : sqLength w = 1) :
    greatArc u w ≤ greatArc u v + greatArc v w := by
  rw [← angle_ofTriple hu hw, ← angle_ofTriple hu hv, ← angle_ofTriple hv hw]
  exact InnerProductGeometry.angle_le_angle_add_angle _ _ _

/-- An arc is not much longer than its chord. -/
theorem greatArc_le (hv : sqLength v = 1) (hw : sqLength w = 1) {ε : ℝ} (h : dist v w ≤ ε) :
    greatArc v w ≤ 3 * ε := by
  obtain ⟨hx, hy, hz⟩ := (dist_triple v w).mp h
  have hε : 0 ≤ ε := (abs_nonneg _).trans hx
  have hchord : 2 - 2 * dotTriple v w ≤ 3 * ε ^ 2 := by
    rw [← sqLength_sub hv hw]
    have hx' := sq_le_sq' (abs_le.mp hx).1 (abs_le.mp hx).2
    have hy' := sq_le_sq' (abs_le.mp hy).1 (abs_le.mp hy).2
    have hz' := sq_le_sq' (abs_le.mp hz).1 (abs_le.mp hz).2
    simp only [sqLength, Prod.fst_sub, Prod.snd_sub]
    linarith
  have hnonneg : 0 ≤ greatArc v w := arccos_nonneg _
  have hle : greatArc v w ≤ π := arccos_le_pi _
  have hsine : greatArc v w ≤ π * sin (greatArc v w / 2) := by
    have hhalf := mul_le_sin (div_nonneg hnonneg zero_le_two) (div_le_div_of_nonneg_right hle zero_le_two)
    have hmul := mul_le_mul_of_nonneg_left hhalf pi_pos.le
    have hcancel : π * (2 / π * (greatArc v w / 2)) = greatArc v w := by
      field_simp
    linarith
  have hsq : greatArc v w ^ 2 ≤ π ^ 2 * sin (greatArc v w / 2) ^ 2 := by
    rw [← mul_pow]
    exact pow_le_pow_left₀ hnonneg hsine 2
  have hcos : cos (greatArc v w) = 1 - 2 * sin (greatArc v w / 2) ^ 2 := by
    have hdouble := cos_two_mul (greatArc v w / 2)
    rw [mul_div_cancel₀ _ two_ne_zero] at hdouble
    rw [hdouble, cos_sq']
    ring
  rw [cos_greatArc hv hw] at hcos
  have hpi : π ^ 2 ≤ 12 := by
    have hlt := pi_lt_d2
    nlinarith [pi_pos]
  have hall : greatArc v w ^ 2 ≤ (3 * ε) ^ 2 := by
    have hsin : sin (greatArc v w / 2) ^ 2 ≤ 3 / 4 * ε ^ 2 := by linarith
    have hscaled := mul_le_mul hpi hsin (sq_nonneg _) (by norm_num : (0 : ℝ) ≤ 12)
    linarith [mul_pow 3 ε 2]
  exact le_of_sq_le_sq hall (by linarith)

/-- What is off by little at both ends. -/
theorem abs_greatArc_sub_le {v' w' : ℝ × ℝ × ℝ} {ε : ℝ} (hv : sqLength v = 1) (hw : sqLength w = 1)
    (hv' : sqLength v' = 1) (hw' : sqLength w' = 1) (hdist : dist v v' ≤ ε)
    (hdist' : dist w w' ≤ ε) : |greatArc v w - greatArc v' w'| ≤ 6 * ε := by
  have hshort := greatArc_le hv hv' hdist
  have hshort' := greatArc_le hw hw' hdist'
  have hto := (greatArc_triangle hv hv' hw).trans
    (add_le_add le_rfl (greatArc_triangle hv' hw' hw))
  have hfrom := (greatArc_triangle hv' hv hw').trans
    (add_le_add le_rfl (greatArc_triangle hv hw hw'))
  rw [greatArc_comm w' w] at hto
  rw [greatArc_comm v' v] at hfrom
  exact abs_le.mpr ⟨by linarith, by linarith⟩

end

/-! ### Turns -/

section

variable (t : ℝ) (v w : ℝ × ℝ × ℝ)

theorem dotTriple_tilt : dotTriple (tilt t v) (tilt t w) = dotTriple v w := by
  have ht := sin_sq_add_cos_sq t
  simp only [dotTriple, tilt]
  linear_combination (v.1 * w.1 + v.2.2 * w.2.2) * ht

theorem dotTriple_untilt : dotTriple (untilt t v) (untilt t w) = dotTriple v w := by
  have ht := sin_sq_add_cos_sq t
  simp only [dotTriple, untilt]
  linear_combination (v.1 * w.1 + v.2.2 * w.2.2) * ht

theorem dotTriple_roll : dotTriple (roll t v) (roll t w) = dotTriple v w := by
  have ht := sin_sq_add_cos_sq t
  simp only [dotTriple, roll]
  linear_combination (v.2.1 * w.2.1 + v.2.2 * w.2.2) * ht

theorem dotTriple_spin : dotTriple (spin t v) (spin t w) = dotTriple v w := by
  have ht := sin_sq_add_cos_sq t
  simp only [dotTriple, spin]
  linear_combination (v.1 * w.1 + v.2.1 * w.2.1) * ht

end

end Gtoaes.Lib
