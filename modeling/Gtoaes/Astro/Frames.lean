import Gtoaes.Astro.Kepler
import Gtoaes.Lib.Direction

/-!
The frames of `ATimeSpace`: hour angle and declination against azimuth and altitude, and
the equator against the ecliptic. Each transformation turns the direction about one axis;
the longitude that it finds is brought to one turn by a turn of 25 digits. So there and
back the direction is the one it was, to within what those digits leave.
-/

namespace Gtoaes

open Lib Real

section

variable {K : Type} [Field K] [LinearOrder K] [FloorRing K] (trig : Trig K)

/-- `Eq2Horizon`, at the latitude `lat_` -/
def eq2Horizon (lat ha dec : K) : K × K :=
  let cha := trig.cos ha
  let slat := trig.sin lat
  let clat := trig.cos lat
  let azi := trig.atan2 (trig.sin ha) (cha * slat - trig.tan dec * clat)
  let alt := trig.asin (slat * trig.sin dec + clat * trig.cos dec * cha)
  (if azi < 0 then azi + au2Pi else azi, alt)

/-- `Horizon2Eq` -/
def horizon2Eq (lat azi alt : K) : K × K :=
  let caz := trig.cos azi
  let slat := trig.sin lat
  let clat := trig.cos lat
  let ha := trig.atan2 (trig.sin azi) (caz * slat + trig.tan alt * clat)
  let dec := trig.asin (slat * trig.sin alt - clat * trig.cos alt * caz)
  (if ha < 0 then ha + au2Pi else ha, dec)

/-- `Eq2Eclip` -/
def eq2Eclip (ra dec eo : K) : K × K :=
  let sra := trig.sin ra
  let seo := trig.sin eo
  let ceo := trig.cos eo
  let l := trig.atan2 (sra * ceo + trig.tan dec * seo) (trig.cos ra)
  let b := trig.asin (trig.sin dec * ceo - trig.cos dec * trig.sin eo * sra)
  (if l < 0 then l + au2Pi else l, b)

/-- `Eclip2Eq` -/
def eclip2Eq (l b eo : K) : K × K :=
  let sl := trig.sin l
  let seo := trig.sin eo
  let ceo := trig.cos eo
  let ra := trig.atan2 (sl * ceo - trig.tan b * seo) (trig.cos l)
  let dec := trig.asin (trig.sin b * ceo + trig.cos b * seo * sl)
  (if ra < 0 then ra + au2Pi else ra, dec)

end

/-! ### What the digits of a turn leave -/

theorem au2Pi_close : |au2Pi - 2 * π| ≤ 1 / 10 ^ 19 := by
  have hlow := pi_gt_d20
  have hhigh := pi_lt_d20
  rw [abs_le, au2Pi]
  constructor
  · linarith
  · linarith

/-- The longitude as it is brought to one turn. -/
theorem direction_wrapped (l b : ℝ) :
    dist (direction (if l < 0 then l + au2Pi else l) b) (direction l b) ≤ 1 / 10 ^ 19 := by
  split
  · exact (dist_direction_turn l b au2Pi).trans au2Pi_close
  · rw [dist_self]
    positivity

/-! ### The transformations -/

section

variable {a b t : ℝ}

/-- What a transformation finds, where its inverse tangent is given the part of the
vector in the plane but for a factor. -/
theorem direction_found {c x y z : ℝ} {v : ℝ × ℝ × ℝ} (hv : sqLength v = 1) (hc : 0 < c)
    (hx : c * x = v.1) (hy : c * y = v.2.1) (hz : z = v.2.2) :
    dist (direction (if Complex.arg ⟨x, y⟩ < 0 then Complex.arg ⟨x, y⟩ + au2Pi
      else Complex.arg ⟨x, y⟩) (arcsin z)) v ≤ 1 / 10 ^ 19 := by
  have hfound : direction (Complex.arg ⟨x, y⟩) (arcsin z) = v := by
    rw [← arg_stretch hc x y, hx, hy, hz]
    exact direction_arg_arcsin hv
  have hwrapped := direction_wrapped (Complex.arg ⟨x, y⟩) (arcsin z)
  rwa [hfound] at hwrapped

theorem mul_tan (hb : 0 < cos b) (x y : ℝ) :
    cos b * (x + tan b * y) = cos b * x + sin b * y := by
  rw [mul_add, ← mul_assoc, mul_comm (cos b) (tan b), tan_mul_cos hb.ne']

theorem direction_eq2Horizon (hb : 0 < cos b) :
    dist (direction (eq2Horizon realTrig t a b).1 (eq2Horizon realTrig t a b).2)
      (tilt t (direction a b)) ≤ 1 / 10 ^ 19 := by
  refine direction_found ((sqLength_tilt t _).trans (sqLength_direction a b)) hb ?_ rfl ?_
  · have hmul := mul_tan hb (cos a * sin t) (-cos t)
    simp only [realTrig, tilt, direction]
    linarith
  · simp only [realTrig, tilt, direction]
    ring

theorem direction_horizon2Eq (hb : 0 < cos b) :
    dist (direction (horizon2Eq realTrig t a b).1 (horizon2Eq realTrig t a b).2)
      (untilt t (direction a b)) ≤ 1 / 10 ^ 19 := by
  refine direction_found ((sqLength_untilt t _).trans (sqLength_direction a b)) hb ?_ rfl ?_
  · have hmul := mul_tan hb (cos a * sin t) (cos t)
    simp only [realTrig, untilt, direction]
    linarith
  · simp only [realTrig, untilt, direction]
    ring

theorem direction_eq2Eclip (hb : 0 < cos b) :
    dist (direction (eq2Eclip realTrig a b t).1 (eq2Eclip realTrig a b t).2)
      (roll t (direction a b)) ≤ 1 / 10 ^ 19 := by
  refine direction_found ((sqLength_roll t _).trans (sqLength_direction a b)) hb rfl ?_ ?_
  · have hmul := mul_tan hb (sin a * cos t) (sin t)
    simp only [realTrig, roll, direction]
    linarith
  · simp only [realTrig, roll, direction]
    ring

theorem direction_eclip2Eq (hb : 0 < cos b) :
    dist (direction (eclip2Eq realTrig a b t).1 (eclip2Eq realTrig a b t).2)
      (roll (-t) (direction a b)) ≤ 1 / 10 ^ 19 := by
  refine direction_found ((sqLength_roll (-t) _).trans (sqLength_direction a b)) hb rfl ?_ ?_
  · have hmul := mul_tan hb (sin a * cos t) (-sin t)
    simp only [realTrig, roll, direction, cos_neg, sin_neg]
    linarith
  · simp only [realTrig, roll, direction, cos_neg, sin_neg]
    ring

/-- A latitude whose sine is that of a turned direction off the poles. -/
theorem cos_arcsin_pos {z : ℝ} (hz : |z| < 1) : 0 < cos (arcsin z) := by
  obtain ⟨hlow, hhigh⟩ := abs_lt.mp hz
  exact cos_pos_of_mem_Ioo ⟨neg_pi_div_two_lt_arcsin.mpr hlow, arcsin_lt_pi_div_two.mpr hhigh⟩

/-- From where `f` leads a direction, `g` leads back to it, to within `ε`. -/
def LeadsBack (ε : ℝ) (g f : ℝ → ℝ → ℝ × ℝ) (l b : ℝ) : Prop :=
  dist (direction (g (f l b).1 (f l b).2).1 (g (f l b).1 (f l b).2).2) (direction l b) ≤ ε

/-- There by one turn and back by its inverse. -/
theorem leadsBack_of_turns {f g : ℝ → ℝ → ℝ × ℝ} {turn back : ℝ × ℝ × ℝ → ℝ × ℝ × ℝ} {l : ℝ}
    (hthere : dist (direction (f l b).1 (f l b).2) (turn (direction l b)) ≤ 1 / 10 ^ 19)
    (hback : dist (direction (g (f l b).1 (f l b).2).1 (g (f l b).1 (f l b).2).2)
      (back (direction (f l b).1 (f l b).2)) ≤ 1 / 10 ^ 19)
    (hinverse : ∀ v, back (turn v) = v)
    (hdist : ∀ {v w ε}, dist v w ≤ ε → dist (back v) (back w) ≤ 2 * ε) :
    LeadsBack (3 / 10 ^ 19) g f l b := by
  have hturned := hdist hthere
  rw [hinverse] at hturned
  exact (dist_triangle _ _ _).trans ((add_le_add hback hturned).trans_eq (by ring))

/-- Off the poles of both frames, the transformations to the horizon and to the ecliptic
lead back to the direction from which they come, both ways. -/
theorem frames_roundTrip (lat eo l b : ℝ) (hb : 0 < cos b) :
    (|sin lat * sin b + cos lat * cos b * cos l| < 1 →
      LeadsBack (3 / 10 ^ 19) (horizon2Eq realTrig lat) (eq2Horizon realTrig lat) l b) ∧
    (|sin lat * sin b - cos lat * cos b * cos l| < 1 →
      LeadsBack (3 / 10 ^ 19) (eq2Horizon realTrig lat) (horizon2Eq realTrig lat) l b) ∧
    (|sin b * cos eo - cos b * sin eo * sin l| < 1 →
      LeadsBack (3 / 10 ^ 19) (eclip2Eq realTrig · · eo) (eq2Eclip realTrig · · eo) l b) ∧
    (|sin b * cos eo + cos b * sin eo * sin l| < 1 →
      LeadsBack (3 / 10 ^ 19) (eq2Eclip realTrig · · eo) (eclip2Eq realTrig · · eo) l b) := by
  have hunroll : ∀ v, roll eo (roll (-eo) v) = v := fun v => by
    simpa only [neg_neg] using roll_neg_roll (-eo) v
  refine ⟨fun h => ?_, fun h => ?_, fun h => ?_, fun h => ?_⟩
  · exact leadsBack_of_turns (direction_eq2Horizon hb) (direction_horizon2Eq (cos_arcsin_pos h))
      (untilt_tilt lat) (dist_untilt_le lat)
  · exact leadsBack_of_turns (direction_horizon2Eq hb) (direction_eq2Horizon (cos_arcsin_pos h))
      (tilt_untilt lat) (dist_tilt_le lat)
  · exact leadsBack_of_turns (direction_eq2Eclip hb) (direction_eclip2Eq (cos_arcsin_pos h))
      (roll_neg_roll eo) (dist_roll_le (-eo))
  · exact leadsBack_of_turns (direction_eclip2Eq hb) (direction_eq2Eclip (cos_arcsin_pos h))
      hunroll (dist_roll_le eo)

/-- A direction that every one of the turns moves, from 30 degrees north. -/
theorem frames_roundTrip_thirty :
    LeadsBack (3 / 10 ^ 19) (horizon2Eq realTrig (π / 6)) (eq2Horizon realTrig (π / 6))
      (π / 3) (π / 6) ∧
    LeadsBack (3 / 10 ^ 19) (eq2Horizon realTrig (π / 6)) (horizon2Eq realTrig (π / 6))
      (π / 3) (π / 6) ∧
    LeadsBack (3 / 10 ^ 19) (eclip2Eq realTrig · · (π / 6)) (eq2Eclip realTrig · · (π / 6))
      (π / 3) (π / 6) ∧
    LeadsBack (3 / 10 ^ 19) (eq2Eclip realTrig · · (π / 6)) (eclip2Eq realTrig · · (π / 6))
      (π / 3) (π / 6) := by
  have hsq : √3 * √3 = 3 := mul_self_sqrt (by norm_num)
  have hlow : 1 ≤ √3 := one_le_sqrt.mpr (by norm_num)
  have hhigh : √3 ≤ 2 := sqrt_le_iff.mpr (by norm_num)
  have hcos : 0 < cos (π / 6) := by
    rw [cos_pi_div_six]
    positivity
  obtain ⟨hto, hfrom, hecl, hequ⟩ := frames_roundTrip (π / 6) (π / 6) (π / 3) (π / 6) hcos
  simp only [sin_pi_div_six, cos_pi_div_six, sin_pi_div_three, cos_pi_div_three]
    at hto hfrom hecl hequ
  refine ⟨hto ?_, hfrom ?_, hecl ?_, hequ ?_⟩
  all_goals
    rw [abs_lt]
    constructor
    all_goals nlinarith only [hsq, hlow, hhigh]

end

end Gtoaes
