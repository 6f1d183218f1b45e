import Gtoaes.Astro.Frames

/-!
Spherical and Cartesian coordinates of `AMath`, and the frame whose pole is any given
direction. `Cart2Sphere` takes a vector for one on the axis where both of its other
numbers are below `AU_EPS`; elsewhere it is exact but for the digits of a turn.
-/

namespace Gtoaes

open Lib Real

section

variable {K : Type} [Field K] [LinearOrder K] [FloorRing K] (trig : Trig K)

/-- `PolarForward` -/
def polarForward (a0 d0 a d : K) : K × K :=
  let sd := trig.sin d0
  let cd := trig.cos d0
  let sa := trig.sin a0
  let ca := trig.cos a0
  let p := sphere2Cart trig 1 a d
  let x := sd * ca * p.1 + sd * sa * p.2.1 - cd * p.2.2
  let y := -sa * p.1 + ca * p.2.1
  let z := cd * ca * p.1 + cd * sa * p.2.1 + sd * p.2.2
  (cart2Sphere trig x y z).2

/-- `PolarReverse` -/
def polarReverse (a0 d0 a d : K) : K × K :=
  let sd := trig.sin d0
  let cd := trig.cos d0
  let sa := trig.sin a0
  let ca := trig.cos a0
  let p := sphere2Cart trig 1 a d
  let x := ca * sd * p.1 - sa * p.2.1 + ca * cd * p.2.2
  let y := sa * sd * p.1 + ca * p.2.1 + sa * cd * p.2.2
  let z := -cd * p.1 + sd * p.2.2
  (cart2Sphere trig x y z).2

end

/-- Where `Cart2Sphere` takes a vector for one on the axis. -/
def NearAxis (v : ℝ × ℝ × ℝ) : Prop := |v.2.1| < auEps ∧ |v.1| < auEps

theorem sphere2Cart_real (r a d : ℝ) : sphere2Cart realTrig r a d =
    (r * (direction a d).1, r * (direction a d).2.1, r * (direction a d).2.2) := by
  simp only [sphere2Cart, realTrig, direction, mul_assoc]

section

variable (x y z : ℝ)

/-- What `Cart2Sphere` finds: length and latitude are exact. -/
theorem cart2Sphere_real : cart2Sphere realTrig x y z =
    (√(x ^ 2 + y ^ 2 + z ^ 2),
      if |y| < auEps ∧ |x| < auEps then 0
      else if Complex.arg ⟨x, y⟩ < 0 then Complex.arg ⟨x, y⟩ + au2Pi else Complex.arg ⟨x, y⟩,
      Complex.arg ⟨√(x ^ 2 + y ^ 2), z⟩) := by
  simp only [cart2Sphere, realTrig, ← sq]
  rfl

/-- A vector from its distance to the axis, its longitude and its height. -/
theorem sphere2Cart_cart2Sphere : sphere2Cart realTrig (cart2Sphere realTrig x y z).1
      (cart2Sphere realTrig x y z).2.1 (cart2Sphere realTrig x y z).2.2 =
    (√(x ^ 2 + y ^ 2) * cos (cart2Sphere realTrig x y z).2.1,
      √(x ^ 2 + y ^ 2) * sin (cart2Sphere realTrig x y z).2.1, z) := by
  rw [cart2Sphere_real, sphere2Cart_real]
  obtain ⟨hplane, hheight⟩ := direction_arg_arg (x := x) (y := y) (z := z) rfl
  simp only [direction]
  rw [← mul_assoc, ← mul_assoc, hplane, hheight]

/-- Near the axis the vector is moved onto the half plane of longitude zero. -/
theorem cart2Sphere_near (h : |y| < auEps ∧ |x| < auEps) :
    dist (sphere2Cart realTrig (cart2Sphere realTrig x y z).1 (cart2Sphere realTrig x y z).2.1
      (cart2Sphere realTrig x y z).2.2) (x, y, z) ≤ 3 / 10 ^ 6 := by
  have hzero : (cart2Sphere realTrig x y z).2.1 = 0 := by
    rw [cart2Sphere_real]
    exact if_pos h
  rw [sphere2Cart_cart2Sphere, hzero, cos_zero, sin_zero, mul_one, mul_zero, dist_triple]
  have heps : (auEps : ℝ) = 1 / 10 ^ 6 := by norm_num [auEps]
  have hlength : √(x ^ 2 + y ^ 2) ≤ |x| + |y| := by
    rw [sqrt_le_iff]
    refine ⟨add_nonneg (abs_nonneg x) (abs_nonneg y), ?_⟩
    have hproduct := mul_nonneg (abs_nonneg x) (abs_nonneg y)
    nlinarith [sq_abs x, sq_abs y]
  rw [heps] at h
  have hpos := sqrt_nonneg (x ^ 2 + y ^ 2)
  refine ⟨?_, ?_, ?_⟩
  · rw [abs_le]
    constructor
    · linarith [le_abs_self x]
    · linarith [neg_abs_le x]
  · rw [zero_sub, abs_neg]
    linarith [h.1]
  · rw [sub_self, abs_zero]
    positivity

/-- Elsewhere it comes back, in proportion to its distance from the axis. -/
theorem cart2Sphere_far (h : ¬ (|y| < auEps ∧ |x| < auEps)) :
    dist (sphere2Cart realTrig (cart2Sphere realTrig x y z).1 (cart2Sphere realTrig x y z).2.1
      (cart2Sphere realTrig x y z).2.2) (x, y, z) ≤ √(x ^ 2 + y ^ 2) / 10 ^ 19 := by
  obtain ⟨l, hl⟩ : ∃ l, Complex.arg ⟨x, y⟩ = l := ⟨_, rfl⟩
  have hlong : (cart2Sphere realTrig x y z).2.1 = if l < 0 then l + au2Pi else l := by
    rw [cart2Sphere_real, ← hl]
    exact if_neg h
  have hwrapped := (dist_triple _ _).mp (direction_wrapped l 0)
  simp only [direction, cos_zero, one_mul] at hwrapped
  have hx := mul_cos_arg x y
  have hy := mul_sin_arg x y
  rw [hl] at hx hy
  have hpos := sqrt_nonneg (x ^ 2 + y ^ 2)
  rw [sphere2Cart_cart2Sphere, hlong, dist_triple]
  refine ⟨?_, ?_, ?_⟩
  · have hstretch : √(x ^ 2 + y ^ 2) * cos (if l < 0 then l + au2Pi else l) - x =
        √(x ^ 2 + y ^ 2) * (cos (if l < 0 then l + au2Pi else l) - cos l) := by
      rw [mul_sub, hx]
    show |√(x ^ 2 + y ^ 2) * cos (if l < 0 then l + au2Pi else l) - x| ≤ _
    rw [hstretch, abs_mul, abs_of_nonneg hpos, div_eq_mul_one_div]
    exact mul_le_mul_of_nonneg_left hwrapped.1 hpos
  · have hstretch : √(x ^ 2 + y ^ 2) * sin (if l < 0 then l + au2Pi else l) - y =
        √(x ^ 2 + y ^ 2) * (sin (if l < 0 then l + au2Pi else l) - sin l) := by
      rw [mul_sub, hy]
    show |√(x ^ 2 + y ^ 2) * sin (if l < 0 then l + au2Pi else l) - y| ≤ _
    rw [hstretch, abs_mul, abs_of_nonneg hpos, div_eq_mul_one_div]
    exact mul_le_mul_of_nonneg_left hwrapped.2.1 hpos
  · rw [sub_self, abs_zero]
    positivity

end

/-! ### The frame of a pole -/

/-- The turn that takes the direction `(a0, d0)` to the pole. -/
noncomputable def toPole (a0 d0 : ℝ) (v : ℝ × ℝ × ℝ) : ℝ × ℝ × ℝ := tilt d0 (spin a0 v)

/-- The turn back. -/
noncomputable def fromPole (a0 d0 : ℝ) (v : ℝ × ℝ × ℝ) : ℝ × ℝ × ℝ := spin (-a0) (untilt d0 v)

section

variable (a0 d0 : ℝ) (v : ℝ × ℝ × ℝ)

theorem fromPole_toPole : fromPole a0 d0 (toPole a0 d0 v) = v := by
  rw [fromPole, toPole, untilt_tilt, spin_neg_spin]

theorem toPole_fromPole : toPole a0 d0 (fromPole a0 d0 v) = v := by
  have hspin := spin_neg_spin (-a0) (untilt d0 v)
  rw [neg_neg] at hspin
  rw [toPole, fromPole, hspin, tilt_untilt]

theorem sqLength_toPole : sqLength (toPole a0 d0 v) = sqLength v :=
  (sqLength_tilt d0 _).trans (sqLength_spin a0 v)

theorem sqLength_fromPole : sqLength (fromPole a0 d0 v) = sqLength v :=
  (sqLength_spin (-a0) _).trans (sqLength_untilt d0 v)

variable {v} {w : ℝ × ℝ × ℝ} {ε : ℝ}

theorem dist_toPole_le (h : dist v w ≤ ε) : dist (toPole a0 d0 v) (toPole a0 d0 w) ≤ 4 * ε :=
  (dist_tilt_le d0 (dist_spin_le a0 h)).trans_eq (by ring)

theorem dist_fromPole_le (h : dist v w ≤ ε) :
    dist (fromPole a0 d0 v) (fromPole a0 d0 w) ≤ 4 * ε :=
  (dist_spin_le (-a0) (dist_untilt_le d0 h)).trans_eq (by ring)

end

section

variable {a0 d0 a d : ℝ}

/-- The direction that `Cart2Sphere` finds for a unit vector. -/
theorem direction_cart2Sphere {v : ℝ × ℝ × ℝ} (hv : sqLength v = 1) :
    dist (direction (cart2Sphere realTrig v.1 v.2.1 v.2.2).2.1
      (cart2Sphere realTrig v.1 v.2.1 v.2.2).2.2) v ≤ 3 / 10 ^ 6 ∧
    (¬ NearAxis v → dist (direction (cart2Sphere realTrig v.1 v.2.1 v.2.2).2.1
      (cart2Sphere realTrig v.1 v.2.1 v.2.2).2.2) v ≤ 1 / 10 ^ 19) := by
  obtain ⟨x, y, z⟩ := v
  have hlength : (cart2Sphere realTrig x y z).1 = 1 := by
    rw [cart2Sphere_real]
    show √(x ^ 2 + y ^ 2 + z ^ 2) = 1
    rw [show x ^ 2 + y ^ 2 + z ^ 2 = 1 from hv, sqrt_one]
  have hdirection : direction (cart2Sphere realTrig x y z).2.1 (cart2Sphere realTrig x y z).2.2 =
      sphere2Cart realTrig (cart2Sphere realTrig x y z).1 (cart2Sphere realTrig x y z).2.1
        (cart2Sphere realTrig x y z).2.2 := by
    rw [sphere2Cart_real, hlength, one_mul, one_mul, one_mul]
  have hplane : √(x ^ 2 + y ^ 2) ≤ 1 := by
    refine sqrt_le_one.mpr ?_
    linarith [sq_nonneg z, show x ^ 2 + y ^ 2 + z ^ 2 = 1 from hv]
  have hfar : ¬ NearAxis (x, y, z) → dist (direction (cart2Sphere realTrig x y z).2.1
      (cart2Sphere realTrig x y z).2.2) (x, y, z) ≤ 1 / 10 ^ 19 := by
    intro h
    rw [hdirection]
    exact (cart2Sphere_far x y z h).trans (div_le_div_of_nonneg_right hplane (by positivity))
  refine ⟨?_, hfar⟩
  by_cases h : NearAxis (x, y, z)
  · rw [hdirection]
    exact cart2Sphere_near x y z h
  · exact (hfar h).trans (by norm_num)

theorem polarForward_real : polarForward realTrig a0 d0 a d =
    (cart2Sphere realTrig (toPole a0 d0 (direction a d)).1 (toPole a0 d0 (direction a d)).2.1
      (toPole a0 d0 (direction a d)).2.2).2 := by
  rw [polarForward, sphere2Cart_real]
  simp only [one_mul, realTrig, toPole, tilt, spin]
  congr 2
  all_goals ring

theorem polarReverse_real : polarReverse realTrig a0 d0 a d =
    (cart2Sphere realTrig (fromPole a0 d0 (direction a d)).1
      (fromPole a0 d0 (direction a d)).2.1 (fromPole a0 d0 (direction a d)).2.2).2 := by
  rw [polarReverse, sphere2Cart_real]
  simp only [one_mul, realTrig, fromPole, untilt, spin, cos_neg, sin_neg]
  congr 2
  all_goals ring

/-- Well off the axis. -/
def OffAxis (v : ℝ × ℝ × ℝ) : Prop := auEps + auEps ≤ |v.1| ∨ auEps + auEps ≤ |v.2.1|

theorem OffAxis.not_near {v w : ℝ × ℝ × ℝ} (hv : OffAxis v) (h : dist w v ≤ auEps) :
    ¬ NearAxis w := by
  obtain ⟨hx, hy, -⟩ := (dist_triple w v).mp h
  rintro ⟨hy', hx'⟩
  rcases hv with hv | hv
  · have htri : |v.1| ≤ |w.1| + |w.1 - v.1| := by
      have h' := abs_sub w.1 (w.1 - v.1)
      rwa [sub_sub_cancel] at h'
    linarith
  · have htri : |v.2.1| ≤ |w.2.1| + |w.2.1 - v.2.1| := by
      have h' := abs_sub w.2.1 (w.2.1 - v.2.1)
      rwa [sub_sub_cancel] at h'
    linarith

theorem OffAxis.not_near_self {v : ℝ × ℝ × ℝ} (hv : OffAxis v) : ¬ NearAxis v :=
  hv.not_near (by rw [dist_self]; norm_num [auEps])

/-- There and back through `Cart2Sphere`, by a turn and its inverse. -/
theorem leadsBack_of_frames {f g : ℝ → ℝ → ℝ × ℝ} {turn back : ℝ × ℝ × ℝ → ℝ × ℝ × ℝ}
    (hf : f a d = (cart2Sphere realTrig (turn (direction a d)).1 (turn (direction a d)).2.1
      (turn (direction a d)).2.2).2)
    (hg : ∀ a d, g a d = (cart2Sphere realTrig (back (direction a d)).1
      (back (direction a d)).2.1 (back (direction a d)).2.2).2)
    (hturn : ∀ v, sqLength (turn v) = sqLength v) (hback : ∀ v, sqLength (back v) = sqLength v)
    (hinverse : ∀ v, back (turn v) = v)
    (hdist : ∀ {v w ε}, dist v w ≤ ε → dist (back v) (back w) ≤ 4 * ε) :
    LeadsBack (15 / 10 ^ 6) g f a d ∧ (OffAxis (direction a d) → OffAxis (turn (direction a d)) →
      LeadsBack (5 / 10 ^ 19) g f a d) := by
  obtain ⟨hnear, hfar⟩ := direction_cart2Sphere ((hturn _).trans (sqLength_direction a d))
  rw [← hf] at hnear hfar
  obtain ⟨hnear', hfar'⟩ := direction_cart2Sphere
    ((hback _).trans (sqLength_direction (f a d).1 (f a d).2))
  rw [← hg] at hnear' hfar'
  constructor
  · have hturned := hdist hnear
    rw [hinverse] at hturned
    exact (dist_triangle _ _ _).trans ((add_le_add hnear' hturned).trans_eq (by ring))
  · intro hoff hoff'
    have hturned := hdist (hfar hoff'.not_near_self)
    rw [hinverse] at hturned
    have hback' := hfar' (hoff.not_near (hturned.trans (by norm_num [auEps])))
    exact (dist_triangle _ _ _).trans ((add_le_add hback' hturned).trans_eq (by ring))

/-- The frame of any pole leads back to the direction, both ways. It is off by as much as
`AU_EPS` allows where a direction is at a pole, and else by what the digits of a turn
leave. -/
theorem polar_roundTrip (a0 d0 a d : ℝ) :
    (LeadsBack (15 / 10 ^ 6) (polarReverse realTrig a0 d0) (polarForward realTrig a0 d0) a d ∧
      (OffAxis (direction a d) → OffAxis (toPole a0 d0 (direction a d)) →
        LeadsBack (5 / 10 ^ 19) (polarReverse realTrig a0 d0) (polarForward realTrig a0 d0) a d)) ∧
    LeadsBack (15 / 10 ^ 6) (polarForward realTrig a0 d0) (polarReverse realTrig a0 d0) a d ∧
      (OffAxis (direction a d) → OffAxis (fromPole a0 d0 (direction a d)) →
        LeadsBack (5 / 10 ^ 19) (polarForward realTrig a0 d0) (polarReverse realTrig a0 d0) a d) :=
  ⟨leadsBack_of_frames polarForward_real (fun _ _ => polarReverse_real) (sqLength_toPole a0 d0)
      (sqLength_fromPole a0 d0) (fromPole_toPole a0 d0) (dist_fromPole_le a0 d0),
    leadsBack_of_frames polarReverse_real (fun _ _ => polarForward_real) (sqLength_fromPole a0 d0)
      (sqLength_toPole a0 d0) (toPole_fromPole a0 d0) (dist_toPole_le a0 d0)⟩

/-- A direction that the turn to a pole at 30 degrees moves. -/
theorem polar_roundTrip_thirty :
    LeadsBack (5 / 10 ^ 19) (polarReverse realTrig (π / 6) (π / 6))
      (polarForward realTrig (π / 6) (π / 6)) (π / 3) (π / 6) ∧
    LeadsBack (5 / 10 ^ 19) (polarForward realTrig (π / 6) (π / 6))
      (polarReverse realTrig (π / 6) (π / 6)) (π / 3) (π / 6) := by
  have hsq : √3 * √3 = 3 := mul_self_sqrt (by norm_num)
  have hcube : √3 * √3 * √3 = 3 * √3 := by rw [hsq]
  have hlow : 1 ≤ √3 := one_le_sqrt.mpr (by norm_num)
  have hoff : OffAxis (direction (π / 3) (π / 6)) := by
    refine .inr (le_abs.mpr (.inl ?_))
    simp only [direction, sin_pi_div_three, cos_pi_div_six, auEps]
    linarith
  obtain ⟨⟨-, hforward⟩, -, hreverse⟩ := polar_roundTrip (π / 6) (π / 6) (π / 3) (π / 6)
  refine ⟨hforward hoff (.inr (le_abs.mpr (.inl ?_))), hreverse hoff (.inr (le_abs.mpr (.inl ?_)))⟩
  · simp only [toPole, tilt, spin, direction, sin_pi_div_six, cos_pi_div_six, sin_pi_div_three,
      cos_pi_div_three, auEps]
    linarith
  · simp only [fromPole, untilt, spin, direction, sin_neg, cos_neg, sin_pi_div_six,
      cos_pi_div_six, sin_pi_div_three, cos_pi_div_three, auEps]
    linarith

end

end Gtoaes
