import Gtoaes.AMath.Polar
import Gtoaes.Lib.GreatCircle

/-!
Distances on the sphere. `SphereRange` and `SphereAngle` are the arcs of great circles, and
the frames of `ATimeSpace` and of `AMath` keep them, to within what the digits of a turn
leave.
-/

namespace Gtoaes

open Lib Real

section

variable {K : Type} [Field K] (trig : Trig K) (acos : K → K)

/-- `AMath::SphereRange` -/
def sphereRange (a1 d1 a2 d2 : K) : K :=
  let x := trig.cos d1 * trig.cos d2 * trig.cos (a1 - a2) + trig.sin d1 * trig.sin d2
  acos x

/-- `ATimeSpace::SphereAngle` -/
def sphereAngle (l1 b1 l2 b2 : K) : K :=
  acos (trig.sin b1 * trig.sin b2 + trig.cos b1 * trig.cos b2 * trig.cos (l1 - l2))

end

theorem sphereRange_real (a d a' d' : ℝ) :
    sphereRange realTrig arccos a d a' d' = greatArc (direction a d) (direction a' d') := by
  rw [sphereRange, greatArc]
  simp only [realTrig, dotTriple, direction, cos_sub]
  congr 1
  ring

/-- The distances are a metric of the directions, the same in both classes. -/
theorem sphereRange_metric (a d a' d' : ℝ) :
    sphereAngle realTrig arccos a d a' d' = sphereRange realTrig arccos a d a' d' ∧
    cos (sphereRange realTrig arccos a d a' d') =
      cos d * cos d' * cos (a - a') + sin d * sin d' ∧
    sphereRange realTrig arccos a d a' d' = sphereRange realTrig arccos a' d' a d ∧
    (sphereRange realTrig arccos a d a' d' = 0 ↔ direction a d = direction a' d') ∧
    ∀ a'' d'', sphereRange realTrig arccos a d a'' d'' ≤
      sphereRange realTrig arccos a d a' d' + sphereRange realTrig arccos a' d' a'' d'' := by
  have hunit := sqLength_direction a d
  have hunit' := sqLength_direction a' d'
  refine ⟨?_, ?_, ?_, ?_, fun a'' d'' => ?_⟩
  · rw [sphereAngle, sphereRange, add_comm]
  · rw [sphereRange_real, cos_greatArc hunit hunit']
    simp only [dotTriple, direction, cos_sub]
    ring
  · rw [sphereRange_real, sphereRange_real, greatArc_comm]
  · rw [sphereRange_real]
    exact greatArc_eq_zero_iff hunit hunit'
  · rw [sphereRange_real, sphereRange_real, sphereRange_real]
    exact greatArc_triangle hunit hunit' (sqLength_direction a'' d'')

/-- A transformation of directions keeps the distance of two of them, up to `ε`. -/
def KeepsRange (ε : ℝ) (f : ℝ → ℝ → ℝ × ℝ) (a d a' d' : ℝ) : Prop :=
  |sphereRange realTrig arccos (f a d).1 (f a d).2 (f a' d').1 (f a' d').2 -
    sphereRange realTrig arccos a d a' d'| ≤ ε

section

variable {a d a' d' : ℝ}

/-- What is near a turn keeps distances nearly. -/
theorem keepsRange_of_turn {f : ℝ → ℝ → ℝ × ℝ} {turn : ℝ × ℝ × ℝ → ℝ × ℝ × ℝ} {ε : ℝ}
    (hdot : ∀ v w, dotTriple (turn v) (turn w) = dotTriple v w)
    (hlength : ∀ v, sqLength (turn v) = sqLength v)
    (h : dist (direction (f a d).1 (f a d).2) (turn (direction a d)) ≤ ε)
    (h' : dist (direction (f a' d').1 (f a' d').2) (turn (direction a' d')) ≤ ε) :
    KeepsRange (6 * ε) f a d a' d' := by
  have harc : greatArc (turn (direction a d)) (turn (direction a' d')) =
      greatArc (direction a d) (direction a' d') := by
    rw [greatArc, greatArc, hdot]
  rw [KeepsRange, sphereRange_real, sphereRange_real, ← harc]
  exact abs_greatArc_sub_le (sqLength_direction _ _) (sqLength_direction _ _)
    ((hlength _).trans (sqLength_direction a d)) ((hlength _).trans (sqLength_direction a' d')) h h'

theorem KeepsRange.mono {f : ℝ → ℝ → ℝ × ℝ} {ε δ : ℝ} (h : KeepsRange ε f a d a' d')
    (hδ : ε ≤ δ) : KeepsRange δ f a d a' d' := le_trans h hδ

end

theorem dotTriple_toPole (a0 d0 : ℝ) (v w : ℝ × ℝ × ℝ) :
    dotTriple (toPole a0 d0 v) (toPole a0 d0 w) = dotTriple v w :=
  (dotTriple_tilt d0 _ _).trans (dotTriple_spin a0 v w)

theorem dotTriple_fromPole (a0 d0 : ℝ) (v w : ℝ × ℝ × ℝ) :
    dotTriple (fromPole a0 d0 v) (fromPole a0 d0 w) = dotTriple v w :=
  (dotTriple_spin (-a0) _ _).trans (dotTriple_untilt d0 v w)

/-- Through `Cart2Sphere`: off the axis by the digits of a turn, and at the axis by what
`AU_EPS` allows. -/
theorem keepsRange_of_frame {f : ℝ → ℝ → ℝ × ℝ} {turn : ℝ × ℝ × ℝ → ℝ × ℝ × ℝ}
    (hf : ∀ a d, f a d = (cart2Sphere realTrig (turn (direction a d)).1
      (turn (direction a d)).2.1 (turn (direction a d)).2.2).2)
    (hdot : ∀ v w, dotTriple (turn v) (turn w) = dotTriple v w)
    (hlength : ∀ v, sqLength (turn v) = sqLength v) (a d a' d' : ℝ) :
    KeepsRange (18 / 10 ^ 6) f a d a' d' ∧
      (¬ NearAxis (turn (direction a d)) → ¬ NearAxis (turn (direction a' d')) →
        KeepsRange (6 / 10 ^ 19) f a d a' d') := by
  obtain ⟨hnear, hfar⟩ := direction_cart2Sphere ((hlength _).trans (sqLength_direction a d))
  obtain ⟨hnear', hfar'⟩ := direction_cart2Sphere ((hlength _).trans (sqLength_direction a' d'))
  rw [← hf] at hnear hfar hnear' hfar'
  refine ⟨(keepsRange_of_turn hdot hlength hnear hnear').mono (by norm_num), fun h h' => ?_⟩
  exact (keepsRange_of_turn hdot hlength (hfar h) (hfar' h')).mono (by norm_num)

/-- Every change of the frame keeps the distance of two directions: those of `ATimeSpace`
off the poles of the frame that they leave, those of `AMath` everywhere, and better off the
axis of the frame that they lead to. -/
theorem frames_keepRange (lat eo a0 d0 a d a' d' : ℝ) :
    (0 < cos d → 0 < cos d' →
      KeepsRange (6 / 10 ^ 19) (eq2Horizon realTrig lat) a d a' d' ∧
      KeepsRange (6 / 10 ^ 19) (horizon2Eq realTrig lat) a d a' d' ∧
      KeepsRange (6 / 10 ^ 19) (eq2Eclip realTrig · · eo) a d a' d' ∧
      KeepsRange (6 / 10 ^ 19) (eclip2Eq realTrig · · eo) a d a' d') ∧
    (KeepsRange (18 / 10 ^ 6) (polarForward realTrig a0 d0) a d a' d' ∧
      (¬ NearAxis (toPole a0 d0 (direction a d)) → ¬ NearAxis (toPole a0 d0 (direction a' d')) →
        KeepsRange (6 / 10 ^ 19) (polarForward realTrig a0 d0) a d a' d')) ∧
    KeepsRange (18 / 10 ^ 6) (polarReverse realTrig a0 d0) a d a' d' ∧
      (¬ NearAxis (fromPole a0 d0 (direction a d)) → ¬ NearAxis (fromPole a0 d0 (direction a' d')) →
        KeepsRange (6 / 10 ^ 19) (polarReverse realTrig a0 d0) a d a' d') := by
  have hdigits : (6 : ℝ) * (1 / 10 ^ 19) ≤ 6 / 10 ^ 19 := by norm_num
  refine ⟨fun hd hd' => ⟨?_, ?_, ?_, ?_⟩, ?_, ?_⟩
  · exact (keepsRange_of_turn (dotTriple_tilt lat) (sqLength_tilt lat)
      (direction_eq2Horizon hd) (direction_eq2Horizon hd')).mono hdigits
  · exact (keepsRange_of_turn (dotTriple_untilt lat) (sqLength_untilt lat)
      (direction_horizon2Eq hd) (direction_horizon2Eq hd')).mono hdigits
  · exact (keepsRange_of_turn (f := (eq2Eclip realTrig · · eo)) (dotTriple_roll eo)
      (sqLength_roll eo) (direction_eq2Eclip hd) (direction_eq2Eclip hd')).mono hdigits
  · exact (keepsRange_of_turn (f := (eclip2Eq realTrig · · eo)) (dotTriple_roll (-eo))
      (sqLength_roll (-eo)) (direction_eclip2Eq hd) (direction_eclip2Eq hd')).mono hdigits
  · exact keepsRange_of_frame (fun _ _ => polarForward_real) (dotTriple_toPole a0 d0)
      (sqLength_toPole a0 d0) a d a' d'
  · exact keepsRange_of_frame (fun _ _ => polarReverse_real) (dotTriple_fromPole a0 d0)
      (sqLength_fromPole a0 d0) a d a' d'

/-- A quarter of the equator, seen from a latitude of one radian. -/
theorem frames_keepRange_quarter :
    KeepsRange (6 / 10 ^ 19) (eq2Horizon realTrig 1) 0 0 (π / 2) 0 ∧
    KeepsRange (6 / 10 ^ 19) (polarForward realTrig 0 (π / 2)) 0 0 (π / 2) 0 := by
  obtain ⟨hframes, ⟨-, hforward⟩, -⟩ := frames_keepRange 1 0 0 (π / 2) 0 0 (π / 2) 0
  refine ⟨(hframes (by simp) (by simp)).1, hforward ?_ ?_⟩
  · rw [show toPole 0 (π / 2) (direction 0 0) = (1, 0, 0) by simp [toPole, tilt, spin, direction]]
    norm_num [NearAxis, auEps]
  · rw [show toPole 0 (π / 2) (direction (π / 2) 0) = (0, 1, 0) by
      simp [toPole, tilt, spin, direction]]
    norm_num [NearAxis, auEps]

end Gtoaes
