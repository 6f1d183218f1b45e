import Gtoaes.Astro.ATimeSpace
import Gtoaes.Astro.Frames
import Gtoaes.Astro.SiteChange

/-!
Rise, set and twilight. `TimeOfSunAlt` takes the sun where it stands at the beginning of
the day and asks whether its daily circle meets an altitude. Where it does not, the
code says on which side of it the circle lies.
-/

namespace Gtoaes

section

variable {K : Type} [Field K] [LinearOrder K] [FloorRing K] (trig : Trig K) (acos : K → K)

/-- The code for a circle whose sines of altitude are `x * cos ha` and what is missing to
the one that is looked for is `y`. -/
def sunCode (x y : K) : ℤ :=
  if x < 1e-4 ∧ y > 0 then 1
  else if x < 1e-4 ∧ y < 0 then -1
  else if y / x ≥ 1 then 1
  else if y / x ≤ -1 then -1
  else 0

namespace AtsBase

/-- The sun at the beginning of the day. -/
def sunAt (b : AtsBase K) : K × K :=
  AtInstant.sunPosition trig (AtInstant.julianCentury (toInt b.mjd : K))

/-- The variable `x` of `TimeOfSunAlt`. -/
def sunSpan (b : AtsBase K) : K := trig.cos b.lat * trig.cos (b.sunAt trig).2

/-- The variable `y`. -/
def sunGap (b : AtsBase K) (h0 : K) : K :=
  trig.sin h0 - trig.sin b.lat * trig.sin (b.sunAt trig).2

/-- One of the two times, from where the sun stands at the fraction `m` of the day. -/
def sunTime (b : AtsBase K) (h0 t0 m : K) : K :=
  let t := t0 + 360.985647 * m * auD2R
  let p := AtInstant.sunPosition trig (AtInstant.julianCentury (toInt b.mjd + m))
  let h := (eq2Horizon trig b.lat (t + b.lgt - p.1) p.2).2
  let m := m + (h - h0) /
    (au2Pi * trig.cos p.2 * trig.cos b.lat * trig.sin (t + b.lgt - p.1))
  cycmod (cycmod m 1 * 24 + b.tz) 24

/-- `TimeOfSunAlt`: the code it returns and the times it stores. -/
def timeOfSunAlt (b : AtsBase K) (alt : K) : ℤ × Option (K × K) :=
  let h0 := alt * auD2R
  let x := b.sunSpan trig
  let y := b.sunGap trig h0
  if sunCode x y = 0 then
    let dm := acos (y / x)
    let t0 := AtInstant.greenwichSiderealTime trig (toInt b.mjd : K)
    let m0 := cycmod (((b.sunAt trig).1 - b.lgt - t0) / au2Pi) 1
    (0, some (b.sunTime trig h0 t0 (cycmod (m0 - dm / au2Pi) 1),
      b.sunTime trig h0 t0 (cycmod (m0 + dm / au2Pi) 1)))
  else (sunCode x y, none)

/-- The altitude that `TwilightTime` asks for. -/
def twilightAlt (type : ℤ) : K :=
  if type = 1 then -6.0 else if type = 2 then -12.0 else if type = 3 then -18.0 else 0.0

/-- `TwilightTime` -/
def twilightTime (b : AtsBase K) (type : ℤ) : ℤ × Option (K × K) :=
  b.timeOfSunAlt trig acos (twilightAlt type)

theorem timeOfSunAlt_fst (b : AtsBase K) (alt : K) :
    (b.timeOfSunAlt trig acos alt).1 = sunCode (b.sunSpan trig) (b.sunGap trig (alt * auD2R)) := by
  rw [timeOfSunAlt]
  split_ifs with h
  · exact h.symm
  · rfl

end AtsBase

/-! ### Codes -/

variable [IsStrictOrderedRing K] {x y y' : K}

theorem sunCode_near (hx : x < 1e-4) :
    sunCode x y = if y > 0 then 1 else if y < 0 then -1 else 0 := by
  rw [sunCode]
  obtain h | rfl | h := lt_trichotomy y 0
  · rw [if_neg fun hand => hand.2.not_gt h, if_pos ⟨hx, h⟩, if_neg h.not_gt, if_pos h]
  · norm_num
  · rw [if_pos ⟨hx, h⟩, if_pos h]

theorem sunCode_off (hx : 1e-4 ≤ x) :
    sunCode x y = if x ≤ y then 1 else if y ≤ -x then -1 else 0 := by
  have hpos : 0 < x := lt_of_lt_of_le (by norm_num) hx
  rw [sunCode, if_neg fun hand => hand.1.not_ge hx, if_neg fun hand => hand.1.not_ge hx]
  simp only [ge_iff_le, one_le_div hpos, div_le_iff₀ hpos, neg_mul, one_mul]

/-- The higher the altitude, the higher the code. -/
theorem sunCode_mono (hy : y ≤ y') : sunCode x y ≤ sunCode x y' := by
  obtain hx | hx := lt_or_ge x 1e-4
  · rw [sunCode_near hx, sunCode_near hx]
    split_ifs <;> first | omega | (exfalso; linarith)
  · have hpos : 0 < x := lt_of_lt_of_le (by norm_num) hx
    rw [sunCode_off hx, sunCode_off hx]
    split_ifs <;> first | omega | (exfalso; linarith)

end

/-! ### The daily circle -/

open Lib Real

namespace AtsBase

variable (b : AtsBase ℝ)

/-- The sine of the altitude at an hour angle. -/
noncomputable def sunSine (ha : ℝ) : ℝ :=
  sin (eq2Horizon realTrig b.lat ha (b.sunAt realTrig).2).2

/-- What the sine lacks of another goes with the cosine of the hour angle. -/
theorem sunSine_eq (h0 ha : ℝ) :
    b.sunSine ha = sin h0 - b.sunGap realTrig h0 + b.sunSpan realTrig * cos ha := by
  obtain ⟨dec, hdec⟩ : ∃ dec, (b.sunAt realTrig).2 = dec := ⟨_, rfl⟩
  -- it is the third number of a turned direction
  have hunit : sqLength (tilt b.lat (direction ha dec)) = 1 :=
    (sqLength_tilt b.lat _).trans (sqLength_direction ha dec)
  have hthird : (tilt b.lat (direction ha dec)).2.2 =
      sin b.lat * sin dec + cos b.lat * cos dec * cos ha := by
    simp only [tilt, direction]
    ring
  rw [sqLength, hthird] at hunit
  have hbound : |sin b.lat * sin dec + cos b.lat * cos dec * cos ha| ≤ 1 := by
    rw [← sq_le_one_iff_abs_le_one]
    nlinarith only [hunit, sq_nonneg (tilt b.lat (direction ha dec)).1,
      sq_nonneg (tilt b.lat (direction ha dec)).2.1]
  have hsine : b.sunSine ha = sin b.lat * sin dec + cos b.lat * cos dec * cos ha := by
    rw [sunSine, hdec]
    exact sin_arcsin (abs_le.mp hbound).1 (abs_le.mp hbound).2
  rw [hsine, sunGap, sunSpan, hdec]
  simp only [realTrig]
  ring

/-- The altitude is on a side of the circle. -/
theorem sunSine_le_iff (hspan : 0 ≤ b.sunSpan realTrig) (h0 δ : ℝ) :
    (∀ ha, b.sunSine ha ≤ sin h0 + δ) ↔ b.sunSpan realTrig ≤ b.sunGap realTrig h0 + δ := by
  constructor
  · intro h
    have hnoon := h 0
    rw [b.sunSine_eq h0, cos_zero] at hnoon
    linarith
  · intro h ha
    rw [b.sunSine_eq h0]
    have hcos := mul_le_mul_of_nonneg_left (cos_le_one ha) hspan
    linarith

theorem le_sunSine_iff (hspan : 0 ≤ b.sunSpan realTrig) (h0 δ : ℝ) :
    (∀ ha, sin h0 - δ ≤ b.sunSine ha) ↔ b.sunGap realTrig h0 ≤ δ - b.sunSpan realTrig := by
  constructor
  · intro h
    have hnight := h π
    rw [b.sunSine_eq h0, cos_pi] at hnight
    linarith
  · intro h ha
    rw [b.sunSine_eq h0]
    have hcos := mul_le_mul_of_nonneg_left (neg_one_le_cos ha) hspan
    linarith

/-- Where the circle is hardly one, the codes take it for a point. -/
noncomputable def polarSlack : ℝ := if b.sunSpan realTrig < 1e-4 then 1e-4 else 0

/-- What the codes of an altitude say of the circle. -/
structure Told (alt : ℝ) (r : ℤ × Option (ℝ × ℝ)) : Prop where
  below : (∀ ha, b.sunSine ha ≤ sin (alt * auD2R)) → r.1 = 1
  above : (∀ ha, sin (alt * auD2R) ≤ b.sunSine ha) → r.1 = -1
  of_one : r.1 = 1 → r.2 = none ∧ ∀ ha, b.sunSine ha ≤ sin (alt * auD2R) + b.polarSlack
  of_neg_one : r.1 = -1 → r.2 = none ∧ ∀ ha, sin (alt * auD2R) - b.polarSlack ≤ b.sunSine ha
  otherwise : r.1 ≠ 1 → r.1 ≠ -1 → ∃ rise set, r = (0, some (rise, set)) ∧
    (0 ≤ rise ∧ rise < 24) ∧ (0 ≤ set ∧ set < 24) ∧
    ∃ ha, b.sunSine ha = sin (alt * auD2R) ∧ b.sunSine (-ha) = sin (alt * auD2R)

variable {b} {alt : ℝ}

section Codes

variable (hspan : 0 < b.sunSpan realTrig)
include hspan

theorem sunCode_of_span_le {y : ℝ} (hy : b.sunSpan realTrig ≤ y) :
    sunCode (b.sunSpan realTrig) y = 1 := by
  obtain hx | hx := lt_or_ge (b.sunSpan realTrig) 1e-4
  · rw [sunCode_near hx, if_pos (hspan.trans_le hy)]
  · rw [sunCode_off hx, if_pos hy]

theorem sunCode_of_le_neg_span {y : ℝ} (hy : y ≤ -b.sunSpan realTrig) :
    sunCode (b.sunSpan realTrig) y = -1 := by
  have hneg : y < 0 := by linarith
  obtain hx | hx := lt_or_ge (b.sunSpan realTrig) 1e-4
  · rw [sunCode_near hx, if_neg hneg.not_gt, if_pos hneg]
  · rw [sunCode_off hx, if_neg (by linarith), if_pos hy]

omit hspan in
theorem span_le_of_sunCode {y : ℝ} (h : sunCode (b.sunSpan realTrig) y = 1) :
    b.sunSpan realTrig ≤ y + b.polarSlack := by
  rw [polarSlack]
  obtain hx | hx := lt_or_ge (b.sunSpan realTrig) 1e-4
  · rw [sunCode_near hx] at h
    rw [if_pos hx]
    split_ifs at h
    · linarith
    · cases h
  · rw [sunCode_off hx] at h
    rw [if_neg hx.not_gt, add_zero]
    split_ifs at h
    · assumption
    · cases h

omit hspan in
theorem le_of_sunCode {y : ℝ} (h : sunCode (b.sunSpan realTrig) y = -1) :
    y ≤ b.polarSlack - b.sunSpan realTrig := by
  rw [polarSlack]
  obtain hx | hx := lt_or_ge (b.sunSpan realTrig) 1e-4
  · rw [sunCode_near hx] at h
    rw [if_pos hx]
    split_ifs at h
    linarith
  · rw [sunCode_off hx] at h
    rw [if_neg hx.not_gt, zero_sub]
    split_ifs at h
    assumption

/-- Else the circle crosses the altitude. -/
theorem abs_gap_le_of_sunCode {y : ℝ} (hone : sunCode (b.sunSpan realTrig) y ≠ 1)
    (hneg : sunCode (b.sunSpan realTrig) y ≠ -1) :
    sunCode (b.sunSpan realTrig) y = 0 ∧ |y| ≤ b.sunSpan realTrig := by
  have hhigh : y < b.sunSpan realTrig := lt_of_not_ge fun hy => hone (sunCode_of_span_le hspan hy)
  have hlow : -b.sunSpan realTrig < y := lt_of_not_ge fun hy => hneg (sunCode_of_le_neg_span hspan hy)
  refine ⟨?_, abs_le.mpr ⟨hlow.le, hhigh.le⟩⟩
  rw [sunCode] at hone hneg ⊢
  split_ifs at hone hneg ⊢ <;> first | rfl | exact absurd rfl hone | exact absurd rfl hneg

omit hspan in
theorem sunTime_mem (h0 t0 m : ℝ) :
    0 ≤ b.sunTime realTrig h0 t0 m ∧ b.sunTime realTrig h0 t0 m < 24 :=
  cycmod_mem _ (by norm_num)

theorem told_timeOfSunAlt (alt : ℝ) : b.Told alt (b.timeOfSunAlt realTrig arccos alt) := by
  have hcode := timeOfSunAlt_fst realTrig arccos b alt
  have hstored : sunCode (b.sunSpan realTrig) (b.sunGap realTrig (alt * auD2R)) ≠ 0 →
      (b.timeOfSunAlt realTrig arccos alt).2 = none := by
    intro hne
    rw [timeOfSunAlt, if_neg hne]
  refine ⟨fun h => ?_, fun h => ?_, fun h => ⟨?_, ?_⟩, fun h => ⟨?_, ?_⟩, fun hone hneg => ?_⟩
  · rw [hcode]
    refine sunCode_of_span_le hspan ?_
    have hle := (b.sunSine_le_iff hspan.le (alt * auD2R) 0).mp (by simpa only [add_zero] using h)
    rwa [add_zero] at hle
  · rw [hcode]
    refine sunCode_of_le_neg_span hspan ?_
    have hle := (b.le_sunSine_iff hspan.le (alt * auD2R) 0).mp (by simpa only [sub_zero] using h)
    rwa [zero_sub] at hle
  · rw [hcode] at h
    exact hstored (by omega)
  · rw [hcode] at h
    exact (b.sunSine_le_iff hspan.le _ _).mpr (span_le_of_sunCode h)
  · rw [hcode] at h
    exact hstored (by omega)
  · rw [hcode] at h
    exact (b.le_sunSine_iff hspan.le _ _).mpr (le_of_sunCode h)
  · rw [hcode] at hone hneg
    obtain ⟨hzero, hgap⟩ := abs_gap_le_of_sunCode hspan hone hneg
    have hratio : |b.sunGap realTrig (alt * auD2R) / b.sunSpan realTrig| ≤ 1 := by
      rw [abs_div, abs_of_pos hspan]
      exact (div_le_one hspan).mpr hgap
    -- the hour angle with which the two times begin
    have hmeets : b.sunSpan realTrig *
        cos (arccos (b.sunGap realTrig (alt * auD2R) / b.sunSpan realTrig)) =
          b.sunGap realTrig (alt * auD2R) := by
      rw [cos_arccos (abs_le.mp hratio).1 (abs_le.mp hratio).2, mul_div_cancel₀ _ hspan.ne']
    refine ⟨_, _, by rw [timeOfSunAlt, if_pos hzero], sunTime_mem _ _ _, sunTime_mem _ _ _,
      arccos (b.sunGap realTrig (alt * auD2R) / b.sunSpan realTrig), ?_, ?_⟩
    · rw [b.sunSine_eq (alt * auD2R), hmeets]
      ring
    · rw [b.sunSine_eq (alt * auD2R), cos_neg, hmeets]
      ring

end Codes

theorem twilightAlt_mem (type : ℤ) :
    (-18 : ℝ) ≤ twilightAlt type ∧ (twilightAlt type : ℝ) ≤ 0 := by
  rw [twilightAlt]
  split_ifs <;> norm_num

/-- The sine goes up with the altitude of a twilight. -/
theorem sin_twilight_le {type type' : ℤ} (h : (twilightAlt type : ℝ) ≤ twilightAlt type') :
    sin (twilightAlt type * auD2R) ≤ sin (twilightAlt type' * auD2R) := by
  have hunit : (0 : ℝ) < auD2R ∧ (auD2R : ℝ) < 1 / 18 := by
    rw [auD2R]
    norm_num
  have hpi := pi_gt_three
  obtain ⟨hlow, -⟩ := twilightAlt_mem type
  obtain ⟨-, hhigh⟩ := twilightAlt_mem type'
  refine sin_le_sin_of_le_of_le_pi_div_two ?_ ?_ (mul_le_mul_of_nonneg_right h hunit.1.le)
  · have hmul := mul_le_mul_of_nonneg_right hlow hunit.1.le
    linarith [hunit.2]
  · have hmul := mul_le_mul_of_nonneg_right hhigh hunit.1.le
    linarith

/-- Where the sun's daily circle has a radius, the code of every altitude tells on which
side of it the circle lies, and else the circle meets the altitude and both times are
times of day. And a deeper twilight has no higher code than another. -/
theorem timeOfSunAlt_told (b : AtsBase ℝ) :
    (0 < b.sunSpan realTrig → ∀ alt, b.Told alt (b.timeOfSunAlt realTrig arccos alt)) ∧
      ∀ type type', (twilightAlt type : ℝ) ≤ twilightAlt type' →
        (b.twilightTime realTrig arccos type).1 ≤ (b.twilightTime realTrig arccos type').1 := by
  refine ⟨told_timeOfSunAlt, fun type type' h => ?_⟩
  rw [twilightTime, twilightTime, timeOfSunAlt_fst, timeOfSunAlt_fst]
  exact sunCode_mono (sub_le_sub_right (sin_twilight_le h) _)

/-- A site on the equator, at the first midnight of 2000. -/
noncomputable def equator : AtsBase ℝ :=
  { lgt := 0, lat := 0, alt := 0, tz := 0, mjd := 51544, dat := 32 }

theorem equator_span_pos : 0 < equator.sunSpan realTrig := by
  have hday : (toInt equator.mjd : ℝ) = 51544 := by
    simp [equator, toInt]
  obtain ⟨l, hl⟩ : ∃ l, (equator.sunAt realTrig).2 = arcsin (sin
      (AtInstant.meanObliquity (AtInstant.julianCentury (51544 : ℝ)) + 2.56e-3 *
        cos (cycmod (125.04 - 1934.136 * AtInstant.julianCentury (51544 : ℝ)) 360 * auD2R) *
          auD2R) * sin l) := by
    rw [sunAt, hday]
    exact ⟨_, rfl⟩
  have hcos := abs_cos_le_one
    (cycmod (125.04 - 1934.136 * AtInstant.julianCentury (51544 : ℝ)) 360 * auD2R)
  -- the ecliptic is inclined by less than a radian
  have hsmall : |AtInstant.meanObliquity (AtInstant.julianCentury (51544 : ℝ)) + 2.56e-3 *
      cos (cycmod (125.04 - 1934.136 * AtInstant.julianCentury (51544 : ℝ)) 360 * auD2R) *
        auD2R| < 1 := by
    generalize cos _ = c at hcos ⊢
    obtain ⟨hlow, hhigh⟩ := abs_le.mp hcos
    rw [abs_lt, AtInstant.meanObliquity, AtInstant.julianCentury, auMjd2K, auAs2R, auD2R]
    constructor
    · norm_num
      linarith
    · norm_num
      linarith
  have hsine := (abs_sin_le_abs.trans_lt hsmall)
  have hlat : cos equator.lat = 1 := cos_zero
  rw [sunSpan, show realTrig.cos equator.lat = 1 from hlat, one_mul, hl]
  refine cos_arcsin_pos ?_
  rw [abs_mul]
  exact (mul_le_of_le_one_right (abs_nonneg _) (abs_sin_le_one l)).trans_lt hsine

theorem timeOfSunAlt_told_equator :
    equator.Told 0 (equator.timeOfSunAlt realTrig arccos 0) ∧
      (equator.twilightTime realTrig arccos 3).1 ≤ (equator.twilightTime realTrig arccos 0).1 :=
  ⟨(timeOfSunAlt_told equator).1 equator_span_pos 0,
    (timeOfSunAlt_told equator).2 3 0 (by norm_num [twilightAlt])⟩

end AtsBase

end Gtoaes
