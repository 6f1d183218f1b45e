import Gtoaes.Astro.Dates
import Mathlib.Tactic.NormNum
import Mathlib.Tactic.Linarith

/-!
`MoonPosition` of an instant depends on the time that is stored. Where the two differ
there are functions, in the place of the trigonometric ones, under which the positions
do: the cosine a large constant and the sine constant but at the obliquity of one of
the times.
-/

namespace Gtoaes

open Lib

variable {K : Type} [Field K] [LinearOrder K] [FloorRing K]

/-- The sine is 0 at `q` and 1 elsewhere, the cosine is `c`. -/
def telling (c q : K) : Trig K where
  sin x := if x = q then 0 else 1
  cos _ := c
  tan _ := 0
  asin _ := 0
  sqrt _ := 1
  atan2 y x := if x = 1 then y else 0

variable {c q : K}

/-! ### The obliquity -/

omit [FloorRing K] in
/-- The series in obliquity, where every sine is 1 and every cosine is `c`. -/
theorem nutationSums_telling {x : List LuniSolar} {t : K} {a : Delaunay K}
    (h : ∀ r ∈ x, r.arg a ≠ q) :
    (nutationSums (telling c q) x t a).2 =
      c * ((x.map (·.ec)).sum + (x.map (·.ect)).sum * t) + (x.map (·.es)).sum := by
  induction x with
  | nil => simp [nutationSums]
  | cons r x ih =>
      have hrest := ih fun r' hr' => h r' (List.mem_cons_of_mem r hr')
      have hsin : (telling c q).sin (r.arg a) = 1 := if_neg (h r List.mem_cons_self)
      rw [nutationSums, List.foldr_cons]
      simp only [List.map_cons, List.sum_cons, Int.cast_add]
      rw [hsin]
      show (nutationSums (telling c q) x t a).2 + ((r.ec + r.ect * t) * c + r.es * 1) = _
      rw [hrest]
      ring

/-- What the cosine is multiplied by in the obliquity. -/
def obliquitySlope (t : K) : K := (98324139 + 5394 * t) * (auAs2R * 1e-7)

def obliquityRest (t : K) : K :=
  AtInstant.meanObliquity t + (11205 * (auAs2R * 1e-7) + 0.388e-6 * auAs2R)

theorem trueObliquity_telling {t : K} (h : ∀ r ∈ nutationTerms, r.arg (AtInstant.delaunay t) ≠ q) :
    AtInstant.trueObliquity (telling c q) t = c * obliquitySlope t + obliquityRest t := by
  have hec : (nutationTerms.map (·.ec)).sum = 98324139 := rfl
  have hect : (nutationTerms.map (·.ect)).sum = 5394 := rfl
  have hes : (nutationTerms.map (·.es)).sum = 11205 := rfl
  have hsums := nutationSums_telling (c := c) (t := t) h
  rw [hec, hect, hes] at hsums
  push_cast at hsums
  show AtInstant.meanObliquity t + ((nutationSums (telling c q) nutationTerms t
    (AtInstant.delaunay t)).2 * (auAs2R * 1e-7) + 0.388e-6 * auAs2R) = _
  rw [hsums, obliquitySlope, obliquityRest]
  ring

theorem auAs2R_pos [IsStrictOrderedRing K] : (0 : K) < auAs2R := by
  unfold auAs2R
  norm_num

/-- Of two times at least one has the obliquity depend on the cosine. -/
theorem obliquitySlope_injective [IsStrictOrderedRing K] :
    Function.Injective (obliquitySlope : K → K) := by
  intro t t' h
  have hunit : (auAs2R * 1e-7 : K) ≠ 0 := mul_ne_zero auAs2R_pos.ne' (by norm_num)
  have hmul := mul_right_cancel₀ hunit h
  linarith

/-! ### The position -/

omit [FloorRing K] in
theorem cart2Sphere_telling {x y z : K} (hx : x ≠ 1) :
    cart2Sphere (telling c q) x y z = (1, 0, z) := by
  have hatan : (telling c q).atan2 y x = 0 := if_neg hx
  have hd : (telling c q).atan2 z 1 = z := if_pos rfl
  show (1, (if |y| < auEps ∧ |x| < auEps then 0
    else if (telling c q).atan2 y x < 0 then (telling c q).atan2 y x + au2Pi
    else (telling c q).atan2 y x), (telling c q).atan2 z 1) = (1, 0, z)
  rw [hatan, if_neg (lt_irrefl 0), ite_self, hd]

omit [LinearOrder K] [FloorRing K] in
theorem moonAngles_congr {o : AtInstant.MoonOrbit K} {s s' : AtInstant.SunStored K}
    (hls : s.ls = s'.ls) (hms : s.ms = s'.ms) : moonAngles o s = moonAngles o s' := by
  rw [moonAngles, moonAngles, hls, hms]

/-- The declination under these functions: the obliquity is told by its sine. -/
theorem moonAt_telling {o : AtInstant.MoonOrbit K} {s : AtInstant.SunStored K}
    (hx : o.a * (c - o.e) ≠ 1) (hx' : c * c - c ≠ 1) (h : ∀ x ∈ moonAngles o s, x ≠ q) (e0 : K) :
    (AtInstant.moonAt (telling c q) o s e0).2.2 =
      (1 - 0.58 * c - 0.46 * c) * c * ((telling c q).sin s.eo + 1) := by
  have hsin : ∀ x ∈ moonAngles o s, (telling c q).sin x = 1 := fun x hx => if_neg (h x hx)
  have hcos : ∀ x, (telling c q).cos x = c := fun _ => rfl
  have hsqrt : ∀ x, (telling c q).sqrt x = 1 := fun _ => rfl
  have hv : ∀ y, (telling c q).atan2 y (o.a * (c - o.e)) = 0 := fun _ => if_neg hx
  simp only [moonAngles, List.forall_mem_cons, List.not_mem_nil, false_imp_iff, forall_const,
    and_true] at hsin
  obtain ⟨hn, hw, hi, h1, h2, h3, h4, h5, h6, h7, h8, h9, h10, h11, h12, h13, h14, h15, h16, h17,
    hlon, hlat⟩ := hsin
  simp only [AtInstant.moonAt, sphere2Cart, hcos, hsqrt, hv, hn, hw, hi,
    cart2Sphere_telling hx', h1, h2, h3, h4, h5, h6, h7, h8, h9, h10, h11, h12, h13, h14, h15,
    h16, h17, one_mul, mul_one, hlon, hlat]
  exact (if_pos rfl).trans (by ring)

/-! ### The loop -/

variable [IsStrictOrderedRing K]

/-- Where the cosine is large the loop of `MoonPosition` ends at its second turn. -/
theorem kepler_telling {o : AtInstant.MoonOrbit K} (he : 0 < o.e) (he1 : o.e ≤ 1)
    (hc : (au2Pi + 1 + |o.m|) * 200 < c * o.e - 1) :
    ∃ e0, AtInstant.kepler (telling c q) 2 o = some e0 := by
  set T := telling c q
  set e0 := cycmod (o.m + o.e * T.sin o.m * (1 + o.e * T.cos o.m)) au2Pi
  set e1 := cycmod (AtInstant.keplerNext T o e0) au2Pi
  have hkepler : AtInstant.kepler T 2 o = Loop.run (AtInstant.keplerBody T o) 2 0 (e0, e1) := rfl
  have hclose : |e1 - AtInstant.keplerNext T o e1| ≤ 0.005 := by
    obtain ⟨hlo, hhi⟩ := cycmod_mem (AtInstant.keplerNext T o e0) (au2Pi_pos (K := K))
    have hstep : e1 - AtInstant.keplerNext T o e1 = (e1 - o.e * T.sin e1 - o.m) / (1 - o.e * c) := by
      show e1 - (e1 - (e1 - o.e * T.sin e1 - o.m) / (1 - o.e * c)) = _
      ring
    have hsin : 0 ≤ o.e * T.sin e1 ∧ o.e * T.sin e1 ≤ 1 := by
      rcases ite_eq_or_eq (e1 = q) (0 : K) 1 with h | h
      · rw [show T.sin e1 = 0 from h, mul_zero]
        exact ⟨le_rfl, zero_le_one⟩
      · rw [show T.sin e1 = 1 from h, mul_one]
        exact ⟨he.le, he1⟩
    have hnum : |e1 - o.e * T.sin e1 - o.m| ≤ au2Pi + 1 + |o.m| := by
      rw [abs_le]
      have hm := abs_le.mp (le_refl |o.m|)
      constructor <;> linarith [hsin.1, hsin.2]
    have hpos : (0 : K) < c * o.e - 1 := by
      have := abs_nonneg o.m
      have := au2Pi_pos (K := K)
      linarith
    rw [hstep, abs_div, abs_sub_comm 1, mul_comm o.e c, abs_of_pos hpos, div_le_iff₀ hpos]
    linarith
  by_cases hfar : |e0 - e1| > 0.005
  · refine ⟨AtInstant.keplerNext T o e1, ?_⟩
    rw [hkepler, Loop.run, AtInstant.keplerBody, if_pos hfar]
    show Loop.run (AtInstant.keplerBody T o) 1 1 (e1, AtInstant.keplerNext T o e1) = _
    rw [Loop.run, AtInstant.keplerBody, if_neg (not_lt_of_ge hclose)]
  · refine ⟨e1, ?_⟩
    rw [hkepler, Loop.run, AtInstant.keplerBody, if_neg hfar]

/-! ### A cosine that is large enough -/

omit [FloorRing K] in
/-- A number that is large enough for finitely many bounds. -/
theorem exists_lt_mul (l : List (K × K)) (h : ∀ x ∈ l, 0 < x.2) :
    ∃ c : K, 2 < c ∧ ∀ x ∈ l, x.1 < c * x.2 := by
  induction l with
  | nil => exact ⟨3, by norm_num, nofun⟩
  | cons y l ih =>
      obtain ⟨c, hc, hl⟩ := ih fun x hx => h x (List.mem_cons_of_mem y hx)
      have hy := h y List.mem_cons_self
      refine ⟨max c (y.1 / y.2 + 1), lt_max_of_lt_left hc, ?_⟩
      intro x hx
      obtain rfl | hx := List.mem_cons.mp hx
      · have hlt : x.1 / x.2 < max c (x.1 / x.2 + 1) := lt_max_of_lt_right (lt_add_one _)
        exact (div_lt_iff₀ hy).mp hlt
      · have hpos := h x (List.mem_cons_of_mem y hx)
        exact (hl x hx).trans_le (mul_le_mul_of_nonneg_right (le_max_left _ _) hpos.le)

omit [FloorRing K] in
theorem ne_of_abs_add_lt {c s r x : K} (hc : 0 < c) (h : |x| + |r| < c * |s|) : x ≠ c * s + r := by
  rintro rfl
  have habs : c * |s| = |c * s| := by rw [abs_mul, abs_of_pos hc]
  have htri : |c * s| ≤ |c * s + r| + |r| := by
    have := abs_sub (c * s + r) r
    rwa [add_sub_cancel_right] at this
  rw [habs] at h
  exact absurd h (not_lt_of_ge htri)

omit [FloorRing K] in
/-- A cosine under which one line keeps off finitely many angles and off another line. -/
theorem exists_cosine (angles : List K) {b e s₀ s₁ : K} (r₀ r₁ : K) (he : 0 < e) (hs : s₀ ≠ 0)
    (hss : s₀ ≠ s₁) :
    ∃ c : K, 2 < c ∧ b < c * e ∧ c * s₁ + r₁ ≠ c * s₀ + r₀ ∧ ∀ x ∈ angles, x ≠ c * s₀ + r₀ := by
  obtain ⟨c, hc, hbounds⟩ := exists_lt_mul
    ((b, e) :: (|0| + |r₀ - r₁|, |s₀ - s₁|) :: angles.map fun x => (|x| + |r₀|, |s₀|)) (by
    simp only [List.forall_mem_cons, List.forall_mem_map]
    exact ⟨he, abs_pos.mpr (sub_ne_zero_of_ne hss), fun _ _ => abs_pos.mpr hs⟩)
  simp only [List.forall_mem_cons, List.forall_mem_map] at hbounds
  obtain ⟨hb, hline, hangles⟩ := hbounds
  have hpos : 0 < c := by linarith
  refine ⟨c, hc, hb, fun heq => ?_, fun x hx => ne_of_abs_add_lt hpos (hangles x hx)⟩
  apply ne_of_abs_add_lt hpos hline
  linear_combination heq

/-- The position at an instant tells two stored times apart. -/
theorem exists_moonPosition_ne (mjd : K) {mjd₀ mjd₁ : K} (hne : mjd₀ ≠ mjd₁)
    (hslope : obliquitySlope (AtInstant.julianCentury mjd₀) ≠ 0) :
    ∃ (trig : Trig K) (fuel : ℕ),
      AtInstant.moonPosition trig fuel mjd (AtInstant.sunStored trig mjd₀) ≠
        AtInstant.moonPosition trig fuel mjd (AtInstant.sunStored trig mjd₁) := by
  set o := AtInstant.moonOrbit mjd
  set t₀ := AtInstant.julianCentury mjd₀
  set t₁ := AtInstant.julianCentury mjd₁
  have ht : t₀ ≠ t₁ := by
    intro h
    have h36525 : (36525 : K) ≠ 0 := by norm_num
    exact hne (sub_left_injective ((div_left_inj' h36525).mp h))
  have he : 0 < o.e := by show (0 : K) < 0.054900; norm_num
  have he1 : o.e ≤ 1 := by show (0.054900 : K) ≤ 1; norm_num
  -- none of the angles whose sine is taken depends on the cosine
  have hangles : ∀ trig mjd, moonAngles o (AtInstant.sunStored trig mjd) =
      moonAngles o (AtInstant.sunStored (telling 0 0) mjd) := fun _ _ => moonAngles_congr rfl rfl
  obtain ⟨c, hc, hloop, hobl, hq⟩ := exists_cosine (b := (au2Pi + 1 + |o.m|) * 200 + 1)
    (nutationTerms.map (·.arg (AtInstant.delaunay t₀)) ++
      (nutationTerms.map (·.arg (AtInstant.delaunay t₁)) ++
      (moonAngles o (AtInstant.sunStored (telling 0 0) mjd₀) ++
      moonAngles o (AtInstant.sunStored (telling 0 0) mjd₁))))
    (obliquityRest t₀) (obliquityRest t₁) he hslope (obliquitySlope_injective.ne ht)
  set q := c * obliquitySlope t₀ + obliquityRest t₀
  simp only [List.forall_mem_append, List.forall_mem_map] at hq
  obtain ⟨hq₀, hq₁, hmoon₀, hmoon₁⟩ := hq
  have hsin₀ : (telling c q).sin (AtInstant.trueObliquity (telling c q) t₀) = 0 :=
    if_pos (trueObliquity_telling hq₀)
  have hsin₁ : (telling c q).sin (AtInstant.trueObliquity (telling c q) t₁) = 1 :=
    if_neg (trueObliquity_telling (c := c) hq₁ ▸ hobl)
  obtain ⟨e0, he0⟩ := kepler_telling (c := c) (q := q) he he1 (by linarith)
  refine ⟨telling c q, 2, fun heq => ?_⟩
  rw [AtInstant.moonPosition, AtInstant.moonPosition, he0, Option.map_some, Option.map_some,
    Option.some.injEq] at heq
  have hx : o.a * (c - o.e) ≠ 1 := by
    have : (1 : K) < 60.2666 * (c - 0.054900) := by linarith
    exact this.ne'
  have hx' : c * c - c ≠ 1 := by
    have : 1 < c * c - c := by nlinarith
    exact this.ne'
  have hdec := congrArg (fun p => p.2.2) heq
  rw [moonAt_telling hx hx' (by rw [hangles]; exact hmoon₀),
    moonAt_telling hx hx' (by rw [hangles]; exact hmoon₁)] at hdec
  have hzero : (1 - 0.58 * c - 0.46 * c) * c * (0 + 1) = (1 - 0.58 * c - 0.46 * c) * c * (1 + 1) :=
    hsin₀ ▸ hsin₁ ▸ hdec
  have hneg : (1 - 0.58 * c - 0.46 * c) * c < 0 :=
    mul_neg_of_neg_of_pos (by linarith) (by linarith)
  linarith

/-! ### When the methods agree with the getters -/

variable {mem : AtsMemory K} {trig : Trig K} {fuel : ℕ} {is : List (AtsCall K)}
  {mjd lgt lat alt : K} {tz : ℤ}

/-- Whatever the trigonometric functions are, `MoonPosition` agrees: exactly if the
instant it is given is the one stored. -/
theorem moonPosition_agrees_all_iff (hstores : StoresInstant mjd) :
    (∀ (trig : Trig K) (fuel : ℕ), Agrees mem trig fuel is mjd lgt lat alt tz .moonPosition) ↔
      storedMjd mem is = mjd := by
  simp only [moonPosition_agrees_iff hstores]
  constructor
  · intro hagrees
    by_contra hne
    by_cases hslope : obliquitySlope (AtInstant.julianCentury mjd) = 0
    · have hcentury : AtInstant.julianCentury (storedMjd mem is) ≠ AtInstant.julianCentury mjd := by
        intro h
        have h36525 : (36525 : K) ≠ 0 := by norm_num
        exact hne (sub_left_injective ((div_left_inj' h36525).mp h))
      have hother : obliquitySlope (AtInstant.julianCentury (storedMjd mem is)) ≠ 0 :=
        fun h => hcentury (obliquitySlope_injective (h.trans hslope.symm))
      obtain ⟨trig, fuel, htells⟩ := exists_moonPosition_ne mjd hne hother
      exact htells (hagrees trig fuel)
    · obtain ⟨trig, fuel, htells⟩ := exists_moonPosition_ne mjd (Ne.symm hne) hslope
      exact htells (hagrees trig fuel).symm
  · rintro h trig fuel
    rw [h]

/-- After any calls, the methods agree with the getters of their names under given
functions, and `MoonPosition` under all: exactly if nutation leaves the mean local
sidereal time in its turn, and the instant is the one stored. -/
theorem agrees_iff (hstores : StoresInstant mjd) :
    ((∀ m, m ≠ .moonPosition → Agrees mem trig fuel is mjd lgt lat alt tz m) ∧
        ∀ (trig : Trig K) (fuel : ℕ), Agrees mem trig fuel is mjd lgt lat alt tz .moonPosition) ↔
      InTurn trig mjd (lgt * auD2R) ∧ storedMjd mem is = mjd := by
  rw [moonPosition_agrees_all_iff hstores]
  refine and_congr_left fun _ => ?_
  constructor
  · intro hagrees
    exact (localSiderealTime_agrees_iff hstores).mp (hagrees .localSiderealTime (by decide))
  · intro hturn m hmoon
    by_cases hlst : m = .localSiderealTime
    · subst hlst
      exact (localSiderealTime_agrees_iff hstores).mpr hturn
    · exact agrees_of_ne hstores hlst hmoon

theorem storesInstant_of_nonneg {mjd : ℚ} (h : 0 ≤ mjd) : StoresInstant mjd := by
  refine (storesInstant_iff ?_).mpr (.inl h)
  rw [toInt, if_pos (by norm_num [auMjd0]; linarith), Int.le_floor]
  norm_num [auMjd0]
  linarith

theorem storedMjd_setMJD {mem : AtsMemory ℚ} {mjd : ℚ} (h : 0 ≤ mjd) :
    storedMjd mem [.setMJD mjd] = mjd := by
  obtain ⟨haccepted, hmjd⟩ := storesInstant_of_nonneg h
  exact (if_pos haccepted).trans hmjd

/-- The instant asked for is stored already, and there is no nutation. -/
theorem agrees_stored :
    (∀ m, m ≠ .moonPosition →
        Agrees zeroMemory (telling 0 0) 2 [.setMJD 60000] 60000 117 40 900 8 m) ∧
      ∀ (trig : Trig ℚ) (fuel : ℕ),
        Agrees zeroMemory trig fuel [.setMJD 60000] 60000 117 40 900 8 .moonPosition := by
  have hstores : StoresInstant (60000 : ℚ) := storesInstant_of_nonneg (by norm_num)
  refine (agrees_iff hstores).mpr ⟨?_, storedMjd_setMJD (by norm_num)⟩
  have hnone : equinoxes (telling 0 0) (60000 : ℚ) = 0 := mul_zero _
  rw [InTurn, hnone, add_zero]
  exact cycmod_mem _ au2Pi_pos

/-- The moon of another day, placed by the obliquity and the sun of the day that is
stored. -/
theorem not_agrees :
    ¬ ∀ (trig : Trig ℚ) (fuel : ℕ),
      Agrees zeroMemory trig fuel [.setMJD 60000] 60310 117 40 900 8 .moonPosition := by
  rw [moonPosition_agrees_all_iff (storesInstant_of_nonneg (by norm_num)),
    storedMjd_setMJD (by norm_num)]
  norm_num

end Gtoaes
