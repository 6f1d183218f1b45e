import Gtoaes.Astro.Instant
import Mathlib.Data.Int.Interval
import Mathlib.Tactic.IntervalCases
import Mathlib.Tactic.LinearCombination

/-!
The two calendars of `ATimeSpace.cpp`: `ModifiedJulianDay` counts days from a date and
`Mjd2Cal` finds the date of a day. A day is taken apart first, into the cycles of the
calendar counted from a 1st of March; from there both functions are a division each.
-/

namespace Gtoaes

/-! ### Days and months -/

/-- A day in the cycles of the Gregorian calendar: 400, 100, 4 and 1 years, and the days
since the 1st of March. Only a leap day is the 366th. -/
structure MarchDay where
  cycle : ℤ
  century : ℤ
  span : ℤ
  year : ℤ
  day : ℤ
  century_mem : 0 ≤ century ∧ century ≤ 3
  span_mem : 0 ≤ span ∧ span ≤ 24
  year_mem : 0 ≤ year ∧ year ≤ 3
  day_mem : 0 ≤ day ∧ day ≤ 365
  leap : day = 365 → year = 3 ∧ (span = 24 → century = 3)

namespace MarchDay

def julianDay (p : MarchDay) : ℤ :=
  1721120 + 146097 * p.cycle + 36524 * p.century + 1461 * p.span + 365 * p.year + p.day

/-- The year, which begins with March. -/
def marchYear (p : MarchDay) : ℤ := 400 * p.cycle + 100 * p.century + 4 * p.span + p.year

theorem exists_of_julianDay (jdn : ℤ) : ∃ p : MarchDay, p.julianDay = jdn := by
  obtain ⟨r, hr⟩ : ∃ r, r = (jdn - 1721120) % 146097 := ⟨_, rfl⟩
  obtain ⟨c, hc⟩ : ∃ c, c = min (r / 36524) 3 := ⟨_, rfl⟩
  obtain ⟨d, hd⟩ : ∃ d, d = (r - 36524 * c) / 1461 := ⟨_, rfl⟩
  obtain ⟨e, he⟩ : ∃ e, e = min ((r - 36524 * c - 1461 * d) / 365) 3 := ⟨_, rfl⟩
  refine ⟨⟨(jdn - 1721120) / 146097, c, d, e, r - 36524 * c - 1461 * d - 365 * e,
    ?_, ?_, ?_, ?_, ?_⟩, ?_⟩
  · omega
  · omega
  · omega
  · omega
  · omega
  · simp only [julianDay]
    omega

theorem marchYear_nonneg (p : MarchDay) (h : 1721120 ≤ p.julianDay) : 0 ≤ p.marchYear := by
  have hcentury := p.century_mem
  have hspan := p.span_mem
  have hyear := p.year_mem
  have hday := p.day_mem
  rw [julianDay] at h
  rw [marchYear]
  omega

/-- The month `im` of the year `iy`, with its day `id`, is this day. -/
structure IsDate (p : MarchDay) (iy im id : ℤ) : Prop where
  month : 1 ≤ im ∧ im ≤ 12
  year : p.marchYear = iy + (im - 14).tdiv 12
  first : 1 ≤ id
  last : id ≤ mdays.getD im.toNat 0 + leapDay iy im
  day : p.day = (367 * (im - 2 - 12 * (im - 14).tdiv 12)).tdiv 12 - 31 + id

end MarchDay

theorem leapDay_mem (iy im : ℤ) : leapDay iy im = 0 ∨ im = 2 ∧ leapDay iy im = 1 := by
  rw [leapDay]
  split
  · next h => exact .inr ⟨h.1, rfl⟩
  · exact .inl rfl

theorem leapDay_eq (iy im : ℤ) (h : 0 ≤ iy) :
    leapDay iy im = if im = 2 ∧ iy % 4 = 0 ∧ (iy % 100 ≠ 0 ∨ iy % 400 = 0) then 1 else 0 := by
  rw [leapDay, Int.tmod_eq_emod_of_nonneg h, Int.tmod_eq_emod_of_nonneg h,
    Int.tmod_eq_emod_of_nonneg h]

/-- A year is counted from the March before: January and February belong to the last. -/
theorem month_shift {im : ℤ} (h : 1 ≤ im ∧ im ≤ 12) :
    (im - 14).tdiv 12 = if im ≤ 2 then -1 else 0 := by
  obtain ⟨hlow, hhigh⟩ := h
  interval_cases im <;> rfl

theorem mdays_pos {im : ℤ} (h : 1 ≤ im ∧ im ≤ 12) : 1 ≤ mdays.getD im.toNat 0 := by
  obtain ⟨hlow, hhigh⟩ := h
  interval_cases im <;> decide

/-- The days of a March year before its `k`-th month. -/
def monthStart (k : ℤ) : ℤ := (153 * k + 2) / 5

/-- The months counted from March: where each begins, and its length. -/
theorem month_index {im : ℤ} (h : 1 ≤ im ∧ im ≤ 12) :
    ∃ k, (0 ≤ k ∧ k ≤ 11) ∧ im = 12 * (im - 14).tdiv 12 + k + 3 ∧
      (367 * (im - 2 - 12 * (im - 14).tdiv 12)).tdiv 12 - 31 = monthStart k - 1 ∧
      mdays.getD im.toNat 0 = if im = 2 then 28 else monthStart (k + 1) - monthStart k := by
  obtain ⟨hlow, hhigh⟩ := h
  refine ⟨im - 3 - 12 * (im - 14).tdiv 12, ?_⟩
  interval_cases im <;> decide

/-- The days of the `k`-th month are those from its start to the next. -/
theorem monthStart_index {n : ℤ} (h : 0 ≤ n ∧ n ≤ 365) :
    ∃ k, (0 ≤ k ∧ k ≤ 11) ∧ monthStart k ≤ n ∧ n < monthStart (k + 1) := by
  refine ⟨(5 * n + 2) / 153, ?_, ?_, ?_⟩
  · omega
  · rw [monthStart]
    omega
  · rw [monthStart]
    omega

/-- A month of 30.6 days, as `Mjd2Cal` counts them, is the month of the day. -/
theorem month_of_day {k n : ℤ} (hk : 0 ≤ k ∧ k ≤ 11) (hlow : monthStart k ≤ n)
    (hhigh : n < monthStart (k + 1)) : 10000000 * (123 + n) / 306000001 = k + 4 := by
  rw [monthStart] at hlow hhigh
  omega

theorem month_days {k : ℤ} (hk : 0 ≤ k ∧ k ≤ 11) :
    306000001 * (k + 4) / 10000000 = 122 + monthStart k := by
  rw [monthStart]
  omega

/-- The day of the March year falls into the `k`-th month. -/
theorem MarchDay.IsDate.exists_index {p : MarchDay} {iy im id : ℤ} (h : p.IsDate iy im id) :
    ∃ k, (0 ≤ k ∧ k ≤ 11) ∧ 12 * iy + im = 12 * p.marchYear + k + 3 ∧
      p.day = monthStart k + id - 1 ∧ p.day < monthStart (k + 1) := by
  obtain ⟨k, hk, him, hstart, hlength⟩ := month_index h.month
  have hyear := h.year
  have hday := h.day
  have hlast := h.last
  have hleap := leapDay_mem iy im
  refine ⟨k, hk, by omega, by omega, ?_⟩
  rw [hlength] at hlast
  by_cases hfeb : im = 2
  · have hk' : k = 11 := by omega
    rw [if_pos hfeb] at hlast
    rw [hk'] at hstart ⊢
    simp only [monthStart] at hstart ⊢
    omega
  · rw [if_neg hfeb] at hlast
    omega

/-- Every day has a date. -/
theorem exists_isDate (p : MarchDay) (hp : 0 ≤ p.marchYear) : ∃ iy im id, p.IsDate iy im id := by
  obtain ⟨k, hk, hlow, hhigh⟩ := monthStart_index p.day_mem
  obtain ⟨im, him⟩ : ∃ im, im = if k < 10 then k + 3 else k - 9 := ⟨_, rfl⟩
  have hmonth : 1 ≤ im ∧ im ≤ 12 := by omega
  have hshift := month_shift hmonth
  obtain ⟨iy, hiy⟩ : ∃ iy, iy = p.marchYear - (im - 14).tdiv 12 := ⟨_, rfl⟩
  obtain ⟨k', hk', him', hstart, hlength⟩ := month_index hmonth
  obtain rfl : k' = k := by omega
  refine ⟨iy, im, p.day + 1 - monthStart k', hmonth, by omega, by omega, ?_, by omega⟩
  rw [hlength]
  by_cases hfeb : im = 2
  · -- the 29th is the last day of a leap year
    have hleap := leapDay_eq iy im (by omega)
    have hlast := p.leap
    have hcentury := p.century_mem
    have hspan := p.span_mem
    have hyear := p.year_mem
    have hday := p.day_mem
    have hmarch : p.marchYear = 400 * p.cycle + 100 * p.century + 4 * p.span + p.year := rfl
    have hk11 : k' = 11 := by omega
    rw [if_pos hfeb, hleap, hk11]
    simp only [monthStart]
    omega
  · have hleap := leapDay_mem iy im
    rw [if_neg hfeb]
    omega

/-- Every date that is accepted is a day. -/
theorem exists_marchDay {iy im id : ℤ} (hiy : 1 ≤ iy) (him : 1 ≤ im ∧ im ≤ 12) (hfirst : 1 ≤ id)
    (hlast : id ≤ mdays.getD im.toNat 0 + leapDay iy im) :
    ∃ p : MarchDay, p.IsDate iy im id := by
  obtain ⟨y, hy⟩ : ∃ y, y = iy + (im - 14).tdiv 12 := ⟨_, rfl⟩
  obtain ⟨k, hk, hindex, hstart, hlength⟩ := month_index him
  have hshift := month_shift him
  have hleap := leapDay_eq iy im (by omega)
  have hbound : 0 ≤ monthStart k + id - 1 ∧ monthStart k + id - 1 ≤ 365 ∧
      (monthStart k + id - 1 = 365 → im = 2 ∧ leapDay iy im = 1) := by
    rw [hlength] at hlast
    have hmem := leapDay_mem iy im
    by_cases hfeb : im = 2
    · have hk11 : k = 11 := by omega
      rw [if_pos hfeb] at hlast
      rw [hk11]
      simp only [monthStart]
      omega
    · rw [if_neg hfeb] at hlast
      simp only [monthStart] at hlast ⊢
      omega
  refine ⟨⟨y / 400, y % 400 / 100, y % 100 / 4, y % 4, monthStart k + id - 1, ?_, ?_, ?_, ?_, ?_⟩, him,
    ?_, hfirst, hlast, ?_⟩
  · omega
  · omega
  · omega
  · exact ⟨hbound.1, hbound.2.1⟩
  · intro h
    obtain ⟨hfeb, hday⟩ := hbound.2.2 h
    rw [hleap] at hday
    omega
  · simp only [MarchDay.marchYear]
    omega
  · show monthStart k + id - 1 = _
    omega

namespace MarchDay

/-- The 1st of March of a year. -/
def firstDay (y : ℤ) : ℤ := 1721120 + 365 * y + y / 4 - y / 100 + y / 400

theorem julianDay_eq (p : MarchDay) : p.julianDay = firstDay p.marchYear + p.day := by
  have hcentury := p.century_mem
  have hspan := p.span_mem
  have hyear := p.year_mem
  rw [julianDay, firstDay, marchYear]
  omega

theorem julianDay_lt_firstDay (p : MarchDay) {y : ℤ} (h : p.marchYear < y) :
    p.julianDay < firstDay y := by
  have hcentury := p.century_mem
  have hspan := p.span_mem
  have hyear := p.year_mem
  have hday := p.day_mem
  have hleap := p.leap
  have hnext : p.julianDay < firstDay (p.marchYear + 1) := by
    rw [julianDay, firstDay, marchYear]
    omega
  have hmono : firstDay (p.marchYear + 1) ≤ firstDay y := by
    rw [firstDay, firstDay]
    omega
  omega

/-- Months follow each other as their first days do. -/
theorem IsDate.month_le_iff {p q : MarchDay} {iy im id iy' im' : ℤ} (hp : p.IsDate iy im 1)
    (hq : q.IsDate iy' im' id) :
    p.julianDay ≤ q.julianDay ↔ 12 * iy + im ≤ 12 * iy' + im' := by
  obtain ⟨k, hk, hpMonth, hpDay, -⟩ := hp.exists_index
  obtain ⟨l, hl, hqMonth, hqDay, hqNext⟩ := hq.exists_index
  have hqFirst := hq.first
  rcases lt_trichotomy p.marchYear q.marchYear with hlt | heq | hgt
  · have hbefore := p.julianDay_lt_firstDay hlt
    have hafter := q.julianDay_eq
    have hqd := q.day_mem
    omega
  · rw [p.julianDay_eq, q.julianDay_eq, heq]
    simp only [monthStart] at hpDay hqDay hqNext
    omega
  · have hbefore := q.julianDay_lt_firstDay hgt
    have hafter := p.julianDay_eq
    have hpd := p.day_mem
    omega

/-- The first day of a month, by the count of months. -/
def firstOfMonth (m : ℤ) : ℤ :=
  firstDay ((m - 1) / 12 + ((m - 1) % 12 + 1 - 14).tdiv 12) +
    ((367 * ((m - 1) % 12 + 1 - 2 - 12 * ((m - 1) % 12 + 1 - 14).tdiv 12)).tdiv 12 - 30)

theorem IsDate.firstOfMonth_le_iff {p : MarchDay} {iy im id m : ℤ} (hp : p.IsDate iy im id)
    (hm : 12 < m) : firstOfMonth m ≤ p.julianDay ↔ m ≤ 12 * iy + im := by
  have hmonth : 1 ≤ (m - 1) % 12 + 1 ∧ (m - 1) % 12 + 1 ≤ 12 := by omega
  have hlength : 1 ≤ mdays.getD ((m - 1) % 12 + 1).toNat 0 := mdays_pos hmonth
  have hleap := leapDay_mem ((m - 1) / 12) ((m - 1) % 12 + 1)
  obtain ⟨q, hq⟩ : ∃ q : MarchDay, q.IsDate ((m - 1) / 12) ((m - 1) % 12 + 1) 1 :=
    exists_marchDay (by omega) hmonth le_rfl (by omega)
  have hfirst : firstOfMonth m = q.julianDay := by
    rw [firstOfMonth, q.julianDay_eq, hq.year, hq.day]
    ring
  rw [hfirst, hq.month_le_iff hp]
  omega

end MarchDay

/-! ### The two functions -/

section Conversions

variable {K : Type} [Field K] [LinearOrder K] [FloorRing K]

theorem toInt_of_nonneg {x : K} (hx : 0 ≤ x) : toInt x = ⌊x⌋ := if_pos hx

omit [LinearOrder K] [FloorRing K] in
/-- `ModifiedJulianDay` counts the days to the date. -/
theorem CalDate.modifiedJulianDay_of_isDate {p : MarchDay} {iy im id : ℤ}
    (h : p.IsDate iy im id) (hp : 0 ≤ p.marchYear) (fd : K) :
    CalDate.modifiedJulianDay ⟨iy, im, id, fd⟩ = ((p.julianDay - 2400001 : ℤ) : K) + fd := by
  have hyear := h.year
  have hday := h.day
  have hcentury := p.century_mem
  have hspan := p.span_mem
  have hyears := p.year_mem
  have hmarch : p.marchYear = 400 * p.cycle + 100 * p.century + 4 * p.span + p.year := rfl
  have hyearDays : (1461 * (p.marchYear + 4800)).tdiv 4 =
      146100 * p.cycle + 36525 * p.century + 1461 * p.span + 365 * p.year + 1753200 := by
    rw [Int.tdiv_eq_ediv_of_nonneg (by omega)]
    omega
  have hcenturies : (3 * ((p.marchYear + 4900).tdiv 100)).tdiv 4 =
      3 * p.cycle + p.century + 36 := by
    rw [Int.tdiv_eq_ediv_of_nonneg (a := p.marchYear + 4900) (by omega),
      Int.tdiv_eq_ediv_of_nonneg (by omega)]
    omega
  simp only [CalDate.modifiedJulianDay]
  rw [← hyear, hyearDays, hcenturies]
  congr 2
  rw [MarchDay.julianDay]
  omega

variable [IsStrictOrderedRing K]

theorem toInt_div {m n : ℤ} (hm : 0 ≤ m) (hn : 0 < n) : toInt ((m : K) / (n : K)) = m / n := by
  have hm' : (0 : K) ≤ m := by exact_mod_cast hm
  have hn' : (0 : K) < n := by exact_mod_cast hn
  rw [toInt_of_nonneg (div_nonneg hm' hn'.le), Int.floor_div_cast_of_nonneg hn.le,
    Int.floor_intCast]

/-- The decimal fractions of `Mjd2Cal` in whole numbers. -/
theorem toInt_eq_ediv {x : K} {m n : ℤ} (hm : 0 ≤ m) (hn : 0 < n) (h : x * n = m) :
    toInt x = m / n := by
  rw [← toInt_div (K := K) hm hn, ← h, mul_div_cancel_right₀ x (by exact_mod_cast hn.ne')]

/-- `Mjd2Cal` finds the date of the day. -/
theorem mjd2Cal_of_isDate {p : MarchDay} {iy im id : ℤ} (h : p.IsDate iy im id)
    (hgregorian : 2299161 ≤ p.julianDay) {mjd : K}
    (hday : toInt (mjd + auMjd0 + 0.5) = p.julianDay) :
    mjd2Cal mjd = ⟨iy, im, id, fmodOne mjd⟩ := by
  have hcentury := p.century_mem
  have hspan := p.span_mem
  have hyears := p.year_mem
  have hdays := p.day_mem
  have hlast := p.leap
  have hjdn : p.julianDay =
    1721120 + 146097 * p.cycle + 36524 * p.century + 1461 * p.span + 365 * p.year + p.day := rfl
  -- centuries without a leap day, but for one in four
  have ht : toInt (((p.julianDay : K) - 1867216.25) / 36524.25) =
      4 * p.cycle + p.century - 4 := by
    rw [toInt_eq_ediv (m := 4 * p.julianDay - 7468865) (n := 146097) (by omega) (by norm_num)]
    · omega
    · push_cast
      field_simp
      ring
  have hskipped : (4 * p.cycle + p.century - 4).tdiv 4 = p.cycle - 1 := by
    rw [Int.tdiv_eq_ediv_of_nonneg (by omega)]
    omega
  obtain ⟨b, hb⟩ : ∃ b, p.julianDay + 1 + (4 * p.cycle + p.century - 4) - (p.cycle - 1) + 1524 = b :=
    ⟨_, rfl⟩
  -- years, where every fourth has a leap day
  have hc : toInt (((b : K) - 122.1) / 365.25) = p.marchYear + 4716 := by
    rw [toInt_eq_ediv (m := 20 * b - 2442) (n := 7305) (by omega) (by norm_num)]
    · rw [MarchDay.marchYear]
      omega
    · push_cast
      field_simp
      ring
  have hd : toInt (365.25 * ((p.marchYear + 4716 : ℤ) : K)) = b - 123 - p.day := by
    rw [toInt_eq_ediv (m := 1461 * (p.marchYear + 4716)) (n := 4)
      (by rw [MarchDay.marchYear]; omega) (by norm_num)]
    · have hsum : 1461 * (p.marchYear + 4716) = 4 * (b - 123 - p.day) + p.year := by
        rw [MarchDay.marchYear]
        omega
      omega
    · push_cast
      ring
  -- months of 30.6 days
  obtain ⟨e, he⟩ : ∃ e, e = 10000000 * (123 + p.day) / 306000001 := ⟨_, rfl⟩
  have he' : toInt (((b - (b - 123 - p.day) : ℤ) : K) / 30.6000001) = e := by
    rw [he, toInt_eq_ediv (m := 10000000 * (123 + p.day)) (n := 306000001) (by omega) (by norm_num)]
    push_cast
    field_simp
    ring
  have hfirst : toInt (30.6000001 * (e : K)) = 306000001 * e / 10000000 := by
    apply toInt_eq_ediv (by omega) (by norm_num)
    push_cast
    ring
  obtain ⟨k, hk, hmonth, hid, hnext⟩ := h.exists_index
  have hmonths := h.month
  have hidFirst := h.first
  have hek : e = k + 4 := he.trans (month_of_day hk (by omega) hnext)
  have hmonthDays : 306000001 * e / 10000000 = 122 + monthStart k := by
    rw [hek]
    exact month_days hk
  have him : (if e < 14 then e - 1 else e - 13) = im := by
    rw [hek]
    omega
  simp only [mjd2Cal, hday, if_pos hgregorian, ge_iff_le, ht, hskipped, hb, hc, hd, he', hfirst, him]
  congr 1
  · omega
  · omega

omit [FloorRing K] [IsStrictOrderedRing K] in
theorem CalDate.checkUTC_eq_zero_iff {x : CalDate K} :
    x.checkUTC = 0 ↔ -4799 ≤ x.iy ∧ (1 ≤ x.im ∧ x.im ≤ 12) ∧
      (1 ≤ x.id ∧ x.id ≤ mdays.getD x.im.toNat 0 + leapDay x.iy x.im) ∧ 0 ≤ x.fd ∧ x.fd < 1 := by
  rw [CalDate.checkUTC]
  split_ifs with hyear hmonth hday hfraction
  · exact ⟨nofun, fun h => absurd h.1 (by omega)⟩
  · exact ⟨nofun, fun h => by omega⟩
  · exact ⟨nofun, fun h => by omega⟩
  · exact ⟨nofun, fun h => absurd hfraction (not_or.mpr ⟨not_lt.mpr h.2.2.2.1, not_le.mpr h.2.2.2.2⟩)⟩
  · obtain ⟨hnonneg, hlt⟩ := not_or.mp hfraction
    exact ⟨fun _ => ⟨by omega, by omega, by omega, not_lt.mp hnonneg, not_le.mp hlt⟩, fun _ => rfl⟩

theorem dayNumber_eq (mjd : K) (h : 0 ≤ ⌊mjd⌋ + 2400001) :
    toInt (mjd + auMjd0 + 0.5) = ⌊mjd⌋ + 2400001 := by
  have hsum : mjd + auMjd0 + 0.5 = mjd + (2400001 : ℤ) := by
    rw [auMjd0]
    push_cast
    ring
  have hnonneg : (0 : K) ≤ mjd + (2400001 : ℤ) := by
    calc (0 : K) ≤ ((⌊mjd⌋ + 2400001 : ℤ) : K) := by exact_mod_cast h
      _ = ⌊mjd⌋ + (2400001 : ℤ) := by push_cast; ring
      _ ≤ mjd + (2400001 : ℤ) := by gcongr; exact Int.floor_le mjd
  rw [hsum, toInt_of_nonneg hnonneg, Int.floor_add_intCast]

/-- The date is that one or a later one. -/
def CalDate.From (x : CalDate K) (iy im id : ℤ) : Prop :=
  iy < x.iy ∨ x.iy = iy ∧ (im < x.im ∨ x.im = im ∧ id ≤ x.id)

omit [Field K] [FloorRing K] [IsStrictOrderedRing K] [LinearOrder K] in
theorem MarchDay.julianDay_of_from {p : MarchDay} {x : CalDate K} (h : p.IsDate x.iy x.im x.id)
    (hfrom : x.From 1858 11 17) : 2400001 ≤ p.julianDay := by
  have hcentury := p.century_mem
  have hspan := p.span_mem
  have hyears := p.year_mem
  have hdays := p.day_mem
  obtain ⟨k, hk, hmonth, hday, -⟩ := h.exists_index
  have hmonths := h.month
  rw [monthStart] at hday
  have hmarch : p.marchYear = 400 * p.cycle + 100 * p.century + 4 * p.span + p.year := rfl
  have hidFirst := h.first
  have hlast : 1858 < p.marchYear ∨ p.marchYear = 1858 ∧ 261 ≤ p.day := by
    rcases hfrom with hlater | ⟨hsame, hlater⟩
    · omega
    · omega
  have hcycles : 4 < p.cycle ∨ p.cycle = 4 ∧
      (2 < p.century ∨ p.century = 2 ∧ (14 < p.span ∨ p.span = 14 ∧ 2 ≤ p.year)) := by
    omega
  rw [julianDay]
  omega

/-- From the zero of the count on, a day and a fraction give the date and the fraction. -/
theorem mjd2Cal_day_add {p : MarchDay} {iy im id : ℤ} (h : p.IsDate iy im id)
    (hday : 2400001 ≤ p.julianDay) {fd : K} (hfd : 0 ≤ fd ∧ fd < 1) :
    mjd2Cal (((p.julianDay - 2400001 : ℤ) : K) + fd) = ⟨iy, im, id, fd⟩ := by
  obtain ⟨hnonneg, hlt⟩ := hfd
  have hfloor : ⌊((p.julianDay - 2400001 : ℤ) : K) + fd⌋ = p.julianDay - 2400001 := by
    rw [Int.floor_intCast_add, Int.floor_eq_zero_iff.mpr ⟨hnonneg, hlt⟩, add_zero]
  have hmjd : 0 ≤ ((p.julianDay - 2400001 : ℤ) : K) + fd := by
    have hcast : (0 : K) ≤ ((p.julianDay - 2400001 : ℤ) : K) := by exact_mod_cast by omega
    positivity
  rw [mjd2Cal_of_isDate h (by omega) (by rw [dayNumber_eq _ (by omega)]; omega), fmodOne,
    toInt_of_nonneg hmjd, hfloor, add_sub_cancel_left]

omit [FloorRing K] [IsStrictOrderedRing K] in
/-- A date from the zero of the count on that is accepted is a day. -/
theorem CalDate.exists_day {x : CalDate K} (hx : x.checkUTC = 0) (hfrom : x.From 1858 11 17) :
    ∃ p : MarchDay, p.IsDate x.iy x.im x.id ∧ 2400001 ≤ p.julianDay ∧
      ∀ fd, CalDate.modifiedJulianDay ⟨x.iy, x.im, x.id, fd⟩ =
        ((p.julianDay - 2400001 : ℤ) : K) + fd := by
  obtain ⟨-, hmonth, ⟨hfirst, hlast⟩, -⟩ := CalDate.checkUTC_eq_zero_iff.mp hx
  obtain ⟨p, hp⟩ := exists_marchDay (by rcases hfrom with h | h <;> omega) hmonth hfirst hlast
  have hday := p.julianDay_of_from hp hfrom
  exact ⟨p, hp, hday, CalDate.modifiedJulianDay_of_isDate hp (p.marchYear_nonneg (by omega))⟩

theorem mjd2Cal_modifiedJulianDay (x : CalDate K) (hx : x.checkUTC = 0)
    (hfrom : x.From 1858 11 17) : mjd2Cal x.modifiedJulianDay = x := by
  obtain ⟨p, hp, hday, hmjd⟩ := CalDate.exists_day hx hfrom
  obtain ⟨-, -, -, hfd⟩ := CalDate.checkUTC_eq_zero_iff.mp hx
  rw [show x.modifiedJulianDay = _ from hmjd x.fd]
  exact mjd2Cal_day_add hp hday hfd

/-- The 20th of January 2021, at six hours. -/
theorem mjd2Cal_modifiedJulianDay_january :
    mjd2Cal (CalDate.modifiedJulianDay ⟨2021, 1, 20, (1 / 4 : ℚ)⟩) = ⟨2021, 1, 20, 1 / 4⟩ := by
  apply mjd2Cal_modifiedJulianDay
  · exact CalDate.checkUTC_eq_zero_iff.mpr ⟨by decide, by decide, by decide, by norm_num⟩
  · exact .inl (by decide)

/-! ### The setters of the time -/

theorem fmodOne_mem_iff (mjd : K) :
    (0 ≤ fmodOne mjd ∧ fmodOne mjd < 1) ↔ 0 ≤ mjd ∨ (⌊mjd⌋ : K) = mjd := by
  have hfloor := Int.floor_le mjd
  have hlt := Int.lt_floor_add_one mjd
  constructor
  · intro h
    by_contra hmjd
    obtain ⟨hneg, hwhole⟩ := not_or.mp hmjd
    have hceil : mjd < ⌈mjd⌉ := by
      refine lt_of_le_of_ne (Int.le_ceil mjd) fun heq => hwhole ?_
      rw [heq, Int.floor_intCast]
    rw [fmodOne, toInt, if_neg hneg] at h
    linarith [h.1]
  · rintro (hnonneg | hwhole)
    · rw [fmodOne, toInt_of_nonneg hnonneg]
      exact ⟨by linarith, by linarith⟩
    · rw [← hwhole, fmodOne]
      have hself : toInt ((⌊mjd⌋ : ℤ) : K) = ⌊mjd⌋ := by simp [toInt]
      rw [hself, sub_self]
      exact ⟨le_rfl, one_pos⟩

theorem toInt_of_fmodOne_nonneg {mjd : K} (h : 0 ≤ fmodOne mjd) : toInt mjd = ⌊mjd⌋ := by
  have hlt : fmodOne mjd < 1 := by
    rw [fmodOne, toInt]
    split
    · linarith [Int.lt_floor_add_one mjd]
    · linarith [Int.le_ceil mjd]
  rcases (fmodOne_mem_iff mjd).mp ⟨h, hlt⟩ with hnonneg | hwhole
  · exact toInt_of_nonneg hnonneg
  · rw [← hwhole]
    simp [toInt]

theorem dayNumber_of_gregorian {mjd : K} (h : 2299161 ≤ toInt (mjd + auMjd0 + 0.5)) :
    toInt (mjd + auMjd0 + 0.5) = ⌊mjd⌋ + 2400001 := by
  apply dayNumber_eq
  have hnonneg : 0 ≤ mjd + auMjd0 + 0.5 := by
    by_contra hneg
    rw [toInt, if_neg hneg] at h
    have hceil : ⌈mjd + auMjd0 + 0.5⌉ ≤ 0 := Int.ceil_le.mpr (by exact_mod_cast (not_le.mp hneg).le)
    omega
  have hsum : mjd + auMjd0 + 0.5 = mjd + (2400001 : ℤ) := by
    rw [auMjd0]
    push_cast
    ring
  rw [← Int.floor_add_intCast, ← hsum]
  exact Int.floor_nonneg.mpr hnonneg

theorem storesInstant_iff {mjd : K} (hgregorian : 2299161 ≤ toInt (mjd + auMjd0 + 0.5)) :
    StoresInstant mjd ↔ 0 ≤ mjd ∨ (⌊mjd⌋ : K) = mjd := by
  have hday := dayNumber_of_gregorian hgregorian
  obtain ⟨p, hp⟩ := MarchDay.exists_of_julianDay (⌊mjd⌋ + 2400001)
  have hmarch : 0 ≤ p.marchYear := p.marchYear_nonneg (by omega)
  obtain ⟨iy, im, id, hdate⟩ := exists_isDate p hmarch
  have hcal : mjd2Cal mjd = ⟨iy, im, id, fmodOne mjd⟩ :=
    mjd2Cal_of_isDate hdate (by omega) (by omega)
  have hyear := hdate.year
  have hmonth := month_shift hdate.month
  rw [← fmodOne_mem_iff, StoresInstant, hcal, CalDate.checkUTC_eq_zero_iff]
  refine ⟨fun h => h.1.2.2.2, fun h => ⟨⟨?_, hdate.month, ⟨hdate.first, hdate.last⟩, h⟩, ?_⟩⟩
  · show -4799 ≤ iy
    omega
  · rw [CalDate.modifiedJulianDay_of_isDate hdate hmarch, hp, fmodOne, toInt_of_fmodOne_nonneg h.1]
    push_cast
    ring

/-- The date of the instant is accepted, and every object that is given the instant
tells it from then on. -/
def SettersStore (mem : BeforeTables K) (mjd : K) : Prop :=
  (mjd2Cal mjd).checkUTC = 0 ∧ ∀ s : ATimeSpace K,
    (ATimeSpace.modifiedJulianDay.run (s.setMJD mem mjd)).1 = mjd ∧
      (ATimeSpace.modifiedJulianDay.run (s.setJD mem (mjd + auMjd0))).1 = mjd ∧
      (ATimeSpace.modifiedJulianDay.run (s.setEpoch mem (AtInstant.epoch mjd))).1 = mjd

omit [IsStrictOrderedRing K] in
theorem settersStore_iff_storesInstant (mem : BeforeTables K) (mjd : K) :
    SettersStore mem mjd ↔ StoresInstant mjd := by
  have hjd : mjd + auMjd0 - auMjd0 = mjd := add_sub_cancel_right _ _
  have hepoch : (AtInstant.epoch mjd - 2000.0) * 365.25 + auMjd2K = mjd := by
    rw [AtInstant.epoch, add_sub_cancel_left, div_mul_cancel₀ _ (by norm_num), sub_add_cancel]
  have hstored : ∀ s : ATimeSpace K, (mjd2Cal mjd).checkUTC = 0 →
      (ATimeSpace.modifiedJulianDay.run (s.setUTC mem (mjd2Cal mjd))).1 =
        (mjd2Cal mjd).modifiedJulianDay := by
    intro s hs
    rw [ATimeSpace.setUTC, if_pos hs]
    rfl
  refine and_congr_right fun haccepted => ?_
  simp only [ATimeSpace.setMJD, ATimeSpace.setJD, ATimeSpace.setEpoch, hjd, hepoch,
    hstored _ haccepted, and_self]
  exact ⟨fun h => h (ATimeSpace.new 0 0 fun _ => 0), fun h _ => h⟩

/-- Before the zero of the count, only midnights can be stored. -/
theorem settersStore_iff (mem : BeforeTables K) (mjd : K)
    (hgregorian : 2299161 ≤ toInt (mjd + auMjd0 + 0.5)) :
    SettersStore mem mjd ↔ 0 ≤ mjd ∨ (⌊mjd⌋ : K) = mjd := by
  rw [settersStore_iff_storesInstant, storesInstant_iff hgregorian]

theorem settersStore_iff_midnight :
    SettersStore ⟨0, 0, 0⟩ (-1 : ℚ) ↔ 0 ≤ (-1 : ℚ) ∨ ((⌊(-1 : ℚ)⌋ : ℤ) : ℚ) = -1 :=
  settersStore_iff _ _ (by norm_num [toInt, auMjd0])

/-- Noon of the day before the zero of the count is not taken. -/
theorem settersStore_noon :
    ¬ ∀ (mem : BeforeTables ℚ) (mjd : ℚ), 2299161 ≤ toInt (mjd + auMjd0 + 0.5) →
      SettersStore mem mjd := by
  intro h
  have hgregorian : 2299161 ≤ toInt ((-1 / 2 : ℚ) + auMjd0 + 0.5) := by norm_num [toInt, auMjd0]
  have hstores := (settersStore_iff_storesInstant ⟨0, 0, 0⟩ _).mp (h ⟨0, 0, 0⟩ _ hgregorian)
  rw [storesInstant_iff hgregorian] at hstores
  norm_num at hstores

end Conversions

end Gtoaes
