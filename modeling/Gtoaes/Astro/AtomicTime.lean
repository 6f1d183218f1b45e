import Gtoaes.Astro.LeapSeconds
import Gtoaes.Lib.Polyline

/-!
Atomic time. From 1972 on, TAI - UTC is a whole number of seconds that grows with every
leap second. `UTC2TAI` stretches the days that end with one, so midnights and the days
between them lie on one rising line.
-/

namespace Gtoaes

open Lib

variable {K : Type} [Field K] [LinearOrder K]

namespace CalDate

/-! ### Whole seconds -/

/-- The day a change came with. -/
def changeDay (k : ℕ) : ℤ := MarchDay.firstOfMonth (changeMonths.getD k 0) - 2400001

/-- The days that begin after a leap second. -/
def leapDays : List ℤ := (List.range' 15 27).map changeDay

theorem mem_leapDays {day : ℤ} : day ∈ leapDays ↔ ∃ k, 15 ≤ k ∧ k < 42 ∧ changeDay k = day := by
  simp only [leapDays, List.mem_map, List.mem_range'_1]
  exact ⟨fun ⟨k, ⟨hlow, hhigh⟩, h⟩ => ⟨k, hlow, hhigh, h⟩,
    fun ⟨k, hlow, hhigh, h⟩ => ⟨k, ⟨hlow, hhigh⟩, h⟩⟩

theorem changeDay_lt : ∀ k, k < 42 → ∀ l, l < k → changeDay l < changeDay k := by decide

/-- The entry of a day. -/
structure EntryOf (day : ℤ) (k : ℕ) : Prop where
  low : 14 ≤ k
  high : k < 42
  begun : changeDay k ≤ day
  upcoming : ∀ l, k < l → l < 42 → day < changeDay l

/-- From one day to the next, the entry stays, or the next one begins. -/
theorem EntryOf.next {day : ℤ} {k l : ℕ} (hk : EntryOf day k) (hl : EntryOf (day + 1) l) :
    l = k ∧ day + 1 ∉ leapDays ∨ l = k + 1 ∧ day + 1 ∈ leapDays := by
  have hkl : k ≤ l := by
    by_contra hlt
    have hbefore := hl.upcoming k (not_le.mp hlt) hk.high
    have hbegun := hk.begun
    omega
  rcases hkl.eq_or_lt with rfl | hlt
  · refine .inl ⟨rfl, fun hmem => ?_⟩
    obtain ⟨j, -, hj, hday⟩ := mem_leapDays.mp hmem
    have hbegun := hk.begun
    rcases lt_trichotomy j k with hjk | rfl | hkj
    · have hearly := changeDay_lt k hk.high j hjk
      omega
    · omega
    · have hlate := hl.upcoming j hkj hj
      omega
  · have hnext := hk.upcoming (k + 1) (Nat.lt_succ_self k) (by have := hl.high; omega)
    have hbegun := hl.begun
    obtain rfl : l = k + 1 := by
      by_contra hne
      have hskip := changeDay_lt l hl.high (k + 1) (by omega)
      omega
    refine .inr ⟨rfl, mem_leapDays.mpr ⟨k + 1, ?_, hl.high, by omega⟩⟩
    have hlow := hk.low
    omega

variable [IsStrictOrderedRing K]

theorem delat_eq : ∀ k : ℕ, 14 ≤ k → k < 42 →
    ((changes : List (ℤ × ℤ × K))[k]?.map (·.2.2)).getD 0 = (k : K) - 4 := by
  intro k hlow hhigh
  interval_cases k <;> norm_num [changes]

theorem lawOf_eq {k : ℕ} (hlow : 14 ≤ k) (hhigh : k < 42) (mjd : K) :
    lawOf k mjd = (k : K) - 4 := by
  have hdrift : (drift : List (K × K))[k]? = none := List.getElem?_eq_none hlow
  rw [lawOf, delat_eq k hlow hhigh, hdrift]
  simp

omit [LinearOrder K] [IsStrictOrderedRing K] in
theorem rateOf_eq_zero {k : ℕ} (hlow : 14 ≤ k) : rateOf k = (0 : K) := by
  have hdrift : (drift : List (K × K))[k]? = none := List.getElem?_eq_none hlow
  rw [rateOf, hdrift]
  rfl

/-- `DeltaAT` of a day from 1972 on. -/
theorem exists_entryOf (mem : BeforeTables K) {p : MarchDay} {iy im id : ℤ} (hp : p.IsDate iy im id)
    (hday : 41317 ≤ p.julianDay - 2400001) :
    ∃ k, EntryOf (p.julianDay - 2400001) k ∧ ∀ fd, deltaAT mem ⟨iy, im, id, fd⟩ = (k : K) - 4 := by
  have hdays : ∀ m, 12 < m → (MarchDay.firstOfMonth m - 2400001 ≤ p.julianDay - 2400001 ↔
      m ≤ 12 * iy + im) := fun m hm => by
    rw [sub_le_sub_iff_right]
    exact hp.firstOfMonth_le_iff hm
  have hlate : ∀ l, l < 42 → 12 < changeMonths.getD l 0 := by decide
  have hmonth : 23665 ≤ 12 * iy + im := by
    have hfirst : MarchDay.firstOfMonth 23665 - 2400001 = 41317 := by decide
    rw [← hdays _ (by decide), hfirst]
    exact hday
  have hmonths : 23521 ≤ 12 * iy + im := by omega
  obtain ⟨k, hk, -, hlatest, hlow, hhigh⟩ := exists_latest (⟨iy, im, id, 0⟩ : CalDate K) hmonths
  have hk14 : 14 ≤ k := by
    by_contra hlt
    have hnext : 12 * iy + im < 23665 := hhigh 14 (by omega) (by decide)
    omega
  refine ⟨k, ⟨hk14, hk, (hdays _ (hlate k hk)).mpr hlow, fun l hl hl42 => ?_⟩, fun fd => ?_⟩
  · rw [changeDay, ← not_le, hdays _ (hlate l hl42)]
    exact not_le.mpr (hhigh l hl hl42)
  · have hlatest' : latestChange (⟨iy, im, id, fd⟩ : CalDate K) = some (changes[k], k) := hlatest
    rw [deltaAT_eq mem _ hmonths, iauDat_eq_lawOf hk hlatest', driftRate_eq_rateOf hlatest',
      lawOf_eq hk14 hk, rateOf_eq_zero hk14, mul_zero, add_zero]

variable [FloorRing K]

/-- A day from 1972 on: its date and its entry. -/
theorem exists_date_entryOf (mem : BeforeTables K) {n : ℤ} (hn : 41317 ≤ n) :
    ∃ (x : CalDate K) (k : ℕ), EntryOf n k ∧ (∀ fd, deltaAT mem { x with fd := fd } = (k : K) - 4) ∧
      (∀ fd : K, modifiedJulianDay { x with fd := fd } = n + fd) ∧
      ∀ t : K, 0 ≤ t ∧ t < 1 → mjd2Cal (n + t) = { x with fd := t } := by
  obtain ⟨p, hp⟩ := MarchDay.exists_of_julianDay (n + 2400001)
  obtain ⟨iy, im, id, hdate⟩ := exists_isDate p (p.marchYear_nonneg (by omega))
  obtain rfl : n = p.julianDay - 2400001 := by omega
  obtain ⟨k, hk, hdelta⟩ := exists_entryOf mem hdate hn
  exact ⟨⟨iy, im, id, 0⟩, k, hk, hdelta,
    modifiedJulianDay_of_isDate hdate (p.marchYear_nonneg (by omega)),
    fun t ht => mjd2Cal_day_add hdate (by omega) ht⟩

end CalDate

open CalDate

variable [IsStrictOrderedRing K] [FloorRing K]

/-- TAI at the midnight of a day. -/
def midnightTAI (mem : BeforeTables K) (n : ℤ) : K :=
  n + (mjd2Cal (n : K)).midnight.deltaAT mem / auDaysec

omit [IsStrictOrderedRing K] in
theorem midnightTAI_eq (mem : BeforeTables K) {n : ℤ} {x : CalDate K} {k : ℕ}
    (hdelta : ∀ fd, deltaAT mem { x with fd := fd } = (k : K) - 4)
    (hcal : ∀ t : K, 0 ≤ t ∧ t < 1 → mjd2Cal (n + t) = { x with fd := t }) :
    midnightTAI mem n = n + ((k : K) - 4) / auDaysec := by
  have hdate := hcal 0 ⟨le_rfl, one_pos⟩
  rw [add_zero] at hdate
  rw [midnightTAI, hdate]
  exact congrArg (fun d => (n : K) + d / auDaysec) (hdelta 0)

omit [FloorRing K] in
theorem auDaysec_pos : (0 : K) < auDaysec := by norm_num [auDaysec]

/-- A day is longer by a second where a leap second ends it. -/
theorem midnightTAI_succ (mem : BeforeTables K) {n : ℤ} (hn : 41317 ≤ n) :
    midnightTAI mem (n + 1) =
      midnightTAI mem n + 1 + if n + 1 ∈ leapDays then 1 / auDaysec else 0 := by
  obtain ⟨x, k, hk, hdelta, -, hcal⟩ := exists_date_entryOf mem hn
  obtain ⟨y, l, hl, hdelta', -, hcal'⟩ := exists_date_entryOf mem (by omega : 41317 ≤ n + 1)
  rw [midnightTAI_eq mem hdelta hcal, midnightTAI_eq mem hdelta' hcal']
  rcases hk.next hl with ⟨rfl, hnot⟩ | ⟨rfl, hleap⟩
  · rw [if_neg hnot]
    push_cast
    ring
  · rw [if_pos hleap]
    push_cast
    ring

/-- `UTC2TAI` joins the midnights by straight lines. -/
theorem utc2TAI_eq_polyline (mem : BeforeTables K) {mjd : K} (h : 41317 ≤ mjd) :
    utc2TAI mem mjd = polyline (midnightTAI mem) mjd := by
  obtain ⟨n, t, ht, rfl⟩ := exists_floor_add mjd
  have hn : 41317 ≤ n := by
    have hlt : ((41317 : ℤ) : K) < (n + 1 : ℤ) := by
      push_cast
      linarith [ht.2]
    exact Int.lt_add_one_iff.mp (Int.cast_lt.mp hlt)
  obtain ⟨x, k, -, hdelta, hmjd, hcal⟩ := exists_date_entryOf mem hn
  obtain ⟨y, l, -, hdelta', -, hcal'⟩ := exists_date_entryOf mem (by omega : 41317 ≤ n + 1)
  have hnoon : (n : K) + t - t + 1.5 = (n + 1 : ℤ) + 0.5 := by
    push_cast
    norm_num
    ring
  rw [polyline_add _ n ht, midnightTAI_eq mem hdelta hcal, midnightTAI_eq mem hdelta' hcal', utc2TAI,
    hcal t ht]
  show CalDate.scaleToTAI _ _ _ ((mjd2Cal ((n : K) + t - t + 1.5)).midnight.deltaAT mem) = _
  rw [hnoon, hcal' 0.5 (by norm_num)]
  have hnow : deltaAT mem (midnight { x with fd := t }) = (k : K) - 4 := hdelta 0
  have hnext : deltaAT mem (midnight { y with fd := 0.5 }) = (l : K) - 4 := hdelta' 0
  have hdlod : CalDate.dlod mem { x with fd := t } = 0 := by
    show 2.0 * (deltaAT mem { x with fd := 0.5 } - deltaAT mem { x with fd := 0 }) = 0
    rw [hdelta, hdelta, sub_self, mul_zero]
  rw [hdlod, hnow, hnext, scaleToTAI, hmjd]
  have hsec := (auDaysec_pos (K := K)).ne'
  simp only [add_zero, div_self hsec, mul_one]
  field_simp
  push_cast
  ring

theorem midnightTAI_first (mem : BeforeTables K) :
    midnightTAI mem 41317 = 41317 + 10 / auDaysec := by
  obtain ⟨x, k, hk, hdelta, -, hcal⟩ := exists_date_entryOf mem (le_refl 41317)
  obtain rfl : k = 14 := by
    have hlow := hk.low
    have hbegun := hk.begun
    have hfirst : changeDay 14 = 41317 := by decide
    by_contra hne
    have hlater := changeDay_lt k hk.high 14 (by omega)
    omega
  rw [midnightTAI_eq mem hdelta hcal]
  norm_num

/-- From 1972 on, `UTC2TAI` is strictly increasing and takes every value from its first on
once, and a day is a second longer just where a leap second ends it. -/
theorem utc2TAI_bijOn (mem : BeforeTables K) :
    StrictMonoOn (utc2TAI mem) (Set.Ici 41317) ∧
      Set.BijOn (utc2TAI mem) (Set.Ici 41317) (Set.Ici (41317 + 10 / auDaysec)) ∧
      ∀ n : ℤ, 41317 ≤ n → utc2TAI mem (n + 1) =
        utc2TAI mem n + if n + 1 ∈ leapDays then (auDaysec + 1) / auDaysec else 1 := by
  have hsec := auDaysec_pos (K := K)
  have hrise : ∀ n, 41317 ≤ n → midnightTAI mem n + 1 ≤ midnightTAI mem (n + 1) := by
    intro n hn
    rw [midnightTAI_succ mem hn]
    refine le_add_of_nonneg_right ?_
    split
    · positivity
    · exact le_rfl
  have heq : Set.EqOn (polyline (midnightTAI mem)) (utc2TAI mem) (Set.Ici 41317) :=
    fun mjd hmjd => (utc2TAI_eq_polyline mem hmjd).symm
  have hmono := polyline_strictMonoOn one_pos hrise
  have hbij := polyline_bijOn one_pos hrise
  rw [midnightTAI_first] at hbij
  rw [Int.cast_ofNat] at hmono hbij
  refine ⟨hmono.congr heq, hbij.congr heq, fun n hn => ?_⟩
  have hcast : (41317 : K) ≤ n := by exact_mod_cast hn
  have hnow := utc2TAI_eq_polyline mem hcast
  have hnext := utc2TAI_eq_polyline mem (hcast.trans (le_add_of_nonneg_right zero_le_one))
  rw [polyline_intCast] at hnow
  rw [show (n : K) + 1 = (n + 1 : ℤ) by push_cast; rfl, polyline_intCast] at hnext
  rw [show (n : K) + 1 = (n + 1 : ℤ) by push_cast; rfl, hnow, hnext, midnightTAI_succ mem hn,
    add_assoc]
  congr 1
  split
  · rw [add_div, div_self hsec.ne']
  · rw [add_zero]

/-- The last leap second of the table. -/
theorem utc2TAI_bijOn_december : utc2TAI (⟨0, 0, 0⟩ : BeforeTables ℚ) ((57753 : ℤ) + 1) =
    utc2TAI (⟨0, 0, 0⟩ : BeforeTables ℚ) (57753 : ℤ) + (auDaysec + 1) / auDaysec := by
  have h := (utc2TAI_bijOn (⟨0, 0, 0⟩ : BeforeTables ℚ)).2.2 57753 (by decide)
  rwa [if_pos (by decide)] at h

/-! ### UT1 -/

/-- `TAI2UT1` -/
def tai2UT1 (mjd dta : K) : K := mjd + dta / auDaysec

/-- `UTC2UT1` -/
def utc2UT1 (mem : BeforeTables K) (mjd dut : K) : K :=
  tai2UT1 (utc2TAI mem mjd) (dut - (mjd2Cal mjd).midnight.deltaAT mem)

/-- The difference that is given holds at midnight; a leap second is added to it over the
day that it ends. -/
theorem utc2UT1_eq (mem : BeforeTables K) {n : ℤ} (hn : 41317 ≤ n) {t : K} (ht : 0 ≤ t ∧ t < 1)
    (dut : K) : utc2UT1 mem (n + t) dut =
      n + t + (dut + if n + 1 ∈ leapDays then t else 0) / auDaysec := by
  obtain ⟨x, k, -, hdelta, -, hcal⟩ := exists_date_entryOf mem hn
  have hmjd : (41317 : K) ≤ n + t := by
    have hcast : (41317 : K) ≤ n := by exact_mod_cast hn
    exact hcast.trans (le_add_of_nonneg_right ht.1)
  have hnow : deltaAT mem (midnight { x with fd := t }) = (k : K) - 4 := hdelta 0
  rw [utc2UT1, utc2TAI_eq_polyline mem hmjd, polyline_add _ n ht, midnightTAI_succ mem hn,
    midnightTAI_eq mem hdelta hcal, hcal t ht, hnow, tai2UT1]
  split
  · ring
  · ring

end Gtoaes
