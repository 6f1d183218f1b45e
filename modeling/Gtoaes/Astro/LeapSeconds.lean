import Gtoaes.Astro.Dates

/-!
The difference of TAI and UTC. `DeltaAT` looks up the last change of its table, which
begins in 1960, and adds the drift of the years before 1972, where `fd` is counted
twice: once by `ModifiedJulianDay` and once beside it. `UTC2TAI` reads the drift of a
day off `DeltaAT`, and so finds twice the rate.
-/

namespace Gtoaes

/-- The month a change came with. -/
def changeMonth {K : Type} (c : ℤ × ℤ × K) : ℤ := 12 * c.1 + c.2.1

/-! ### The search -/

section Search

variable {K : Type}

/-- Where the search stops, the month is not before the change, and it is before the
changes that were passed. -/
theorem changeIndexFrom_cases (cs : List (ℤ × ℤ × K)) (m : ℤ) {n : ℕ} (hn : n ≤ cs.length) :
    (changeIndexFrom cs m n = -1 ∧ ∀ j (hj : j < cs.length), j < n → m < changeMonth cs[j]) ∨
      ∃ i : ℕ, ∃ hi : i < cs.length, i < n ∧ changeIndexFrom cs m n = i ∧ changeMonth cs[i] ≤ m ∧
        ∀ j (hj : j < cs.length), i < j → j < n → m < changeMonth cs[j] := by
  induction n with
  | zero => exact .inl ⟨rfl, fun j _ hj => absurd hj (Nat.not_lt_zero j)⟩
  | succ n ih =>
      have hget : cs[n]? = some cs[n] := List.getElem?_eq_getElem (by omega)
      by_cases hm : changeMonth cs[n] ≤ m
      · refine .inr ⟨n, by omega, Nat.lt_succ_self n, ?_, hm, fun j _ hlow hhigh => by omega⟩
        rw [changeIndexFrom, hget]
        exact if_pos hm
      · have hskip : changeIndexFrom cs m (n + 1) = changeIndexFrom cs m n := by
          rw [changeIndexFrom, hget]
          exact if_neg hm
        rw [hskip]
        -- the entry that was passed joins those before it
        have hjoin : ∀ j (hj : j < cs.length), j < n + 1 → ¬ j < n → m < changeMonth cs[j] := by
          intro j hj hlt hge
          obtain rfl : j = n := by omega
          exact not_le.mp hm
        rcases ih (by omega) with ⟨hnone, hpassed⟩ | ⟨i, hi, hlt, hindex, hle, hpassed⟩
        · refine .inl ⟨hnone, fun j hj hjn => ?_⟩
          by_cases h : j < n
          · exact hpassed j hj h
          · exact hjoin j hj hjn h
        · refine .inr ⟨i, hi, by omega, hindex, hle, fun j hj hij hjn => ?_⟩
          by_cases h : j < n
          · exact hpassed j hj hij h
          · exact hjoin j hj hjn h

/-- The last entry that satisfies `p`, with its place. -/
theorem getLast?_filter_zipIdx {α : Type} (xs : List α) (p : α → Bool) {i : ℕ}
    (hi : i < xs.length) (hp : p xs[i] = true)
    (hpassed : ∀ j (hj : j < xs.length), i < j → p xs[j] = false) :
    (xs.zipIdx.filter (fun e => p e.1)).getLast? = some (xs[i], i) := by
  have hlen : i < xs.zipIdx.length := by simpa using hi
  have hafter : (xs.zipIdx.drop (i + 1)).filter (fun e => p e.1) = [] := by
    rw [List.filter_eq_nil_iff]
    intro e he
    obtain ⟨k, hk, rfl⟩ := List.getElem_of_mem he
    have hk' : i + 1 + k < xs.length := by simpa using Nat.add_lt_of_lt_sub' (by simpa using hk)
    simp [hpassed _ hk' (by omega)]
  rw [← List.take_append_drop i xs.zipIdx, List.drop_eq_getElem_cons hlen, List.filter_append,
    List.filter_cons, hafter]
  simp [hp]

end Search

variable {K : Type} [Field K]

/-- The months of the table. -/
def changeMonths : List ℤ :=
  [23521, 23533, 23540, 23545, 23567, 23569, 23572, 23577, 23581, 23583, 23587, 23589, 23593, 23618,
    23665, 23671, 23677, 23689, 23701, 23713, 23725, 23737, 23749, 23761, 23779, 23791, 23803, 23827,
    23857, 23881, 23893, 23911, 23923, 23935, 23953, 23971, 23989, 24073, 24109, 24151, 24187, 24205]

theorem map_changeMonth : (changes : List (ℤ × ℤ × K)).map changeMonth = changeMonths := by
  simp [changes, changeMonth, changeMonths]

theorem changeMonth_getElem (i : ℕ) (hi : i < (changes (K := K)).length) :
    changeMonth (changes (K := K))[i] = changeMonths.getD i 0 := by
  rw [← map_changeMonth (K := K), List.getD_eq_getElem?_getD, List.getElem?_map,
    List.getElem?_eq_getElem hi]
  rfl

namespace CalDate

/-- The index the search of `DeltaAT` ends with. -/
def changeIndex (x : CalDate K) : ℤ :=
  changeIndexFrom (changes : List (ℤ × ℤ × K)) (12 * x.iy + x.im) (changes (K := K)).length

theorem changeIndex_cases (x : CalDate K) :
    (x.changeIndex = -1 ∧ 12 * x.iy + x.im < 23521) ∨
      ∃ i : ℕ, i < 42 ∧ x.changeIndex = i ∧ changeMonths.getD i 0 ≤ 12 * x.iy + x.im ∧
        ∀ j, i < j → j < 42 → 12 * x.iy + x.im < changeMonths.getD j 0 := by
  have hcases := changeIndexFrom_cases (changes : List (ℤ × ℤ × K)) (12 * x.iy + x.im) le_rfl
  simp only [changeMonth_getElem] at hcases
  rcases hcases with ⟨hnone, hpassed⟩ | ⟨i, hi, -, hindex, hle, hpassed⟩
  · exact .inl ⟨hnone, hpassed 0 (Nat.succ_pos 41) (Nat.succ_pos 41)⟩
  · exact .inr ⟨i, hi, hindex, hle, fun j hij hj => hpassed j hj hij hj⟩

/-! ### The law of `iauDat` -/

/-- The latest change not after the month, with its place in the table. -/
def latestChange (x : CalDate K) : Option ((ℤ × ℤ × K) × ℕ) :=
  ((changes : List (ℤ × ℤ × K)).zipIdx.filter
    (fun e => changeMonth e.1 ≤ 12 * x.iy + x.im)).getLast?

/-- The reference date and the rate of the drift, where there is one. -/
def latestDrift (x : CalDate K) : Option (K × K) := x.latestChange.bind fun e => drift[e.2]?

/-- The rate of the drift, in seconds a day. -/
def driftRate (x : CalDate K) : K := (x.latestDrift.map (·.2)).getD 0

/-- The date at 0h. -/
def midnight (x : CalDate K) : CalDate K := { x with fd := 0 }

/-- TAI - UTC, where the drift is told by the day and its fraction. -/
def iauDat (x : CalDate K) : K :=
  ((x.latestChange.map (·.1.2.2)).getD 0) +
    ((x.latestDrift.map fun d => (x.midnight.modifiedJulianDay + x.fd - d.1) * d.2).getD 0)

/-- From the first entry on, the search finds the latest change. -/
theorem exists_latest (x : CalDate K) (hmonth : 23521 ≤ 12 * x.iy + x.im) :
    ∃ i : ℕ, ∃ hi : i < (changes (K := K)).length, x.changeIndex = i ∧
      x.latestChange = some ((changes (K := K))[i], i) ∧
      changeMonths.getD i 0 ≤ 12 * x.iy + x.im ∧
      ∀ j, i < j → j < 42 → 12 * x.iy + x.im < changeMonths.getD j 0 := by
  rcases x.changeIndex_cases with ⟨-, hbefore⟩ | ⟨i, hi, hindex, hle, hpassed⟩
  · omega
  · have hlen : i < (changes (K := K)).length := hi
    have hlast := getLast?_filter_zipIdx (changes : List (ℤ × ℤ × K))
      (fun c => decide (changeMonth c ≤ 12 * x.iy + x.im)) (i := i) hlen
      (decide_eq_true ((changeMonth_getElem i hlen).trans_le hle))
      (fun j hj hij => decide_eq_false (not_le.mpr
        ((hpassed j hij hj).trans_eq (changeMonth_getElem j hj).symm)))
    exact ⟨i, hlen, hindex, hlast, hle, hpassed⟩

/-- The law moves by the rate. -/
theorem iauDat_with (x : CalDate K) (fd : K) :
    iauDat { x with fd := fd } = x.midnight.iauDat + fd * x.driftRate := by
  have hchange : latestChange { x with fd := fd } = x.latestChange := rfl
  have hchange' : x.midnight.latestChange = x.latestChange := rfl
  rw [iauDat, iauDat, driftRate, latestDrift, latestDrift, latestDrift, hchange, hchange']
  cases x.latestChange.bind fun e => (drift (K := K))[e.2]? with
  | none => simp
  | some d =>
      simp only [midnight, Option.map_some, Option.getD_some]
      ring

/-- `DeltaAT` counts the fraction of the day twice. -/
theorem deltaAT_eq (mem : BeforeTables K) (x : CalDate K) (hmonth : 23521 ≤ 12 * x.iy + x.im) :
    x.deltaAT mem = x.iauDat + x.fd * x.driftRate := by
  obtain ⟨i, hi, hindex, hlatest, -⟩ := x.exists_latest hmonth
  have hmjd : x.modifiedJulianDay = x.midnight.modifiedJulianDay + x.fd := by
    simp only [modifiedJulianDay, midnight, add_zero]
  have hdelta : x.deltaAT mem = (changes (K := K))[i].2.2 +
      ((x.latestDrift.map fun d => (x.modifiedJulianDay + x.fd - d.1) * d.2).getD 0) := by
    rw [deltaAT]
    rw [show changeIndexFrom _ _ _ = (i : ℤ) from hindex]
    simp only [Int.natCast_nonneg, not_lt.mpr, if_false, Int.toNat_natCast,
      List.getElem?_eq_getElem hi, Option.map_some, Option.getD_some, latestDrift, hlatest,
      Option.bind_some, Nat.cast_lt]
    split
    · next h => simp [List.getElem?_eq_getElem h]
    · next h => simp [List.getElem?_eq_none (not_lt.mp h)]
  rw [hdelta, iauDat, driftRate, hlatest]
  cases hdrift : x.latestDrift with
  | none => simp
  | some d =>
      simp only [Option.map_some, Option.getD_some, hmjd]
      ring

/-- The law of an entry, at an instant. -/
def lawOf (i : ℕ) (mjd : K) : K :=
  ((changes[i]?.map (·.2.2)).getD 0) + ((drift[i]?.map fun d => (mjd - d.1) * d.2).getD 0)

def rateOf (i : ℕ) : K := (drift[i]?.map (·.2)).getD 0

theorem iauDat_eq_lawOf {x : CalDate K} {i : ℕ} (hi : i < (changes (K := K)).length)
    (hlatest : x.latestChange = some ((changes (K := K))[i], i)) :
    x.iauDat = lawOf i (x.midnight.modifiedJulianDay + x.fd) := by
  rw [iauDat, latestDrift, hlatest, lawOf, List.getElem?_eq_getElem hi]
  rfl

theorem driftRate_eq_rateOf {x : CalDate K} {i : ℕ} {c : ℤ × ℤ × K}
    (hlatest : x.latestChange = some (c, i)) : x.driftRate = rateOf i := by
  rw [driftRate, latestDrift, hlatest]
  rfl

/-- The days the first changes came with. -/
def changeDays : List ℤ :=
  [36934, 37300, 37512, 37665, 38334, 38395, 38486, 38639, 38761, 38820, 38942, 39004, 39126, 39887,
    41317, 41499]

theorem firstOfMonth_changeMonths : ∀ k < 16,
    MarchDay.firstOfMonth (changeMonths.getD k 0) = changeDays.getD k 0 + 2400001 := by
  decide

theorem lawOf_add_one (i : ℕ) (mjd : K) : lawOf i (mjd + 1) = lawOf i mjd + rateOf i := by
  rw [lawOf, lawOf, rateOf]
  cases (drift (K := K))[i]? with
  | none => simp
  | some d =>
      simp only [Option.map_some, Option.getD_some]
      ring

/-! ### The entry that is read -/

variable [LinearOrder K]

/-- What `UTC2TAI` takes for the rate of the day. -/
def dlod (mem : BeforeTables K) (x : CalDate K) : K :=
  2.0 * (deltaAT mem { x with fd := 0.5 } - deltaAT mem x.midnight)

/-- The end of `UTC2TAI`, for a rate and the differences of two midnights. -/
def scaleToTAI (x : CalDate K) (dat0 dlod dat24 : K) : K :=
  let dleap := dat24 - (dat0 + dlod)
  let fd := x.fd * ((auDaysec + dleap) / auDaysec) * ((auDaysec + dlod) / auDaysec)
  modifiedJulianDay { x with fd := fd } + dat0 / auDaysec

end CalDate

variable [LinearOrder K] [FloorRing K]

/-- `UTC2TAI` -/
def utc2TAI (mem : BeforeTables K) (mjd : K) : K :=
  let x := mjd2Cal mjd
  let t := mjd2Cal (mjd - x.fd + 1.5)
  x.scaleToTAI (x.midnight.deltaAT mem) (x.dlod mem) (t.midnight.deltaAT mem)

namespace CalDate

omit [FloorRing K] in
theorem rateOf_ne_zero [IsStrictOrderedRing K] {i : ℕ} (hi : i < 14) : rateOf i ≠ (0 : K) := by
  interval_cases i <;> norm_num [rateOf, drift]

omit [FloorRing K] in
/-- No change makes up for the rate that is taken twice. -/
theorem lawOf_succ_ne [IsStrictOrderedRing K] {i : ℕ} (hi : i < 14) :
    lawOf (i + 1) ((changeDays.getD (i + 1) 0 : ℤ) : K) -
      lawOf i ((changeDays.getD (i + 1) 0 - 1 : ℤ) : K) - 3 * rateOf i ≠ (0 : K) := by
  interval_cases i <;> norm_num [lawOf, rateOf, changes, drift, changeDays]

/-- The 0h after the date, as `UTC2TAI` finds it. -/
def tomorrow (x : CalDate K) : CalDate K := (mjd2Cal (x.modifiedJulianDay - x.fd + 1.5)).midnight

/-- The entries of a day and of the next, by the days: the next day has the same entry,
or the next entry begins with it. -/
theorem next_entry {p q : MarchDay} {iy im id iy' im' id' : ℤ} (hp : p.IsDate iy im id)
    (hq : q.IsDate iy' im' id') (hnext : q.julianDay = p.julianDay + 1) {i j : ℕ} (hi : i < 14)
    (hlow : changeMonths.getD i 0 ≤ 12 * iy + im)
    (hhigh : ∀ k, i < k → k < 42 → 12 * iy + im < changeMonths.getD k 0)
    (hlow' : changeMonths.getD j 0 ≤ 12 * iy' + im')
    (hhigh' : ∀ k, j < k → k < 42 → 12 * iy' + im' < changeMonths.getD k 0) (hj : j < 42) :
    j = i ∨ j = i + 1 ∧ q.julianDay = changeDays.getD (i + 1) 0 + 2400001 := by
  have hlate : ∀ k, k < 42 → 12 < changeMonths.getD k 0 := by decide
  have hmono : ∀ k, k < 42 → ∀ l, l < k → changeMonths.getD l 0 < changeMonths.getD k 0 := by decide
  have hgap : ∀ k, k < 15 → changeDays.getD k 0 + 1 < changeDays.getD (k + 1) 0 := by decide
  -- months in days
  have hpDays : ∀ k, k < 16 → (changeDays.getD k 0 + 2400001 ≤ p.julianDay ↔
      changeMonths.getD k 0 ≤ 12 * iy + im) := by
    intro k hk
    rw [← firstOfMonth_changeMonths k hk, hp.firstOfMonth_le_iff (hlate k (by omega))]
  have hqDays : ∀ k, k < 16 → (changeDays.getD k 0 + 2400001 ≤ q.julianDay ↔
      changeMonths.getD k 0 ≤ 12 * iy' + im') := by
    intro k hk
    rw [← firstOfMonth_changeMonths k hk, hq.firstOfMonth_le_iff (hlate k (by omega))]
  have hbegun := (hpDays i (by omega)).mpr hlow
  have hover : p.julianDay < changeDays.getD (i + 1) 0 + 2400001 := by
    rw [← not_le, hpDays (i + 1) (by omega), not_le]
    exact hhigh (i + 1) (Nat.lt_succ_self i) (by omega)
  rcases lt_trichotomy j i with hlt | heq | hgt
  · have hbefore := hhigh' i hlt (by omega)
    have hnot := (hqDays i (by omega)).mp (by omega)
    omega
  · exact .inl heq
  · refine .inr ?_
    have hsucc : changeDays.getD (i + 1) 0 + 2400001 ≤ q.julianDay := by
      rw [hqDays (i + 1) (by omega)]
      rcases Nat.lt_or_ge (i + 1) j with h | h
      · exact (hmono j hj (i + 1) h).le.trans hlow'
      · obtain rfl : j = i + 1 := by omega
        exact hlow'
    refine ⟨?_, by omega⟩
    by_contra hne
    have hskip : changeMonths.getD (i + 2) 0 ≤ 12 * iy' + im' := by
      rcases Nat.lt_or_ge (i + 2) j with h | h
      · exact (hmono j hj (i + 2) h).le.trans hlow'
      · obtain rfl : j = i + 2 := by omega
        exact hlow'
    have hdays := (hqDays (i + 2) (by omega)).mpr hskip
    have hlong : changeDays.getD (i + 1) 0 + 1 < changeDays.getD (i + 2) 0 :=
      hgap (i + 1) (by omega)
    omega

/-- From one midnight to the next, the law moves by the rate, or to the next entry. -/
theorem exists_entry [IsStrictOrderedRing K] {x : CalDate K} (hx : x.checkUTC = 0)
    (hera : 1960 ≤ x.iy ∧ x.iy ≤ 1971) :
    ∃ i : ℕ, i < 14 ∧ x.driftRate = rateOf i ∧
      x.tomorrow.iauDat - x.midnight.iauDat - 3 * rateOf i ≠ 0 ∧
      (∀ mem, x.tomorrow.deltaAT mem = x.tomorrow.iauDat) := by
  have hfrom : x.From 1858 11 17 := .inl (by omega)
  obtain ⟨-, hmonth, -, hfd⟩ := checkUTC_eq_zero_iff.mp hx
  obtain ⟨p, hp, hday, hmjd⟩ := exists_day hx hfrom
  obtain ⟨q, hq⟩ := MarchDay.exists_of_julianDay (p.julianDay + 1)
  obtain ⟨iy, im, id, hnext⟩ := exists_isDate q (q.marchYear_nonneg (by omega))
  have hnoon : x.modifiedJulianDay - x.fd + 1.5 = ((q.julianDay - 2400001 : ℤ) : K) + 0.5 := by
    rw [show x.modifiedJulianDay = _ from hmjd x.fd, hq]
    push_cast
    ring
  have htomorrow : x.tomorrow = ⟨iy, im, id, 0⟩ := by
    rw [tomorrow, hnoon, mjd2Cal_day_add hnext (by omega) (by norm_num)]
    rfl
  -- both midnights have an entry
  obtain ⟨i, hi, -, hlatest, hlow, hhigh⟩ := x.exists_latest (by omega)
  have hearly : i < 14 := by
    by_contra hlate
    have hfrom1972 : ∀ k, k < 42 → 14 ≤ k → 23665 ≤ changeMonths.getD k 0 := by decide
    have hmonth1972 := hfrom1972 i hi (by omega)
    omega
  have hmonthNext : 23521 ≤ 12 * iy + im := by
    rw [← hnext.firstOfMonth_le_iff (by decide), hq]
    have hfirst := (hp.firstOfMonth_le_iff (m := 23521) (by decide)).mpr (by omega)
    omega
  obtain ⟨j, hj, -, hlatest', hlow', hhigh'⟩ :=
    x.tomorrow.exists_latest (by rw [htomorrow]; exact hmonthNext)
  have hmjdNext : x.tomorrow.midnight.modifiedJulianDay + x.tomorrow.fd =
      ((q.julianDay - 2400001 : ℤ) : K) := by
    rw [htomorrow]
    show CalDate.modifiedJulianDay ⟨iy, im, id, 0⟩ + 0 = _
    rw [modifiedJulianDay_of_isDate hnext (q.marchYear_nonneg (by omega)), add_zero, add_zero]
  have hmjdNow : x.midnight.midnight.modifiedJulianDay + x.midnight.fd =
      ((p.julianDay - 2400001 : ℤ) : K) := by
    show CalDate.modifiedJulianDay ⟨x.iy, x.im, x.id, 0⟩ + 0 = _
    rw [hmjd, add_zero, add_zero]
  refine ⟨i, hearly, driftRate_eq_rateOf hlatest, ?_, fun mem => ?_⟩
  · rw [iauDat_eq_lawOf hj hlatest', hmjdNext,
      iauDat_eq_lawOf (x := x.midnight) hi hlatest, hmjdNow]
    rw [htomorrow] at hlow' hhigh'
    rcases next_entry hp hnext hq hearly hlow hhigh hlow' hhigh' hj with rfl | ⟨rfl, hchange⟩
    · -- the day moves the law by the rate
      have hstep : ((q.julianDay - 2400001 : ℤ) : K) = ((p.julianDay - 2400001 : ℤ) : K) + 1 := by
        rw [hq]
        push_cast
        ring
      rw [hstep, lawOf_add_one]
      intro hzero
      exact rateOf_ne_zero (K := K) hearly (by linear_combination (-1 / 2) * hzero)
    · rw [show q.julianDay - 2400001 = changeDays.getD (i + 1) 0 by omega,
        show p.julianDay - 2400001 = changeDays.getD (i + 1) 0 - 1 by omega]
      exact lawOf_succ_ne hearly
  · rw [deltaAT_eq mem _ (by rw [htomorrow]; exact hmonthNext),
      show x.tomorrow.fd = 0 by rw [htomorrow], zero_mul, add_zero]

omit [FloorRing K] in
/-- `UTC2TAI` tells a rate from its double, but at 0h. -/
theorem scaleToTAI_two_mul_iff [IsStrictOrderedRing K] (x : CalDate K) (dat0 rate dat24 : K) :
    x.scaleToTAI dat0 (2 * rate) dat24 = x.scaleToTAI dat0 rate dat24 ↔
      x.fd * rate * (dat24 - dat0 - 3 * rate) = 0 := by
  have hmjd : ∀ fd : K, modifiedJulianDay { x with fd := fd } =
      x.midnight.modifiedJulianDay + fd := by
    intro fd
    simp only [modifiedJulianDay, midnight, add_zero]
  have hdiff : x.scaleToTAI dat0 (2 * rate) dat24 - x.scaleToTAI dat0 rate dat24 =
      x.fd * rate * (dat24 - dat0 - 3 * rate) / (auDaysec * auDaysec) := by
    simp only [scaleToTAI, hmjd, auDaysec]
    ring
  have hsec : (auDaysec * auDaysec : K) ≠ 0 := by norm_num [auDaysec]
  rw [← sub_eq_zero, hdiff, div_eq_zero_iff, or_iff_left hsec]

/-- From 1960 to 1971, `DeltaAT` keeps to the law at 0h only, and so does `UTC2TAI`, which
takes every rate twice. -/
theorem deltaAT_eq_iauDat_iff [IsStrictOrderedRing K] (mem : BeforeTables K) (x : CalDate K)
    (hx : x.checkUTC = 0) (hera : 1960 ≤ x.iy ∧ x.iy ≤ 1971) :
    (x.deltaAT mem = x.iauDat ∧
      utc2TAI mem x.modifiedJulianDay =
        x.scaleToTAI x.midnight.iauDat x.driftRate x.tomorrow.iauDat ↔ x.fd = 0) ∧
    (utc2TAI mem x.modifiedJulianDay =
      x.scaleToTAI x.midnight.iauDat x.driftRate x.tomorrow.iauDat ↔ x.fd = 0) ∧
    x.dlod mem = 2 * x.driftRate := by
  obtain ⟨-, hmonth, -, hfd⟩ := checkUTC_eq_zero_iff.mp hx
  have hfirst : 23521 ≤ 12 * x.iy + x.im := by omega
  obtain ⟨i, hi, hrate, hjump, hnext⟩ := exists_entry hx hera
  have hround : mjd2Cal x.modifiedJulianDay = x := by
    obtain ⟨p, hp, hday, hmjd⟩ := exists_day hx (.inl (by omega))
    rw [show x.modifiedJulianDay = _ from hmjd x.fd]
    exact mjd2Cal_day_add hp hday hfd
  have hmidnight : x.midnight.deltaAT mem = x.midnight.iauDat := by
    rw [deltaAT_eq mem x.midnight hfirst]
    simp [midnight]
  have hdlod : x.dlod mem = 2 * x.driftRate := by
    have hnoon : deltaAT mem { x with fd := 0.5 } =
        x.midnight.iauDat + 0.5 * x.driftRate + 0.5 * x.driftRate := by
      rw [deltaAT_eq mem { x with fd := 0.5 } hfirst, iauDat_with]
      rfl
    rw [dlod, hnoon, hmidnight, show (2.0 : K) = 2 by norm_num]
    ring
  have hscaled : utc2TAI mem x.modifiedJulianDay =
      x.scaleToTAI x.midnight.iauDat (2 * x.driftRate) x.tomorrow.iauDat := by
    rw [utc2TAI, hround, ← hdlod, ← hmidnight, ← hnext mem]
    rfl
  have htai : utc2TAI mem x.modifiedJulianDay =
      x.scaleToTAI x.midnight.iauDat x.driftRate x.tomorrow.iauDat ↔ x.fd = 0 := by
    rw [hscaled, scaleToTAI_two_mul_iff, mul_eq_zero, mul_eq_zero, hrate, or_iff_left hjump,
      or_iff_left (rateOf_ne_zero hi)]
  refine ⟨⟨fun h => htai.mp h.2, fun hzero => ⟨?_, htai.mpr hzero⟩⟩, htai, hdlod⟩
  rw [deltaAT_eq mem x hfirst, hzero, zero_mul, add_zero]

theorem deltaAT_eq_iauDat_iff_noon :
    (deltaAT ⟨0, 0, 0⟩ ⟨1965, 4, 1, (1 / 2 : ℚ)⟩ = iauDat ⟨1965, 4, 1, 1 / 2⟩ ∧
      utc2TAI ⟨0, 0, 0⟩ (modifiedJulianDay ⟨1965, 4, 1, (1 / 2 : ℚ)⟩) =
        scaleToTAI ⟨1965, 4, 1, 1 / 2⟩ (iauDat (midnight ⟨1965, 4, 1, 1 / 2⟩))
          (driftRate ⟨1965, 4, 1, 1 / 2⟩) (iauDat (tomorrow ⟨1965, 4, 1, 1 / 2⟩)) ↔
      (1 / 2 : ℚ) = 0) ∧
    (utc2TAI ⟨0, 0, 0⟩ (modifiedJulianDay ⟨1965, 4, 1, (1 / 2 : ℚ)⟩) =
      scaleToTAI ⟨1965, 4, 1, 1 / 2⟩ (iauDat (midnight ⟨1965, 4, 1, 1 / 2⟩))
        (driftRate ⟨1965, 4, 1, 1 / 2⟩) (iauDat (tomorrow ⟨1965, 4, 1, 1 / 2⟩)) ↔
      (1 / 2 : ℚ) = 0) ∧
    dlod ⟨0, 0, 0⟩ ⟨1965, 4, 1, (1 / 2 : ℚ)⟩ = 2 * driftRate ⟨1965, 4, 1, 1 / 2⟩ :=
  deltaAT_eq_iauDat_iff ⟨0, 0, 0⟩ ⟨1965, 4, 1, 1 / 2⟩
    (checkUTC_eq_zero_iff.mpr ⟨by decide, by decide, by decide, by norm_num⟩) (by decide)

/-- Noon of the 1st of April 1965. -/
theorem deltaAT_ne_iauDat :
    ¬ ∀ (mem : BeforeTables ℚ) (x : CalDate ℚ), x.checkUTC = 0 → 1960 ≤ x.iy ∧ x.iy ≤ 1971 →
      x.deltaAT mem = x.iauDat ∧
        utc2TAI mem x.modifiedJulianDay =
          x.scaleToTAI x.midnight.iauDat x.driftRate x.tomorrow.iauDat := by
  intro h
  have haccepted : checkUTC ⟨1965, 4, 1, (1 / 2 : ℚ)⟩ = 0 :=
    checkUTC_eq_zero_iff.mpr ⟨by decide, by decide, by decide, by norm_num⟩
  have hlaw := (h ⟨0, 0, 0⟩ _ haccepted (by decide)).1
  revert hlaw
  decide +kernel

end CalDate

end Gtoaes
