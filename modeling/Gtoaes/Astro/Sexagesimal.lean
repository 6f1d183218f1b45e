import Gtoaes.Astro.Dates
import Gtoaes.Lib.Decimal
import Mathlib.Tactic.FieldSimp

/-!
Hours and angles as texts of three fields: `HourStr2Dbl` and `DegStr2Dbl`, which keep
the digits of a field in a buffer of 20 bytes, and `HourDbl2Str`, `DegDbl2Str` and
`DecDbl2Str`, which print what these read. The numbers are exact.

`HourDbl2Str` brings its argument below 36 and not below 24.
-/

namespace Gtoaes

open Lib

/-! ### Reading -/

/-- A call of `HourStr2Dbl` or `DegStr2Dbl`: it returns 0 and a value, or another code,
or it stores behind the buffer. -/
inductive Reading
  | value (x : ℚ)
  | code (n : ℤ)
  | overrun
  deriving DecidableEq

/-- The variables of the loop; `j` is the length of `buff`. -/
structure Fields where
  first : ℚ := 0
  m : ℚ := 0
  buff : Text := []
  part : ℕ := 0
  dot : ℕ := 0

namespace Fields

/-- `buff[j++] = ch` -/
def store (c : Char) (f : Fields) : Except Reading Fields :=
  if f.buff.length < 20 then .ok { f with buff := f.buff ++ [c] } else .error .overrun

/-- `buff[j] = 0`, and the field is read. -/
def close (f : Fields) : Except Reading Fields :=
  if f.buff.length < 20 then
    .ok { f with
      first := if f.part = 0 then atof f.buff else f.first
      m := if f.part = 0 then f.m else atof f.buff
      buff := []
      part := f.part + 1 }
  else .error .overrun

/-- One character, where the first field has at most `width` digits. -/
def read (width : ℕ) (f : Fields) (c : Char) : Except Reading Fields :=
  if c.isDigit then
    if f.dot = 0 ∧ (f.part = 0 ∧ f.buff.length = width ∨ f.part = 1 ∧ f.buff.length = 2) then
      f.close.bind (store c)
    else f.store c
  else if c = ' ' ∨ c = ':' then
    if f.dot > 0 ∨ f.part ≥ 2 then .error (.code (-2))
    else if f.buff.length > 0 then f.close
    else .ok f
  else if c = '.' then
    if f.dot > 0 then .error (.code (-3)) else store c { f with dot := f.dot + 1 }
  else .error (.code (-4))

/-- The value of the fields, with the last one still in the buffer. -/
def total (f : Fields) : ℚ :=
  if f.part = 0 then atof f.buff
  else if f.part = 1 then f.first + atof f.buff / 60
  else f.first + (f.m + atof f.buff / 60) / 60

/-- The loop over the characters, and the value that is returned. -/
def readAll (width : ℕ) (sign : ℚ) (t : Text) : Reading :=
  match t.foldlM (read width) {} with
  | .error r => r
  | .ok f => if f.buff.length < 20 then .value (f.total * sign) else .overrun

end Fields

/-- `HourStr2Dbl` -/
def hourStr2Dbl : Option Text → Reading
  | none => .code (-1)
  | some [] => .code (-1)
  | some t => Fields.readAll 2 1 t

/-- `DegStr2Dbl` -/
def degStr2Dbl : Option Text → Reading
  | none => .code (-1)
  | some [] => .code (-1)
  | some (c :: t) =>
      Fields.readAll 3 (if c = '-' then -1 else 1) (if c = '+' ∨ c = '-' then t else c :: t)

/-! ### Printing -/

/-- `while (x < 0) x += period` -/
def addWhileNeg (period : ℚ) (hperiod : 0 < period) (x : ℚ) : ℚ :=
  if x < 0 then addWhileNeg period hperiod (x + period) else x
termination_by ⌈-x / period⌉.toNat
decreasing_by
  have hpos : 0 < ⌈-x / period⌉ := Int.ceil_pos.mpr (div_pos (by linarith) hperiod)
  have hstep : -(x + period) / period = -x / period - 1 := by
    field_simp
    ring
  rw [hstep, Int.ceil_sub_one]
  omega

/-- `while (x >= limit) x -= period` -/
def subWhileGe (period limit : ℚ) (hperiod : 0 < period) (x : ℚ) : ℚ :=
  if limit ≤ x then subWhileGe period limit hperiod (x - period) else x
termination_by (⌊(x - limit) / period⌋ + 1).toNat
decreasing_by
  have hnonneg : 0 ≤ ⌊(x - limit) / period⌋ :=
    Int.floor_nonneg.mpr (div_nonneg (by linarith) hperiod.le)
  have hstep : (x - period - limit) / period = (x - limit) / period - 1 := by
    field_simp
    ring
  rw [hstep, Int.floor_sub_one]
  omega

/-- The fields of a number: whole ones, minutes, and seconds, which do not pass the limit. -/
def sexagesimal (limit x : ℚ) : ℤ × ℤ × ℚ :=
  let h := toInt x
  let m := toInt ((x - h) * 60)
  let s := ((x - h) * 60 - m) * 60
  (h, m, if s > limit then limit else s)

/-- `HourDbl2Str` -/
def hourDbl2Str (hour : ℚ) : Text :=
  let hour := subWhileGe 24 36 (by norm_num) (addWhileNeg 24 (by norm_num) hour)
  let (h, m, s) := sexagesimal 59.999 hour
  zeroPad 2 h ++ ':' :: zeroPad 2 m ++ ':' :: fixedText 6 3 s

/-- `DegDbl2Str` -/
def degDbl2Str (degree : ℚ) : Text :=
  let degree := subWhileGe 360 360 (by norm_num) (addWhileNeg 360 (by norm_num) degree)
  let (d, m, s) := sexagesimal 59.99 degree
  intText d ++ ':' :: zeroPad 2 m ++ ':' :: fixedText 5 2 s

/-- `DecDbl2Str`: none where it returns a null pointer. -/
def decDbl2Str (dec : ℚ) : Option Text :=
  if dec < -90 ∨ dec > 90 then none
  else
    let (d, m, s) := sexagesimal 59.99 (if dec < 0 then -dec else dec)
    some ((if dec < 0 then '-' else '+') ::
      zeroPad 2 d ++ ':' :: zeroPad 2 m ++ ':' :: fixedText 5 2 s)

example : decDbl2Str (-61 / 120) = some "-00:30:30.00".toList := by decide +kernel

example : hourStr2Dbl (some "1230.5".toList) = .value (25 / 2 + 1 / 120) := by decide +kernel

/-! ### The loops -/

theorem addWhileNeg_spec (period : ℚ) (hperiod : 0 < period) (x : ℚ) :
    (∃ k : ℤ, addWhileNeg period hperiod x - x = k * period) ∧
      0 ≤ addWhileNeg period hperiod x ∧ (x < 0 → addWhileNeg period hperiod x < period) ∧
      (0 ≤ x → addWhileNeg period hperiod x = x) := by
  fun_induction addWhileNeg period hperiod x with
  | case1 x hneg ih =>
      obtain ⟨⟨k, hk⟩, hnonneg, hlt, hself⟩ := ih
      refine ⟨⟨k + 1, by push_cast; linarith⟩, hnonneg, fun _ => ?_, fun h => absurd hneg h.not_gt⟩
      by_cases h : x + period < 0
      · exact hlt h
      · rw [hself (not_lt.mp h)]
        linarith
  | case2 x hnonneg =>
      exact ⟨⟨0, by simp⟩, not_lt.mp hnonneg, fun h => absurd h hnonneg, fun _ => rfl⟩

theorem subWhileGe_spec (period limit : ℚ) (hperiod : 0 < period) (x : ℚ) :
    (∃ k : ℤ, subWhileGe period limit hperiod x - x = k * period) ∧
      subWhileGe period limit hperiod x < limit ∧
      (limit ≤ x → limit - period ≤ subWhileGe period limit hperiod x) ∧
      (x < limit → subWhileGe period limit hperiod x = x) := by
  fun_induction subWhileGe period limit hperiod x with
  | case1 x hge ih =>
      obtain ⟨⟨k, hk⟩, hlt, hle, hself⟩ := ih
      refine ⟨⟨k - 1, by push_cast; linarith⟩, hlt, fun _ => ?_, fun h => absurd hge h.not_ge⟩
      by_cases h : limit ≤ x - period
      · exact hle h
      · rw [hself (not_le.mp h)]
        linarith
  | case2 x hlt => exact ⟨⟨0, by simp⟩, not_le.mp hlt, fun h => absurd h hlt, fun _ => rfl⟩

/-- With the period as its limit, the reduction is that of `cycmod`. -/
theorem reduce_eq_cycmod (period : ℚ) (hperiod : 0 < period) (x : ℚ) :
    subWhileGe period period hperiod (addWhileNeg period hperiod x) = cycmod x period := by
  obtain ⟨⟨k, hk⟩, hnonneg, -, -⟩ := addWhileNeg_spec period hperiod x
  obtain ⟨⟨l, hl⟩, hlt, hle, hself⟩ :=
    subWhileGe_spec period period hperiod (addWhileNeg period hperiod x)
  refine (eq_cycmod_iff hperiod ⟨k + l, by push_cast; linarith⟩).mpr ⟨?_, hlt⟩
  by_cases h : period ≤ addWhileNeg period hperiod x
  · linarith [hle h]
  · rw [hself (not_le.mp h)]
    exact hnonneg

/-- The hour that is printed, which may be 24 and more. -/
def reducedHour (hour : ℚ) : ℚ := subWhileGe 24 36 (by norm_num) (addWhileNeg 24 (by norm_num) hour)

theorem reducedHour_spec (hour : ℚ) :
    (∃ k : ℤ, reducedHour hour - hour = k * 24) ∧ 0 ≤ reducedHour hour ∧ reducedHour hour < 36 ∧
      (reducedHour hour < 24 ↔ hour < 24 ∨ 12 ≤ cycmod hour 24) := by
  obtain ⟨⟨k, hk⟩, hnonneg, hnegative, hself⟩ := addWhileNeg_spec 24 (by norm_num) hour
  obtain ⟨⟨l, hl⟩, hlt, hle, hkept⟩ :=
    subWhileGe_spec 24 36 (by norm_num) (addWhileNeg 24 (by norm_num) hour)
  change reducedHour hour - _ = _ at hl
  change reducedHour hour < 36 at hlt
  change _ → _ ≤ reducedHour hour at hle
  change _ → reducedHour hour = _ at hkept
  have hturns : ∃ k : ℤ, reducedHour hour - hour = k * 24 := ⟨k + l, by push_cast; linarith⟩
  have hpositive : 0 ≤ reducedHour hour := by
    by_cases h : 36 ≤ addWhileNeg 24 (by norm_num) hour
    · linarith [hle h]
    · rw [hkept (not_le.mp h)]
      exact hnonneg
  refine ⟨hturns, hpositive, hlt, ?_⟩
  by_cases hday : reducedHour hour < 24
  · have hmod : reducedHour hour = cycmod hour 24 :=
      (eq_cycmod_iff (by norm_num) hturns).mpr ⟨hpositive, hday⟩
    refine ⟨fun _ => ?_, fun _ => hday⟩
    rw [← hmod]
    by_contra hneither
    obtain ⟨hhour, hnoon⟩ := not_or.mp hneither
    rw [hself (by linarith)] at hle hkept
    rcases lt_or_ge hour 36 with h | h
    · linarith [hkept h]
    · linarith [hle h]
  · have hmod : reducedHour hour - 24 = cycmod hour 24 := by
      obtain ⟨n, hn⟩ := hturns
      refine (eq_cycmod_iff (by norm_num) ⟨n - 1, by push_cast; linarith⟩).mpr ⟨?_, ?_⟩
      · linarith
      · linarith
    refine ⟨fun h => absurd h hday, ?_⟩
    rintro (hhour | hnoon)
    · rcases lt_or_ge hour 0 with h | h
      · have hfirst := hnegative h
        rw [hkept (by linarith)] at hday
        exact absurd hfirst hday
      · rw [hkept (by rw [hself h]; linarith), hself h] at hday
        exact absurd hhour hday
    · rw [← hmod] at hnoon
      linarith

/-! ### Fields of a text -/

namespace Fields

variable {width : ℕ}

/-- So many more digits go into the buffer before the field is full. -/
def Fits (width : ℕ) (f : Fields) (k : ℕ) : Prop :=
  f.buff.length + k ≤ 20 ∧
    (f.dot = 0 → (f.part = 0 → f.buff.length + k ≤ width) ∧ (f.part = 1 → f.buff.length + k ≤ 2))

theorem foldlM_digits {f : Fields} {ds : Text} (hdigits : ∀ c ∈ ds, c.isDigit = true)
    (hfits : f.Fits width ds.length) :
    ds.foldlM (read width) f = .ok { f with buff := f.buff ++ ds } := by
  induction ds generalizing f with
  | nil => simp [pure, Except.pure]
  | cons c ds ih =>
      obtain ⟨hroom, hfield⟩ := hfits
      rw [List.length_cons] at hroom hfield
      have hopen : ¬ (f.dot = 0 ∧
          (f.part = 0 ∧ f.buff.length = width ∨ f.part = 1 ∧ f.buff.length = 2)) := by
        rintro ⟨hdot, ⟨hpart, hfull⟩ | ⟨hpart, hfull⟩⟩
        · have := (hfield hdot).1 hpart
          omega
        · have := (hfield hdot).2 hpart
          omega
      have hread : read width f c = .ok { f with buff := f.buff ++ [c] } := by
        rw [read, if_pos (hdigits c List.mem_cons_self), if_neg hopen, store, if_pos (by omega)]
      have hrest : Fits width { f with buff := f.buff ++ [c] } ds.length := by
        refine ⟨by simp only [List.length_append, List.length_singleton]; omega, fun hdot => ?_⟩
        simp only [List.length_append, List.length_singleton]
        exact ⟨fun hpart => by have := (hfield hdot).1 hpart; omega,
          fun hpart => by have := (hfield hdot).2 hpart; omega⟩
      rw [List.foldlM_cons, hread]
      refine (ih (fun d hd => hdigits d (List.mem_cons_of_mem c hd)) hrest).trans ?_
      rw [List.append_assoc]
      rfl

/-- A blank or a colon behind digits ends the field. -/
theorem read_separator {f : Fields} {c : Char} (hc : c = ' ' ∨ c = ':') (hdot : f.dot = 0)
    (hpart : f.part < 2) (hbuff : f.buff ≠ []) (hroom : f.buff.length < 20) :
    read width f c = .ok { f with
      first := if f.part = 0 then atof f.buff else f.first
      m := if f.part = 0 then f.m else atof f.buff
      buff := []
      part := f.part + 1 } := by
  have hdigit : ¬ c.isDigit = true := by rcases hc with rfl | rfl <;> decide
  have hseparator : ¬ (f.dot > 0 ∨ f.part ≥ 2) := by omega
  have hlong : f.buff.length > 0 := List.length_pos_iff.mpr hbuff
  rw [read, if_neg hdigit, if_pos hc, if_neg hseparator, if_pos hlong, close, if_pos hroom]

/-- A number of fields as the printers write it is read field by field. -/
theorem readAll_fields (sign : ℚ) {first minute second frac : Text}
    (hfirst : ∀ c ∈ first, c.isDigit = true) (hminute : ∀ c ∈ minute, c.isDigit = true)
    (hsecond : ∀ c ∈ second, c.isDigit = true) (hfrac : ∀ c ∈ frac, c.isDigit = true)
    (hfirstLength : 0 < first.length ∧ first.length ≤ width) (hwidth : width < 20)
    (hminuteLength : 0 < minute.length ∧ minute.length ≤ 2)
    (hroom : second.length + 1 + frac.length < 20) :
    readAll width sign (first ++ ':' :: (minute ++ ':' :: (second ++ '.' :: frac))) =
      .value ((atof first + (atof minute + atof (second ++ '.' :: frac) / 60) / 60) * sign) := by
  have hread : (first ++ ':' :: (minute ++ ':' :: (second ++ '.' :: frac))).foldlM (read width) {} =
      .ok { first := atof first, m := atof minute, buff := second ++ '.' :: frac, part := 2,
            dot := 1 } := by
    have hfirstRun : first.foldlM (read width) {} = .ok { buff := first } :=
      foldlM_digits hfirst ⟨by simp; omega, fun _ => ⟨fun _ => by simpa using hfirstLength.2, nofun⟩⟩
    have hcolon : read width { buff := first } ':' = .ok { first := atof first, part := 1 } :=
      read_separator (.inr rfl) rfl (by simp) (List.ne_nil_of_length_pos hfirstLength.1) (by simp; omega)
    have hminuteRun : minute.foldlM (read width) { first := atof first, part := 1 } =
        .ok { first := atof first, buff := minute, part := 1 } :=
      foldlM_digits hminute ⟨by simp; omega, fun _ => ⟨nofun, fun _ => by simpa using hminuteLength.2⟩⟩
    have hcolon' : read width { first := atof first, buff := minute, part := 1 } ':' =
        .ok { first := atof first, m := atof minute, part := 2 } :=
      read_separator (.inr rfl) rfl (by simp) (List.ne_nil_of_length_pos hminuteLength.1) (by simp; omega)
    have hsecondRun : second.foldlM (read width) { first := atof first, m := atof minute, part := 2 } =
        .ok { first := atof first, m := atof minute, buff := second, part := 2 } :=
      foldlM_digits hsecond ⟨by simp; omega, fun _ => ⟨nofun, nofun⟩⟩
    have hpoint : read width { first := atof first, m := atof minute, buff := second, part := 2 } '.' =
        .ok { first := atof first, m := atof minute, buff := second ++ ['.'], part := 2, dot := 1 } := by
      rw [read, if_neg (by decide), if_neg (by decide), if_pos rfl, if_neg (by simp), store,
        if_pos (by simp; omega)]
    have hfracRun : frac.foldlM (read width)
        { first := atof first, m := atof minute, buff := second ++ ['.'], part := 2, dot := 1 } =
        .ok { first := atof first, m := atof minute, buff := second ++ ['.'] ++ frac, part := 2,
              dot := 1 } :=
      foldlM_digits hfrac ⟨by simp; omega, nofun⟩
    simp only [List.foldlM_append, List.foldlM_cons, hfirstRun, hcolon, hminuteRun, hcolon',
      hsecondRun, hpoint, hfracRun, bind, Except.bind, List.append_assoc, List.singleton_append]
  rw [readAll, hread]
  have hlength : (second ++ '.' :: frac).length < 20 := by
    rw [List.length_append, List.length_cons]
    omega
  simp only [if_pos hlength, total]
  rfl

end Fields

/-! ### Fields of a number -/

/-- What is printed of seconds that may be cut at the limit differs from them by less
than one unit of the last digit. -/
theorem abs_printed_sub_lt {d : ℕ} {s₀ : ℚ} (hs₀ : 0 ≤ s₀ ∧ s₀ < 60) :
    ∃ n : ℕ, n < 60 * 10 ^ d ∧
      (roundEven (|if s₀ > 60 - 1 / 10 ^ d then 60 - 1 / 10 ^ d else s₀| * 10 ^ d)).toNat = n ∧
      |(n : ℚ) / 10 ^ d - s₀| < 1 / 10 ^ d := by
  have hunit : (0 : ℚ) < 10 ^ d := by positivity
  have hunit' : (1 : ℚ) ≤ 10 ^ d := one_le_pow₀ (by norm_num)
  obtain ⟨s, hs⟩ : ∃ s, (if s₀ > 60 - 1 / 10 ^ d then 60 - 1 / 10 ^ d else s₀) = s := ⟨_, rfl⟩
  have hlimit : (60 - 1 / 10 ^ d) * 10 ^ d = (60 * 10 ^ d - 1 : ℚ) := by
    field_simp
  have hsLimit : s ≤ 60 - 1 / 10 ^ d := by
    rw [← hs]
    split_ifs with h
    · exact le_rfl
    · exact not_lt.mp h
  have hsNonneg : 0 ≤ s := by
    rw [← hs]
    split_ifs with h
    · have hinv : 1 / (10 : ℚ) ^ d ≤ 1 := by rw [div_le_one hunit]; exact hunit'
      linarith
    · exact hs₀.1
  obtain ⟨r, hr⟩ : ∃ r, roundEven (|s| * 10 ^ d) = r := ⟨_, rfl⟩
  rw [abs_of_nonneg hsNonneg] at hr
  have hrNonneg : 0 ≤ r := by
    rw [← hr]
    apply le_roundEven
    push_cast
    positivity
  have hrLimit : r ≤ 60 * 10 ^ d - 1 := by
    rw [← hr]
    apply roundEven_le
    push_cast
    rw [← hlimit]
    gcongr
  have hnear : |(r : ℚ) - s₀ * 10 ^ d| < 1 := by
    by_cases h : s₀ > 60 - 1 / 10 ^ d
    · -- the seconds were cut to a whole number of units
      rw [if_pos h] at hs
      have hcut : 60 * 10 ^ d - 1 ≤ r := by
        rw [← hr, ← hs]
        apply le_roundEven
        push_cast
        rw [hlimit]
      have hcutCast : (60 * 10 ^ d - 1 : ℚ) = r := by
        have hequal : (60 * 10 ^ d - 1 : ℤ) = r := le_antisymm hcut hrLimit
        rw [← hequal]
        push_cast
        rfl
      have habove : (60 - 1 / 10 ^ d) * 10 ^ d < s₀ * 10 ^ d := by gcongr
      have hbelow : s₀ * 10 ^ d < 60 * 10 ^ d := by gcongr; exact hs₀.2
      rw [hlimit] at habove
      rw [← hcutCast, abs_lt]
      constructor <;> linarith
    · rw [if_neg h] at hs
      rw [← hr, ← hs]
      exact (abs_roundEven_sub_le _).trans_lt (by norm_num)
  have htoNat : ((r.toNat : ℕ) : ℤ) = r := Int.toNat_of_nonneg hrNonneg
  refine ⟨r.toNat, ?_, ?_, ?_⟩
  · have hcast : ((r.toNat : ℕ) : ℤ) < ((60 * 10 ^ d : ℕ) : ℤ) := by
      rw [htoNat]
      push_cast
      omega
    exact_mod_cast hcast
  · rw [hs, abs_of_nonneg hsNonneg, hr]
  · have hcast : ((r.toNat : ℕ) : ℚ) = r := by exact_mod_cast htoNat
    have hquot : (r : ℚ) / 10 ^ d - s₀ = (r - s₀ * 10 ^ d) / 10 ^ d := by field_simp
    rw [hcast, hquot, abs_div, abs_of_pos hunit]
    gcongr

theorem sexagesimal_spec {x : ℚ} (hx : 0 ≤ x) {d : ℕ} (hd : 0 < d) {limit : ℚ}
    (hlimit : limit = 60 - 1 / 10 ^ d) :
    ∃ m n : ℕ, m < 60 ∧ n < 60 * 10 ^ d ∧
      (sexagesimal limit x).1 = ⌊x⌋ ∧ (sexagesimal limit x).2.1 = m ∧
      fixedText (3 + d) d (sexagesimal limit x).2.2 = decimalText 2 d n ∧
      |⌊x⌋ + ((m : ℚ) + n / 10 ^ d / 60) / 60 - x| < 1 / 10 ^ d / 3600 := by
  have hlow := Int.floor_le x
  have hhigh := Int.lt_floor_add_one x
  have hh : toInt x = ⌊x⌋ := toInt_of_nonneg hx
  have hminutes : 0 ≤ (x - ⌊x⌋) * 60 := by linarith
  have hm : toInt ((x - ⌊x⌋) * 60) = ⌊(x - ⌊x⌋) * 60⌋ := toInt_of_nonneg hminutes
  obtain ⟨m, hmNat⟩ : ∃ m : ℕ, (m : ℤ) = ⌊(x - ⌊x⌋) * 60⌋ :=
    ⟨_, Int.toNat_of_nonneg (Int.floor_nonneg.mpr hminutes)⟩
  have hmCast : (m : ℚ) = ⌊(x - ⌊x⌋) * 60⌋ := by exact_mod_cast hmNat
  have hmLow := Int.floor_le ((x - ⌊x⌋) * 60)
  have hmHigh := Int.lt_floor_add_one ((x - ⌊x⌋) * 60)
  have hs₀ : 0 ≤ ((x - ⌊x⌋) * 60 - m) * 60 ∧ ((x - ⌊x⌋) * 60 - m) * 60 < 60 := by
    rw [hmCast]
    constructor <;> linarith
  obtain ⟨n, hn, hprinted, hnear⟩ := abs_printed_sub_lt (d := d) hs₀
  have hfields : sexagesimal limit x = (⌊x⌋, (m : ℤ),
      if ((x - ⌊x⌋) * 60 - m) * 60 > limit then limit else ((x - ⌊x⌋) * 60 - m) * 60) := by
    simp only [sexagesimal, hh, hm, ← hmNat, Int.cast_natCast]
  have hseconds : 0 ≤ (sexagesimal limit x).2.2 := by
    rw [hfields]
    dsimp only
    split_ifs with h
    · have hinv : 1 / (10 : ℚ) ^ d ≤ 1 := by
        rw [div_le_one (by positivity)]
        exact one_le_pow₀ (by norm_num)
      rw [hlimit]
      linarith
    · exact hs₀.1
  refine ⟨m, n, ?_, hn, by rw [hfields], by rw [hfields], ?_, ?_⟩
  · have hlt : (m : ℚ) < 60 := by
      rw [hmCast]
      linarith
    exact_mod_cast hlt
  · rw [show 3 + d = 2 + 1 + d from rfl, fixedText_of_nonneg hseconds hd, hfields]
    dsimp only
    rw [hlimit, hprinted]
  · have hsplit : ⌊x⌋ + ((m : ℚ) + n / 10 ^ d / 60) / 60 - x =
        (n / 10 ^ d - ((x - ⌊x⌋) * 60 - m) * 60) / 3600 := by ring
    rw [hsplit, abs_div, abs_of_pos (by norm_num : (0 : ℚ) < 3600)]
    gcongr

/-! ### There and back -/

theorem readAll_printed (sign : ℚ) {w width h m n d : ℕ} (hh : (zeroPad w (h : ℤ)).length ≤ width)
    (hwidth : width < 20) (hm : m < 60) (hn : n < 60 * 10 ^ d) (hd : 0 < d ∧ d < 10) :
    Fields.readAll width sign
        (zeroPad w (h : ℤ) ++ ':' :: zeroPad 2 (m : ℤ) ++ ':' :: decimalText 2 d n) =
      .value ((h + ((m : ℚ) + n / 10 ^ d / 60) / 60) * sign) := by
  have hminute : (zeroPad 2 (m : ℤ)).length = 2 :=
    length_zeroPad (by positivity) (by norm_cast; omega) (by decide)
  have hwhole : n / 10 ^ d < 60 := (Nat.div_lt_iff_lt_mul (by positivity)).mpr hn
  have hsecond : (zeroPad 2 ((n / 10 ^ d : ℕ) : ℤ)).length = 2 :=
    length_zeroPad (by positivity) (by norm_cast; omega) (by decide)
  have hfrac : (zeroPad d ((n % 10 ^ d : ℕ) : ℤ)).length = d :=
    length_zeroPad (by positivity) (by exact_mod_cast Nat.mod_lt n (by positivity)) hd.1
  have hread := Fields.readAll_fields sign (isDigit_zeroPad w h)
    (isDigit_zeroPad 2 m) (isDigit_zeroPad 2 (n / 10 ^ d)) (isDigit_zeroPad d (n % 10 ^ d))
    ⟨List.length_pos_iff.mpr (zeroPad_ne_nil w h), hh⟩ hwidth (by omega) (by omega)
  rw [← decimalText, atof_zeroPad, atof_zeroPad, atof_decimalText hd.1] at hread
  rw [← hread, List.append_assoc, List.cons_append]

theorem hourStr2Dbl_of_ne_nil {t : Text} (ht : t ≠ []) :
    hourStr2Dbl (some t) = Fields.readAll 2 1 t := by
  cases t with
  | nil => exact absurd rfl ht
  | cons c t => rfl

theorem degStr2Dbl_of_isDigit {c : Char} (hc : c.isDigit = true) (t : Text) :
    degStr2Dbl (some (c :: t)) = Fields.readAll 3 1 (c :: t) := by
  have hplus : c ≠ '+' := by rintro rfl; cases hc
  have hminus : c ≠ '-' := by rintro rfl; cases hc
  rw [degStr2Dbl, if_neg hminus, if_neg (not_or.mpr ⟨hplus, hminus⟩)]

/-- What `HourDbl2Str` prints, and what `HourStr2Dbl` makes of it. -/
theorem hourDbl2Str_spec (hour : ℚ) :
    ∃ h m n : ℕ, (h : ℤ) = ⌊reducedHour hour⌋ ∧ m < 60 ∧ n < 60 * 10 ^ 3 ∧
      hourDbl2Str hour = zeroPad 2 (h : ℤ) ++ ':' :: zeroPad 2 (m : ℤ) ++ ':' :: decimalText 2 3 n ∧
      ∃ x, hourStr2Dbl (some (hourDbl2Str hour)) = .value x ∧
        |x - reducedHour hour| < 0.001 / 3600 := by
  obtain ⟨-, hnonneg, hlt, -⟩ := reducedHour_spec hour
  have hlimit : (59.999 : ℚ) = 60 - 1 / 10 ^ 3 := by norm_num
  obtain ⟨m, n, hm, hn, hfirst, hminute, hsecond, hnear⟩ :=
    sexagesimal_spec hnonneg (by decide) hlimit
  obtain ⟨h, hh⟩ : ∃ h : ℕ, (h : ℤ) = ⌊reducedHour hour⌋ :=
    ⟨_, Int.toNat_of_nonneg (Int.floor_nonneg.mpr hnonneg)⟩
  have hfloor : ⌊reducedHour hour⌋ < 36 := Int.floor_lt.mpr (by exact_mod_cast hlt)
  have htext : hourDbl2Str hour =
      zeroPad 2 (h : ℤ) ++ ':' :: zeroPad 2 (m : ℤ) ++ ':' :: decimalText 2 3 n := by
    rw [hh, ← hfirst, ← hminute, ← hsecond]
    rfl
  have hread : hourStr2Dbl (some (hourDbl2Str hour)) =
      .value ((h + ((m : ℚ) + n / 10 ^ 3 / 60) / 60) * 1) := by
    rw [hourStr2Dbl_of_ne_nil (by rw [htext]; simp), htext]
    apply readAll_printed 1 ?_ (by decide) hm hn (by decide)
    exact (length_zeroPad (by positivity) (by omega) (by decide)).le
  refine ⟨h, m, n, hh, hm, hn, htext, _, hread, ?_⟩
  have hcast : (h : ℚ) = ⌊reducedHour hour⌋ := by exact_mod_cast hh
  rw [mul_one, hcast]
  refine hnear.trans_eq ?_
  norm_num

/-- `HourDbl2Str` writes hh:mm:ss.sss of a time of day, which `HourStr2Dbl` reads back to
the thousandth of a second. -/
def HourRoundTrip (hour : ℚ) : Prop :=
  (∃ h m n : ℕ, h < 24 ∧ m < 60 ∧ n < 60 * 10 ^ 3 ∧
    hourDbl2Str hour = zeroPad 2 (h : ℤ) ++ ':' :: zeroPad 2 (m : ℤ) ++ ':' :: decimalText 2 3 n) ∧
  ∃ x, hourStr2Dbl (some (hourDbl2Str hour)) = .value x ∧ |x - cycmod hour 24| < 0.001 / 3600

theorem hourRoundTrip_iff_reducedHour (hour : ℚ) : HourRoundTrip hour ↔ reducedHour hour < 24 := by
  obtain ⟨hturns, hnonneg, hlt, -⟩ := reducedHour_spec hour
  obtain ⟨h, m, n, hh, hm, hn, htext, x, hx, hnear⟩ := hourDbl2Str_spec hour
  constructor
  · rintro ⟨-, y, hy, hclose⟩
    obtain rfl : x = y := by simpa [hx] using hy
    by_contra hday
    -- what is read lies a whole day behind
    have hmem := cycmod_mem hour (show (0 : ℚ) < 24 by norm_num)
    have hmod : reducedHour hour - 24 = cycmod hour 24 := by
      obtain ⟨k, hk⟩ := hturns
      refine (eq_cycmod_iff (by norm_num) ⟨k - 1, by push_cast; linarith⟩).mpr ⟨?_, ?_⟩
      · linarith
      · linarith
    rw [← hmod, abs_lt] at hclose
    rw [abs_lt] at hnear
    norm_num at hclose hnear
    linarith [hclose.2, hnear.1]
  · intro hday
    have hmod : reducedHour hour = cycmod hour 24 :=
      (eq_cycmod_iff (by norm_num) hturns).mpr ⟨hnonneg, hday⟩
    have hfloor : ⌊reducedHour hour⌋ < 24 := Int.floor_lt.mpr (by exact_mod_cast hday)
    exact ⟨⟨h, m, n, by omega, hm, hn, htext⟩, x, hx, hmod ▸ hnear⟩

/-- The hours from 24 to 36, and those that differ from them by days, keep a day too many. -/
theorem hourRoundTrip_iff (hour : ℚ) : HourRoundTrip hour ↔ hour < 24 ∨ 12 ≤ cycmod hour 24 := by
  rw [hourRoundTrip_iff_reducedHour]
  exact (reducedHour_spec hour).2.2.2

/-- Midnight after a whole day is printed as 24:00:00.000. -/
theorem not_hourRoundTrip_midnight : ¬ ∀ hour : ℚ, HourRoundTrip hour := by
  intro h
  have hday := (hourRoundTrip_iff_reducedHour 24).mp (h 24)
  rw [(reducedHour_spec 24).2.2.2] at hday
  norm_num [cycmod] at hday

/-- The fields that are printed of an angle, to be read with either sign. -/
theorem angle_spec {x : ℚ} (hx : 0 ≤ x) :
    ∃ h m n : ℕ, (h : ℤ) = ⌊x⌋ ∧ m < 60 ∧ n < 60 * 10 ^ 2 ∧
      (sexagesimal 59.99 x).1 = h ∧ (sexagesimal 59.99 x).2.1 = m ∧
      fixedText 5 2 (sexagesimal 59.99 x).2.2 = decimalText 2 2 n ∧
      |h + ((m : ℚ) + n / 10 ^ 2 / 60) / 60 - x| < 0.01 / 3600 := by
  have hlimit : (59.99 : ℚ) = 60 - 1 / 10 ^ 2 := by norm_num
  obtain ⟨m, n, hm, hn, hfirst, hminute, hsecond, hnear⟩ := sexagesimal_spec hx (by decide) hlimit
  obtain ⟨h, hh⟩ : ∃ h : ℕ, (h : ℤ) = ⌊x⌋ := ⟨_, Int.toNat_of_nonneg (Int.floor_nonneg.mpr hx)⟩
  refine ⟨h, m, n, hh, hm, hn, hfirst.trans hh.symm, hminute, hsecond, ?_⟩
  have hcast : (h : ℚ) = ⌊x⌋ := by exact_mod_cast hh
  rw [hcast]
  refine hnear.trans_eq ?_
  norm_num

theorem degStr2Dbl_degDbl2Str (degree : ℚ) :
    ∃ x, degStr2Dbl (some (degDbl2Str degree)) = .value x ∧
      |x - cycmod degree 360| < 0.01 / 3600 := by
  have hmem := cycmod_mem degree (show (0 : ℚ) < 360 by norm_num)
  obtain ⟨h, m, n, hh, hm, hn, hfirst, hminute, hsecond, hnear⟩ := angle_spec hmem.1
  have hfloor : ⌊cycmod degree 360⌋ < 360 := Int.floor_lt.mpr (by exact_mod_cast hmem.2)
  have htext : degDbl2Str degree =
      zeroPad 0 (h : ℤ) ++ ':' :: zeroPad 2 (m : ℤ) ++ ':' :: decimalText 2 2 n := by
    rw [degDbl2Str, reduce_eq_cycmod, ← hfirst, ← hminute, ← hsecond]
    rfl
  obtain ⟨c, t, hct⟩ := List.exists_cons_of_ne_nil (zeroPad_ne_nil 0 (h : ℤ))
  have hdigit : c.isDigit = true := isDigit_zeroPad 0 h c (by rw [hct]; exact List.mem_cons_self)
  have hlength : (zeroPad 0 (h : ℤ)).length ≤ 3 := by
    rw [length_zeroPad_eq, zeroPadWidth, if_neg (by omega), Int.natAbs_natCast, zero_add,
      Nat.zero_max, Nat.length_toDigits_le_iff (by decide) (by decide)]
    omega
  have hread : degStr2Dbl (some (degDbl2Str degree)) =
      .value ((h + ((m : ℚ) + n / 10 ^ 2 / 60) / 60) * 1) := by
    rw [← readAll_printed 1 hlength (by decide) hm hn (by decide), htext, hct]
    exact degStr2Dbl_of_isDigit hdigit _
  refine ⟨_, hread, ?_⟩
  rwa [mul_one]

theorem degStr2Dbl_decDbl2Str {dec : ℚ} (hlow : -90 ≤ dec) (hhigh : dec ≤ 90) :
    ∃ t x, decDbl2Str dec = some t ∧ degStr2Dbl (some t) = .value x ∧
      |x - dec| < 0.01 / 3600 ∧
      (t.head? = some '-' ↔ dec < 0) ∧ (dec < 0 → x ≤ 0) ∧ (0 ≤ dec → 0 ≤ x) := by
  have hrange : ¬ (dec < -90 ∨ dec > 90) := not_or.mpr ⟨not_lt.mpr hlow, not_lt.mpr hhigh⟩
  have hmagnitude : 0 ≤ (if dec < 0 then -dec else dec) ∧ (if dec < 0 then -dec else dec) ≤ 90 := by
    split_ifs <;> constructor <;> linarith
  obtain ⟨h, m, n, hh, hm, hn, hfirst, hminute, hsecond, hnear⟩ := angle_spec hmagnitude.1
  have hfloor : ⌊if dec < 0 then -dec else dec⌋ ≤ 90 := by
    have hcast := (Int.floor_le (if dec < 0 then -dec else dec)).trans hmagnitude.2
    exact_mod_cast hcast
  have hlength : (zeroPad 2 (h : ℤ)).length ≤ 3 := by
    rw [length_zeroPad (by positivity) (by omega) (by decide)]
    decide
  have htext : decDbl2Str dec = some ((if dec < 0 then '-' else '+') ::
      (zeroPad 2 (h : ℤ) ++ ':' :: zeroPad 2 (m : ℤ) ++ ':' :: decimalText 2 2 n)) := by
    rw [decDbl2Str, if_neg hrange, ← hfirst, ← hminute, ← hsecond]
    rfl
  have hvalue : 0 ≤ h + ((m : ℚ) + n / 10 ^ 2 / 60) / 60 := by positivity
  by_cases hneg : dec < 0
  · rw [if_pos hneg] at htext hnear
    refine ⟨_, _, htext, readAll_printed (-1) hlength (by decide) hm hn (by decide), ?_,
      ⟨fun _ => hneg, fun _ => rfl⟩, fun _ => by linarith, fun h => absurd hneg h.not_gt⟩
    rw [abs_lt] at hnear ⊢
    constructor <;> linarith [hnear.1, hnear.2]
  · rw [if_neg hneg] at htext hnear
    refine ⟨_, _, htext, readAll_printed 1 hlength (by decide) hm hn (by decide), ?_,
      ⟨fun h => absurd (Option.some.inj h) (by decide), fun h => absurd h hneg⟩,
      fun h => absurd h hneg, fun _ => by linarith⟩
    rwa [mul_one]

/-- What the printers of angles write is read back to a hundredth of an arc second, and
the sign of a declination with it. -/
theorem degStr2Dbl_roundTrip :
    (∀ degree : ℚ, ∃ x, degStr2Dbl (some (degDbl2Str degree)) = .value x ∧
      |x - cycmod degree 360| < 0.01 / 3600) ∧
    ∀ dec : ℚ, -90 ≤ dec → dec ≤ 90 → ∃ t x, decDbl2Str dec = some t ∧
      degStr2Dbl (some t) = .value x ∧ |x - dec| < 0.01 / 3600 ∧
      (t.head? = some '-' ↔ dec < 0) ∧ (dec < 0 → x ≤ 0) ∧ (0 ≤ dec → 0 ≤ x) := by
  exact ⟨degStr2Dbl_degDbl2Str, fun dec hlow hhigh => degStr2Dbl_decDbl2Str hlow hhigh⟩

/-- Half a degree south, where the sign is all that tells it from the north. -/
theorem degStr2Dbl_roundTrip_halfSouth : ∃ t x, decDbl2Str (-1 / 2) = some t ∧
    degStr2Dbl (some t) = .value x ∧ |x + 1 / 2| < 0.01 / 3600 ∧ t.head? = some '-' ∧ x ≤ 0 := by
  obtain ⟨t, x, hprint, hread, hclose, hsign, hneg, -⟩ :=
    degStr2Dbl_roundTrip.2 (-1 / 2) (by norm_num) (by norm_num)
  have hsouth : (-1 / 2 : ℚ) < 0 := by norm_num
  refine ⟨t, x, hprint, hread, ?_, hsign.mpr hsouth, hneg hsouth⟩
  rwa [show x + 1 / 2 = x - -1 / 2 by ring]

end Gtoaes
