import Gtoaes.Lib.CString
import Mathlib.Data.List.TakeWhile
import Mathlib.Tactic.Linarith
import Mathlib.Tactic.FieldSimp

/-!
Numbers with a fixed number of decimals: `%0w.df` of `printf`, which rounds to the
nearest, and `atof` of what it prints.
-/

namespace Gtoaes.Lib

/-! ### Rounding -/

theorem abs_roundEven_sub_le (x : ℚ) : |(roundEven x : ℚ) - x| ≤ 1 / 2 := by
  have hlow := Int.floor_le x
  have hhigh := Int.lt_floor_add_one x
  rw [abs_le]
  simp only [roundEven]
  split_ifs with hbelow habove
  · constructor <;> linarith
  · push_cast
    constructor <;> linarith
  · -- half way, both neighbours are as near
    constructor <;> linarith
  · push_cast
    constructor <;> linarith

theorem roundEven_le {x : ℚ} {n : ℤ} (h : x ≤ n) : roundEven x ≤ n := by
  have hnear := abs_le.mp (abs_roundEven_sub_le x)
  have hlt : (roundEven x : ℚ) < (n + 1 : ℤ) := by
    push_cast
    linarith [hnear.2]
  exact Int.lt_add_one_iff.mp (Int.cast_lt.mp hlt)

theorem le_roundEven {x : ℚ} {n : ℤ} (h : (n : ℚ) ≤ x) : n ≤ roundEven x := by
  have hnear := abs_le.mp (abs_roundEven_sub_le x)
  have hlt : ((n - 1 : ℤ) : ℚ) < roundEven x := by
    push_cast
    linarith [hnear.1]
  have hcast := Int.cast_lt.mp hlt
  omega

/-! ### Printing -/

/-- Digits on both sides of a point. -/
def decimalText (width d n : ℕ) : Text :=
  zeroPad width (n / 10 ^ d : ℕ) ++ '.' :: zeroPad d (n % 10 ^ d : ℕ)

/-- `%0w.df` -/
def fixedText (width d : ℕ) (x : ℚ) : Text :=
  let n := (roundEven (|x| * 10 ^ d)).toNat
  let lead : Text := if x < 0 then ['-'] else []
  let ds := Nat.toDigits 10 (n / 10 ^ d) ++ '.' :: zeroPad d (n % 10 ^ d : ℕ)
  lead ++ List.replicate (width - lead.length - ds.length) '0' ++ ds

theorem zeroPad_natCast (width n : ℕ) :
    zeroPad width n =
      List.replicate (width - (Nat.toDigits 10 n).length) '0' ++ Nat.toDigits 10 n := by
  have hnonneg : ¬ (n : ℤ) < 0 := by omega
  rw [zeroPad_eq, if_neg hnonneg, padded, if_neg hnonneg, Int.natAbs_natCast, List.nil_append]
  rfl

/-- A number that is not negative is printed as that many units of its last digit. -/
theorem fixedText_of_nonneg {x : ℚ} (hx : 0 ≤ x) {d : ℕ} (hd : 0 < d) (width : ℕ) :
    fixedText (width + 1 + d) d x = decimalText width d (roundEven (|x| * 10 ^ d)).toNat := by
  obtain ⟨n, hn⟩ : ∃ n, n = (roundEven (|x| * 10 ^ d)).toNat := ⟨_, rfl⟩
  have hfraction : (zeroPad d (n % 10 ^ d : ℕ)).length = d :=
    length_zeroPad (by positivity) (by exact_mod_cast Nat.mod_lt n (by positivity)) hd
  simp only [fixedText, decimalText, ← hn, if_neg hx.not_gt, List.nil_append, List.length_nil,
    List.length_append, List.length_cons, hfraction]
  rw [zeroPad_natCast width, List.append_assoc]
  congr 2
  omega

/-! ### Reading -/

/-- What `atof` makes of digits with a point among them; without a digit it is 0. -/
def atof (t : Text) : ℚ :=
  match mantissa 10 Char.isDigit decVal t with
  | some (m, frac, _) => m / 10 ^ frac
  | none => 0

theorem digitsValue_append (a b : Text) :
    digitsValue 10 decVal (a ++ b) =
      digitsValue 10 decVal a * 10 ^ b.length + digitsValue 10 decVal b := by
  rw [digitsValue_eq_ofDigitChars, digitsValue_eq_ofDigitChars, digitsValue_eq_ofDigitChars,
    Nat.ofDigitChars_append, Nat.ofDigitChars_eq_ofDigitChars_zero, Nat.mul_comm]

theorem digitsValue_zeroPad (width n : ℕ) : digitsValue 10 decVal (zeroPad width n) = n := by
  rw [zeroPad_natCast, digitsValue_zeros]

theorem isDigit_zeroPad (width n : ℕ) : ∀ c ∈ zeroPad width (n : ℤ), c.isDigit = true :=
  fun _ hc => isDigit_of_mem_zeroPad (Int.natCast_nonneg n) hc

theorem atof_zeroPad (width n : ℕ) : atof (zeroPad width n) = n := by
  have hdigits : (zeroPad width (n : ℤ) ++ []).takeWhile Char.isDigit = zeroPad width n :=
    takeWhile_append_stop (isDigit_zeroPad width n) (by simp)
  have hrest : (zeroPad width (n : ℤ)).dropWhile Char.isDigit = [] :=
    List.dropWhile_eq_nil_iff.mpr (isDigit_zeroPad width n)
  rw [List.append_nil] at hdigits
  simp [atof, mantissa, hdigits, hrest, zeroPad_ne_nil, digitsValue_zeroPad]

theorem atof_decimalText {d : ℕ} (hd : 0 < d) (width n : ℕ) :
    atof (decimalText width d n) = n / 10 ^ d := by
  have hwhole : (decimalText width d n).takeWhile Char.isDigit = zeroPad width (n / 10 ^ d : ℕ) :=
    takeWhile_append_stop (isDigit_zeroPad _ _) (by rintro c ⟨⟩; rfl)
  have hrest : (decimalText width d n).dropWhile Char.isDigit = '.' :: zeroPad d (n % 10 ^ d : ℕ) := by
    rw [decimalText, List.dropWhile_append_of_pos (isDigit_zeroPad _ _)]
    rfl
  have hdigits : (zeroPad d (n % 10 ^ d : ℕ)).takeWhile Char.isDigit = zeroPad d (n % 10 ^ d : ℕ) :=
    List.takeWhile_eq_self_iff.mpr (isDigit_zeroPad _ _)
  have hfraction : (zeroPad d (n % 10 ^ d : ℕ)).length = d :=
    length_zeroPad (by positivity) (by exact_mod_cast Nat.mod_lt n (by positivity)) hd
  have hvalue : n / 10 ^ d * 10 ^ d + n % 10 ^ d = n := by
    rw [Nat.mul_comm]
    exact Nat.div_add_mod n (10 ^ d)
  simp only [atof, mantissa, hwhole, hrest, hdigits, zeroPad_ne_nil, false_and, if_false,
    digitsValue_append, digitsValue_zeroPad, hfraction]
  rw [hvalue]

end Gtoaes.Lib
