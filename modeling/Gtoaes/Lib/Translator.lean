import Mathlib.Data.List.TakeWhile
import Gtoaes.Lib.CString

/-!
Values as a text of their own: what is written of a number so that nothing is lost, and
what is read back of a text that is a number from one end to the other.
-/

namespace Gtoaes.Lib

/-- An `int`. -/
abbrev CInt := {n : ℤ // IsInt n}

/-- The decimal text of a double: its whole part and behind the point, if there is
anything left, its decimal places. A denominator of twos and fives has no more prime
factors than binary digits, and so many places are enough. -/
def Double.decimalText : Double → Text
  | .fin q =>
      let places := q.den.log2
      (if q < 0 then ['-'] else []) ++ Nat.toDigits 10 ⌊|q|⌋.toNat ++
        fraction (zeroPad places ⌊(|q| - ⌊|q|⌋) * 10 ^ places⌋)
  | .inf neg => (if neg then ['-'] else []) ++ "inf".toList
  | .nan => "nan".toList

/-- An `int` out of a stream that has nothing else: white space around it is skipped. -/
def wholeInt (t : Text) : Option CInt :=
  let (neg, t) := sign (t.dropWhile isSpace)
  let ds := t.takeWhile Char.isDigit
  let v := signed neg (digitsValue 10 decVal ds)
  if h : ds ≠ [] ∧ (t.dropWhile Char.isDigit).dropWhile isSpace = [] ∧ IsInt v then
    some ⟨v, h.2.2⟩
  else none

example : (Double.fin (mkRat (-11757454) 100000)).decimalText = "-117.57454".toList := by
  decide +kernel

example : (wholeInt " -042 ".toList).map Subtype.val = some (-42) ∧
    wholeInt "117.57454".toList = none := by decide

theorem wholeInt_intText (n : CInt) : wholeInt (intText n.1) = some n := by
  have hsign := sign_zeroPad 0 n.1 []
  have hdigits : (padded 0 n.1 ++ []).takeWhile Char.isDigit = padded 0 n.1 :=
    takeWhile_padded 0 n.1 (by simp)
  have hrest : (padded 0 n.1).dropWhile Char.isDigit = [] :=
    List.dropWhile_eq_nil_iff.mpr fun _ hc => isDigit_of_mem_padded hc
  rw [List.append_nil] at hdigits
  simp only [List.append_nil] at hsign
  simp only [wholeInt, intText, hsign, hdigits, hrest, signed_padded]
  rw [dif_pos ⟨padded_ne_nil 0 n.1, rfl, n.2⟩]

/-- A whole number has no places to be written. -/
theorem decimalText_ofInt (n : ℤ) : (Double.ofInt n).decimalText = intText n := by
  have hsign : ((n : ℚ) < 0) ↔ n < 0 := Int.cast_lt_zero
  have hwhole : ⌊|(n : ℚ)|⌋ = |n| := by
    rw [← Int.cast_abs, Int.floor_intCast]
  have hplaces : (|(n : ℚ)| - ((|n| : ℤ) : ℚ)) * 10 ^ (n : ℚ).den.log2 = 0 := by
    rw [Int.cast_abs, sub_self, zero_mul]
  have hnone : fraction (zeroPad (n : ℚ).den.log2 0) = [] := by
    rw [Rat.den_intCast]
    decide
  have hdigits : |n|.toNat = n.natAbs := by
    rw [Int.abs_eq_natAbs, Int.toNat_natCast]
  have htext : intText n = (if n < 0 then ['-'] else []) ++ Nat.toDigits 10 n.natAbs := by
    rw [intText, zeroPad, Nat.zero_sub, Nat.zero_sub, List.replicate_zero, List.append_nil]
  simp only [Double.ofInt, Double.decimalText, hwhole, hsign, hplaces, Int.floor_zero, hnone,
    hdigits, List.append_nil, htext]

end Gtoaes.Lib
