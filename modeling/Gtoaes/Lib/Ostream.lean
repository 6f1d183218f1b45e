import Mathlib.Data.Int.Log
import Mathlib.Data.Rat.Floor
import Gtoaes.Lib.Numeral

/-!
What `std::ostream` writes of a number. Of a double, at its default precision,
that is the number rounded to six significant digits. The sign of a zero and of
a not-a-number is left out.
-/

namespace Gtoaes.Lib

/-- The nearest integer, and of two as near the even one. -/
def roundEven (q : ℚ) : ℤ :=
  let low := ⌊q⌋
  if q - low < 1 / 2 then low
  else if 1 / 2 < q - low then low + 1
  else if low % 2 = 0 then low else low + 1

/-- The unit of the sixth significant digit. -/
def sixthUnit (q : ℚ) : ℚ := 10 ^ (Int.log 10 |q| - 5)

def sixDigits (q : ℚ) : ℚ := if q = 0 then 0 else roundEven (q / sixthUnit q) * sixthUnit q

/-- The value of the text that `<<` writes. -/
def Double.printed : Double → Double
  | .fin q => .fin (sixDigits q)
  | x => x

example : (Double.fin (mkRat 123456789 1000000)).printed = .fin (mkRat 123457 1000) := by
  decide +kernel

/-- `<<` of an integer. -/
def intText (n : ℤ) : Text := zeroPad 0 n

def dropZeros (ds : Text) : Text := (ds.reverse.dropWhile (· == '0')).reverse

/-- Digits behind the point; no point where only zeros are left. -/
def fraction (ds : Text) : Text := if dropZeros ds = [] then [] else '.' :: dropZeros ds

/-- `%g` of a positive number, by its decimal exponent and its six digits. -/
def generalText (e : ℤ) (ds : Text) : Text :=
  if e < -4 ∨ 6 ≤ e then
    ds.take 1 ++ fraction (ds.drop 1) ++ 'e' :: (if e < 0 then '-' else '+') :: zeroPad 2 |e|
  else if e < 0 then '0' :: fraction (List.replicate (-e - 1).toNat '0' ++ ds)
  else ds.take (e.toNat + 1) ++ fraction (ds.drop (e.toNat + 1))

/-- The text of a double that has at most six significant digits. -/
def Double.text : Double → Text
  | .fin q =>
      if q = 0 then ['0']
      else (if q < 0 then ['-'] else []) ++
        generalText (Int.log 10 |q|) (Nat.toDigits 10 ⌊|q| / sixthUnit q⌋.toNat)
  | .inf neg => (if neg then ['-'] else []) ++ "inf".toList
  | .nan => "nan".toList

example : (Double.fin (mkRat (-401) 20)).text = "-20.05".toList := by decide +kernel

example : (Double.fin (mkRat 1 80000)).text = "1.25e-05".toList := by decide +kernel

end Gtoaes.Lib
