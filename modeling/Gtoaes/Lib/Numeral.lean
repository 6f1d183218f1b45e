import Mathlib.Data.Rat.Defs
import Mathlib.Algebra.Order.Ring.Rat
import Gtoaes.Lib.Text

/-!
Numerals of the C++ library: `std::stoi`, `std::stod` and the doubles they
produce.

A double is a rational, one of the two infinities or not-a-number. Rounding is
left out: a numeral denotes the rational it writes. The limits at which the
conversions throw are those of 32-bit integers and of IEEE double precision.
-/

namespace Gtoaes.Lib

/-- What the numeric conversions throw. -/
inductive StdExn
  | invalidArgument
  | outOfRange
  deriving DecidableEq

inductive Double
  | fin (q : ℚ)
  | inf (neg : Bool)
  | nan
  deriving DecidableEq

namespace Double

instance : Inhabited Double := ⟨.fin 0⟩

def ofInt (n : ℤ) : Double := .fin n

def sub : Double → Double → Double
  | .fin p, .fin q => .fin (p - q)
  | .nan, _ => .nan
  | _, .nan => .nan
  | .inf a, .inf b => if a = b then .nan else .inf a
  | .inf a, .fin _ => .inf a
  | .fin _, .inf b => .inf !b

/-- The product with a positive constant. -/
def scale (k : ℚ) : Double → Double
  | .fin q => .fin (q * k)
  | .inf a => .inf a
  | .nan => .nan

/-- `fabs` -/
def abs : Double → Double
  | .fin q => .fin |q|
  | .inf _ => .inf false
  | .nan => .nan

/-- `x > y`; every comparison with not-a-number is false. -/
def gt : Double → Double → Bool
  | .fin p, .fin q => q < p
  | .inf a, .inf b => !a && b
  | .inf a, .fin _ => !a
  | .fin _, .inf b => b
  | .nan, _ => false
  | _, .nan => false

/-- `x != y`; not-a-number differs from itself. -/
def neq (x y : Double) : Bool := x != y || x == .nan

def IsFinite (x : Double) : Prop := ∃ q, x = .fin q

@[simp] theorem isFinite_fin (q : ℚ) : (Double.fin q).IsFinite := ⟨q, rfl⟩

@[simp] theorem not_isFinite_nan : ¬ Double.nan.IsFinite := by rintro ⟨_, h⟩; cases h

@[simp] theorem not_isFinite_inf (a : Bool) : ¬ (Double.inf a).IsFinite := by
  rintro ⟨_, h⟩; cases h

instance : DecidablePred IsFinite
  | .fin q => isTrue ⟨q, rfl⟩
  | .inf _ => isFalse (by simp)
  | .nan => isFalse (by simp)

end Double

/-- The value of a digit sequence in the given base. -/
def digitsValue (base : ℕ) (val : Char → ℕ) (ds : Text) : ℕ :=
  ds.foldl (fun n d => n * base + val d) 0

def decVal (c : Char) : ℕ := c.toNat - '0'.toNat

def isHex (c : Char) : Bool := c.isDigit || ('a' ≤ c.toLower && c.toLower ≤ 'f')

def hexVal (c : Char) : ℕ :=
  if c.isDigit then decVal c else c.toLower.toNat - 'a'.toNat + 10

/-- An optional sign: whether it is a minus, and what follows. -/
def sign : Text → Bool × Text
  | '-' :: t => (true, t)
  | '+' :: t => (false, t)
  | t => (false, t)

def signed (neg : Bool) (n : ℤ) : ℤ := if neg then -n else n

/-- `std::stoi`: leading white space, a sign, digits; what follows them is
ignored. -/
def stoi (t : Text) : Except StdExn ℤ :=
  let (neg, t) := sign (t.dropWhile isSpace)
  let ds := t.takeWhile Char.isDigit
  if ds = [] then .error .invalidArgument
  else
    let v := signed neg (digitsValue 10 decVal ds)
    if -2 ^ 31 ≤ v ∧ v < 2 ^ 31 then .ok v else .error .outOfRange

/-- `mant * base ^ exp` -/
def scaled (mant base : ℕ) (exp : ℤ) : ℚ :=
  if 0 ≤ exp then (mant * base ^ exp.toNat : ℕ) else mkRat mant (base ^ (-exp).toNat)

/-- `ERANGE`: the value rounds beyond the largest double, or it is subnormal
and no multiple of the smallest one. -/
def rangeError (q : ℚ) : Bool :=
  2 ^ 1024 - 2 ^ 970 ≤ |q| ||
    (|q| < mkRat (2 ^ 54 - 1) (2 ^ 1076) && (q * 2 ^ 1074).den ≠ 1)

/-- An exponent part introduced by `mark`; none where digits are missing. -/
def exponent (mark : Char) : Text → ℤ
  | c :: t =>
      if c.toLower = mark then
        let (neg, t) := sign t
        signed neg (digitsValue 10 decVal (t.takeWhile Char.isDigit))
      else 0
  | [] => 0

/-- Mantissa digits with an optional point: their value, how many stand behind
the point, and what follows; `none` where there is no digit at all. -/
def mantissa (base : ℕ) (isDig : Char → Bool) (val : Char → ℕ) (t : Text) :
    Option (ℕ × ℕ × Text) :=
  let ip := t.takeWhile isDig
  let rest := t.dropWhile isDig
  let (fp, rest) := match rest with
    | '.' :: r => (r.takeWhile isDig, r.dropWhile isDig)
    | r => ([], r)
  if ip = [] ∧ fp = [] then none
  else some (digitsValue base val (ip ++ fp), fp.length, rest)

def istarts (p t : Text) : Bool := iequals p (t.take p.length)

/-- The value, unless `strtod` reports `ERANGE` for it. -/
def inRange (q : ℚ) : Except StdExn ℚ :=
  if rangeError q then .error .outOfRange else .ok q

/-- The finite unsigned part of a `strtod` numeral. A `0x` without hexadecimal
digits is the decimal numeral `0`. -/
def magnitude (t : Text) : Except StdExn ℚ :=
  let hex := if istarts "0x".toList t then mantissa 16 isHex hexVal (t.drop 2) else none
  match hex with
  | some (m, frac, rest) => inRange (scaled m 2 (exponent 'p' rest - 4 * frac))
  | none =>
      match mantissa 10 Char.isDigit decVal t with
      | some (m, frac, rest) => inRange (scaled m 10 (exponent 'e' rest - frac))
      | none => .error .invalidArgument

/-- `std::stod`: leading white space, a sign, then a decimal or hexadecimal
numeral, `inf`, `infinity` or `nan`; what follows is ignored. -/
def stod (t : Text) : Except StdExn Double :=
  let (neg, t) := sign (t.dropWhile isSpace)
  if istarts "inf".toList t then .ok (.inf neg)
  else if istarts "nan".toList t then .ok .nan
  else (magnitude t).map fun q => .fin (if neg then -q else q)

/-- `%0wd` of a printed integer. -/
def zeroPad (width : ℕ) (n : ℤ) : Text :=
  let ds := Nat.toDigits 10 n.natAbs
  let lead : Text := if n < 0 then ['-'] else []
  lead ++ List.replicate (width - lead.length - ds.length) '0' ++ ds

/-- An integer narrowed to 32 bits. -/
def toInt32 (n : ℤ) : ℤ := n.bmod (2 ^ 32)

example : zeroPad 3 7 = "007".toList := by decide

example : stoi " -042x".toList = .ok (-42) := by decide

example : stod "-12.50e1".toList = .ok (.fin (-125)) := by decide +kernel

example : stod "1e400".toList = .error .outOfRange := by decide +kernel

end Gtoaes.Lib
