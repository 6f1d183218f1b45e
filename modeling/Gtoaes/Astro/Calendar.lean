import Mathlib.Algebra.Order.Floor.Defs
import Mathlib.Algebra.Order.Field.Basic
import Mathlib.Data.Rat.Cast.OfScientific
import Mathlib.Data.Rat.Floor

/-!
Dates and day counts of `ATimeSpace.cpp`, with the constants of `ADefine.h`.

`double` is an ordered field in which every number has a floor, and is exact;
`int` is unbounded. Where `DeltaAT` reads in front of its tables, it reads memory
that is not theirs.
-/

namespace Gtoaes

variable {K : Type} [Field K] [LinearOrder K] [FloorRing K]

/-! ### `ADefine.h` -/

def au2Pi : K := 6.283185307179586476925287

def auR2D : K := 57.29577951308232087679815

def auD2R : K := 0.01745329251994329576923691

def auAs2R : K := 0.000004848136811095359935899141

def auMjd0 : K := 2400000.5

def auMjd2K : K := 51544.5

def auDaysec : K := 86400

def auEps : K := 0.000001

/-- `cycmod(x, T)` -/
def cycmod (x period : K) : K := x - ⌊x / period⌋ * period

/-- The conversion of a `double` to an `int`, towards zero. -/
def toInt (x : K) : ℤ := if 0 ≤ x then ⌊x⌋ else ⌈x⌉

/-- `fmod(x, 1.0)` -/
def fmodOne (x : K) : K := x - toInt x

/-! ### Dates -/

structure CalDate (K : Type) where
  iy : ℤ
  im : ℤ
  id : ℤ
  fd : K
  deriving DecidableEq

/-- `Mjd2Cal` -/
def mjd2Cal (mjd : K) : CalDate K :=
  let jdn := toInt (mjd + auMjd0 + 0.5)
  let a :=
    if jdn ≥ 2299161 then
      let t := toInt (((jdn : K) - 1867216.25) / 36524.25)
      jdn + 1 + t - t.tdiv 4
    else jdn
  let b := a + 1524
  let c := toInt (((b : K) - 122.1) / 365.25)
  let d := toInt (365.25 * (c : K))
  let e := toInt (((b - d : ℤ) : K) / 30.6000001)
  let im := if e < 14 then e - 1 else e - 13
  { id := b - d - toInt (30.6000001 * (e : K))
    im := im
    iy := if im > 2 then c - 4716 else c - 4715
    fd := fmodOne mjd }

/-- `ModifiedJulianDay(iy, im, id, fd)` -/
def CalDate.modifiedJulianDay (x : CalDate K) : K :=
  let my := (x.im - 14).tdiv 12
  let iypmy := x.iy + my
  (((1461 * (iypmy + 4800)).tdiv 4 + (367 * (x.im - 2 - 12 * my)).tdiv 12
    - (3 * ((iypmy + 4900).tdiv 100)).tdiv 4 + x.id - 2432076 : ℤ) : K) + x.fd

/-! ### Leap seconds -/

/-- `drift`: reference dates and rates before the leap seconds. -/
def drift : List (K × K) :=
  [(37300.0, 0.0012960), (37300.0, 0.0012960), (37300.0, 0.0012960), (37665.0, 0.0011232),
    (37665.0, 0.0011232), (38761.0, 0.0012960), (38761.0, 0.0012960), (38761.0, 0.0012960),
    (38761.0, 0.0012960), (38761.0, 0.0012960), (38761.0, 0.0012960), (38761.0, 0.0012960),
    (39126.0, 0.0025920), (39126.0, 0.0025920)]

/-- `changes`: years, months and the differences from then on. -/
def changes : List (ℤ × ℤ × K) :=
  [(1960, 1, 1.4178180), (1961, 1, 1.4228180), (1961, 8, 1.3728180), (1962, 1, 1.8458580),
    (1963, 11, 1.9458580), (1964, 1, 3.2401300), (1964, 4, 3.3401300), (1964, 9, 3.4401300),
    (1965, 1, 3.5401300), (1965, 3, 3.6401300), (1965, 7, 3.7401300), (1965, 9, 3.8401300),
    (1966, 1, 4.3131700), (1968, 2, 4.2131700), (1972, 1, 10.0), (1972, 7, 11.0),
    (1973, 1, 12.0), (1974, 1, 13.0), (1975, 1, 14.0), (1976, 1, 15.0), (1977, 1, 16.0),
    (1978, 1, 17.0), (1979, 1, 18.0), (1980, 1, 19.0), (1981, 7, 20.0), (1982, 7, 21.0),
    (1983, 7, 22.0), (1985, 7, 23.0), (1988, 1, 24.0), (1990, 1, 25.0), (1991, 1, 26.0),
    (1992, 7, 27.0), (1993, 7, 28.0), (1994, 7, 29.0), (1996, 1, 30.0), (1997, 7, 31.0),
    (1999, 1, 32.0), (2006, 1, 33.0), (2009, 1, 34.0), (2012, 7, 35.0), (2015, 7, 36.0),
    (2017, 1, 37.0)]

/-- The search of `DeltaAT` for the last change not after the month `m`, from the
`i`-th entry down: -1 where there is none. -/
def changeIndexFrom (cs : List (ℤ × ℤ × K)) (m : ℤ) : ℕ → ℤ
  | 0 => -1
  | i + 1 =>
      match cs[i]? with
      | some (iyear, month, _) => if m ≥ 12 * iyear + month then i else changeIndexFrom cs m i
      | none => changeIndexFrom cs m i

/-- What stands in memory in front of the two tables. -/
structure BeforeTables (K : Type) where
  delat : K
  drift : K × K

/-- `DeltaAT(iy, im, id, fd)` -/
def CalDate.deltaAT (mem : BeforeTables K) (x : CalDate K) : K :=
  let i := changeIndexFrom (changes : List (ℤ × ℤ × K)) (12 * x.iy + x.im) (changes (K := K)).length
  let da := if i < 0 then mem.delat else ((changes (K := K))[i.toNat]?.map (·.2.2)).getD mem.delat
  if i < (drift (K := K)).length then
    let d := if i < 0 then mem.drift else (drift[i.toNat]?).getD mem.drift
    da + (x.modifiedJulianDay + x.fd - d.1) * d.2
  else da

/-! ### What `SetUTC` accepts -/

def mdays : List ℤ := [0, 31, 28, 31, 30, 31, 30, 31, 31, 30, 31, 30, 31]

/-- The 29th of February. -/
def leapDay (iy im : ℤ) : ℤ :=
  if im = 2 ∧ iy.tmod 4 = 0 ∧ (iy.tmod 100 ≠ 0 ∨ iy.tmod 400 = 0) then 1 else 0

/-- The result of `SetUTC`, which takes the time where it is 0. -/
def CalDate.checkUTC (x : CalDate K) : ℤ :=
  if x.iy < -4799 then -1
  else if x.im < 1 ∨ x.im > 12 then -2
  else if x.id < 1 ∨ x.id > mdays.getD x.im.toNat 0 + leapDay x.iy x.im then -3
  else if x.fd < 0 ∨ x.fd ≥ 1 then -4
  else 0

end Gtoaes
