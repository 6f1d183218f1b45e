import Gtoaes.Astro.Calendar
import Gtoaes.Lib.Loop

/-!
The methods of `ATimeSpace.cpp` that are given their instant, and the series both
copies of each quantity share. The trigonometric functions and the square root
are any functions.
-/

namespace Gtoaes

/-- The functions of `math.h` that are not computed here. -/
structure Trig (K : Type) where
  sin : K → K
  cos : K → K
  tan : K → K
  asin : K → K
  sqrt : K → K
  atan2 : K → K → K

/-! ### Nutation -/

/-- A row of the luni-solar series: the coefficients of the angles, and those of the
terms in units of 0.1 microarcsecond. -/
structure LuniSolar where
  nl : ℤ
  nlp : ℤ
  nf : ℤ
  nd : ℤ
  nom : ℤ
  ps : ℤ
  pst : ℤ
  pc : ℤ
  ec : ℤ
  ect : ℤ
  es : ℤ
  deriving DecidableEq

/-- The table `x` of `Nutation(t, nl, no)`. -/
def nutationTerms : List LuniSolar :=
  [⟨0, 0, 0, 0, 1, -172064161, -174666, 33386, 92052331, 9086, 15377⟩,
    ⟨0, 0, 2, -2, 2, -13170906, -1675, -13696, 5730336, -3015, -4587⟩,
    ⟨0, 0, 2, 0, 2, -2276413, -234, 2796, 978459, -485, 1374⟩,
    ⟨0, 0, 0, 0, 2, 2074554, 207, -698, -897492, 470, -291⟩,
    ⟨0, 1, 0, 0, 0, 1475877, -3633, 11817, 73871, -184, -1924⟩,
    ⟨0, 1, 2, -2, 2, -516821, 1226, -524, 224386, -677, -174⟩,
    ⟨1, 0, 0, 0, 0, 711159, 73, -872, -6750, 0, 358⟩,
    ⟨0, 0, 2, 0, 1, -387298, -367, 380, 200728, 18, 318⟩,
    ⟨1, 0, 2, 0, 2, -301461, -36, 816, 129025, -63, 367⟩,
    ⟨0, -1, 2, -2, 2, 215829, -494, 111, -95929, 299, 132⟩,
    ⟨0, 0, 2, -2, 1, 128227, 137, 181, -68982, -9, 39⟩,
    ⟨-1, 0, 2, 0, 2, 123457, 11, 19, -53311, 32, -4⟩,
    ⟨-1, 0, 0, 2, 0, 156994, 10, -168, -1235, 0, 82⟩,
    ⟨1, 0, 0, 0, 1, 63110, 63, 27, -33228, 0, -9⟩,
    ⟨-1, 0, 0, 0, 1, -57976, -63, -189, 31429, 0, -75⟩,
    ⟨-1, 0, 2, 2, 2, -59641, -11, 149, 25543, -11, 66⟩,
    ⟨1, 0, 2, 0, 1, -51613, -42, 129, 26366, 0, 78⟩,
    ⟨-2, 0, 2, 0, 1, 45893, 50, 31, -24236, -10, 20⟩,
    ⟨0, 0, 0, 2, 0, 63384, 11, -150, -1220, 0, 29⟩,
    ⟨0, 0, 2, 2, 2, -38571, -1, 158, 16452, -11, 68⟩,
    ⟨0, -2, 2, -2, 2, 32481, 0, 0, -13870, 0, 0⟩, ⟨-2, 0, 0, 2, 0, -47722, 0, -18, 477, 0, -25⟩,
    ⟨2, 0, 2, 0, 2, -31046, -1, 131, 13238, -11, 59⟩,
    ⟨1, 0, 2, -2, 2, 28593, 0, -1, -12338, 10, -3⟩,
    ⟨-1, 0, 2, 0, 1, 20441, 21, 10, -10758, 0, -3⟩, ⟨2, 0, 0, 0, 0, 29243, 0, -74, -609, 0, 13⟩,
    ⟨0, 0, 2, 0, 0, 25887, 0, -66, -550, 0, 11⟩, ⟨0, 1, 0, 0, 1, -14053, -25, 79, 8551, -2, -45⟩,
    ⟨-1, 0, 0, 2, 1, 15164, 10, 11, -8001, 0, -1⟩,
    ⟨0, 2, 2, -2, 2, -15794, 72, -16, 6850, -42, -5⟩, ⟨0, 0, -2, 2, 0, 21783, 0, 13, -167, 0, 13⟩,
    ⟨1, 0, 0, -2, 1, -12873, -10, -37, 6953, 0, -14⟩,
    ⟨0, -1, 0, 0, 1, -12654, 11, 63, 6415, 0, 26⟩, ⟨-1, 0, 2, 2, 1, -10204, 0, 25, 5222, 0, 15⟩,
    ⟨0, 2, 0, 0, 0, 16707, -85, -10, 168, -1, 10⟩, ⟨1, 0, 2, 2, 2, -7691, 0, 44, 3268, 0, 19⟩,
    ⟨-2, 0, 2, 0, 0, -11024, 0, -14, 104, 0, 2⟩, ⟨0, 1, 2, 0, 2, 7566, -21, -11, -3250, 0, -5⟩,
    ⟨0, 0, 2, 2, 1, -6637, -11, 25, 3353, 0, 14⟩, ⟨0, -1, 2, 0, 2, -7141, 21, 8, 3070, 0, 4⟩,
    ⟨0, 0, 0, 2, 1, -6302, -11, 2, 3272, 0, 4⟩, ⟨1, 0, 2, -2, 1, 5800, 10, 2, -3045, 0, -1⟩,
    ⟨2, 0, 2, -2, 2, 6443, 0, -7, -2768, 0, -4⟩, ⟨-2, 0, 0, 2, 1, -5774, -11, -15, 3041, 0, -5⟩,
    ⟨2, 0, 2, 0, 1, -5350, 0, 21, 2695, 0, 12⟩, ⟨0, -1, 2, -2, 1, -4752, -11, -3, 2719, 0, -3⟩,
    ⟨0, 0, 0, -2, 1, -4940, -11, -21, 2720, 0, -9⟩, ⟨-1, -1, 0, 2, 0, 7350, 0, -8, -51, 0, 4⟩,
    ⟨2, 0, 0, -2, 1, 4065, 0, 6, -2206, 0, 1⟩, ⟨1, 0, 0, 2, 0, 6579, 0, -24, -199, 0, 2⟩,
    ⟨0, 1, 2, -2, 1, 3579, 0, 5, -1900, 0, 1⟩, ⟨1, -1, 0, 0, 0, 4725, 0, -6, -41, 0, 3⟩,
    ⟨-2, 0, 2, 0, 2, -3075, 0, -2, 1313, 0, -1⟩, ⟨3, 0, 2, 0, 2, -2904, 0, 15, 1233, 0, 7⟩,
    ⟨0, -1, 0, 2, 0, 4348, 0, -10, -81, 0, 2⟩, ⟨1, -1, 2, 0, 2, -2878, 0, 8, 1232, 0, 4⟩,
    ⟨0, 0, 0, 1, 0, -4230, 0, 5, -20, 0, -2⟩, ⟨-1, -1, 2, 2, 2, -2819, 0, 7, 1207, 0, 3⟩,
    ⟨-1, 0, 2, 0, 0, -4056, 0, 5, 40, 0, -2⟩, ⟨0, -1, 2, 2, 2, -2647, 0, 11, 1129, 0, 5⟩,
    ⟨-2, 0, 0, 0, 1, -2294, 0, -10, 1266, 0, -4⟩, ⟨1, 1, 2, 0, 2, 2481, 0, -7, -1062, 0, -3⟩,
    ⟨2, 0, 0, 0, 1, 2179, 0, -2, -1129, 0, -2⟩, ⟨-1, 1, 0, 1, 0, 3276, 0, 1, -9, 0, 0⟩,
    ⟨1, 1, 0, 0, 0, -3389, 0, 5, 35, 0, -2⟩, ⟨1, 0, 2, 0, 0, 3339, 0, -13, -107, 0, 1⟩,
    ⟨-1, 0, 2, -2, 1, -1987, 0, -6, 1073, 0, -2⟩, ⟨1, 0, 0, 0, 2, -1981, 0, 0, 854, 0, 0⟩,
    ⟨-1, 0, 0, 1, 0, 4026, 0, -353, -553, 0, -139⟩, ⟨0, 0, 2, 1, 2, 1660, 0, -5, -710, 0, -2⟩,
    ⟨-1, 0, 2, 4, 2, -1521, 0, 9, 647, 0, 4⟩, ⟨-1, 1, 0, 1, 1, 1314, 0, 0, -700, 0, 0⟩,
    ⟨0, -2, 2, -2, 1, -1283, 0, 0, 672, 0, 0⟩, ⟨1, 0, 2, 2, 1, -1331, 0, 8, 663, 0, 4⟩,
    ⟨-2, 0, 2, 2, 2, 1383, 0, -2, -594, 0, -2⟩, ⟨-1, 0, 0, 0, 2, 1405, 0, 4, -610, 0, 2⟩,
    ⟨1, 1, 2, -2, 2, 1290, 0, 0, -556, 0, 0⟩]

/-- The table `x` of `Nutation(nl, no)`. -/
def storedNutationTerms : List LuniSolar :=
  [⟨0, 0, 0, 0, 1, -172064161, -174666, 33386, 92052331, 9086, 15377⟩,
    ⟨0, 0, 2, -2, 2, -13170906, -1675, -13696, 5730336, -3015, -4587⟩,
    ⟨0, 0, 2, 0, 2, -2276413, -234, 2796, 978459, -485, 1374⟩,
    ⟨0, 0, 0, 0, 2, 2074554, 207, -698, -897492, 470, -291⟩,
    ⟨0, 1, 0, 0, 0, 1475877, -3633, 11817, 73871, -184, -1924⟩,
    ⟨0, 1, 2, -2, 2, -516821, 1226, -524, 224386, -677, -174⟩,
    ⟨1, 0, 0, 0, 0, 711159, 73, -872, -6750, 0, 358⟩,
    ⟨0, 0, 2, 0, 1, -387298, -367, 380, 200728, 18, 318⟩,
    ⟨1, 0, 2, 0, 2, -301461, -36, 816, 129025, -63, 367⟩,
    ⟨0, -1, 2, -2, 2, 215829, -494, 111, -95929, 299, 132⟩,
    ⟨0, 0, 2, -2, 1, 128227, 137, 181, -68982, -9, 39⟩,
    ⟨-1, 0, 2, 0, 2, 123457, 11, 19, -53311, 32, -4⟩,
    ⟨-1, 0, 0, 2, 0, 156994, 10, -168, -1235, 0, 82⟩,
    ⟨1, 0, 0, 0, 1, 63110, 63, 27, -33228, 0, -9⟩,
    ⟨-1, 0, 0, 0, 1, -57976, -63, -189, 31429, 0, -75⟩,
    ⟨-1, 0, 2, 2, 2, -59641, -11, 149, 25543, -11, 66⟩,
    ⟨1, 0, 2, 0, 1, -51613, -42, 129, 26366, 0, 78⟩,
    ⟨-2, 0, 2, 0, 1, 45893, 50, 31, -24236, -10, 20⟩,
    ⟨0, 0, 0, 2, 0, 63384, 11, -150, -1220, 0, 29⟩,
    ⟨0, 0, 2, 2, 2, -38571, -1, 158, 16452, -11, 68⟩,
    ⟨0, -2, 2, -2, 2, 32481, 0, 0, -13870, 0, 0⟩, ⟨-2, 0, 0, 2, 0, -47722, 0, -18, 477, 0, -25⟩,
    ⟨2, 0, 2, 0, 2, -31046, -1, 131, 13238, -11, 59⟩,
    ⟨1, 0, 2, -2, 2, 28593, 0, -1, -12338, 10, -3⟩,
    ⟨-1, 0, 2, 0, 1, 20441, 21, 10, -10758, 0, -3⟩, ⟨2, 0, 0, 0, 0, 29243, 0, -74, -609, 0, 13⟩,
    ⟨0, 0, 2, 0, 0, 25887, 0, -66, -550, 0, 11⟩, ⟨0, 1, 0, 0, 1, -14053, -25, 79, 8551, -2, -45⟩,
    ⟨-1, 0, 0, 2, 1, 15164, 10, 11, -8001, 0, -1⟩,
    ⟨0, 2, 2, -2, 2, -15794, 72, -16, 6850, -42, -5⟩, ⟨0, 0, -2, 2, 0, 21783, 0, 13, -167, 0, 13⟩,
    ⟨1, 0, 0, -2, 1, -12873, -10, -37, 6953, 0, -14⟩,
    ⟨0, -1, 0, 0, 1, -12654, 11, 63, 6415, 0, 26⟩, ⟨-1, 0, 2, 2, 1, -10204, 0, 25, 5222, 0, 15⟩,
    ⟨0, 2, 0, 0, 0, 16707, -85, -10, 168, -1, 10⟩, ⟨1, 0, 2, 2, 2, -7691, 0, 44, 3268, 0, 19⟩,
    ⟨-2, 0, 2, 0, 0, -11024, 0, -14, 104, 0, 2⟩, ⟨0, 1, 2, 0, 2, 7566, -21, -11, -3250, 0, -5⟩,
    ⟨0, 0, 2, 2, 1, -6637, -11, 25, 3353, 0, 14⟩, ⟨0, -1, 2, 0, 2, -7141, 21, 8, 3070, 0, 4⟩,
    ⟨0, 0, 0, 2, 1, -6302, -11, 2, 3272, 0, 4⟩, ⟨1, 0, 2, -2, 1, 5800, 10, 2, -3045, 0, -1⟩,
    ⟨2, 0, 2, -2, 2, 6443, 0, -7, -2768, 0, -4⟩, ⟨-2, 0, 0, 2, 1, -5774, -11, -15, 3041, 0, -5⟩,
    ⟨2, 0, 2, 0, 1, -5350, 0, 21, 2695, 0, 12⟩, ⟨0, -1, 2, -2, 1, -4752, -11, -3, 2719, 0, -3⟩,
    ⟨0, 0, 0, -2, 1, -4940, -11, -21, 2720, 0, -9⟩, ⟨-1, -1, 0, 2, 0, 7350, 0, -8, -51, 0, 4⟩,
    ⟨2, 0, 0, -2, 1, 4065, 0, 6, -2206, 0, 1⟩, ⟨1, 0, 0, 2, 0, 6579, 0, -24, -199, 0, 2⟩,
    ⟨0, 1, 2, -2, 1, 3579, 0, 5, -1900, 0, 1⟩, ⟨1, -1, 0, 0, 0, 4725, 0, -6, -41, 0, 3⟩,
    ⟨-2, 0, 2, 0, 2, -3075, 0, -2, 1313, 0, -1⟩, ⟨3, 0, 2, 0, 2, -2904, 0, 15, 1233, 0, 7⟩,
    ⟨0, -1, 0, 2, 0, 4348, 0, -10, -81, 0, 2⟩, ⟨1, -1, 2, 0, 2, -2878, 0, 8, 1232, 0, 4⟩,
    ⟨0, 0, 0, 1, 0, -4230, 0, 5, -20, 0, -2⟩, ⟨-1, -1, 2, 2, 2, -2819, 0, 7, 1207, 0, 3⟩,
    ⟨-1, 0, 2, 0, 0, -4056, 0, 5, 40, 0, -2⟩, ⟨0, -1, 2, 2, 2, -2647, 0, 11, 1129, 0, 5⟩,
    ⟨-2, 0, 0, 0, 1, -2294, 0, -10, 1266, 0, -4⟩, ⟨1, 1, 2, 0, 2, 2481, 0, -7, -1062, 0, -3⟩,
    ⟨2, 0, 0, 0, 1, 2179, 0, -2, -1129, 0, -2⟩, ⟨-1, 1, 0, 1, 0, 3276, 0, 1, -9, 0, 0⟩,
    ⟨1, 1, 0, 0, 0, -3389, 0, 5, 35, 0, -2⟩, ⟨1, 0, 2, 0, 0, 3339, 0, -13, -107, 0, 1⟩,
    ⟨-1, 0, 2, -2, 1, -1987, 0, -6, 1073, 0, -2⟩, ⟨1, 0, 0, 0, 2, -1981, 0, 0, 854, 0, 0⟩,
    ⟨-1, 0, 0, 1, 0, 4026, 0, -353, -553, 0, -139⟩, ⟨0, 0, 2, 1, 2, 1660, 0, -5, -710, 0, -2⟩,
    ⟨-1, 0, 2, 4, 2, -1521, 0, 9, 647, 0, 4⟩, ⟨-1, 1, 0, 1, 1, 1314, 0, 0, -700, 0, 0⟩,
    ⟨0, -2, 2, -2, 1, -1283, 0, 0, 672, 0, 0⟩, ⟨1, 0, 2, 2, 1, -1331, 0, 8, 663, 0, 4⟩,
    ⟨-2, 0, 2, 2, 2, 1383, 0, -2, -594, 0, -2⟩, ⟨-1, 0, 0, 0, 2, 1405, 0, 4, -610, 0, 2⟩,
    ⟨1, 1, 2, -2, 2, 1290, 0, 0, -556, 0, 0⟩]

section

variable {K : Type} [Field K] [LinearOrder K] [FloorRing K] (trig : Trig K)

/-- The five angles the series is over. -/
structure Delaunay (K : Type) where
  el : K
  elp : K
  f : K
  d : K
  om : K

def LuniSolar.arg (x : LuniSolar) (a : Delaunay K) : K :=
  (x.nl : K) * a.el + (x.nlp : K) * a.elp + (x.nf : K) * a.f + (x.nd : K) * a.d +
    (x.nom : K) * a.om

/-- The summation of the series, smallest terms first. -/
def nutationSums (x : List LuniSolar) (t : K) (a : Delaunay K) : K × K :=
  x.foldr (fun x s =>
    let sarg := trig.sin (x.arg a)
    let carg := trig.cos (x.arg a)
    (s.1 + ((x.ps + x.pst * t) * sarg + x.pc * carg),
      s.2 + ((x.ec + x.ect * t) * carg + x.es * sarg))) (0, 0)

/-- Nutation in longitude and in obliquity, in radians. -/
def nutationSeries (x : List LuniSolar) (t : K) (a : Delaunay K) : K × K :=
  let u2r := auAs2R * 1e-7
  ((nutationSums trig x t a).1 * u2r + -0.135e-6 * auAs2R,
    (nutationSums trig x t a).2 * u2r + 0.388e-6 * auAs2R)

/-! ### `AMath` -/

/-- `Sphere2Cart` -/
def sphere2Cart (r a d : K) : K × K × K :=
  let cd := trig.cos d
  (r * cd * trig.cos a, r * cd * trig.sin a, r * trig.sin d)

/-- `Cart2Sphere` -/
def cart2Sphere (x y z : K) : K × K × K :=
  let r := trig.sqrt (x * x + y * y + z * z)
  let a :=
    if |y| < auEps ∧ |x| < auEps then 0
    else if trig.atan2 y x < 0 then trig.atan2 y x + au2Pi
    else trig.atan2 y x
  (r, a, trig.atan2 z (trig.sqrt (x * x + y * y)))

/-! ### Times -/

namespace AtInstant

def julianCentury (mjd : K) : K := (mjd - auMjd2K) / 36525

def epoch (mjd : K) : K := 2000.0 + (mjd - auMjd2K) / 365.25

/-- The polynomial of both copies of `GreenwichMeanSiderealTime`. -/
def gmstSeries (t : K) : K :=
  280.46061837 + t * (13185000.77005374225 + t * (3.87933e-4 - t / 38710000.0))

/-- What both copies return. -/
def gmstAngle (t : K) : K := cycmod (gmstSeries t) 360 * auD2R

def greenwichMeanSiderealTime (mjd : K) : K := gmstAngle (julianCentury mjd)

def localMeanSiderealTime (mjd lgt : K) : K :=
  cycmod (greenwichMeanSiderealTime mjd + lgt) au2Pi

/-! ### Elements of the sun and the moon -/

def meanAnomalySun (t : K) : K :=
  let ma := (129596581.0481 + (-0.5532 + (0.000136 - 0.00001149 * t) * t) * t) * t / 3600.0 +
    357.52910918
  cycmod ma 360 * auD2R

def meanAnomalyMoon (t : K) : K :=
  let ma := (1717915923.2178 + (31.8792 + (0.051635 - 0.0002447 * t) * t) * t) * t / 3600.0 +
    134.96340251
  cycmod ma 360 * auD2R

def meanElongationMoonSun (t : K) : K :=
  let me := (1602961601.209 + (-6.3706 + (6.593e-3 - 3.169e-5 * t) * t) * t) * t / 3600.0 +
    297.85019547
  cycmod me 360 * auD2R

def meanLongAscNodeMoon (t : K) : K :=
  let ml := (-6962890.5432 + (7.4722 + (7.702e-3 - 5.939e-5 * t) * t) * t) * t / 3600.0 +
    125.04455501
  cycmod ml 360 * auD2R

def relLongMoon (t : K) : K :=
  let rl := (1739527262.8478 + (-12.7512 + (-1.037e-3 + 4.17e-6 * t) * t) * t) * t / 3600.0 +
    93.27209062
  cycmod rl 360 * auD2R

def meanLongSun (t : K) : K :=
  let mls := 280.46646 + (36000.76983 + 3.032e-4 * t) * t
  cycmod mls 360 * auD2R

def eccentricityEarth (t : K) : K := 0.016708634 - (4.2037e-5 + 1.267e-7 * t) * t

def perihelionLongEarth (t : K) : K :=
  let pl := 102.93735 + (1.71946 + 4.6e-4 * t) * t
  pl * auD2R

/-- The equation of the centre at mean anomaly `ma`, as both copies have it. -/
def centerSeries (t ma : K) : K :=
  (1.914602 - (4.817e-3 + 1.4e-5 * t) * t) * trig.sin ma +
    (0.019993 - 1.01e-4 * t) * trig.sin (2 * ma) + 2.89e-4 * trig.sin (3 * ma)

def centerSun (t : K) : K := centerSeries trig t (meanAnomalySun t) * auD2R

def trueLongSun (t : K) : K := meanLongSun t + centerSun trig t

/-! ### Obliquity and the true sidereal times -/

def meanObliquity (t : K) : K :=
  let mo := 84381.406 + (-46.836769 + (-1.831e-4 + (2.0034 + (-5.76e-7 - 4.34e-8 * t) * t) * t)
    * t) * t
  mo * auAs2R

def delaunay (t : K) : Delaunay K where
  el := meanAnomalyMoon t
  elp := meanAnomalySun t
  f := relLongMoon t
  d := meanElongationMoonSun t
  om := meanLongAscNodeMoon t

/-- `Nutation(t, nl, no)` -/
def nutation (t : K) : K × K := nutationSeries trig nutationTerms t (delaunay t)

def trueObliquity (t : K) : K := meanObliquity t + (nutation trig t).2

def greenwichSiderealTime (mjd : K) : K :=
  let gmst0 := greenwichMeanSiderealTime mjd
  let t := julianCentury mjd
  let n := nutation trig t
  let obliquity := meanObliquity t + n.2
  gmst0 + n.1 * trig.cos obliquity

def localSiderealTime (mjd lgt : K) : K :=
  let lmst0 := localMeanSiderealTime mjd lgt
  let t := julianCentury mjd
  let n := nutation trig t
  let obliquity := meanObliquity t + n.2
  lmst0 + n.1 * trig.cos obliquity

/-! ### Positions -/

/-- `SunPosition(t, ra, dec)` -/
def sunPosition (t : K) : K × K :=
  let m := cycmod (125.04 - 1934.136 * t) 360 * auD2R
  let l := trueLongSun trig t - (5.69e-3 + 4.78e-3 * trig.sin m) * auD2R
  let eps := meanObliquity t + 2.56e-3 * trig.cos m * auD2R
  let ra := trig.atan2 (trig.cos eps * trig.sin l) (trig.cos l)
  (if ra < 0 then ra + au2Pi else ra, trig.asin (trig.sin eps * trig.sin l))

/-- Orbital elements of the moon: node, inclination, perigee, distance,
eccentricity and mean anomaly. -/
structure MoonOrbit (K : Type) where
  n : K
  i : K
  w : K
  a : K
  e : K
  m : K

def moonOrbit (mjd : K) : MoonOrbit K :=
  let mjd0 := mjd - 51543
  { n := (125.1228 - 0.0529538083 * mjd0) * auD2R
    i := 5.1454 * auD2R
    w := (318.0634 + 0.1643573223 * mjd0) * auD2R
    a := 60.2666
    e := 0.054900
    m := (115.3654 + 13.0649929509 * mjd0) * auD2R }

/-- A step of Newton's method for the eccentric anomaly. -/
def keplerNext (o : MoonOrbit K) (e0 : K) : K :=
  e0 - (e0 - o.e * trig.sin e0 - o.m) / (1 - o.e * trig.cos e0)

/-- The `while` loop of `MoonPosition`. -/
def keplerBody (o : MoonOrbit K) (_ : ℕ) (x : K × K) : K × K ⊕ K :=
  if |x.1 - x.2| > 0.005 then .inl (x.2, keplerNext trig o x.2) else .inr x.2

/-- The eccentric anomaly, if the loop leaves within `fuel` iterations. -/
def kepler (fuel : ℕ) (o : MoonOrbit K) : Option K :=
  let e0 := cycmod (o.m + o.e * trig.sin o.m * (1 + o.e * trig.cos o.m)) au2Pi
  let e1 := cycmod (keplerNext trig o e0) au2Pi
  Lib.Loop.run (keplerBody trig o) fuel 0 (e0, e1)

/-- What `MoonPosition` takes from the object although it is given the instant: the
obliquity, the mean longitude and the mean anomaly of the sun. -/
structure SunStored (K : Type) where
  eo : K
  ls : K
  ms : K

/-- `MoonPosition` behind its loop. -/
def moonAt (o : MoonOrbit K) (s : SunStored K) (e0 : K) : K × K × K :=
  let x := o.a * (trig.cos e0 - o.e)
  let y := o.a * trig.sqrt (1 - o.e * o.e) * trig.sin e0
  let r := trig.sqrt (x * x + y * y)
  let v := trig.atan2 y x
  let c := cart2Sphere trig
    (r * (trig.cos o.n * trig.cos (v + o.w) - trig.sin o.n * trig.sin (v + o.w) * trig.cos o.i))
    (r * (trig.sin o.n * trig.cos (v + o.w) + trig.cos o.n * trig.sin (v + o.w) * trig.cos o.i))
    (r * trig.sin (v + o.w) * trig.sin o.i)
  let lm := o.n + o.w + o.m
  let d := lm - s.ls
  let f := lm - o.n
  let longitude := c.2.1 * auR2D - 1.274 * trig.sin (o.m - 2 * d) + 0.658 * trig.sin (2 * d)
    - 0.186 * trig.sin s.ms - 0.059 * trig.sin (2 * (o.m - d))
    - 0.057 * trig.sin (o.m - 2 * d + s.ms) + 0.053 * trig.sin (o.m + 2 * d)
    + 0.046 * trig.sin (2 * d - s.ms) + 0.041 * trig.sin (o.m - s.ms) - 0.035 * trig.sin d
    - 0.031 * trig.sin (o.m + s.ms) - 0.015 * trig.sin (2 * (f - d))
    + 0.011 * trig.sin (o.m - 4 * d)
  let latitude := c.2.2 * auR2D - 0.173 * trig.sin (f - 2 * d) - 0.055 * trig.sin (o.m - f - 2 * d)
    - 0.046 * trig.sin (o.m + f - 2 * d) + 0.033 * trig.sin (f + 2 * d)
    + 0.017 * trig.sin (2 * o.m + f)
  let r := c.1 - 0.58 * trig.cos (o.m - 2 * d) - 0.46 * trig.cos (2 * d)
  let p := sphere2Cart trig r (longitude * auD2R) (latitude * auD2R)
  cart2Sphere trig p.1 (p.2.1 * trig.cos s.eo - p.2.2 * trig.sin s.eo)
    (p.2.1 * trig.sin s.eo + p.2.2 * trig.cos s.eo)

/-- `MoonPosition(mjd, r, ra, dec)` with what it finds stored. -/
def moonPosition (fuel : ℕ) (mjd : K) (s : SunStored K) : Option (K × K × K) :=
  (kepler trig fuel (moonOrbit mjd)).map (moonAt trig (moonOrbit mjd) s)

end AtInstant

/-- The angles whose sine `MoonPosition` takes behind its loop, less the obliquity. -/
def moonAngles (o : AtInstant.MoonOrbit K) (s : AtInstant.SunStored K) : List K :=
  let d := o.n + o.w + o.m - s.ls
  let f := o.n + o.w + o.m - o.n
  [o.n, 0 + o.w, o.i, o.m - 2 * d, 2 * d, s.ms, 2 * (o.m - d), o.m - 2 * d + s.ms, o.m + 2 * d,
    2 * d - s.ms, o.m - s.ms, d, o.m + s.ms, 2 * (f - d), o.m - 4 * d, f - 2 * d,
    o.m - f - 2 * d, o.m + f - 2 * d, f + 2 * d, 2 * o.m + f,
    (0 * auR2D - 1.274 + 0.658 - 0.186 - 0.059 - 0.057 + 0.053 + 0.046 + 0.041 - 0.035 - 0.031
      - 0.015 + 0.011) * auD2R,
    (auR2D - 0.173 - 0.055 - 0.046 + 0.033 + 0.017) * auD2R]

end

end Gtoaes
