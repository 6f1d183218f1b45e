import Gtoaes.Astro.Series
import Gtoaes.Lib.Memo

/-!
An object of `ATimeSpace`: the site, the time, and the quantities derived from
them, each of which is computed when it is first asked for and kept until the
next time is set. `values_[ATS_MJD]` and `values_[ATS_DAT]`, which have no flag,
are kept with the site.
-/

namespace Gtoaes

open Lib Lib.Memo

/-- The entries of `values_` and `valid_` from `ATS_JD` on, less `ATS_DAT`. -/
inductive Ats
  | jd
  | tai
  | jc
  | gmst
  | gst
  | lmst
  | lst
  | mo
  | nl
  | no
  | masun
  | mamoon
  | melongMoonSun
  | mlanMoon
  | rlongMoon
  | mlSun
  | centerSun
  | tlSun
  | taSun
  | eccentricityEarth
  | plEarth
  | positionSun
  | positionSunRa
  | positionSunDec
  | positionMoon
  | positionMoonR
  | positionMoonRa
  | positionMoonDec
  | positionMoonTopo
  | positionMoonTopoR
  | positionMoonTopoRa
  | positionMoonTopoDec
  deriving DecidableEq

/-- The site, in radians and metres, and the time. -/
structure AtsBase (K : Type) where
  lgt : K
  lat : K
  alt : K
  tz : ℤ
  mjd : K
  dat : K

abbrev ATimeSpace (K : Type) := Memo (AtsBase K) Ats K

abbrev AtsAction (K α : Type) := Memo.Action (AtsBase K) Ats K α

namespace ATimeSpace

variable {K : Type} [Field K] [LinearOrder K] [FloorRing K]

/-- A new object: what stands in `values_` is what its memory held. -/
def new (mjd dat : K) (values : Ats → K) : ATimeSpace K where
  base := { lgt := 0, lat := 0, alt := 0, tz := 0, mjd := mjd, dat := dat }
  value := values
  valid := fun _ => false

/-! ### Setters -/

/-- `SetSite` -/
def setSite (lgt lat alt : K) (tz : ℤ) (s : ATimeSpace K) : ATimeSpace K :=
  { s with base := { s.base with lgt := lgt * auD2R, lat := lat * auD2R, alt := alt, tz := tz } }

/-- `SetUTC` -/
def setUTC (mem : BeforeTables K) (x : CalDate K) (s : ATimeSpace K) : ATimeSpace K :=
  if x.checkUTC = 0 then
    { s.invalidate with base := { s.base with dat := x.deltaAT mem, mjd := x.modifiedJulianDay } }
  else s

/-- `SetEpoch` -/
def setEpoch (mem : BeforeTables K) (t : K) (s : ATimeSpace K) : ATimeSpace K :=
  s.setUTC mem (mjd2Cal ((t - 2000.0) * 365.25 + auMjd2K))

/-- `SetJD` -/
def setJD (mem : BeforeTables K) (jd : K) (s : ATimeSpace K) : ATimeSpace K :=
  s.setUTC mem (mjd2Cal (jd - auMjd0))

/-- `SetMJD` -/
def setMJD (mem : BeforeTables K) (mjd : K) (s : ATimeSpace K) : ATimeSpace K :=
  s.setUTC mem (mjd2Cal mjd)

/-! ### Getters -/

variable (trig : Trig K) (fuel : ℕ)

def modifiedJulianDay : AtsAction K K := ask (·.mjd)

def deltaAT : AtsAction K K := ask (·.dat)

def julianCentury : AtsAction K K :=
  keep .jc do return AtInstant.julianCentury (← modifiedJulianDay)

def epoch : AtsAction K K := do return 2000.0 + ((← modifiedJulianDay) - auMjd2K) / 365.25

def julianDay : AtsAction K K :=
  keep .jd do return (← modifiedJulianDay) + auMjd0

def tai : AtsAction K K :=
  keep .tai do return (← modifiedJulianDay) + (← deltaAT) / auDaysec

def greenwichMeanSiderealTime : AtsAction K K :=
  keep .gmst do
    let t ← julianCentury
    return AtInstant.gmstAngle t

def meanObliquity : AtsAction K K :=
  keep .mo do return AtInstant.meanObliquity (← julianCentury)

def meanAnomalySun : AtsAction K K :=
  keep .masun do return AtInstant.meanAnomalySun (← julianCentury)

def meanAnomalyMoon : AtsAction K K :=
  keep .mamoon do return AtInstant.meanAnomalyMoon (← julianCentury)

def meanElongationMoonSun : AtsAction K K :=
  keep .melongMoonSun do return AtInstant.meanElongationMoonSun (← julianCentury)

def meanLongAscNodeMoon : AtsAction K K :=
  keep .mlanMoon do return AtInstant.meanLongAscNodeMoon (← julianCentury)

def relLongMoon : AtsAction K K :=
  keep .rlongMoon do return AtInstant.relLongMoon (← julianCentury)

def meanLongSun : AtsAction K K :=
  keep .mlSun do return AtInstant.meanLongSun (← julianCentury)

def eccentricityEarth : AtsAction K K :=
  keep .eccentricityEarth do return AtInstant.eccentricityEarth (← julianCentury)

def perihelionLongEarth : AtsAction K K :=
  keep .plEarth do return AtInstant.perihelionLongEarth (← julianCentury)

/-- `Nutation(nl, no)` -/
def nutation : AtsAction K (K × K) := do
  let t ← julianCentury
  let el ← meanAnomalyMoon
  let elp ← meanAnomalySun
  let f ← relLongMoon
  let d ← meanElongationMoonSun
  let om ← meanLongAscNodeMoon
  return nutationSeries trig storedNutationTerms t { el := el, elp := elp, f := f, d := d, om := om }

def nutationLongitude : AtsAction K K :=
  keptOr .nl (· .nl) do
    let n ← nutation trig
    fill .nl [(.nl, n.1)]
    fill .no [(.no, n.2)]
    return n.1

def nutationObliquity : AtsAction K K :=
  keptOr .no (· .no) do
    let n ← nutation trig
    fill .no [(.no, n.2)]
    fill .nl [(.nl, n.1)]
    return n.2

def trueObliquity : AtsAction K K := do
  return (← meanObliquity) + (← nutationObliquity trig)

def greenwichSiderealTime : AtsAction K K :=
  keep .gst do
    let gmst0 ← greenwichMeanSiderealTime
    let nl ← nutationLongitude trig
    let obliquity ← trueObliquity trig
    return gmst0 + nl * trig.cos obliquity

def localMeanSiderealTime : AtsAction K K :=
  keep .lmst do return cycmod ((← greenwichMeanSiderealTime) + (← ask (·.lgt))) au2Pi

def localSiderealTime : AtsAction K K :=
  keep .lst do return cycmod ((← greenwichSiderealTime trig) + (← ask (·.lgt))) au2Pi

def centerSun : AtsAction K K :=
  keep .centerSun do
    let t ← julianCentury
    let ma ← meanAnomalySun
    return AtInstant.centerSeries trig t ma * auD2R

def trueLongSun : AtsAction K K :=
  keep .tlSun do return (← meanLongSun) + (← centerSun trig)

def trueAnomalySun : AtsAction K K :=
  keep .taSun do return (← meanAnomalySun) + (← centerSun trig)

/-- `SunPosition(ra, dec)` -/
def sunPosition : AtsAction K (K × K) :=
  keptOr .positionSun (fun v => (v .positionSunRa, v .positionSunDec)) do
    let p := AtInstant.sunPosition trig (← julianCentury)
    fill .positionSun [(.positionSunRa, p.1), (.positionSunDec, p.2)]
    return p

/-- `MoonPosition(mjd, r, ra, dec)`, if its loop ends. -/
def moonPositionAt (mjd : K) : AtsAction K (Option (K × K × K)) := do
  let eo ← trueObliquity trig
  let ls ← meanLongSun
  let ms ← meanAnomalySun
  return AtInstant.moonPosition trig fuel mjd { eo := eo, ls := ls, ms := ms }

/-- `MoonPosition(r, ra, dec)`. It marks the position as kept in `values_`, where
no one looks for the mark. -/
def moonPosition : AtsAction K (Option (K × K × K)) :=
  keptOr .positionMoon
    (fun v => some (v .positionMoonR, v .positionMoonRa, v .positionMoonDec)) do
      match ← moonPositionAt trig fuel (← modifiedJulianDay) with
      | none => return none
      | some p =>
          store [(.positionMoonR, p.1), (.positionMoonRa, p.2.1), (.positionMoonDec, p.2.2),
            (.positionMoon, 1)]
          return some p

/-- The parallax of `MoonTopo` at latitude `lat` and mean sidereal time `lmst`. -/
def topocentric (lat lmst : K) (p : K × K × K) : K × K × K :=
  let gclat := (lat * auR2D - 0.1924 * trig.sin (2.0 * lat)) * auD2R
  let rho := 0.99883 + 0.00167 * trig.cos (2.0 * lat)
  let ha := lmst - p.2.1
  let mpar := trig.asin (1.0 / p.1)
  let g := trig.atan2 (trig.tan gclat) (trig.cos ha)
  let ra := p.2.1 - mpar * rho * trig.cos gclat * trig.sin ha / trig.cos p.2.2
  let dec :=
    if |g| ≥ 0.0001 then
      p.2.2 - mpar * rho * trig.sin gclat * trig.sin (g - p.2.2) / trig.sin g
    else p.2.2 + mpar * rho * trig.sin gclat * trig.sin p.2.2 * trig.cos ha
  (p.1, ra, dec)

/-- `MoonTopo(r, ra, dec)` -/
def moonTopo : AtsAction K (Option (K × K × K)) :=
  keptOr .positionMoonTopo
    (fun v => some (v .positionMoonTopoR, v .positionMoonTopoRa, v .positionMoonTopoDec)) do
      let lmst ← localMeanSiderealTime
      match ← moonPosition trig fuel with
      | none => return none
      | some p =>
          let q := topocentric trig (← ask (·.lat)) lmst p
          fill .positionMoonTopo [(.positionMoonTopoR, q.1), (.positionMoonTopoRa, q.2.1),
            (.positionMoonTopoDec, q.2.2)]
          return some q

end ATimeSpace

/-- The getters without an argument. -/
inductive Getter
  | modifiedJulianDay
  | deltaAT
  | julianCentury
  | epoch
  | julianDay
  | tai
  | greenwichMeanSiderealTime
  | greenwichSiderealTime
  | localMeanSiderealTime
  | localSiderealTime
  | meanObliquity
  | trueObliquity
  | nutation
  | nutationLongitude
  | nutationObliquity
  | meanAnomalySun
  | meanAnomalyMoon
  | meanElongationMoonSun
  | meanLongAscNodeMoon
  | relLongMoon
  | meanLongSun
  | eccentricityEarth
  | perihelionLongEarth
  | centerSun
  | trueLongSun
  | trueAnomalySun
  | sunPosition
  | moonPosition
  | moonTopo
  deriving DecidableEq

namespace Getter

variable {K : Type} [Field K] [LinearOrder K] [FloorRing K] (trig : Trig K) (fuel : ℕ)

def one (x : K) : Option (List K) := some [x]

def two (x : K × K) : Option (List K) := some [x.1, x.2]

def three (x : Option (K × K × K)) : Option (List K) := x.map fun x => [x.1, x.2.1, x.2.2]

/-- The values a call hands back, if it comes back. -/
def read : Getter → AtsAction K (Option (List K))
  | modifiedJulianDay => one <$> ATimeSpace.modifiedJulianDay
  | deltaAT => one <$> ATimeSpace.deltaAT
  | julianCentury => one <$> ATimeSpace.julianCentury
  | epoch => one <$> ATimeSpace.epoch
  | julianDay => one <$> ATimeSpace.julianDay
  | tai => one <$> ATimeSpace.tai
  | greenwichMeanSiderealTime => one <$> ATimeSpace.greenwichMeanSiderealTime
  | greenwichSiderealTime => one <$> ATimeSpace.greenwichSiderealTime trig
  | localMeanSiderealTime => one <$> ATimeSpace.localMeanSiderealTime
  | localSiderealTime => one <$> ATimeSpace.localSiderealTime trig
  | meanObliquity => one <$> ATimeSpace.meanObliquity
  | trueObliquity => one <$> ATimeSpace.trueObliquity trig
  | nutation => two <$> ATimeSpace.nutation trig
  | nutationLongitude => one <$> ATimeSpace.nutationLongitude trig
  | nutationObliquity => one <$> ATimeSpace.nutationObliquity trig
  | meanAnomalySun => one <$> ATimeSpace.meanAnomalySun
  | meanAnomalyMoon => one <$> ATimeSpace.meanAnomalyMoon
  | meanElongationMoonSun => one <$> ATimeSpace.meanElongationMoonSun
  | meanLongAscNodeMoon => one <$> ATimeSpace.meanLongAscNodeMoon
  | relLongMoon => one <$> ATimeSpace.relLongMoon
  | meanLongSun => one <$> ATimeSpace.meanLongSun
  | eccentricityEarth => one <$> ATimeSpace.eccentricityEarth
  | perihelionLongEarth => one <$> ATimeSpace.perihelionLongEarth
  | centerSun => one <$> ATimeSpace.centerSun trig
  | trueLongSun => one <$> ATimeSpace.trueLongSun trig
  | trueAnomalySun => one <$> ATimeSpace.trueAnomalySun trig
  | sunPosition => two <$> ATimeSpace.sunPosition trig
  | moonPosition => three <$> ATimeSpace.moonPosition trig fuel
  | moonTopo => three <$> ATimeSpace.moonTopo trig fuel

/-- The flags of the site that a getter may set. -/
def sets : Getter → List Ats
  | .localMeanSiderealTime => [.lmst]
  | .localSiderealTime => [.lst]
  | .moonTopo => [.lmst, .positionMoonTopo]
  | _ => []

end Getter

end Gtoaes
