import Gtoaes.Astro.ATimeSpace

/-!
What the entries of `ATimeSpace` are to hold, and that every getter returns it
from an object whose flags tell the truth.
-/

namespace Gtoaes

open Lib Lib.Memo

variable {K : Type} [Field K] [LinearOrder K] [FloorRing K] (trig : Trig K) (fuel : ℕ)

namespace AtInstant

/-- What `MoonPosition` finds stored in an object whose time is `mjd`. -/
def sunStored (mjd : K) : SunStored K where
  eo := trueObliquity trig (julianCentury mjd)
  ls := meanLongSun (julianCentury mjd)
  ms := meanAnomalySun (julianCentury mjd)

end AtInstant

namespace AtsBase

def century (b : AtsBase K) : K := AtInstant.julianCentury b.mjd

def localMeanSiderealTime (b : AtsBase K) : K := AtInstant.localMeanSiderealTime b.mjd b.lgt

def localSiderealTime (b : AtsBase K) : K :=
  cycmod (AtInstant.greenwichSiderealTime trig b.mjd + b.lgt) au2Pi

def moonPosition (b : AtsBase K) : Option (K × K × K) :=
  AtInstant.moonPosition trig fuel b.mjd (AtInstant.sunStored trig b.mjd)

def moonTopo (b : AtsBase K) : Option (K × K × K) :=
  (b.moonPosition trig fuel).map (ATimeSpace.topocentric trig b.lat b.localMeanSiderealTime)

end AtsBase

/-- The entries that the flag of a quantity is about, and what they are to hold. Without
`sited`, the flags of the quantities that depend on the site say nothing. -/
def atsMeaning (sited : Bool) : Meaning (AtsBase K) Ats K where
  cells
    | .lmst => if sited then [.lmst] else []
    | .lst => if sited then [.lst] else []
    | .positionSun => [.positionSunRa, .positionSunDec]
    | .positionMoon => [.positionMoonR, .positionMoonRa, .positionMoonDec]
    | .positionMoonTopo =>
        if sited then [.positionMoonTopoR, .positionMoonTopoRa, .positionMoonTopoDec] else []
    | .positionSunRa | .positionSunDec | .positionMoonR | .positionMoonRa | .positionMoonDec
    | .positionMoonTopoR | .positionMoonTopoRa | .positionMoonTopoDec => []
    | q => [q]
  val b
    | .jd => some (b.mjd + auMjd0)
    | .tai => some (b.mjd + b.dat / auDaysec)
    | .jc => some b.century
    | .gmst => some (AtInstant.greenwichMeanSiderealTime b.mjd)
    | .gst => some (AtInstant.greenwichSiderealTime trig b.mjd)
    | .lmst => some b.localMeanSiderealTime
    | .lst => some (b.localSiderealTime trig)
    | .mo => some (AtInstant.meanObliquity b.century)
    | .nl => some (AtInstant.nutation trig b.century).1
    | .no => some (AtInstant.nutation trig b.century).2
    | .masun => some (AtInstant.meanAnomalySun b.century)
    | .mamoon => some (AtInstant.meanAnomalyMoon b.century)
    | .melongMoonSun => some (AtInstant.meanElongationMoonSun b.century)
    | .mlanMoon => some (AtInstant.meanLongAscNodeMoon b.century)
    | .rlongMoon => some (AtInstant.relLongMoon b.century)
    | .mlSun => some (AtInstant.meanLongSun b.century)
    | .centerSun => some (AtInstant.centerSun trig b.century)
    | .tlSun => some (AtInstant.trueLongSun trig b.century)
    | .taSun => some (AtInstant.meanAnomalySun b.century + AtInstant.centerSun trig b.century)
    | .eccentricityEarth => some (AtInstant.eccentricityEarth b.century)
    | .plEarth => some (AtInstant.perihelionLongEarth b.century)
    | .positionSunRa => some (AtInstant.sunPosition trig b.century).1
    | .positionSunDec => some (AtInstant.sunPosition trig b.century).2
    | .positionMoon => some 1
    | .positionMoonR => (b.moonPosition trig fuel).map fun p => p.1
    | .positionMoonRa => (b.moonPosition trig fuel).map fun p => p.2.1
    | .positionMoonDec => (b.moonPosition trig fuel).map fun p => p.2.2
    | .positionMoonTopoR => (b.moonTopo trig fuel).map fun p => p.1
    | .positionMoonTopoRa => (b.moonTopo trig fuel).map fun p => p.2.1
    | .positionMoonTopoDec => (b.moonTopo trig fuel).map fun p => p.2.2
    | .positionSun => none
    | .positionMoonTopo => none

namespace ATimeSpace

variable {trig : Trig K} {fuel : ℕ} {sited : Bool} {b : AtsBase K}

theorem computes_modifiedJulianDay :
    Computes (atsMeaning trig fuel sited) b modifiedJulianDay b.mjd :=
  computes_ask _

theorem computes_julianCentury :
    Computes (atsMeaning trig fuel sited) b julianCentury b.century :=
  computes_keep (computes_modifiedJulianDay.bind (computes_pure _)) rfl rfl

theorem computes_epoch : Computes (atsMeaning trig fuel sited) b epoch (AtInstant.epoch b.mjd) :=
  computes_modifiedJulianDay.bind (computes_pure _)

theorem computes_julianDay : Computes (atsMeaning trig fuel sited) b julianDay (b.mjd + auMjd0) :=
  computes_keep (computes_modifiedJulianDay.bind (computes_pure _)) rfl rfl

theorem computes_tai : Computes (atsMeaning trig fuel sited) b tai (b.mjd + b.dat / auDaysec) :=
  computes_keep (computes_modifiedJulianDay.bind ((computes_ask _).bind (computes_pure _))) rfl rfl

/-- A quantity that is computed from the century alone. -/
theorem computes_ofCentury {q : Ats} (f : K → K) (hcells : (atsMeaning trig fuel sited).cells q = [q])
    (hval : (atsMeaning trig fuel sited).val b q = some (f b.century)) :
    Computes (atsMeaning trig fuel sited) b (keep q do return f (← julianCentury)) (f b.century) :=
  computes_keep (computes_julianCentury.bind (computes_pure _)) hcells hval

theorem computes_greenwichMeanSiderealTime :
    Computes (atsMeaning trig fuel sited) b greenwichMeanSiderealTime
      (AtInstant.greenwichMeanSiderealTime b.mjd) :=
  computes_keep (computes_julianCentury.bind (computes_pure _)) rfl rfl

theorem computes_meanObliquity :
    Computes (atsMeaning trig fuel sited) b meanObliquity (AtInstant.meanObliquity b.century) :=
  computes_ofCentury _ rfl rfl

theorem computes_meanAnomalySun :
    Computes (atsMeaning trig fuel sited) b meanAnomalySun (AtInstant.meanAnomalySun b.century) :=
  computes_ofCentury _ rfl rfl

theorem computes_meanAnomalyMoon :
    Computes (atsMeaning trig fuel sited) b meanAnomalyMoon (AtInstant.meanAnomalyMoon b.century) :=
  computes_ofCentury _ rfl rfl

theorem computes_meanElongationMoonSun :
    Computes (atsMeaning trig fuel sited) b meanElongationMoonSun
      (AtInstant.meanElongationMoonSun b.century) :=
  computes_ofCentury _ rfl rfl

theorem computes_meanLongAscNodeMoon :
    Computes (atsMeaning trig fuel sited) b meanLongAscNodeMoon
      (AtInstant.meanLongAscNodeMoon b.century) :=
  computes_ofCentury _ rfl rfl

theorem computes_relLongMoon :
    Computes (atsMeaning trig fuel sited) b relLongMoon (AtInstant.relLongMoon b.century) :=
  computes_ofCentury _ rfl rfl

theorem computes_meanLongSun :
    Computes (atsMeaning trig fuel sited) b meanLongSun (AtInstant.meanLongSun b.century) :=
  computes_ofCentury _ rfl rfl

theorem computes_nutation :
    Computes (atsMeaning trig fuel sited) b (nutation trig) (AtInstant.nutation trig b.century) :=
  computes_julianCentury.bind (computes_meanAnomalyMoon.bind (computes_meanAnomalySun.bind
    (computes_relLongMoon.bind (computes_meanElongationMoonSun.bind
      (computes_meanLongAscNodeMoon.bind (computes_pure _))))))

theorem computes_nutationLongitude :
    Computes (atsMeaning trig fuel sited) b (nutationLongitude trig)
      (AtInstant.nutation trig b.century).1 := by
  refine computes_keptOr (computes_nutation.bind (.bind (computes_fill ?_ fun p hp => hp)
    (.bind (computes_fill ?_ fun p hp => hp) (computes_pure _)))) fun v hv => ?_
  · exact fun x hx => by obtain rfl := List.mem_singleton.mp hx; rfl
  · exact fun x hx => by obtain rfl := List.mem_singleton.mp hx; rfl
  · exact (Option.some.inj (hv .nl List.mem_cons_self)).symm

theorem computes_nutationObliquity :
    Computes (atsMeaning trig fuel sited) b (nutationObliquity trig)
      (AtInstant.nutation trig b.century).2 := by
  refine computes_keptOr (computes_nutation.bind (.bind (computes_fill ?_ fun p hp => hp)
    (.bind (computes_fill ?_ fun p hp => hp) (computes_pure _)))) fun v hv => ?_
  · exact fun x hx => by obtain rfl := List.mem_singleton.mp hx; rfl
  · exact fun x hx => by obtain rfl := List.mem_singleton.mp hx; rfl
  · exact (Option.some.inj (hv .no List.mem_cons_self)).symm

theorem computes_trueObliquity :
    Computes (atsMeaning trig fuel sited) b (trueObliquity trig)
      (AtInstant.trueObliquity trig b.century) :=
  computes_meanObliquity.bind (computes_nutationObliquity.bind (computes_pure _))

theorem computes_greenwichSiderealTime :
    Computes (atsMeaning trig fuel sited) b (greenwichSiderealTime trig)
      (AtInstant.greenwichSiderealTime trig b.mjd) :=
  computes_keep (computes_greenwichMeanSiderealTime.bind (computes_nutationLongitude.bind
    (computes_trueObliquity.bind (computes_pure _)))) rfl rfl

theorem computes_localMeanSiderealTime :
    Computes (atsMeaning trig fuel true) b localMeanSiderealTime b.localMeanSiderealTime :=
  computes_keep (computes_greenwichMeanSiderealTime.bind ((computes_ask _).bind
    (computes_pure _))) rfl rfl

theorem computes_localSiderealTime :
    Computes (atsMeaning trig fuel true) b (localSiderealTime trig) (b.localSiderealTime trig) :=
  computes_keep (computes_greenwichSiderealTime.bind ((computes_ask _).bind
    (computes_pure _))) rfl rfl

theorem computes_centerSun :
    Computes (atsMeaning trig fuel sited) b (centerSun trig) (AtInstant.centerSun trig b.century) :=
  computes_keep (computes_julianCentury.bind (computes_meanAnomalySun.bind
    (computes_pure _))) rfl rfl

theorem computes_trueLongSun :
    Computes (atsMeaning trig fuel sited) b (trueLongSun trig) (AtInstant.trueLongSun trig b.century) :=
  computes_keep (computes_meanLongSun.bind (computes_centerSun.bind (computes_pure _))) rfl rfl

theorem computes_trueAnomalySun :
    Computes (atsMeaning trig fuel sited) b (trueAnomalySun trig)
      (AtInstant.meanAnomalySun b.century + AtInstant.centerSun trig b.century) :=
  computes_keep (computes_meanAnomalySun.bind (computes_centerSun.bind (computes_pure _))) rfl rfl

theorem computes_sunPosition :
    Computes (atsMeaning trig fuel sited) b (sunPosition trig)
      (AtInstant.sunPosition trig b.century) := by
  refine computes_keptOr (computes_julianCentury.bind (.bind (computes_fill ?_ fun p hp => hp)
    (computes_pure _))) fun v hv => ?_
  · intro x hx
    simp only [List.mem_cons, List.not_mem_nil, or_false] at hx
    obtain rfl | rfl := hx <;> rfl
  · have hra := hv .positionSunRa (by simp [atsMeaning])
    have hdec := hv .positionSunDec (by simp [atsMeaning])
    exact Prod.ext (Option.some.inj hra).symm (Option.some.inj hdec).symm

theorem computes_moonPositionAt (mjd : K) :
    Computes (atsMeaning trig fuel sited) b (moonPositionAt trig fuel mjd)
      (AtInstant.moonPosition trig fuel mjd (AtInstant.sunStored trig b.mjd)) :=
  computes_trueObliquity.bind (computes_meanLongSun.bind (computes_meanAnomalySun.bind
    (computes_pure _)))

/-- The entries of a position, where they hold one. -/
theorem eq_of_entries {α : Type} {x : Option (α × α × α)} {r ra dec : α}
    (hr : x.map (fun p => p.1) = some r) (hra : x.map (fun p => p.2.1) = some ra)
    (hdec : x.map (fun p => p.2.2) = some dec) :
    some (r, ra, dec) = x := by
  obtain ⟨p, rfl, rfl⟩ := Option.map_eq_some_iff.mp hr
  obtain rfl := Option.some.inj hra
  obtain rfl := Option.some.inj hdec
  rfl

theorem computes_moonPosition :
    Computes (atsMeaning trig fuel sited) b (moonPosition trig fuel) (b.moonPosition trig fuel) := by
  refine computes_keptOr (computes_modifiedJulianDay.bind
    ((computes_moonPositionAt b.mjd).bind ?_)) fun v hv => ?_
  · cases hmoon : b.moonPosition trig fuel with
    | none =>
        rw [show AtInstant.moonPosition trig fuel b.mjd (AtInstant.sunStored trig b.mjd) = none
          from hmoon]
        exact computes_pure none
    | some p =>
        rw [show AtInstant.moonPosition trig fuel b.mjd (AtInstant.sunStored trig b.mjd) = some p
          from hmoon]
        refine (computes_store fun x hx => ?_).bind (computes_pure _)
        simp only [List.mem_cons, List.not_mem_nil, or_false] at hx
        obtain rfl | rfl | rfl | rfl := hx <;> simp [atsMeaning, hmoon]
  · exact eq_of_entries (hv .positionMoonR (by simp [atsMeaning]))
      (hv .positionMoonRa (by simp [atsMeaning])) (hv .positionMoonDec (by simp [atsMeaning]))

theorem computes_moonTopo :
    Computes (atsMeaning trig fuel true) b (moonTopo trig fuel) (b.moonTopo trig fuel) := by
  refine computes_keptOr (computes_localMeanSiderealTime.bind (computes_moonPosition.bind ?_))
    fun v hv => ?_
  · cases hmoon : b.moonPosition trig fuel with
    | none =>
        rw [AtsBase.moonTopo, hmoon]
        exact computes_pure none
    | some p =>
        have htopo : b.moonTopo trig fuel =
            some (topocentric trig b.lat b.localMeanSiderealTime p) := by
          rw [AtsBase.moonTopo, hmoon, Option.map_some]
        rw [htopo]
        refine (computes_ask _).bind ((computes_fill (fun x hx => ?_) fun p hp => hp).bind
          (computes_pure _))
        simp only [List.mem_cons, List.not_mem_nil, or_false] at hx
        obtain rfl | rfl | rfl := hx <;> simp [atsMeaning, htopo]
  · exact eq_of_entries (hv .positionMoonTopoR (by simp [atsMeaning]))
      (hv .positionMoonTopoRa (by simp [atsMeaning]))
      (hv .positionMoonTopoDec (by simp [atsMeaning]))

end ATimeSpace

namespace Getter

/-- What a getter returns from an object whose flags tell the truth. -/
def value (g : Getter) (b : AtsBase K) : Option (List K) :=
  match g with
  | modifiedJulianDay => one b.mjd
  | deltaAT => one b.dat
  | julianCentury => one b.century
  | epoch => one (AtInstant.epoch b.mjd)
  | julianDay => one (b.mjd + auMjd0)
  | tai => one (b.mjd + b.dat / auDaysec)
  | greenwichMeanSiderealTime => one (AtInstant.greenwichMeanSiderealTime b.mjd)
  | greenwichSiderealTime => one (AtInstant.greenwichSiderealTime trig b.mjd)
  | localMeanSiderealTime => one b.localMeanSiderealTime
  | localSiderealTime => one (b.localSiderealTime trig)
  | meanObliquity => one (AtInstant.meanObliquity b.century)
  | trueObliquity => one (AtInstant.trueObliquity trig b.century)
  | nutation => two (AtInstant.nutation trig b.century)
  | nutationLongitude => one (AtInstant.nutation trig b.century).1
  | nutationObliquity => one (AtInstant.nutation trig b.century).2
  | meanAnomalySun => one (AtInstant.meanAnomalySun b.century)
  | meanAnomalyMoon => one (AtInstant.meanAnomalyMoon b.century)
  | meanElongationMoonSun => one (AtInstant.meanElongationMoonSun b.century)
  | meanLongAscNodeMoon => one (AtInstant.meanLongAscNodeMoon b.century)
  | relLongMoon => one (AtInstant.relLongMoon b.century)
  | meanLongSun => one (AtInstant.meanLongSun b.century)
  | eccentricityEarth => one (AtInstant.eccentricityEarth b.century)
  | perihelionLongEarth => one (AtInstant.perihelionLongEarth b.century)
  | centerSun => one (AtInstant.centerSun trig b.century)
  | trueLongSun => one (AtInstant.trueLongSun trig b.century)
  | trueAnomalySun =>
      one (AtInstant.meanAnomalySun b.century + AtInstant.centerSun trig b.century)
  | sunPosition => two (AtInstant.sunPosition trig b.century)
  | moonPosition => three (b.moonPosition trig fuel)
  | moonTopo => three (b.moonTopo trig fuel)

variable {trig : Trig K} {fuel : ℕ} {sited : Bool} {b : AtsBase K}

open ATimeSpace in
theorem computes_read (g : Getter) (hg : sited = true ∨ g.sets = []) :
    Computes (atsMeaning trig fuel sited) b (g.read trig fuel) (g.value trig fuel b) := by
  cases g with
  | modifiedJulianDay => exact computes_modifiedJulianDay.map _
  | deltaAT => exact (computes_ask _).map _
  | julianCentury => exact computes_julianCentury.map _
  | epoch => exact computes_epoch.map _
  | julianDay => exact computes_julianDay.map _
  | tai => exact computes_tai.map _
  | greenwichMeanSiderealTime => exact computes_greenwichMeanSiderealTime.map _
  | greenwichSiderealTime => exact computes_greenwichSiderealTime.map _
  | localMeanSiderealTime =>
      obtain rfl := hg.resolve_right (by decide)
      exact computes_localMeanSiderealTime.map _
  | localSiderealTime =>
      obtain rfl := hg.resolve_right (by decide)
      exact computes_localSiderealTime.map _
  | meanObliquity => exact computes_meanObliquity.map _
  | trueObliquity => exact computes_trueObliquity.map _
  | nutation => exact computes_nutation.map _
  | nutationLongitude => exact computes_nutationLongitude.map _
  | nutationObliquity => exact computes_nutationObliquity.map _
  | meanAnomalySun => exact computes_meanAnomalySun.map _
  | meanAnomalyMoon => exact computes_meanAnomalyMoon.map _
  | meanElongationMoonSun => exact computes_meanElongationMoonSun.map _
  | meanLongAscNodeMoon => exact computes_meanLongAscNodeMoon.map _
  | relLongMoon => exact computes_relLongMoon.map _
  | meanLongSun => exact computes_meanLongSun.map _
  | eccentricityEarth => exact (computes_ofCentury _ rfl rfl).map _
  | perihelionLongEarth => exact (computes_ofCentury _ rfl rfl).map _
  | centerSun => exact computes_centerSun.map _
  | trueLongSun => exact computes_trueLongSun.map _
  | trueAnomalySun => exact computes_trueAnomalySun.map _
  | sunPosition => exact computes_sunPosition.map _
  | moonPosition => exact computes_moonPosition.map _
  | moonTopo =>
      obtain rfl := hg.resolve_right (by decide)
      exact computes_moonTopo.map _

end Getter

end Gtoaes
