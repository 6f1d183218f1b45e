import Gtoaes.Astro.Stale
import Mathlib.Tactic.Ring

/-!
The methods of `ATimeSpace` that are given the instant, beside the getters that take
it from the object. After an instant has been stored, both agree on every quantity but
two: `LocalSiderealTime` adds nutation to a sidereal time that has been brought into one
turn already, and `MoonPosition` takes the obliquity and the sun from the time that is
stored, whatever instant it is given.
-/

namespace Gtoaes

open Lib Lib.Memo

variable {K : Type} [Field K] [LinearOrder K] [FloorRing K]

/-! ### Objects that runs of calls come to -/

section Runs

variable (mem : AtsMemory K) (trig : Trig K) (fuel : ℕ)

/-- The object after calls on a new one. -/
def objAfter (is : List (AtsCall K)) : ATimeSpace K :=
  ((atsCalls mem trig fuel).exec { state := { obj := mem.new }, hist := [] } is).state.obj

/-- The date a call gives. -/
def AtsCall.date : AtsCall K → Option (CalDate K)
  | .setUTC x => some x
  | .setEpoch t => some (mjd2Cal ((t - 2000.0) * 365.25 + auMjd2K))
  | .setJD jd => some (mjd2Cal (jd - auMjd0))
  | .setMJD mjd => some (mjd2Cal mjd)
  | _ => none

/-- The instant that calls leave stored: that of the last date they had accepted. -/
def storedMjd (is : List (AtsCall K)) : K :=
  is.foldl (fun mjd i =>
    match i.date with
    | some x => if x.checkUTC = 0 then x.modifiedJulianDay else mjd
    | none => mjd) mem.mjd

variable {mem trig fuel}

omit [FloorRing K] in
theorem setTime_mjd (r : AtsRun K) (x : CalDate K) :
    (r.setTime mem x).obj.base.mjd =
      if x.checkUTC = 0 then x.modifiedJulianDay else r.obj.base.mjd := by
  by_cases hx : x.checkUTC = 0
  · simp only [AtsRun.setTime, ATimeSpace.setUTC, if_pos hx]
  · simp only [AtsRun.setTime, ATimeSpace.setUTC, if_neg hx]

theorem objAfter_mjd (is : List (AtsCall K)) :
    (objAfter mem trig fuel is).base.mjd = storedMjd mem is := by
  suffices h : ∀ c : Config (AtsRun K) (Getter × Option (List K)),
      ((atsCalls mem trig fuel).exec c is).state.obj.base.mjd =
        is.foldl _ c.state.obj.base.mjd from h _
  induction is with
  | nil => exact fun _ => rfl
  | cons i is ih =>
      intro c
      rw [Machine.exec, List.foldl_cons, List.foldl_cons]
      refine (ih _).trans (congrArg (is.foldl _) ?_)
      cases i with
      | setSite lgt lat alt tz => rfl
      | get g => exact congrArg AtsBase.mjd (g.leaves_read c.state.obj).1
      | _ => exact setTime_mjd c.state _

/-- The entries of the quantities that depend on the site. -/
def siteEntries : List Ats :=
  [.lmst, .lst, .positionMoonTopoR, .positionMoonTopoRa, .positionMoonTopoDec]

theorem not_mem_cells_of_siteEntries {p : Ats} (hp : p ∈ siteEntries) (q : Ats) :
    p ∉ (atsMeaning trig fuel false).cells q := by
  simp only [siteEntries, List.mem_cons, List.not_mem_nil, or_false] at hp
  obtain rfl | rfl | rfl | rfl | rfl := hp <;> cases q <;> exact of_decide_eq_true rfl

theorem keeps_siteQuantity {q : Ats} {b : AtsBase K} {g : AtsAction K K}
    (hcells : (atsMeaning trig fuel false).cells q = []) (hq : q ∈ siteEntries)
    (h : Keeps (atsMeaning trig fuel false) b g) :
    Keeps (atsMeaning trig fuel false) b (keep q g) := by
  refine keeps_keptOr (h.bind fun v => (keeps_fill_free hcells ?_).bind fun _ =>
    (computes_pure v).keeps)
  intro p hp
  obtain rfl := List.mem_singleton.mp hp
  exact not_mem_cells_of_siteEntries hq

/-- No getter makes a flag lie that does not depend on the site. -/
theorem Getter.keeps_read (g : Getter) (b : AtsBase K) :
    Keeps (atsMeaning trig fuel false) b (g.read trig fuel) := by
  by_cases hg : g.sets = []
  · exact (g.computes_read (.inr hg)).keeps
  · have hlmst : Keeps (atsMeaning trig fuel false) b ATimeSpace.localMeanSiderealTime :=
      keeps_siteQuantity rfl (by decide)
        (ATimeSpace.computes_greenwichMeanSiderealTime.keeps.bind fun _ =>
          (computes_ask _).keeps.bind fun _ => (computes_pure _).keeps)
    cases g with
    | localMeanSiderealTime => exact hlmst.map _
    | localSiderealTime =>
        exact (keeps_siteQuantity rfl (by decide)
          (ATimeSpace.computes_greenwichSiderealTime.keeps.bind fun _ =>
            (computes_ask _).keeps.bind fun _ => (computes_pure _).keeps)).map _
    | moonTopo =>
        refine Keeps.map (keeps_keptOr (hlmst.bind fun lmst =>
          ATimeSpace.computes_moonPosition.keeps.bind fun x => ?_)) _
        cases x with
        | none => exact (computes_pure none).keeps
        | some p =>
            refine (computes_ask _).keeps.bind fun _ => (keeps_fill_free rfl ?_).bind fun _ =>
              (computes_pure _).keeps
            intro p hp
            refine not_mem_cells_of_siteEntries ?_
            simp only [List.map_cons, List.map_nil, List.mem_cons, List.not_mem_nil, or_false] at hp
            obtain rfl | rfl | rfl := hp <;> decide
    | _ => exact absurd rfl hg

theorem coherent_objAfter (is : List (AtsCall K)) :
    Coherent (atsMeaning trig fuel false) (objAfter mem trig fuel is) := by
  suffices h : (atsCalls mem trig fuel).Always
      (fun c => Coherent (atsMeaning trig fuel false) c.state.obj)
      { state := { obj := mem.new }, hist := [] } is from h.exec
  apply Machine.always_of_invariant
  · exact fun q hq => by cases hq
  · intro c i h
    have hset : ∀ x, Coherent (atsMeaning trig fuel false) (c.state.setTime mem x).obj := by
      intro x
      by_cases hx : x.checkUTC = 0
      · simp only [AtsRun.setTime, ATimeSpace.setUTC, if_pos hx]
        exact fun q hq => by cases hq
      · simp only [AtsRun.setTime, ATimeSpace.setUTC, if_neg hx]
        exact h
    cases i with
    | setSite lgt lat alt tz =>
        refine (h.rebase_iff _).mpr fun q hq p hp => ?_
        by_cases hsite : q.OfSite
        · obtain rfl | rfl | rfl := hsite <;> exact absurd hp List.not_mem_nil
        · exact AtsBase.val_withSite hsite hp
    | get g => exact (g.keeps_read _ c.state.obj h rfl).1
    | _ => exact hset _

end Runs

/-! ### Methods that are given the instant -/

/-- The methods that are given an instant, with the longitude where they need it. -/
inductive AtMethod
  | greenwichMeanSiderealTime
  | greenwichSiderealTime
  | localMeanSiderealTime
  | localSiderealTime
  | epoch
  | julianCentury
  | meanObliquity
  | trueObliquity
  | nutation
  | sunPosition
  | moonPosition
  deriving DecidableEq

namespace AtMethod

/-- The getter of the same name. -/
def getter : AtMethod → Getter
  | greenwichMeanSiderealTime => .greenwichMeanSiderealTime
  | greenwichSiderealTime => .greenwichSiderealTime
  | localMeanSiderealTime => .localMeanSiderealTime
  | localSiderealTime => .localSiderealTime
  | epoch => .epoch
  | julianCentury => .julianCentury
  | meanObliquity => .meanObliquity
  | trueObliquity => .trueObliquity
  | nutation => .nutation
  | sunPosition => .sunPosition
  | moonPosition => .moonPosition

/-- A call with the instant `mjd`, or its century. Only `MoonPosition` looks at the
object. -/
def read (trig : Trig K) (fuel : ℕ) (mjd lgt : K) : AtMethod → AtsAction K (Option (List K))
  | greenwichMeanSiderealTime => pure (Getter.one (AtInstant.greenwichMeanSiderealTime mjd))
  | greenwichSiderealTime => pure (Getter.one (AtInstant.greenwichSiderealTime trig mjd))
  | localMeanSiderealTime => pure (Getter.one (AtInstant.localMeanSiderealTime mjd lgt))
  | localSiderealTime => pure (Getter.one (AtInstant.localSiderealTime trig mjd lgt))
  | epoch => pure (Getter.one (AtInstant.epoch mjd))
  | julianCentury => pure (Getter.one (AtInstant.julianCentury mjd))
  | meanObliquity => pure (Getter.one (AtInstant.meanObliquity (AtInstant.julianCentury mjd)))
  | trueObliquity =>
      pure (Getter.one (AtInstant.trueObliquity trig (AtInstant.julianCentury mjd)))
  | nutation => pure (Getter.two (AtInstant.nutation trig (AtInstant.julianCentury mjd)))
  | sunPosition => pure (Getter.two (AtInstant.sunPosition trig (AtInstant.julianCentury mjd)))
  | moonPosition => Getter.three <$> ATimeSpace.moonPositionAt trig fuel mjd

end AtMethod

/-- `SetMJD` stores this instant: its date is accepted and gives it back. -/
def StoresInstant (mjd : K) : Prop :=
  (mjd2Cal mjd).checkUTC = 0 ∧ (mjd2Cal mjd).modifiedJulianDay = mjd

section Agreement

variable (mem : AtsMemory K) (trig : Trig K) (fuel : ℕ) (is : List (AtsCall K))
  (mjd lgt lat alt : K) (tz : ℤ)

/-- After any calls, the method agrees with the getter of its name that is asked after
the site and the instant have been stored. -/
def Agrees (m : AtMethod) : Prop :=
  ((m.read trig fuel mjd (lgt * auD2R)).run (objAfter mem trig fuel is)).1 =
    ((m.getter.read trig fuel).run
      (objAfter mem trig fuel (is ++ [.setSite lgt lat alt tz, .setMJD mjd]))).1

/-- The equation of the equinoxes: what nutation adds to a sidereal time. -/
def equinoxes : K :=
  (AtInstant.nutation trig (AtInstant.julianCentury mjd)).1 *
    trig.cos (AtInstant.trueObliquity trig (AtInstant.julianCentury mjd))

/-- Nutation does not take the mean local sidereal time out of its turn. -/
def InTurn (lgt : K) : Prop :=
  0 ≤ AtInstant.localMeanSiderealTime mjd lgt + equinoxes trig mjd ∧
    AtInstant.localMeanSiderealTime mjd lgt + equinoxes trig mjd < au2Pi

variable {mem trig fuel is mjd lgt lat alt tz}

/-- What the getters return once the instant has been stored. -/
theorem read_stored (mem : AtsMemory K) (hstores : StoresInstant mjd) (g : Getter) :
    ∃ dat, ((g.read trig fuel).run
        (objAfter mem trig fuel (is ++ [.setSite lgt lat alt tz, .setMJD mjd]))).1 =
      g.value trig fuel
        { lgt := lgt * auD2R, lat := lat * auD2R, alt := alt, tz := tz, mjd := mjd, dat := dat } := by
  refine ⟨(mjd2Cal mjd).deltaAT mem.tables, ?_⟩
  set obj := (objAfter mem trig fuel is).setSite lgt lat alt tz
  have hobj : objAfter mem trig fuel (is ++ [.setSite lgt lat alt tz, .setMJD mjd]) =
      obj.setUTC mem.tables (mjd2Cal mjd) := by
    rw [objAfter, Machine.exec_append]
    rfl
  have hset : obj.setUTC mem.tables (mjd2Cal mjd) =
      { obj.invalidate with
        base := { obj.base with dat := (mjd2Cal mjd).deltaAT mem.tables, mjd := mjd } } := by
    rw [ATimeSpace.setUTC, if_pos hstores.1, hstores.2]
  rw [hobj, hset]
  refine (g.computes_read (.inl rfl) _ ?_ rfl).1
  intro q hq
  cases hq

theorem agrees_of_ne (hstores : StoresInstant mjd) {m : AtMethod}
    (hlst : m ≠ .localSiderealTime) (hmoon : m ≠ .moonPosition) :
    Agrees mem trig fuel is mjd lgt lat alt tz m := by
  obtain ⟨dat, hread⟩ := read_stored mem hstores m.getter
  rw [Agrees, hread]
  cases m with
  | localSiderealTime => exact absurd rfl hlst
  | moonPosition => exact absurd rfl hmoon
  | _ => rfl

/-- The two ways to the true local sidereal time agree within one turn. -/
theorem localSiderealTime_agrees_iff [IsStrictOrderedRing K] (hstores : StoresInstant mjd) :
    Agrees mem trig fuel is mjd lgt lat alt tz .localSiderealTime ↔
      InTurn trig mjd (lgt * auD2R) := by
  obtain ⟨dat, hread⟩ := read_stored mem hstores .localSiderealTime
  rw [Agrees, show AtMethod.localSiderealTime.getter = .localSiderealTime from rfl, hread]
  show some [AtInstant.localMeanSiderealTime mjd (lgt * auD2R) + equinoxes trig mjd] =
    some [cycmod (AtInstant.greenwichMeanSiderealTime mjd + equinoxes trig mjd + lgt * auD2R)
      au2Pi] ↔ _
  rw [Option.some.injEq, List.cons.injEq, and_iff_left rfl]
  apply eq_cycmod_iff au2Pi_pos
  refine ⟨-⌊(AtInstant.greenwichMeanSiderealTime mjd + lgt * auD2R) / au2Pi⌋, ?_⟩
  rw [AtInstant.localMeanSiderealTime, cycmod]
  push_cast
  ring

/-- `MoonPosition` agrees if the sun and the obliquity of the stored time will do. -/
theorem moonPosition_agrees_iff (hstores : StoresInstant mjd) :
    Agrees mem trig fuel is mjd lgt lat alt tz .moonPosition ↔
      AtInstant.moonPosition trig fuel mjd (AtInstant.sunStored trig (storedMjd mem is)) =
        AtInstant.moonPosition trig fuel mjd (AtInstant.sunStored trig mjd) := by
  obtain ⟨dat, hread⟩ := read_stored mem hstores .moonPosition
  have hexplicit := (ATimeSpace.computes_moonPositionAt mjd).map Getter.three
    (objAfter mem trig fuel is) (coherent_objAfter is) rfl
  rw [objAfter_mjd] at hexplicit
  rw [Agrees, show AtMethod.moonPosition.getter = .moonPosition from rfl, hread]
  refine Iff.trans (Eq.congr_left hexplicit.1) ?_
  refine (Option.map_injective ?_).eq_iff
  intro x y hxy
  simp only [List.cons.injEq, and_true] at hxy
  exact Prod.ext hxy.1 (Prod.ext hxy.2.1 hxy.2.2)

end Agreement

end Gtoaes
