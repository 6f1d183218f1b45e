import Gtoaes.Astro.SiteChange
import Gtoaes.Lib.Machine

/-!
Whether an `ATimeSpace` ever returns something old. A new time clears every flag;
a new site clears none, and three of the quantities depend on the site: the mean
and the true local sidereal time, and the place of the moon as it is seen from
there.
-/

namespace Gtoaes

open Lib Lib.Memo

/-! ### Runs of calls -/

/-- A call on one object. -/
inductive AtsCall (K : Type)
  | setSite (lgt lat alt : K) (tz : ℤ)
  | setUTC (x : CalDate K)
  | setEpoch (t : K)
  | setJD (jd : K)
  | setMJD (mjd : K)
  | get (g : Getter)

/-- What memory holds before anything is written there: in front of the tables of
`DeltaAT`, and in the entries of a new object. -/
structure AtsMemory (K : Type) where
  tables : BeforeTables K
  mjd : K
  dat : K
  values : Ats → K

/-- Memory in which zeros stand. -/
def zeroMemory : AtsMemory ℚ where
  tables := { delat := 0, drift := (0, 0) }
  mjd := 0
  dat := 0
  values _ := 0

/-- An object with the last site and the last time it has accepted. -/
structure AtsRun (K : Type) where
  obj : ATimeSpace K
  site : Option (K × K × K × ℤ) := none
  time : Option (CalDate K) := none

variable {K : Type} [Field K] [LinearOrder K] [FloorRing K] (mem : AtsMemory K) (trig : Trig K)
  (fuel : ℕ)

def AtsMemory.new : ATimeSpace K := .new mem.mjd mem.dat mem.values

namespace AtsRun

def setTime (x : CalDate K) (r : AtsRun K) : AtsRun K :=
  { r with
    obj := r.obj.setUTC mem.tables x
    time := if x.checkUTC = 0 then some x else r.time }

/-- A new object that is given the last site and the last time accepted. -/
def fresh (r : AtsRun K) : ATimeSpace K :=
  let sited := match r.site with
    | some (lgt, lat, alt, tz) => mem.new.setSite lgt lat alt tz
    | none => mem.new
  match r.time with
  | some x => sited.setUTC mem.tables x
  | none => sited

end AtsRun

/-- One object, one call at a time; a getter hands out what it returns. -/
def atsCalls : Machine (AtsRun K) (AtsCall K) (Getter × Option (List K)) where
  step r
    | .setSite lgt lat alt tz =>
        ({ r with obj := r.obj.setSite lgt lat alt tz, site := some (lgt, lat, alt, tz) }, [])
    | .setUTC x => (r.setTime mem x, [])
    | .setEpoch t => (r.setTime mem (mjd2Cal ((t - 2000.0) * 365.25 + auMjd2K)), [])
    | .setJD jd => (r.setTime mem (mjd2Cal (jd - auMjd0)), [])
    | .setMJD mjd => (r.setTime mem (mjd2Cal mjd), [])
    | .get g =>
        ({ r with obj := ((g.read trig fuel).run r.obj).2 },
          [(g, ((g.read trig fuel).run r.obj).1)])

/-- Once a time has been accepted, every getter returns what it returns from a new
object that is given just the last time and the last site. -/
def ReadsFresh (c : Config (AtsRun K) (Getter × Option (List K))) : Prop :=
  c.state.time.isSome = true → ∀ g : Getter,
    ((g.read trig fuel).run c.state.obj).1 = ((g.read trig fuel).run (c.state.fresh mem)).1

/-! ### Flags that tell the truth -/

/-- The getter that reads the entries of a flag. -/
def Ats.getter : Ats → Option Getter
  | .jd => some .julianDay
  | .tai => some .tai
  | .jc => some .julianCentury
  | .gmst => some .greenwichMeanSiderealTime
  | .gst => some .greenwichSiderealTime
  | .lmst => some .localMeanSiderealTime
  | .lst => some .localSiderealTime
  | .mo => some .meanObliquity
  | .nl => some .nutationLongitude
  | .no => some .nutationObliquity
  | .masun => some .meanAnomalySun
  | .mamoon => some .meanAnomalyMoon
  | .melongMoonSun => some .meanElongationMoonSun
  | .mlanMoon => some .meanLongAscNodeMoon
  | .rlongMoon => some .relLongMoon
  | .mlSun => some .meanLongSun
  | .centerSun => some .centerSun
  | .tlSun => some .trueLongSun
  | .taSun => some .trueAnomalySun
  | .eccentricityEarth => some .eccentricityEarth
  | .plEarth => some .perihelionLongEarth
  | .positionSun => some .sunPosition
  | .positionMoon => some .moonPosition
  | .positionMoonTopo => some .moonTopo
  | _ => none

variable {trig fuel}

/-- A set flag has its getter return the entries. -/
theorem read_of_valid {q : Ats} {g : Getter} (hg : q.getter = some g) {m : ATimeSpace K}
    (hq : m.valid q = true) :
    ((g.read trig fuel).run m).1 = some (((atsMeaning trig fuel true).cells q).map m.value) := by
  have hkept : ∀ {α : Type} (f : α → Option (List K)) (kept : (Ats → K) → α)
      (compute : AtsAction K α), ((f <$> keptOr q kept compute).run m).1 = f (kept m.value) := by
    intro α f kept compute
    have hrun := run_keptOr q kept compute m
    rw [if_pos hq] at hrun
    exact congrArg (fun x => f x.1) hrun
  cases q <;> cases hg
  case positionSun => exact hkept Getter.two (fun v => (v .positionSunRa, v .positionSunDec)) _
  case positionMoon =>
    exact hkept Getter.three
      (fun v => some (v .positionMoonR, v .positionMoonRa, v .positionMoonDec)) _
  case positionMoonTopo =>
    exact hkept Getter.three
      (fun v => some (v .positionMoonTopoR, v .positionMoonTopoRa, v .positionMoonTopoDec)) _
  all_goals exact hkept Getter.one (fun v => v _) _

/-- What the getter of a flag is to return are the values its entries are to hold. -/
theorem value_of_getter {q : Ats} {g : Getter} (hg : q.getter = some g) {b : AtsBase K}
    {v : Ats → K} (h : g.value trig fuel b = some (((atsMeaning trig fuel true).cells q).map v)) :
    ∀ p ∈ (atsMeaning trig fuel true).cells q, (atsMeaning trig fuel true).val b p = some (v p) := by
  have hthree : ∀ {x : Option (K × K × K)} {r ra dec : K}, Getter.three x = some [r, ra, dec] →
      x = some (r, ra, dec) := by
    intro x r ra dec hx
    obtain ⟨p, hp, hlist⟩ := Option.map_eq_some_iff.mp hx
    simp only [List.cons.injEq, and_true] at hlist
    obtain ⟨rfl, rfl, rfl⟩ := hlist
    exact hp
  cases q <;> cases hg <;>
    simp only [atsMeaning, if_true, List.mem_cons, List.not_mem_nil, or_false, forall_eq_or_imp,
      forall_eq, List.map_cons, List.map_nil] at h ⊢
  case positionMoon =>
    rw [hthree h]
    exact ⟨rfl, rfl, rfl⟩
  case positionMoonTopo =>
    rw [hthree h]
    exact ⟨rfl, rfl, rfl⟩
  case positionSun =>
    simp only [Getter.value, Getter.two, Option.some.injEq, List.cons.injEq, and_true] at h
    exact ⟨congrArg some h.1, congrArg some h.2⟩
  all_goals
    simp only [Getter.value, Getter.one, Option.some.injEq, List.cons.injEq, and_true] at h
    exact congrArg some h

/-- The flags tell the truth if and only if every getter returns what it is to. -/
theorem coherent_iff_reads {m : ATimeSpace K} :
    Coherent (atsMeaning trig fuel true) m ↔
      ∀ g : Getter, ((g.read trig fuel).run m).1 = g.value trig fuel m.base := by
  constructor
  · intro h g
    exact (g.computes_read (.inl rfl) m h rfl).1
  · intro h q hq
    cases hg : q.getter with
    | some g => exact value_of_getter hg ((h g).symm.trans (read_of_valid hg hq))
    | none => cases q <;> cases hg <;> exact fun p hp => absurd hp List.not_mem_nil

/-! ### What the calls do to the data and the flags -/

namespace AtsRun

/-- The object has the data of the last site and the last time accepted. -/
structure Based (r : AtsRun K) : Prop where
  base : r.obj.base = (r.fresh mem).base
  accepted : ∀ x, r.time = some x → x.checkUTC = 0

omit [FloorRing K] in
theorem based_new : Based mem { obj := mem.new } where
  base := rfl
  accepted x hx := by cases hx

variable {mem}

omit [FloorRing K] in
theorem Based.setSite {r : AtsRun K} (h : Based mem r) (lgt lat alt : K) (tz : ℤ) :
    Based mem
      { r with obj := r.obj.setSite lgt lat alt tz, site := some (lgt, lat, alt, tz) } where
  base := by
    obtain ⟨obj, site, time⟩ := r
    obtain ⟨hbase, hacc⟩ := h
    cases time with
    | none => rcases site with _ | ⟨lgt', lat', alt', tz'⟩ <;>
        simp_all [fresh, ATimeSpace.setSite]
    | some x =>
        have hx := hacc x rfl
        rcases site with _ | ⟨lgt', lat', alt', tz'⟩ <;>
          simp_all [fresh, ATimeSpace.setSite, ATimeSpace.setUTC, invalidate]
  accepted := h.accepted

omit [FloorRing K] in
theorem Based.setTime {r : AtsRun K} (h : Based mem r) (x : CalDate K) :
    Based mem (r.setTime mem x) := by
  by_cases hx : x.checkUTC = 0
  · refine ⟨?_, fun y hy => ?_⟩
    · obtain ⟨obj, site, time⟩ := r
      obtain ⟨hbase, hacc⟩ := h
      cases time with
      | none => simp_all [AtsRun.setTime, fresh, ATimeSpace.setUTC, invalidate]
      | some y =>
          have hy := hacc y rfl
          simp_all [AtsRun.setTime, fresh, ATimeSpace.setUTC, invalidate]
    · simp only [AtsRun.setTime, if_pos hx, Option.some.injEq] at hy
      exact hy ▸ hx
  · have hr : r.setTime mem x = r := by
      simp only [AtsRun.setTime, ATimeSpace.setUTC, if_neg hx]
    rw [hr]
    exact h

theorem Based.get {r : AtsRun K} (h : Based mem r) (g : Getter) :
    Based mem { r with obj := ((g.read trig fuel).run r.obj).2 } where
  base := (g.leaves_read r.obj).1.trans h.base
  accepted := h.accepted

/-- A new object that has been given a time keeps nothing. -/
theorem Based.coherent_fresh {r : AtsRun K} (h : Based mem r)
    (htime : r.time.isSome = true) : Coherent (atsMeaning trig fuel true) (r.fresh mem) := by
  obtain ⟨x, hx⟩ := Option.isSome_iff_exists.mp htime
  intro q hq
  simp only [fresh, hx, ATimeSpace.setUTC, if_pos (h.accepted x hx)] at hq
  cases hq

end AtsRun

variable {mem}

theorem based_next {c : Config (AtsRun K) (Getter × Option (List K))}
    (h : c.state.Based mem) (i : AtsCall K) :
    ((atsCalls mem trig fuel).next c i).state.Based mem := by
  cases i with
  | setSite lgt lat alt tz => exact h.setSite lgt lat alt tz
  | get g => exact h.get g
  | _ => exact h.setTime _

/-- Nothing old is returned if and only if the flags tell the truth. -/
theorem readsFresh_iff {c : Config (AtsRun K) (Getter × Option (List K))}
    (h : c.state.Based mem) :
    ReadsFresh mem trig fuel c ↔
      (c.state.time.isSome = true → Coherent (atsMeaning trig fuel true) c.state.obj) := by
  refine forall_congr' fun htime => ?_
  have hfresh : ∀ g : Getter, ((g.read trig fuel).run (c.state.fresh mem)).1 = _ :=
    coherent_iff_reads.mp (h.coherent_fresh htime)
  rw [coherent_iff_reads]
  refine forall_congr' fun g => ?_
  rw [hfresh g, h.base]

/-- A new site keeps the flags that are set true. -/
def KeepsFlags (trig : Trig K) (fuel : ℕ) (c : Config (AtsRun K) (Getter × Option (List K))) :
    AtsCall K → Prop
  | .setSite lgt lat alt tz => c.state.time.isSome = true →
      (c.state.obj.valid .lmst = true ∨ c.state.obj.valid .lst = true →
        WholeTurns (lgt * auD2R) c.state.obj.base.lgt) ∧
      (c.state.obj.valid .positionMoonTopo = true →
        (c.state.obj.base.withSite (lgt * auD2R) (lat * auD2R) alt tz).moonTopo trig fuel =
          c.state.obj.base.moonTopo trig fuel)
  | _ => True

theorem coherent_setTime {r : AtsRun K} (h : r.time.isSome = true →
    Coherent (atsMeaning trig fuel true) r.obj) (x : CalDate K)
    (htime : (r.setTime mem x).time.isSome = true) :
    Coherent (atsMeaning trig fuel true) (r.setTime mem x).obj := by
  by_cases hx : x.checkUTC = 0
  · simp only [AtsRun.setTime, ATimeSpace.setUTC, if_pos hx]
    exact fun q hq => nomatch hq
  · simp only [AtsRun.setTime, ATimeSpace.setUTC, if_neg hx] at htime ⊢
    exact h htime

theorem readsFresh_next_iff [IsStrictOrderedRing K]
    {c : Config (AtsRun K) (Getter × Option (List K))} {i : AtsCall K}
    (h : c.state.Based mem) (hreads : ReadsFresh mem trig fuel c) :
    ReadsFresh mem trig fuel ((atsCalls mem trig fuel).next c i) ↔ KeepsFlags trig fuel c i := by
  rw [readsFresh_iff (based_next h i)]
  have hold := (readsFresh_iff h).mp hreads
  cases i with
  | setSite lgt lat alt tz =>
      exact forall_congr' fun htime => coherent_withSite_iff (hold htime)
  | get g =>
      refine iff_of_true (fun htime => ?_) trivial
      exact (g.computes_read (.inl rfl) c.state.obj (hold htime) rfl).2.1
  | _ => exact iff_of_true (coherent_setTime hold _) trivial

/-- Under given functions, nothing old is returned if and only if every new site keeps
the flags true. -/
theorem always_readsFresh_iff [IsStrictOrderedRing K] (is : List (AtsCall K)) :
    (atsCalls mem trig fuel).Always (ReadsFresh mem trig fuel)
        { state := { obj := mem.new }, hist := [] } is ↔
      (atsCalls mem trig fuel).Each (KeepsFlags trig fuel)
        { state := { obj := mem.new }, hist := [] } is :=
  Machine.always_iff_each
    (Machine.each_of_invariant (P := fun c => c.state.Based mem) (AtsRun.based_new mem)
      fun _ i h => based_next h i)
    (fun htime => nomatch htime) fun _ _ h hreads => readsFresh_next_iff h hreads

end Gtoaes
