import Gtoaes.Astro.Stale

/-!
When an `ATimeSpace` returns nothing old, told from the calls alone: a new site must
be whole turns from the old one once a local sidereal time has been asked for, and at
the same latitude once the moon has been asked for as it is seen from the site, until
the next time is accepted.
-/

namespace Gtoaes

open Lib Lib.Memo

/-- What has been asked for at the site, in radians, since the last time accepted. -/
structure SiteAsked (K : Type) where
  lgt : K
  lat : K
  timed : Bool := false
  long : Bool := false
  topo : Bool := false

variable {K : Type} [Field K] [LinearOrder K] [FloorRing K]

namespace SiteAsked

def new : SiteAsked K := { lgt := 0, lat := 0 }

def setTime (x : CalDate K) (s : SiteAsked K) : SiteAsked K :=
  if x.checkUTC = 0 then { s with timed := true, long := false, topo := false } else s

def ask : Getter → SiteAsked K → SiteAsked K
  | .localMeanSiderealTime, s => { s with long := true }
  | .localSiderealTime, s => { s with long := true }
  | .moonTopo, s => { s with long := true, topo := true }
  | _, s => s

end SiteAsked

/-- What the calls ask for. -/
def siteAsked : Machine (SiteAsked K) (AtsCall K) Empty where
  step s
    | .setSite lgt lat _ _ => ({ s with lgt := lgt * auD2R, lat := lat * auD2R }, [])
    | .setUTC x => (s.setTime x, [])
    | .setEpoch t => (s.setTime (mjd2Cal ((t - 2000.0) * 365.25 + auMjd2K)), [])
    | .setJD jd => (s.setTime (mjd2Cal (jd - auMjd0)), [])
    | .setMJD mjd => (s.setTime (mjd2Cal mjd), [])
    | .get g => (s.ask g, [])

/-- A new site leaves what has been asked for as it was. -/
def KeepsSite (d : Config (SiteAsked K) Empty) : AtsCall K → Prop
  | .setSite lgt lat _ _ => d.state.timed = true →
      (d.state.long = true → WholeTurns (lgt * auD2R) d.state.lgt) ∧
      (d.state.topo = true → lat * auD2R = d.state.lat)
  | _ => True

/-! ### The flags follow the calls -/

/-- The loop of `MoonPosition` always ends. -/
def MoonFound (trig : Trig K) (fuel : ℕ) : Prop :=
  ∀ mjd s, (AtInstant.moonPosition trig fuel mjd s).isSome = true

variable {mem : AtsMemory K} {trig : Trig K} {fuel : ℕ}

/-- The flags of the site stand as the calls have asked. The place of the moon is kept
only if it has been found. -/
structure FlagsFollow (trig : Trig K) (fuel : ℕ) (r : AtsRun K) (s : SiteAsked K) : Prop where
  lgt : r.obj.base.lgt = s.lgt
  lat : r.obj.base.lat = s.lat
  timed : r.time.isSome = s.timed
  long : s.long = true ↔ r.obj.valid .lmst = true ∨ r.obj.valid .lst = true
  topo : r.obj.valid .positionMoonTopo = true → s.topo = true
  found : MoonFound trig fuel → s.topo = true → r.obj.valid .positionMoonTopo = true
  within : r.obj.valid .positionMoonTopo = true → r.obj.valid .lmst = true

namespace FlagsFollow

variable {r : AtsRun K} {s : SiteAsked K}

theorem setTime (h : FlagsFollow trig fuel r s) (x : CalDate K) :
    FlagsFollow trig fuel (r.setTime mem x) (s.setTime x) := by
  by_cases hx : x.checkUTC = 0
  · simp only [AtsRun.setTime, ATimeSpace.setUTC, SiteAsked.setTime, if_pos hx]
    exact { lgt := h.lgt, lat := h.lat, timed := rfl, long := by simp [invalidate]
            topo := Bool.noConfusion, found := fun _ => Bool.noConfusion
            within := Bool.noConfusion }
  · simpa only [AtsRun.setTime, ATimeSpace.setUTC, SiteAsked.setTime, if_neg hx] using h

/-- A getter changes the flags of the site only as it is said to. -/
theorem flag (trig : Trig K) (fuel : ℕ) (r : AtsRun K) {g : Getter} {q : Ats} (hg : q ∉ g.sets)
    (hq : q.OfSite) :
    ((g.read trig fuel).run r.obj).2.valid q = r.obj.valid q :=
  (g.leaves_read r.obj).2 q ⟨hq, hg⟩

theorem ask_other (h : FlagsFollow trig fuel r s) {g : Getter} (hg : g.sets = []) :
    FlagsFollow trig fuel { r with obj := ((g.read trig fuel).run r.obj).2 } s := by
  have hflag : ∀ q : Ats, q.OfSite → ((g.read trig fuel).run r.obj).2.valid q = r.obj.valid q :=
    fun q hq => flag trig fuel r (hg ▸ List.not_mem_nil) hq
  have hlmst := hflag .lmst (by decide)
  have hlst := hflag .lst (by decide)
  have htopo := hflag .positionMoonTopo (by decide)
  have hbase : ((g.read trig fuel).run r.obj).2.base = r.obj.base := (g.leaves_read r.obj).1
  exact
    { lgt := hbase ▸ h.lgt
      lat := hbase ▸ h.lat
      timed := h.timed
      long := by rw [hlmst, hlst]; exact h.long
      topo := by rw [htopo]; exact h.topo
      found := by rw [htopo]; exact h.found
      within := by rw [htopo, hlmst]; exact h.within }

theorem ask (h : FlagsFollow trig fuel r s) (g : Getter) :
    FlagsFollow trig fuel { r with obj := ((g.read trig fuel).run r.obj).2 } (s.ask g) := by
  have hbase : ((g.read trig fuel).run r.obj).2.base = r.obj.base := (g.leaves_read r.obj).1
  cases g with
  | localMeanSiderealTime =>
      have hlmst : ((Getter.localMeanSiderealTime.read trig fuel).run r.obj).2.valid .lmst = true :=
        valid_keep _ _
      have htopo := flag trig fuel r
        (show .positionMoonTopo ∉ Getter.localMeanSiderealTime.sets by decide) (by decide)
      exact
        { lgt := hbase ▸ h.lgt
          lat := hbase ▸ h.lat
          timed := h.timed
          long := iff_of_true rfl (.inl hlmst)
          topo := by rw [htopo]; exact h.topo
          found := by rw [htopo]; exact h.found
          within := fun _ => hlmst }
  | localSiderealTime =>
      have hlst : ((Getter.localSiderealTime.read trig fuel).run r.obj).2.valid .lst = true :=
        valid_keep _ _
      have htopo := flag trig fuel r
        (show .positionMoonTopo ∉ Getter.localSiderealTime.sets by decide) (by decide)
      have hlmst := flag trig fuel r
        (show .lmst ∉ Getter.localSiderealTime.sets by decide) (by decide)
      exact
        { lgt := hbase ▸ h.lgt
          lat := hbase ▸ h.lat
          timed := h.timed
          long := iff_of_true rfl (.inr hlst)
          topo := by rw [htopo]; exact h.topo
          found := by rw [htopo]; exact h.found
          within := by rw [htopo, hlmst]; exact h.within }
  | moonTopo =>
      have hlmst : ((Getter.moonTopo.read trig fuel).run r.obj).2.valid .lmst = true := by
        cases hq : r.obj.valid .positionMoonTopo with
        | false => exact ATimeSpace.valid_lmst_moonTopo hq
        | true =>
            have hrun : ((ATimeSpace.moonTopo trig fuel).run r.obj).2 = r.obj := by
              rw [ATimeSpace.moonTopo, run_keptOr, if_pos hq]
            show ((ATimeSpace.moonTopo trig fuel).run r.obj).2.valid .lmst = true
            rw [hrun]
            exact h.within hq
      exact
        { lgt := hbase ▸ h.lgt
          lat := hbase ▸ h.lat
          timed := h.timed
          long := iff_of_true rfl (.inl hlmst)
          topo := fun _ => rfl
          found := fun hmoon _ => ATimeSpace.valid_moonTopo hmoon _
          within := fun _ => hlmst }
  | _ => exact h.ask_other rfl

theorem start : FlagsFollow trig fuel { obj := mem.new } SiteAsked.new where
  lgt := rfl
  lat := rfl
  timed := rfl
  long := by simp [SiteAsked.new, AtsMemory.new, ATimeSpace.new]
  topo := nofun
  found _ := nofun
  within := nofun

/-- The flags and the calls stay in step. -/
theorem next {c : Config (AtsRun K) (Getter × Option (List K))} {d : Config (SiteAsked K) Empty}
    (h : FlagsFollow trig fuel c.state d.state) (i : AtsCall K) :
    FlagsFollow trig fuel ((atsCalls mem trig fuel).next c i).state (siteAsked.next d i).state := by
  cases i with
  | setSite lgt lat alt tz => exact { h with lgt := rfl, lat := rfl }
  | get g => exact h.ask g
  | _ => exact h.setTime _

end FlagsFollow

variable [IsStrictOrderedRing K]

/-- Moves that leave what has been asked for as it was leave the flags true. -/
theorem FlagsFollow.keepsFlags {c : Config (AtsRun K) (Getter × Option (List K))}
    {d : Config (SiteAsked K) Empty} (h : FlagsFollow trig fuel c.state d.state) {i : AtsCall K}
    (hi : KeepsSite d i) : KeepsFlags trig fuel c i := by
  cases i with
  | setSite lgt lat alt tz =>
      intro htime
      obtain ⟨hlong, htopo⟩ := hi (h.timed ▸ htime)
      have hturns : c.state.obj.valid .lmst = true ∨ c.state.obj.valid .lst = true →
          WholeTurns (lgt * auD2R) c.state.obj.base.lgt := by
        intro hq
        rw [h.lgt]
        exact hlong (h.long.mpr hq)
      refine ⟨hturns, fun hq => ?_⟩
      apply AtsBase.moonTopo_withSite (hturns (.inl (h.within hq)))
      rw [h.lat]
      exact htopo (h.topo hq)
  | _ => trivial

/-- Under functions that tell the latitude of a site from the others, only such moves
leave the flags true. -/
theorem FlagsFollow.keepsSite {c : Config (AtsRun K) (Getter × Option (List K))}
    {d : Config (SiteAsked K) Empty} {lgt lat alt : K} {tz : ℤ}
    (h : FlagsFollow (trigAt (geocentricAt (lat * auD2R))) 1 c.state d.state)
    (hi : KeepsFlags (trigAt (geocentricAt (lat * auD2R))) 1 c (.setSite lgt lat alt tz)) :
    KeepsSite d (.setSite lgt lat alt tz) := by
  intro htimed
  obtain ⟨hturns, htopo⟩ := hi (h.timed.trans htimed)
  refine ⟨fun hlong => ?_, fun hasked => ?_⟩
  · rw [← h.lgt]
    exact hturns (h.long.mp hlong)
  · rw [← h.lat]
    exact lat_eq_of_moonTopo (htopo (h.found (isSome_moonPosition_trigAt _) hasked))

/-- Whatever the trigonometric functions are, every getter returns what it returns from
a new object with the last time and the last site: exactly in the runs in which each new
site leaves what has been asked for as it was. -/
theorem always_readsFresh_iff_keepsSite (mem : AtsMemory K) (is : List (AtsCall K)) :
    (∀ (trig : Trig K) (fuel : ℕ),
        (atsCalls mem trig fuel).Always (ReadsFresh mem trig fuel)
          { state := { obj := mem.new }, hist := [] } is) ↔
      siteAsked.Each KeepsSite { state := SiteAsked.new, hist := [] } is := by
  constructor
  · intro hreads
    rw [Machine.each_iff_split]
    intro pre i post hsplit
    cases i with
    | setSite lgt lat alt tz =>
        have hflags := (always_readsFresh_iff is).mp
          (hreads (trigAt (geocentricAt (lat * auD2R))) 1)
        have htracks := Machine.sim_exec
          (M := atsCalls mem (trigAt (geocentricAt (lat * auD2R))) 1)
          (S := fun c d => FlagsFollow (trigAt (geocentricAt (lat * auD2R))) 1 c.state d.state)
          (c := { state := { obj := mem.new }, hist := [] })
          (d := { state := SiteAsked.new, hist := [] })
          FlagsFollow.start (fun _ _ i h => h.next i) pre
        exact htracks.keepsSite (Machine.each_iff_split.mp hflags pre _ post hsplit)
    | _ => trivial
  · intro hkeeps trig fuel
    rw [always_readsFresh_iff]
    exact Machine.each_of_sim (S := fun c d => FlagsFollow trig fuel c.state d.state) FlagsFollow.start
      (fun _ _ i h => h.next i) (fun _ _ _ h => h.keepsFlags) hkeeps

/-- A site is given before anything is asked for, and again with nothing changed. -/
def sameSite : List (AtsCall ℚ) :=
  [.setUTC ⟨2024, 3, 1, 0⟩, .setSite 117 40 900 8, .get .localMeanSiderealTime, .get .moonTopo,
    .setSite 117 40 900 8, .get .localSiderealTime]

theorem always_readsFresh_sameSite :
    (atsCalls zeroMemory (trigAt 0) 1).Always (ReadsFresh zeroMemory (trigAt 0) 1)
      { state := { obj := zeroMemory.new }, hist := [] } sameSite :=
  (always_readsFresh_iff_keepsSite zeroMemory sameSite).mpr
    ⟨trivial, fun _ => ⟨nofun, nofun⟩, trivial, trivial,
      fun _ => ⟨fun _ => wholeTurns_self _, fun _ => rfl⟩, trivial, trivial⟩ (trigAt 0) 1

/-- The time is set and the mean local sidereal time asked for at longitude 0; then the
site moves to longitude 180. -/
def movedSite : List (AtsCall ℚ) :=
  [.setUTC ⟨2024, 3, 1, 0⟩, .get .localMeanSiderealTime, .setSite 180 0 0 8]

/-- The mean local sidereal time is still that of longitude 0. -/
theorem not_always_readsFresh :
    ¬ (atsCalls zeroMemory (trigAt 0) 1).Always (ReadsFresh zeroMemory (trigAt 0) 1)
      { state := { obj := zeroMemory.new }, hist := [] } movedSite := by
  rw [always_readsFresh_iff]
  rintro ⟨-, -, hmoved, -⟩
  have hkept : ∀ m : ATimeSpace ℚ, ((Getter.localMeanSiderealTime.read (trigAt 0) 1).run m).2.valid
      .lmst = true := fun _ => valid_keep _ _
  obtain ⟨k, hk⟩ := (hmoved (by decide +kernel)).1 (.inl
    (hkept (zeroMemory.new.setUTC zeroMemory.tables ⟨2024, 3, 1, 0⟩)))
  have hlgt : (180 : ℚ) * 0.01745329251994329576923691 - 0 = k * 6.283185307179586476925287 := hk
  have hpos : (0 : ℚ) < k := by linarith
  have hone : (k : ℚ) < 1 := by linarith
  norm_cast at hpos hone
  omega

end Gtoaes
