import Gtoaes.Astro.SiteFlags
import Gtoaes.Astro.Kept
import Mathlib.Algebra.Order.Floor.Ring
import Mathlib.Tactic.LinearCombination
import Mathlib.Tactic.NormNum
import Mathlib.Tactic.Ring
import Mathlib.Tactic.FieldSimp

/-!
What a new site does to the quantities that depend on it. A longitude that is whole
turns from the old one keeps the local sidereal times; the place of the moon as it
is seen from the site depends on the latitude too, by the parallax.
-/

namespace Gtoaes

open Lib Lib.Memo

variable {K : Type} [Field K] [LinearOrder K] [FloorRing K] {trig : Trig K} {fuel : ℕ}

/-- Angles that are an integer number of turns apart. -/
def WholeTurns (x y : K) : Prop := ∃ k : ℤ, x - y = k * au2Pi

omit [LinearOrder K] [FloorRing K] in
theorem wholeTurns_self (x : K) : WholeTurns x x := ⟨0, by rw [sub_self, Int.cast_zero, zero_mul]⟩

section Floor

variable [IsStrictOrderedRing K]

theorem cycmod_eq_iff {x y period : K} (hperiod : 0 < period) :
    cycmod x period = cycmod y period ↔ ∃ k : ℤ, x - y = k * period := by
  constructor
  · intro h
    refine ⟨⌊x / period⌋ - ⌊y / period⌋, ?_⟩
    rw [cycmod, cycmod] at h
    push_cast
    linear_combination h
  · rintro ⟨k, hk⟩
    have hquot : x / period = y / period + k := by
      field_simp
      linear_combination hk
    rw [cycmod, cycmod, hquot, Int.floor_add_intCast]
    push_cast
    linear_combination hk

theorem cycmod_mem (x : K) {period : K} (hperiod : 0 < period) :
    0 ≤ cycmod x period ∧ cycmod x period < period := by
  have hle := (le_div_iff₀ hperiod).mp (Int.floor_le (x / period))
  have hlt := (div_lt_iff₀ hperiod).mp (Int.lt_floor_add_one (x / period))
  rw [add_mul, one_mul] at hlt
  rw [cycmod]
  exact ⟨sub_nonneg_of_le hle, sub_lt_iff_lt_add'.mpr hlt⟩

/-- What `cycmod` returns is the one number in the first period that differs by whole
periods. -/
theorem eq_cycmod_iff {x y period : K} (hperiod : 0 < period)
    (hturns : ∃ k : ℤ, x - y = k * period) :
    x = cycmod y period ↔ 0 ≤ x ∧ x < period := by
  have hself : cycmod x period = cycmod y period := (cycmod_eq_iff hperiod).mpr hturns
  constructor
  · rintro rfl
    exact cycmod_mem y hperiod
  · rintro ⟨hle, hlt⟩
    have hfloor : ⌊x / period⌋ = 0 := by
      rw [Int.floor_eq_zero_iff]
      exact ⟨div_nonneg hle hperiod.le, (div_lt_one hperiod).mpr hlt⟩
    rw [← hself, cycmod, hfloor, Int.cast_zero, zero_mul, sub_zero]

theorem au2Pi_pos : (0 : K) < au2Pi := by
  unfold au2Pi
  norm_num

/-- A local time is kept if and only if the longitude moves by whole turns. -/
theorem cycmod_add_eq_iff (x lgt lgt' : K) :
    cycmod (x + lgt') au2Pi = cycmod (x + lgt) au2Pi ↔ WholeTurns lgt' lgt := by
  rw [cycmod_eq_iff au2Pi_pos, WholeTurns]
  refine exists_congr fun k => ?_
  rw [add_sub_add_left_eq_sub]

end Floor

namespace AtsBase

/-- The data with another site. -/
def withSite (lgt lat alt : K) (tz : ℤ) (b : AtsBase K) : AtsBase K :=
  { b with lgt := lgt, lat := lat, alt := alt, tz := tz }

variable {lgt lat alt : K} {tz : ℤ} {b : AtsBase K}

/-- The other quantities do not depend on the site. -/
theorem val_withSite {sited : Bool} {q p : Ats} (hq : ¬ q.OfSite)
    (hp : p ∈ (atsMeaning trig fuel sited).cells q) :
    (atsMeaning trig fuel sited).val (b.withSite lgt lat alt tz) p =
      (atsMeaning trig fuel sited).val b p := by
  cases q <;>
    simp only [atsMeaning, List.mem_cons, List.not_mem_nil, or_false, Ats.OfSite, reduceCtorEq,
      or_self, not_true_eq_false, or_true, not_false_eq_true] at hq hp <;>
    first
    | (subst hp; rfl)
    | (obtain rfl | rfl := hp <;> rfl)
    | (obtain rfl | rfl | rfl := hp <;> rfl)

variable [IsStrictOrderedRing K]

theorem localMeanSiderealTime_withSite :
    (b.withSite lgt lat alt tz).localMeanSiderealTime = b.localMeanSiderealTime ↔
      WholeTurns lgt b.lgt :=
  cycmod_add_eq_iff _ _ _

theorem localSiderealTime_withSite :
    (b.withSite lgt lat alt tz).localSiderealTime trig = b.localSiderealTime trig ↔
      WholeTurns lgt b.lgt :=
  cycmod_add_eq_iff _ _ _

theorem moonTopo_withSite (hlgt : WholeTurns lgt b.lgt) (hlat : lat = b.lat) :
    (b.withSite lgt lat alt tz).moonTopo trig fuel = b.moonTopo trig fuel := by
  rw [moonTopo, moonTopo, localMeanSiderealTime_withSite.mpr hlgt]
  subst hlat
  rfl

end AtsBase

/-- The three entries of a position determine it. -/
theorem entries_ext {α : Type} {x y : Option (α × α × α)}
    (hr : x.map (fun p => p.1) = y.map fun p => p.1)
    (hra : x.map (fun p => p.2.1) = y.map fun p => p.2.1)
    (hdec : x.map (fun p => p.2.2) = y.map fun p => p.2.2) : x = y := by
  cases y with
  | none => exact Option.map_eq_none_iff.mp hr
  | some p => exact (ATimeSpace.eq_of_entries hr hra hdec).symm

/-- The flags of an object go on to tell the truth at a new site, if those that are
set are of quantities that have not changed. -/
theorem coherent_withSite_iff [IsStrictOrderedRing K] {m : ATimeSpace K}
    (h : Coherent (atsMeaning trig fuel true) m) {lgt lat alt : K} {tz : ℤ} :
    Coherent (atsMeaning trig fuel true) { m with base := m.base.withSite lgt lat alt tz } ↔
      (m.valid .lmst = true ∨ m.valid .lst = true → WholeTurns lgt m.base.lgt) ∧
      (m.valid .positionMoonTopo = true →
        (m.base.withSite lgt lat alt tz).moonTopo trig fuel = m.base.moonTopo trig fuel) := by
  rw [h.rebase_iff]
  constructor
  · intro hval
    refine ⟨?_, fun hq => ?_⟩
    · rintro (hq | hq)
      · have hkept := hval _ hq .lmst List.mem_cons_self
        exact AtsBase.localMeanSiderealTime_withSite.mp (Option.some.inj hkept)
      · have hkept := hval _ hq .lst List.mem_cons_self
        exact AtsBase.localSiderealTime_withSite.mp (Option.some.inj hkept)
    · exact entries_ext (hval _ hq .positionMoonTopoR (by simp [atsMeaning]))
        (hval _ hq .positionMoonTopoRa (by simp [atsMeaning]))
        (hval _ hq .positionMoonTopoDec (by simp [atsMeaning]))
  · rintro ⟨hturns, htopo⟩ q hq p hp
    by_cases hsite : q.OfSite
    · obtain rfl | rfl | rfl := hsite
      · obtain rfl := List.mem_singleton.mp hp
        exact congrArg some
          (AtsBase.localMeanSiderealTime_withSite.mpr (hturns (.inl hq)))
      · obtain rfl := List.mem_singleton.mp hp
        exact congrArg some (AtsBase.localSiderealTime_withSite.mpr (hturns (.inr hq)))
      · simp only [atsMeaning, if_true, List.mem_cons, List.not_mem_nil, or_false] at hp
        obtain rfl | rfl | rfl := hp <;> simp only [atsMeaning, htopo hq]
    · exact AtsBase.val_withSite hsite hp

/-! ### A new latitude shows -/

/-- Functions under which the tangent tells one angle from all others and the loop of
`MoonPosition` leaves at once. -/
def trigAt (x : K) : Trig K where
  sin _ := 1
  cos _ := 0
  tan y := if y = x then 1 else 0
  asin _ := 1
  sqrt _ := 1
  atan2 y _ := y

/-- The geocentric latitude of `MoonTopo` under such functions. -/
def geocentricAt (lat : K) : K := (lat * auR2D - 0.1924) * auD2R

variable [IsStrictOrderedRing K]

omit [IsStrictOrderedRing K] in
theorem geocentricAt_injective : Function.Injective (geocentricAt : K → K) := by
  intro x y h
  have hr2d : (auR2D : K) ≠ 0 := by unfold auR2D; norm_num
  have hd2r : (auD2R : K) ≠ 0 := by unfold auD2R; norm_num
  have hmul := mul_right_cancel₀ hd2r h
  exact mul_right_cancel₀ hr2d (sub_left_injective hmul)

theorem isSome_moonPosition_trigAt (x mjd : K) (s : AtInstant.SunStored K) :
    (AtInstant.moonPosition (trigAt x) 1 mjd s).isSome = true := by
  set o := AtInstant.moonOrbit mjd
  set e0 := cycmod (o.m + o.e * 1 * (1 + o.e * 0)) au2Pi
  have hnext : AtInstant.keplerNext (trigAt x) o e0 = o.m + o.e * 1 * (1 + o.e * 0) := by
    show e0 - (e0 - o.e * 1 - o.m) / (1 - o.e * 0) = _
    ring
  have hbody : AtInstant.keplerBody (trigAt x) o 0
      (e0, cycmod (AtInstant.keplerNext (trigAt x) o e0) au2Pi) = .inr e0 := by
    rw [hnext, AtInstant.keplerBody, sub_self, abs_zero, if_neg (by norm_num)]
  have hkepler : AtInstant.kepler (trigAt x) 1 o = some e0 := by
    show Loop.run _ 1 0 (e0, cycmod (AtInstant.keplerNext (trigAt x) o e0) au2Pi) = some e0
    rw [Loop.run, hbody]
  rw [AtInstant.moonPosition, hkepler]
  rfl

/-- The declination of the moon as seen from a latitude. -/
theorem topocentric_trigAt (x lat lmst : K) (p : K × K × K) :
    (ATimeSpace.topocentric (trigAt x) lat lmst p).2.2 =
      if geocentricAt lat = x then p.2.2 - 0.99883 else p.2.2 := by
  have hgclat : (lat * auR2D - 0.1924 * 1) * auD2R = geocentricAt lat := by
    rw [geocentricAt, mul_one]
  show (if |(if (lat * auR2D - 0.1924 * 1) * auD2R = x then (1 : K) else 0)| ≥ 0.0001 then
      p.2.2 - 1 * (0.99883 + 0.00167 * 0) * 1 * 1 / 1
    else p.2.2 + 1 * (0.99883 + 0.00167 * 0) * 1 * 1 * 0) = _
  rw [hgclat]
  by_cases hx : geocentricAt lat = x
  · rw [if_pos hx, if_pos hx, abs_one, if_pos (by norm_num)]
    norm_num
  · rw [if_neg hx, if_neg hx, abs_zero, if_neg (by norm_num)]
    norm_num

theorem lat_eq_of_moonTopo {b : AtsBase K} {lgt lat alt : K} {tz : ℤ}
    (h : (b.withSite lgt lat alt tz).moonTopo (trigAt (geocentricAt lat)) 1 =
      b.moonTopo (trigAt (geocentricAt lat)) 1) : lat = b.lat := by
  obtain ⟨p, hp⟩ : ∃ p, b.moonPosition (trigAt (geocentricAt lat)) 1 = some p :=
    Option.isSome_iff_exists.mp (isSome_moonPosition_trigAt _ _ _)
  have hp' : (b.withSite lgt lat alt tz).moonPosition (trigAt (geocentricAt lat)) 1 = some p := hp
  rw [AtsBase.moonTopo, AtsBase.moonTopo, hp, hp', Option.map_some, Option.map_some,
    Option.some.injEq] at h
  have hdec := congrArg (fun q => q.2.2) h
  simp only [topocentric_trigAt] at hdec
  by_contra hlat
  have hold : geocentricAt b.lat ≠ geocentricAt lat := fun heq =>
    hlat (geocentricAt_injective heq).symm
  rw [show (b.withSite lgt lat alt tz).lat = lat from rfl, if_pos rfl, if_neg hold] at hdec
  have hparallax : (0.99883 : K) = 0 := by linear_combination -hdec
  norm_num at hparallax

end Gtoaes
