import Gtoaes.Astro.ATimeSpace

/-!
Three quantities of an `ATimeSpace` depend on the site: the mean and the true local
sidereal time, and the place of the moon as it is seen from there. Which getters
set their flags, and which leave them alone.
-/

namespace Gtoaes

open Lib Lib.Memo

variable {K : Type} [Field K] [LinearOrder K] [FloorRing K] {trig : Trig K} {fuel : ℕ}

/-- The quantities that depend on the site. -/
def Ats.OfSite (q : Ats) : Prop := q = .lmst ∨ q = .lst ∨ q = .positionMoonTopo

instance (q : Ats) : Decidable q.OfSite := inferInstanceAs (Decidable (_ ∨ _ ∨ _))

namespace ATimeSpace

variable {W : Ats → Prop}

omit [LinearOrder K] [FloorRing K] in
theorem leaves_julianCentury (hW : ∀ q, W q → q.OfSite) :
    Leaves W (julianCentury : AtsAction K K) :=
  leaves_keep (fun h => absurd (hW _ h) (by decide)) ((leaves_ask _).bind fun _ => leaves_pure _)

omit [LinearOrder K] [FloorRing K] in
theorem leaves_ofCentury {q : Ats} (hq : ¬ q.OfSite) (hW : ∀ q, W q → q.OfSite) (f : K → K) :
    Leaves W (keep q do return f (← julianCentury)) :=
  leaves_keep (fun h => hq (hW _ h)) ((leaves_julianCentury hW).bind fun _ => leaves_pure _)

theorem leaves_nutation (hW : ∀ q, W q → q.OfSite) : Leaves W (nutation trig) :=
  (leaves_julianCentury hW).bind fun _ =>
    (leaves_ofCentury (by decide) hW _).bind fun _ =>
    (leaves_ofCentury (by decide) hW _).bind fun _ =>
    (leaves_ofCentury (by decide) hW _).bind fun _ =>
    (leaves_ofCentury (by decide) hW _).bind fun _ =>
    (leaves_ofCentury (by decide) hW _).bind fun _ => leaves_pure _

theorem leaves_nutationLongitude (hW : ∀ q, W q → q.OfSite) : Leaves W (nutationLongitude trig) :=
  leaves_keptOr ((leaves_nutation hW).bind fun _ =>
    (leaves_fill (fun h => absurd (hW _ h) (by decide)) _).bind fun _ =>
    (leaves_fill (fun h => absurd (hW _ h) (by decide)) _).bind fun _ => leaves_pure _)

theorem leaves_nutationObliquity (hW : ∀ q, W q → q.OfSite) : Leaves W (nutationObliquity trig) :=
  leaves_keptOr ((leaves_nutation hW).bind fun _ =>
    (leaves_fill (fun h => absurd (hW _ h) (by decide)) _).bind fun _ =>
    (leaves_fill (fun h => absurd (hW _ h) (by decide)) _).bind fun _ => leaves_pure _)

theorem leaves_trueObliquity (hW : ∀ q, W q → q.OfSite) : Leaves W (trueObliquity trig) :=
  (leaves_ofCentury (by decide) hW _).bind fun _ =>
    (leaves_nutationObliquity hW).bind fun _ => leaves_pure _

theorem leaves_greenwichMeanSiderealTime (hW : ∀ q, W q → q.OfSite) :
    Leaves W (greenwichMeanSiderealTime : AtsAction K K) :=
  leaves_keep (fun h => absurd (hW _ h) (by decide))
    ((leaves_julianCentury hW).bind fun _ => leaves_pure _)

theorem leaves_greenwichSiderealTime (hW : ∀ q, W q → q.OfSite) :
    Leaves W (greenwichSiderealTime trig) :=
  leaves_keep (fun h => absurd (hW _ h) (by decide))
    ((leaves_greenwichMeanSiderealTime hW).bind fun _ =>
      (leaves_nutationLongitude hW).bind fun _ =>
      (leaves_trueObliquity hW).bind fun _ => leaves_pure _)

theorem leaves_centerSun (hW : ∀ q, W q → q.OfSite) : Leaves W (centerSun trig) :=
  leaves_keep (fun h => absurd (hW _ h) (by decide))
    ((leaves_julianCentury hW).bind fun _ =>
      (leaves_ofCentury (by decide) hW _).bind fun _ => leaves_pure _)

theorem leaves_sunPosition (hW : ∀ q, W q → q.OfSite) : Leaves W (sunPosition trig) :=
  leaves_keptOr ((leaves_julianCentury hW).bind fun _ =>
    (leaves_fill (fun h => absurd (hW _ h) (by decide)) _).bind fun _ => leaves_pure _)

theorem leaves_moonPosition (hW : ∀ q, W q → q.OfSite) : Leaves W (moonPosition trig fuel) := by
  have hat : ∀ mjd, Leaves W (moonPositionAt trig fuel mjd) := fun _ =>
    (leaves_trueObliquity hW).bind fun _ =>
      (leaves_ofCentury (by decide) hW _).bind fun _ =>
      (leaves_ofCentury (by decide) hW _).bind fun _ => leaves_pure _
  refine leaves_keptOr ((leaves_ask _).bind fun mjd => (hat mjd).bind fun x => ?_)
  cases x with
  | none => exact leaves_pure _
  | some p => exact (leaves_store _).bind fun _ => leaves_pure _

theorem leaves_localMeanSiderealTime (hW : ∀ q, W q → q.OfSite) (hq : ¬ W .lmst) :
    Leaves W (localMeanSiderealTime : AtsAction K K) :=
  leaves_keep hq ((leaves_greenwichMeanSiderealTime hW).bind fun _ =>
    (leaves_ask _).bind fun _ => leaves_pure _)

theorem leaves_localSiderealTime (hW : ∀ q, W q → q.OfSite) (hq : ¬ W .lst) :
    Leaves W (localSiderealTime trig) :=
  leaves_keep hq ((leaves_greenwichSiderealTime hW).bind fun _ =>
    (leaves_ask _).bind fun _ => leaves_pure _)

theorem leaves_moonTopo (hW : ∀ q, W q → q.OfSite) (hlmst : ¬ W .lmst)
    (hq : ¬ W .positionMoonTopo) : Leaves W (moonTopo trig fuel) := by
  refine leaves_keptOr ((leaves_localMeanSiderealTime hW hlmst).bind fun lmst =>
    (leaves_moonPosition hW).bind fun x => ?_)
  cases x with
  | none => exact leaves_pure _
  | some p =>
      exact (leaves_ask _).bind fun _ => (leaves_fill hq _).bind fun _ => leaves_pure _

end ATimeSpace

open ATimeSpace in
theorem Getter.leaves_read (g : Getter) :
    Leaves (fun q => q.OfSite ∧ q ∉ g.sets) (g.read trig fuel) := by
  have hW : ∀ q : Ats, q.OfSite ∧ q ∉ g.sets → q.OfSite := fun q hq => hq.1
  cases g with
  | modifiedJulianDay => exact (leaves_ask _).map _
  | deltaAT => exact (leaves_ask _).map _
  | epoch => exact ((leaves_ask _).bind fun _ => leaves_pure _).map _
  | julianCentury => exact (leaves_julianCentury hW).map _
  | julianDay =>
      exact (leaves_keep (fun h => absurd h.1 (by decide)) ((leaves_ask _).bind fun _ =>
        leaves_pure _)).map _
  | tai =>
      exact (leaves_keep (fun h => absurd h.1 (by decide)) ((leaves_ask _).bind fun _ =>
        (leaves_ask _).bind fun _ => leaves_pure _)).map _
  | greenwichMeanSiderealTime => exact (leaves_greenwichMeanSiderealTime hW).map _
  | greenwichSiderealTime => exact (leaves_greenwichSiderealTime hW).map _
  | localMeanSiderealTime =>
      exact (leaves_localMeanSiderealTime hW fun h => h.2 List.mem_cons_self).map _
  | localSiderealTime => exact (leaves_localSiderealTime hW fun h => h.2 List.mem_cons_self).map _
  | trueObliquity => exact (leaves_trueObliquity hW).map _
  | nutation => exact (leaves_nutation hW).map _
  | nutationLongitude => exact (leaves_nutationLongitude hW).map _
  | nutationObliquity => exact (leaves_nutationObliquity hW).map _
  | centerSun => exact (leaves_centerSun hW).map _
  | trueLongSun =>
      exact (leaves_keep (fun h => absurd h.1 (by decide))
        ((leaves_ofCentury (by decide) hW _).bind fun _ =>
          (leaves_centerSun hW).bind fun _ => leaves_pure _)).map _
  | trueAnomalySun =>
      exact (leaves_keep (fun h => absurd h.1 (by decide))
        ((leaves_ofCentury (by decide) hW _).bind fun _ =>
          (leaves_centerSun hW).bind fun _ => leaves_pure _)).map _
  | sunPosition => exact (leaves_sunPosition hW).map _
  | moonPosition => exact (leaves_moonPosition hW).map _
  | moonTopo =>
      exact (leaves_moonTopo hW (fun h => h.2 (by decide)) fun h => h.2 (by decide)).map _
  | _ => exact (leaves_ofCentury (by decide) hW _).map _

namespace ATimeSpace

theorem isSome_moonPosition
    (hmoon : ∀ mjd s, (AtInstant.moonPosition trig fuel mjd s).isSome = true) (m : ATimeSpace K) :
    ((moonPosition trig fuel).run m).1.isSome = true := by
  rw [moonPosition, run_keptOr]
  split
  · rfl
  · have hat : ∀ mjd m, ((moonPositionAt trig fuel mjd).run m).1.isSome = true :=
      fun mjd _ => hmoon mjd _
    obtain ⟨p, hp⟩ := Option.isSome_iff_exists.mp
      (hat (modifiedJulianDay.run m).1 (modifiedJulianDay.run m).2)
    rw [run_bind, run_bind, hp]
    rfl

/-- Asking for the place of the moon as seen from the site keeps the mean local
sidereal time, unless that place is kept already. -/
theorem valid_lmst_moonTopo {m : ATimeSpace K} (hm : m.valid .positionMoonTopo = false) :
    ((moonTopo trig fuel).run m).2.valid .lmst = true := by
  rw [moonTopo, run_keptOr, hm, if_neg (by decide), run_bind]
  -- what is done behind the sidereal time leaves its flag
  suffices hrest : Leaves (· = Ats.lmst) _ from (hrest _).2 _ rfl |>.trans (valid_keep _ m)
  refine (leaves_moonPosition fun q hq => .inl hq).bind fun x => ?_
  cases x with
  | none => exact leaves_pure _
  | some p =>
      exact (leaves_ask _).bind fun _ => (leaves_fill (by decide) _).bind fun _ => leaves_pure _

theorem valid_moonTopo (hmoon : ∀ mjd s, (AtInstant.moonPosition trig fuel mjd s).isSome = true)
    (m : ATimeSpace K) : ((moonTopo trig fuel).run m).2.valid .positionMoonTopo = true := by
  rw [moonTopo, run_keptOr]
  split
  · next hq => exact hq
  · rw [run_bind, run_bind]
    obtain ⟨p, hp⟩ := Option.isSome_iff_exists.mp
      (isSome_moonPosition hmoon ((localMeanSiderealTime : AtsAction K K).run m).2)
    rw [hp]
    exact valid_fill _ _ _

end ATimeSpace

end Gtoaes
