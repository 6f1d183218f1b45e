import Gtoaes.Proto.Given
import Gtoaes.Proto.NumericFields

/-!
The target fields of the messages that name one, as their line gives them.
-/

namespace Gtoaes

open Lib

/-- The epoch the parser takes, from the keyword it knows for it. -/
def readEpoch (kvs : List KeyValPair) : Double := (givenDbl kvs "ecoch").getD (.fin 2000)

/-- The fields of a slew message are those its line gives. -/
structure KVSlewto.ReadFrom (m : KVSlewto) (kvs : List KeyValPair) : Prop where
  coorsys : m.coorsys = (givenInt kvs "coor_sys").getD coorsysEqua
  ra : m.ra = givenDbl kvs "ra"
  dec : m.dec = givenDbl kvs "dec"
  epoch : m.epoch = some (readEpoch kvs)
  azi : m.azi = givenDbl kvs "azi"
  ele : m.ele = givenDbl kvs "ele"
  tle1 : m.tle1 = (given kvs "tle1".toList).getD []
  tle2 : m.tle2 = (given kvs "tle2".toList).getD []

theorem readFrom_assignAll {kvs : List KeyValPair} {m : KVSlewto}
    (h : assignAll slewtoKeys (fun _ m => m) kvs newSlewto = .ok m) : m.ReadFrom kvs := by
  constructor
  case coorsys =>
    exact int_given h rfl (fun _ _ => rfl) (by simp [slewtoKeys, Slot.Keeps]) (fun _ _ => rfl)
  case ra =>
    exact optDbl_given h rfl (fun _ _ => rfl) (by simp [slewtoKeys, Slot.Keeps]) (fun _ _ => rfl) rfl
  case dec =>
    exact optDbl_given h rfl (fun _ _ => rfl) (by simp [slewtoKeys, Slot.Keeps]) (fun _ _ => rfl) rfl
  case epoch =>
    have hepoch : m.epoch = ((givenDbl kvs "ecoch").map some).getD newSlewto.epoch :=
      dbl_given some h rfl (fun _ _ => rfl) (by simp [slewtoKeys, Slot.Keeps]) (fun _ _ => rfl)
    rw [hepoch, readEpoch]
    cases givenDbl kvs "ecoch" <;> rfl
  case azi =>
    exact optDbl_given h rfl (fun _ _ => rfl) (by simp [slewtoKeys, Slot.Keeps]) (fun _ _ => rfl) rfl
  case ele =>
    exact optDbl_given h rfl (fun _ _ => rfl) (by simp [slewtoKeys, Slot.Keeps]) (fun _ _ => rfl) rfl
  case tle1 =>
    exact text_given h rfl (fun _ _ => rfl) (by simp [slewtoKeys, Slot.Keeps]) (fun _ _ => rfl)
  case tle2 =>
    exact text_given h rfl (fun _ _ => rfl) (by simp [slewtoKeys, Slot.Keeps]) (fun _ _ => rfl)

/-- A `catch` that ends in a message has caught nothing. -/
theorem catchNumeric_eq_some {α : Type} {r : Except StdExn α} {x : α}
    (h : catchNumeric r = .ok (some x)) : r = .ok x := by
  cases r with
  | error e => simp [catchNumeric] at h
  | ok y => simpa [catchNumeric] using h

theorem readFrom_resolve {rcvd : Text} (hType : iequals (lineType rcvd) kvtypeSlewto = true)
    {proto : KVSlewto} (h : resolve rcvd = .ok (some (.slewto proto))) :
    proto.ReadFrom (linePairs rcvd).1 := by
  have hmem : (⟨kvtypeSlewto, slewtoKeys.map Key.field,
      fun kvs => asMsg .slewto (resolveSlewto kvs)⟩ : Resolver) ∈ resolvers := by
    simp [resolvers]
  rw [resolve_of_type hmem hType] at h
  cases hr : resolveSlewto (linePairs rcvd).1 with
  | error e => simp [asMsg, hr, Except.map] at h
  | ok o =>
      cases o with
      | none => simp [asMsg, hr, Except.map] at h
      | some m =>
          simp only [asMsg, hr, Except.map, Option.map_some, Except.ok.injEq, Option.some.injEq,
            KVMsg.assign, KVMsg.slewto.injEq] at h
          have hread := readFrom_assignAll (catchNumeric_eq_some hr)
          subst h
          exact { hread with }

/-- Of a plan's fields, those that matter here. -/
structure KVAppPlan.ReadFrom (m : KVAppPlan) (kvs : List KeyValPair) : Prop where
  coorsys : m.coorsys = (givenInt kvs "coor_sys").getD coorsysEqua
  tle1 : m.tle1 = (given kvs "tle1".toList).getD []
  tle2 : m.tle2 = (given kvs "tle2".toList).getD []

theorem readFrom_assignAll_plan {kvs : List KeyValPair} {m : KVAppPlan}
    (h : assignAll appendPlanKeys (fun kv m => { m with kvs := m.kvs ++ [kv] }) kvs
      newAppendPlan = .ok m) : m.ReadFrom kvs := by
  have hcoor : m.coorsys = (givenInt kvs "coor_sys").getD newAppendPlan.coorsys :=
    int_given h rfl (fun _ _ => rfl) (by simp [appendPlanKeys, Slot.Keeps]) (fun _ _ => rfl)
  have htle1 : m.tle1 = (given kvs "tle1".toList).getD newAppendPlan.tle1 :=
    text_given h rfl (fun _ _ => rfl) (by simp [appendPlanKeys, Slot.Keeps]) (fun _ _ => rfl)
  have htle2 : m.tle2 = (given kvs "tle2".toList).getD newAppendPlan.tle2 :=
    text_given h rfl (fun _ _ => rfl) (by simp [appendPlanKeys, Slot.Keeps]) (fun _ _ => rfl)
  exact ⟨hcoor, htle1, htle2⟩

theorem readFrom_resolve_plan {rcvd : Text}
    (hType : iequals (lineType rcvd) kvtypeAppplan = true) {p : KVAppPlan}
    (h : resolve rcvd = .ok (some (.appPlan p))) : p.ReadFrom (linePairs rcvd).1 := by
  have hmem : (⟨kvtypeAppplan, appendPlanKeys.map Key.field,
      fun kvs => asMsg .appPlan (resolveAppendPlan kvs)⟩ : Resolver) ∈ resolvers := by
    simp [resolvers]
  rw [resolve_of_type hmem hType] at h
  cases hr : resolveAppendPlan (linePairs rcvd).1 with
  | error e => simp [asMsg, hr, Except.map] at h
  | ok o =>
      cases o with
      | none => simp [asMsg, hr, Except.map] at h
      | some q =>
          simp only [asMsg, hr, Except.map, Option.map_some, Except.ok.injEq, Option.some.injEq,
            KVMsg.assign, KVMsg.appPlan.injEq] at h
          have hamend := catchNumeric_eq_some hr
          cases hrun : assignAll appendPlanKeys (fun kv m => { m with kvs := m.kvs ++ [kv] })
              (linePairs rcvd).1 newAppendPlan with
          | error e => simp [hrun, Except.map] at hamend
          | ok m =>
              simp only [hrun, Except.map, Except.ok.injEq] at hamend
              have hread := readFrom_assignAll_plan hrun
              subst hamend
              subst h
              exact { hread with }

end Gtoaes
