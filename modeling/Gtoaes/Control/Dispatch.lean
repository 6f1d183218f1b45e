import Gtoaes.Control.GeneralControl
import Gtoaes.Proto.Given
import Gtoaes.Proto.ReadFrom
import Gtoaes.Proto.Received

/-!
From the type word of a message to the member function that it calls. The receivers
compare the word again, by its initial first, and then cast the message to the class
that the word stands for; nothing checks the cast. The word comes with the object, so
on what `Resolve` returns only one cast is to a class the object is not of: a message
`take_image` is a `KVAppPlan` with another word, and not the `KVTakeImage` it is cast to.
-/

namespace Gtoaes

open Lib

/-- A `static_pointer_cast` to a class that the object is not of. -/
inductive BadCast
  | badCast
  deriving DecidableEq

/-- `static_pointer_cast`, by what the class sees of an object. -/
def pointerCast {α : Type} (view : KVMsg → Option α) (proto : KVMsg) : Except BadCast α :=
  match view proto with
  | some m => .ok m
  | none => .error .badCast

namespace KVMsg

def asAppPlan : KVMsg → Option KVAppPlan
  | .appPlan m => some m
  | _ => none

/-- `KVTakeImage`, derived from `KVAppPlan`: the protocol makes no object of it. -/
def asTakeImage : KVMsg → Option KVAppPlan := fun _ => none

def asCheckPlan : KVMsg → Option KVCheckPlan
  | .checkPlan m => some m
  | _ => none

def asRemovePlan : KVMsg → Option KVRemovePlan
  | .removePlan m => some m
  | _ => none

def asFocus : KVMsg → Option KVFocus
  | .focus m => some m
  | _ => none

def asFocusSync : KVMsg → Option KVFocusSync
  | .focusSync m => some m
  | _ => none

def asFwhm : KVMsg → Option KVFWHM
  | .fwhm m => some m
  | _ => none

def asGuide : KVMsg → Option KVGuide
  | .guide m => some m
  | _ => none

def asSlewto : KVMsg → Option KVSlewto
  | .slewto m => some m
  | _ => none

def asSync : KVMsg → Option KVSync
  | .sync m => some m
  | _ => none

def asTrackVel : KVMsg → Option KVTrackVel
  | .trackVel m => some m
  | _ => none

def asCamera : KVMsg → Option KVCamera
  | .camera m => some m
  | _ => none

def asCamSet : KVMsg → Option KVCamSet
  | .camSet m => some m
  | _ => none

end KVMsg

/-- What a client's message calls in a system that it matches. -/
inductive ClientCall
  | event (ev : Event)
  | checkPlan (planSn : Text)
  | removePlan (planSn : Text)
  | nothing
  deriving DecidableEq

/-- The branches of `process_protocol_client`, for one system. -/
def clientBranch (proto : KVMsg) : Except BadCast ClientCall :=
  let type := proto.base.type
  let first := (type.headD '\x00').toLower
  if first = 'a' then
    if iequals type kvtypeAppgwac || iequals type kvtypeAppplan then
      (pointerCast KVMsg.asAppPlan proto).map fun m => .event (.notifyPlan m)
    else if iequals type kvtypeAbort then .ok (.event .abort)
    else .ok .nothing
  else if first = 'c' then
    if iequals type kvtypeChkplan then
      (pointerCast KVMsg.asCheckPlan proto).map fun m => .checkPlan m.planSn
    -- `camset` has an empty branch, as the devices below
    else .ok .nothing
  else if first = 'd' then .ok .nothing
  else if first = 'f' then
    if iequals type kvtypeFocus then
      (pointerCast KVMsg.asFocus proto).map fun m => .event (.focus m)
    else if iequals type kvtypeFocusSync then
      (pointerCast KVMsg.asFocusSync proto).map fun m => .event (.focusSync m)
    else if iequals type kvtypeFwhm then
      (pointerCast KVMsg.asFwhm proto).map fun m => .event (.notifyFWHM m)
    else .ok .nothing
  else if first = 'g' then
    if iequals type kvtypeGuide then
      (pointerCast KVMsg.asGuide proto).map fun m => .event (.guide m)
    else .ok .nothing
  else if first = 's' then
    if iequals type kvtypeSlewto then
      (pointerCast KVMsg.asSlewto proto).map fun m => .event (.slewto m)
    else if iequals type kvtypeSync then
      (pointerCast KVMsg.asSync proto).map fun m => .event (.homeSync m)
    else .ok .nothing
  else if first = 't' then
    if iequals type kvtypeTrack then .ok (.event .track)
    else if iequals type kvtypeTrackvel then
      (pointerCast KVMsg.asTrackVel proto).map fun m => .event (.trackVel m)
    else if iequals type kvtypeTkimg then
      (pointerCast KVMsg.asTakeImage proto).map fun m => .event (.takeImage m)
    else .ok .nothing
  else if iequals type kvtypeRmvplan then
    (pointerCast KVMsg.asRemovePlan proto).map fun m => .removePlan m.planSn
  else if iequals type kvtypePark then .ok (.event .park)
  else if iequals type kvtypeHome then .ok (.event .findHome)
  else .ok .nothing

/-- The casts of `process_protocol_camera` of a system: the report in a message. -/
def cameraBranch (proto : KVMsg) : Except BadCast (Option KVCamera) :=
  let type := proto.base.type
  if iequals type kvtypeCamera then (pointerCast KVMsg.asCamera proto).map some
  else if iequals type kvtypeCamset then (pointerCast KVMsg.asCamSet proto).map fun _ => none
  else .ok none

/-! ### The types of what is resolved -/

/-- The type words of a class. -/
def KVMsg.types : KVMsg → List Text
  | .appPlan _ => planTypes
  | .checkPlan _ => [kvtypeChkplan]
  | .removePlan _ => [kvtypeRmvplan]
  | .plan _ => [kvtypePlan]
  | .abort _ => [kvtypeAbort]
  | .obss _ => [kvtypeObss]
  | .slewto _ => [kvtypeSlewto]
  | .park _ => [kvtypePark]
  | .guide _ => [kvtypeGuide]
  | .home _ => [kvtypeHome]
  | .sync _ => [kvtypeSync]
  | .track _ => [kvtypeTrack]
  | .trackVel _ => [kvtypeTrackvel]
  | .mount _ => [kvtypeMount]
  | .expose _ => [kvtypeExpose]
  | .camSet _ => [kvtypeCamset]
  | .camera _ => [kvtypeCamera]
  | .focus _ => [kvtypeFocus]
  | .focusSync _ => [kvtypeFocusSync]
  | .fwhm _ => [kvtypeFwhm]
  | .derot _ => [kvtypeDerot]
  | .dome _ => [kvtypeDome]
  | .mirrCover _ => [kvtypeMcover]
  | .filter _ => [kvtypeFilter]

/-- An object of its class that bears a certain type word. -/
structure KVMsg.TypedAs (w : Text) (m : KVMsg) : Prop where
  word : m.base.type = w
  mem : w ∈ m.types

theorem KVMsg.TypedAs.assign {w : Text} {m : KVMsg} (h : m.TypedAs w) (basis : KVBase) :
    (m.assign basis).TypedAs w := by
  obtain ⟨hword, hmem⟩ := h
  cases m <;> exact ⟨hword, hmem⟩

/-- A chain of keys leaves the type word alone. -/
theorem typed_keyed {α : Type} {mk : α → KVMsg} {keys : List (Key α)} {init : α}
    {kvs : List KeyValPair} {m : KVMsg} (h : asMsg mk (resolveWith keys init kvs) = .ok (some m))
    (hkeys : ∀ k ∈ keys, k.slot.Keeps fun a => (mk a).base.type)
    (htypes : ∀ a, (mk a).types = [(mk init).base.type]) : m.TypedAs (mk init).base.type := by
  cases hrun : assignAll keys (fun _ a => a) kvs init with
  | error e => simp [asMsg, resolveWith, hrun, catchNumeric, Except.map] at h
  | ok a =>
      simp only [asMsg, resolveWith, hrun, catchNumeric, Except.map, Option.map_some,
        Except.ok.injEq, Option.some.injEq] at h
      rw [← h]
      refine ⟨assignAll_keeps hkeys (fun _ _ => rfl) hrun, ?_⟩
      rw [htypes]
      exact List.mem_singleton_self _

/-- The tag that a plan message is given at the end. -/
theorem typed_plan {r : Except NullDeref (Option KVAppPlan)} {w : Text} {m : KVMsg}
    (h : asMsg .appPlan r = .ok (some m)) (hr : ∀ p, r = .ok (some p) → p.type = w)
    (hw : w ∈ planTypes) : m.TypedAs w := by
  cases r with
  | error e => simp [asMsg, Except.map] at h
  | ok o =>
      cases o with
      | none => simp [asMsg, Except.map] at h
      | some p =>
          simp only [asMsg, Except.map, Option.map_some, Except.ok.injEq, Option.some.injEq] at h
          rw [← h]
          exact ⟨hr p rfl, hw⟩

theorem type_resolveAppendPlan {kvs : List KeyValPair} {p : KVAppPlan}
    (h : resolveAppendPlan kvs = .ok (some p)) : p.type = kvtypeAppplan := by
  rw [resolveAppendPlan_eq] at h
  cases hrun : planLoop kvs with
  | error e => simp [hrun, Except.map, catchNumeric] at h
  | ok q =>
      simp only [hrun, Except.map, catchNumeric, Except.ok.injEq, Option.some.injEq] at h
      have htype : q.type = kvtypeAppplan := type_planLoop hrun
      rw [← h]
      exact htype

theorem type_retagged {w : Text} {kvs : List KeyValPair} {p : KVAppPlan}
    (h : (resolveAppendPlan kvs).map (·.map fun m => { m with type := w }) = .ok (some p)) :
    p.type = w := by
  cases hr : resolveAppendPlan kvs with
  | error e => simp [hr, Except.map] at h
  | ok o =>
      cases o with
      | none => simp [hr, Except.map] at h
      | some q =>
          simp only [hr, Except.map, Option.map_some, Except.ok.injEq, Option.some.injEq] at h
          rw [← h]

theorem typed_bare {α : Type} {mk : α → KVMsg} {init : α} {w : Text} {m : KVMsg}
    (h : asMsg mk (.ok (some init)) = .ok (some m)) (hword : (mk init).base.type = w)
    (hmem : w ∈ (mk init).types) : m.TypedAs w := by
  rw [← Option.some.inj (Except.ok.inj h)]
  exact ⟨hword, hmem⟩

/-- Each resolver gives its own type word. -/
theorem typed_run {r : Resolver} (hr : r ∈ resolvers) {kvs : List KeyValPair} {m : KVMsg}
    (h : r.run kvs = .ok (some m)) : m.TypedAs r.type := by
  simp only [resolvers, List.mem_cons, List.not_mem_nil, or_false] at hr
  rcases hr with rfl | rfl | rfl | rfl | rfl | rfl | rfl | rfl | rfl | rfl | rfl | rfl | rfl | rfl |
    rfl | rfl | rfl | rfl | rfl | rfl | rfl | rfl | rfl | rfl | rfl | rfl
  · exact typed_plan h (fun p hp => type_resolveAppendPlan hp) (by simp [planTypes])
  · exact typed_plan h (fun p hp => type_retagged hp) (by simp [planTypes])
  · exact typed_bare h rfl (List.mem_singleton_self _)
  · exact typed_keyed h (by simp [checkPlanKeys, Slot.Keeps, KVMsg.base]) fun _ => rfl
  · exact typed_keyed h (by simp [cameraKeys, Slot.Keeps, KVMsg.base]) fun _ => rfl
  · exact typed_keyed h (by simp [camsetKeys, Slot.Keeps, KVMsg.base]) fun _ => rfl
  · exact typed_keyed h (by simp [derotKeys, Slot.Keeps, KVMsg.base]) fun _ => rfl
  · exact typed_keyed h (by simp [domeKeys, Slot.Keeps, KVMsg.base]) fun _ => rfl
  · exact typed_keyed h (by simp [focusKeys, Slot.Keeps, KVMsg.base]) fun _ => rfl
  · exact typed_bare h rfl (List.mem_singleton_self _)
  · exact typed_keyed h (by simp [fwhmKeys, Slot.Keeps, KVMsg.base]) fun _ => rfl
  · exact typed_keyed h (by simp [filterKeys, Slot.Keeps, KVMsg.base]) fun _ => rfl
  · exact typed_keyed h (by simp [mountKeys, Slot.Keeps, KVMsg.base]) fun _ => rfl
  · exact typed_keyed h (by simp [mcoverKeys, Slot.Keeps, KVMsg.base]) fun _ => rfl
  · exact typed_keyed h (by simp [planKeys, Slot.Keeps, KVMsg.base]) fun _ => rfl
  · exact typed_bare h rfl (List.mem_singleton_self _)
  · exact typed_keyed h (by simp [slewtoKeys, Slot.Keeps, KVMsg.base]) fun _ => rfl
  · exact typed_keyed h (by simp [syncKeys, Slot.Keeps, KVMsg.base]) fun _ => rfl
  · exact typed_plan h (fun p hp => type_retagged hp) (by simp [planTypes])
  · exact typed_bare h rfl (List.mem_singleton_self _)
  · exact typed_keyed h (by simp [trackvelKeys, Slot.Keeps, KVMsg.base]) fun _ => rfl
  · exact typed_keyed h (by simp [exposeKeys, Slot.Keeps, KVMsg.base]) fun _ => rfl
  · exact typed_keyed h (by simp [guideKeys, Slot.Keeps, KVMsg.base]) fun _ => rfl
  · exact typed_bare h rfl (List.mem_singleton_self _)
  · exact typed_keyed h (by simp [obssKeys, Slot.Keeps, KVMsg.base]) fun _ => rfl
  · exact typed_keyed h (by simp [removePlanKeys, Slot.Keeps, KVMsg.base]) fun _ => rfl

theorem typed_runFirst {type : Text} {kvs : List KeyValPair} {m : KVMsg} {rs : List Resolver}
    (hrs : ∀ r ∈ rs, r ∈ resolvers) (h : runFirst type kvs rs = .ok (some m)) :
    ∃ w, iequals type w = true ∧ m.TypedAs w := by
  induction rs with
  | nil => cases h
  | cons r rs ih =>
      rw [runFirst] at h
      split at h
      · next hword => exact ⟨r.type, hword, typed_run (hrs r List.mem_cons_self) h⟩
      · exact ih (fun r hr => hrs r (List.mem_cons_of_mem _ hr)) h

/-- Every object that a line is resolved to bears the word of the line, a type word of
its class. -/
theorem typed_resolve {rcvd : Text} {m : KVMsg} (h : resolve rcvd = .ok (some m)) :
    ∃ w, iequals (lineType rcvd) w = true ∧ m.TypedAs w := by
  rw [resolve_eq_dispatch, dispatch_eq] at h
  cases hrun : runFirst (lineType rcvd) (linePairs rcvd).1 resolvers with
  | error e => simp [hrun, Except.map] at h
  | ok o =>
      cases o with
      | none => simp [hrun, Except.map] at h
      | some m' =>
          simp only [hrun, Except.map, Option.map_some, Except.ok.injEq, Option.some.injEq] at h
          obtain ⟨w, hword, htyped⟩ := typed_runFirst (fun r hr => hr) hrun
          rw [← h]
          exact ⟨w, hword, htyped.assign _⟩

/-! ### What is called -/

/-- What the class of a message calls. -/
def clientCall (proto : KVMsg) : ClientCall :=
  match clientEvent proto, proto with
  | some ev, _ => .event ev
  | none, .checkPlan m => .checkPlan m.planSn
  | none, .removePlan m => .removePlan m.planSn
  | none, _ => .nothing

/-- By the word that an object bears. -/
theorem clientBranch_typed {w : Text} {m : KVMsg} (h : m.TypedAs w) :
    clientBranch m = if iequals w kvtypeTkimg then .error .badCast else .ok (clientCall m) := by
  obtain ⟨hword, hmem⟩ := h
  cases m with
  | appPlan m =>
      replace hword : m.type = w := hword
      simp only [KVMsg.types, planTypes, List.mem_cons, List.not_mem_nil, or_false] at hmem
      unfold clientBranch clientCall clientEvent
      dsimp only [KVMsg.base]
      rw [hword]
      rcases hmem with rfl | rfl | rfl
      all_goals rfl
  | _ m =>
      obtain rfl := List.mem_singleton.mp hmem
      unfold clientBranch
      rw [hword]
      rfl

theorem cameraBranch_typed {w : Text} {m : KVMsg} (h : m.TypedAs w) :
    cameraBranch m = .ok m.asCamera := by
  obtain ⟨hword, hmem⟩ := h
  cases m with
  | appPlan m =>
      replace hword : m.type = w := hword
      simp only [KVMsg.types, planTypes, List.mem_cons, List.not_mem_nil, or_false] at hmem
      unfold cameraBranch
      dsimp only [KVMsg.base]
      rw [hword]
      rcases hmem with rfl | rfl | rfl
      all_goals rfl
  | _ m =>
      obtain rfl := List.mem_singleton.mp hmem
      unfold cameraBranch
      rw [hword]
      rfl

/-- On every line that is resolved, the receivers call what the class of the message
calls, and no cast is to a class it is not of, except where the line's word is
`take_image`: there the client's receiver always makes such a cast. -/
theorem branches_resolve {rcvd : Text} {m : KVMsg} (h : resolve rcvd = .ok (some m)) :
    clientBranch m =
        (if iequals (lineType rcvd) kvtypeTkimg then .error .badCast else .ok (clientCall m)) ∧
      cameraBranch m = .ok m.asCamera := by
  obtain ⟨w, hword, htyped⟩ := typed_resolve h
  rw [iequals_congr hword]
  exact ⟨clientBranch_typed htyped, cameraBranch_typed htyped⟩

/-- A manual exposure, its type word in capitals. -/
def takeImageLine : Text := "TAKE_IMAGE gid=001, uid=002, exptime=10".toList

/-- A plan for the same system. -/
def appendGwacLine : Text := "Append_GWAC gid=001, uid=002, exptime=10".toList

theorem branches_resolve_planLines :
    (∃ m, resolve takeImageLine = .ok (some m) ∧ clientBranch m = .error .badCast) ∧
      ∃ m, resolve appendGwacLine = .ok (some (.appPlan m)) ∧
        clientBranch (.appPlan m) = .ok (.event (.notifyPlan m)) ∧
        cameraBranch (.appPlan m) = .ok none := by
  have htake : resolve takeImageLine = .ok (some (.appPlan { newAppendPlan with
      type := kvtypeTkimg, gid := "001".toList, uid := "002".toList, exptime := .fin 10,
      imgtype := "OBJECT".toList, objid := "objt".toList })) := by
    decide +kernel
  have hplan : resolve appendGwacLine = .ok (some (.appPlan { newAppendPlan with
      type := kvtypeAppgwac, gid := "001".toList, uid := "002".toList, exptime := .fin 10,
      imgtype := "OBJECT".toList, objid := "objt".toList })) := by
    decide +kernel
  exact ⟨⟨_, htake, (branches_resolve htake).1⟩, ⟨_, hplan, branches_resolve hplan⟩⟩

end Gtoaes
