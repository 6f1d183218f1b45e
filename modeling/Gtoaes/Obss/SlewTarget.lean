import Gtoaes.Obss.Step
import Gtoaes.Proto.Print
import Gtoaes.Proto.ReadFrom

/-!
The slew line that a GFT mount is sent, against the line that asked for it.

A target is numbered by coordinate system in two ways: the comments of the
message classes count 0 equatorial, 1 horizontal, else two-line elements, and
so does the copy of a plan into a slew line; the enumeration `COORSYS_*`, by
which the slew line is printed, has horizontal and equatorial the other way
round. What a request asks for is stated for each way of counting.
-/

namespace Gtoaes

open Lib Lib.Handler

/-! ### The requested target -/

inductive Target
  | equatorial (ra dec epoch : Double)
  | horizontal (azi ele : Double)
  | orbit (tle1 tle2 : Text)
  deriving DecidableEq

/-- A target written down, its numbers in full. -/
def Target.items : Target → List Item
  | .equatorial ra dec epoch =>
      [⟨"ra".toList, some (.dbl ra)⟩, ⟨"dec".toList, some (.dbl dec)⟩,
       ⟨"epoch".toList, some (.dbl epoch)⟩]
  | .horizontal azi ele => [⟨"azi".toList, some (.dbl azi)⟩, ⟨"ele".toList, some (.dbl ele)⟩]
  | .orbit tle1 tle2 => [⟨"tle1".toList, some (.text tle1)⟩, ⟨"tle2".toList, some (.text tle2)⟩]

/-- The coordinate system asked for; equatorial where the request has none. -/
def requestedSystem (num : Numbering) (kvs : List KeyValPair) : CoorSystem :=
  match givenInt kvs "coor_sys" with
  | some n => num.system n
  | none => .equatorial

/-- The epoch asked for, under the keyword of the lines the system writes or
under the one it reads; 2000 where the request has none. -/
def requestedEpoch (kvs : List KeyValPair) : Option Double :=
  if (given kvs "epoch".toList).isSome then givenDbl kvs "epoch" else some (readEpoch kvs)

/-- The request gives a target in full. -/
def Requests (num : Numbering) (kvs : List KeyValPair) : Target → Prop
  | .equatorial ra dec epoch =>
      requestedSystem num kvs = .equatorial ∧ givenDbl kvs "ra" = some ra ∧
        givenDbl kvs "dec" = some dec ∧ requestedEpoch kvs = some epoch
  | .horizontal azi ele =>
      requestedSystem num kvs = .horizontal ∧ givenDbl kvs "azi" = some azi ∧
        givenDbl kvs "ele" = some ele
  | .orbit tle1 tle2 =>
      requestedSystem num kvs = .orbit ∧ given kvs "tle1".toList = some tle1 ∧
        given kvs "tle2".toList = some tle2

/-- The slew line carries the target its request asks for: it has the target's
fields with the request's values and no others. -/
def CarriesTarget (num : Numbering) (rcvd : Text) (m : KVSlewto) : Prop :=
  ∃ t, Requests num (linePairs rcvd).1 t ∧
    m.items = m.toKVBase.items ++ [joinInt "coorsys" m.coorsys] ++ t.items

/-! ### Which requests come through -/

/-- A number the request gives and the printer writes without loss. -/
def PrintsWhole (x : Option Double) : Prop := ∃ v, x = some v ∧ v.printed = v

def EquatorialGiven (kvs : List KeyValPair) : Prop :=
  PrintsWhole (givenDbl kvs "ra") ∧ PrintsWhole (givenDbl kvs "dec") ∧
    requestedEpoch kvs = some (readEpoch kvs).printed

def HorizontalGiven (kvs : List KeyValPair) : Prop :=
  PrintsWhole (givenDbl kvs "azi") ∧ PrintsWhole (givenDbl kvs "ele")

def OrbitGiven (kvs : List KeyValPair) : Prop :=
  (given kvs "tle1".toList).isSome ∧ (given kvs "tle2".toList).isSome

/-- Of plans, those by two-line elements with both lines. -/
def PlanComplete (kvs : List KeyValPair) : Prop :=
  ∃ n, givenInt kvs "coor_sys" = some n ∧ n ≠ 0 ∧ n ≠ 1 ∧ OrbitGiven kvs

/-- Of slews, those whose number the printer takes as it is meant, and which
give the fields that go with it. -/
def SlewComplete (num : Numbering) (kvs : List KeyValPair) : Prop :=
  match givenInt kvs "coor_sys" with
  | none => EquatorialGiven kvs
  | some n =>
      if n = coorsysEqua then num = .enum ∧ EquatorialGiven kvs
      else if n = coorsysAltaz then num = .enum ∧ HorizontalGiven kvs
      else OrbitGiven kvs

def Complete (num : Numbering) (rcvd : Text) : Prop :=
  if iequals (lineType rcvd) kvtypeAppplan then PlanComplete (linePairs rcvd).1
  else SlewComplete num (linePairs rcvd).1

/-- `m` is written to a GFT mount on account of the line: the line is a plan
that is started with a slew, or a slew that is forwarded. -/
inductive Forwarded (rcvd : Text) (m : KVSlewto) : Prop
  | plan (p : KVAppPlan) (ctx : Ctx) (s : Obss) (addr : ℕ) (conn : Conn) (req : Request)
      (hType : iequals (lineType rcvd) kvtypeAppplan = true)
      (hResolve : resolve rcvd = .ok (some (.appPlan p))) (hGft : s.obssType = .gft)
      (hSent : .mount conn req (.line (.slewto m)) ∈ (Obss.processNewPlan ctx ⟨addr, p⟩ s).2)
  | slew (proto : KVSlewto) (ctx : Ctx) (s : Obss) (conn : Conn) (req : Request)
      (hType : iequals (lineType rcvd) kvtypeSlewto = true)
      (hResolve : resolve rcvd = .ok (some (.slewto proto))) (hGft : s.obssType = .gft)
      (hSent : .mount conn req (.line (.slewto m)) ∈ (Obss.slewto ctx proto s).2)

/-! ### What is sent on -/

/-- A line to the mount is this one. -/
def OnlyLine (line : KVMsg) : Act → Prop
  | .mount _ _ (.line proto) => proto = line
  | _ => True

theorem emits_mountCommand (ctx : Ctx) (req : Request)
    (encode : NonKVProtocol → Time → NonKVFrame × NonKVProtocol) (line : KVMsg) :
    Emits (OnlyLine line) (Obss.mountCommand ctx req encode (some line)) := by
  intro s o ho
  unfold Obss.mountCommand at ho
  split at ho
  · cases ho
  · rw [List.mem_singleton.mp ho]
    trivial
  · rename_i line' hline
    rw [List.mem_singleton.mp ho]
    exact (Option.some.inj hline).symm
  · cases ho

theorem emits_write2camera (line proto : KVMsg) (cid : Text) :
    Emits (OnlyLine line) (Obss.write2camera proto cid) := by
  refine .emit fun s o ho => ?_
  have hcamera : ∀ l : List Conn, o ∈ (l.map fun conn => Act.camera conn proto) →
      OnlyLine line o := by
    intro l hl
    obtain ⟨conn, -, rfl⟩ := List.mem_map.mp hl
    trivial
  split at ho
  · exact hcamera _ ho
  · split at ho
    · exact hcamera _ ho
    · cases ho

theorem emits_publishRunning (line : KVMsg) (ctx : Ctx) (p : PlanPtr) :
    Emits (OnlyLine line) (Obss.publishRunning ctx p) := by
  intro s o ho
  rw [List.mem_singleton.mp ho]
  trivial

theorem emits_processNewPlan (ctx : Ctx) (p : PlanPtr) :
    Emits (OnlyLine (.slewto (Obss.planSlewto ctx p.plan))) (Obss.processNewPlan ctx p) :=
  fun s => Emits.cons (.when (.cons (emits_mountCommand ctx _ _ _) (.cons (.update _) .nil)))
    (.cons (emits_write2camera _ _ _)
      (.cons (.when (emits_write2camera _ _ _)) (.cons (emits_publishRunning _ ctx p) .nil))) s

theorem emits_slewto (ctx : Ctx) (proto : KVSlewto) :
    Emits (OnlyLine (.slewto proto)) (Obss.slewto ctx proto) := by
  intro s
  unfold Obss.slewto
  split
  · simp
  · exact Emits.when (.cons (emits_mountCommand ctx _ _ _) (.cons (.update _) .nil)) s

/-! ### The two ends compared -/

theorem carriesTarget_iff (num : Numbering) (rcvd : Text) (m : KVSlewto) :
    CarriesTarget num rcvd m ↔
      ∃ t, Requests num (linePairs rcvd).1 t ∧ m.targetItems = t.items := by
  simp only [CarriesTarget, KVSlewto.items, List.append_cancel_left_eq]

section

variable {num : Numbering} {kvs : List KeyValPair} {m : KVSlewto}

theorem carries_equatorial (hread : m.ReadFrom kvs) (hcoor : m.coorsys = coorsysEqua) :
    (∃ t, Requests num kvs t ∧ m.targetItems = t.items) ↔
      requestedSystem num kvs = .equatorial ∧ EquatorialGiven kvs := by
  have hitems : m.targetItems =
      [joinDbl "ra" m.ra, joinDbl "dec" m.dec, joinDbl "epoch" m.epoch] := by
    simp [KVSlewto.targetItems, hcoor]
  constructor
  · rintro ⟨t, hreq, hsent⟩
    cases t with
    | equatorial ra dec epoch =>
        obtain ⟨hsys, hra, hdec, hepoch⟩ := hreq
        simp [hitems, Target.items, joinDbl, hread.ra, hread.dec, hread.epoch, hra, hdec] at hsent
        obtain ⟨hra', hdec', hepoch'⟩ := hsent
        exact ⟨hsys, ⟨ra, hra, hra'⟩, ⟨dec, hdec, hdec'⟩, by rw [hepoch, hepoch']⟩
    | horizontal azi ele => simp [hitems, Target.items] at hsent
    | orbit tle1 tle2 => simp [hitems, Target.items] at hsent
  · rintro ⟨hsys, ⟨ra, hra, hra'⟩, ⟨dec, hdec, hdec'⟩, hepoch⟩
    refine ⟨.equatorial ra dec (readEpoch kvs).printed, ⟨hsys, hra, hdec, hepoch⟩, ?_⟩
    simp [hitems, Target.items, joinDbl, hread.ra, hread.dec, hread.epoch, hra, hdec, hra', hdec']

theorem carries_horizontal (hread : m.ReadFrom kvs) (hcoor : m.coorsys = coorsysAltaz) :
    (∃ t, Requests num kvs t ∧ m.targetItems = t.items) ↔
      requestedSystem num kvs = .horizontal ∧ HorizontalGiven kvs := by
  have hitems : m.targetItems = [joinDbl "azi" m.azi, joinDbl "ele" m.ele] := by
    simp [KVSlewto.targetItems, hcoor, coorsysAltaz, coorsysEqua]
  constructor
  · rintro ⟨t, hreq, hsent⟩
    cases t with
    | equatorial ra dec epoch => simp [hitems, Target.items] at hsent
    | horizontal azi ele =>
        obtain ⟨hsys, hazi, hele⟩ := hreq
        simp [hitems, Target.items, joinDbl, hread.azi, hread.ele, hazi, hele] at hsent
        exact ⟨hsys, ⟨azi, hazi, hsent.1⟩, ⟨ele, hele, hsent.2⟩⟩
    | orbit tle1 tle2 => simp [hitems, Target.items, joinDbl] at hsent
  · rintro ⟨hsys, ⟨azi, hazi, hazi'⟩, ⟨ele, hele, hele'⟩⟩
    refine ⟨.horizontal azi ele, ⟨hsys, hazi, hele⟩, ?_⟩
    simp [hitems, Target.items, joinDbl, hread.azi, hread.ele, hazi, hele, hazi', hele']

/-- An orbit line always prints; what may be missing is in the request. -/
theorem carries_orbit (htle1 : m.tle1 = (given kvs "tle1".toList).getD [])
    (htle2 : m.tle2 = (given kvs "tle2".toList).getD [])
    (hequa : m.coorsys ≠ coorsysEqua) (haltaz : m.coorsys ≠ coorsysAltaz) :
    (∃ t, Requests num kvs t ∧ m.targetItems = t.items) ↔
      requestedSystem num kvs = .orbit ∧ OrbitGiven kvs := by
  have hitems : m.targetItems = [joinText "tle1" m.tle1, joinText "tle2" m.tle2] := by
    simp [KVSlewto.targetItems, hequa, haltaz]
  constructor
  · rintro ⟨t, hreq, hsent⟩
    cases t with
    | equatorial ra dec epoch => simp [hitems, Target.items] at hsent
    | horizontal azi ele => simp [hitems, Target.items, joinText] at hsent
    | orbit tle1 tle2 =>
        obtain ⟨hsys, hl1, hl2⟩ := hreq
        exact ⟨hsys, Option.isSome_of_eq_some hl1, Option.isSome_of_eq_some hl2⟩
  · rintro ⟨hsys, hl1, hl2⟩
    obtain ⟨tle1, hl1⟩ := Option.isSome_iff_exists.mp hl1
    obtain ⟨tle2, hl2⟩ := Option.isSome_iff_exists.mp hl2
    refine ⟨.orbit tle1 tle2, ⟨hsys, hl1, hl2⟩, ?_⟩
    rw [hl1] at htle1
    rw [hl2] at htle2
    simp [hitems, Target.items, joinText, htle1, htle2]

end

/-- A forwarded slew carries its target exactly when it is complete. -/
theorem carries_slew_iff {num : Numbering} {kvs : List KeyValPair} {m : KVSlewto}
    (hread : m.ReadFrom kvs) :
    (∃ t, Requests num kvs t ∧ m.targetItems = t.items) ↔ SlewComplete num kvs := by
  cases hcoor : givenInt kvs "coor_sys" with
  | none =>
      have hm : m.coorsys = coorsysEqua := by rw [hread.coorsys, hcoor]; rfl
      rw [carries_equatorial hread hm]
      simp [SlewComplete, requestedSystem, hcoor]
  | some n =>
      have hm : m.coorsys = n := by rw [hread.coorsys, hcoor]; rfl
      by_cases hequa : n = coorsysEqua
      · rw [carries_equatorial hread (hm.trans hequa)]
        cases num <;> simp [SlewComplete, requestedSystem, hcoor, Numbering.system, hequa, coorsysEqua]
      · by_cases haltaz : n = coorsysAltaz
        · rw [carries_horizontal hread (hm.trans haltaz)]
          cases num <;>
            simp [SlewComplete, requestedSystem, hcoor, Numbering.system, haltaz, coorsysAltaz,
              coorsysEqua]
        · rw [carries_orbit hread.tle1 hread.tle2 (hm ▸ hequa) (hm ▸ haltaz)]
          rw [coorsysEqua] at hequa
          rw [coorsysAltaz] at haltaz
          cases num <;>
            simp [SlewComplete, requestedSystem, hcoor, Numbering.system, hequa, haltaz,
              coorsysAltaz, coorsysEqua]

/-- A target is never written with a field left unset. -/
theorem Target.items_ne_of_unset {t : Target} {items : List Item} {it : Item} (h : it ∈ items)
    (hunset : it.val = none) : items ≠ t.items := by
  rintro rfl
  cases t <;> simp [Target.items] at h <;> rcases h with rfl | rfl | rfl <;> simp at hunset

/-- Of an equatorial or horizontal plan the copy fills the fields that the
printer does not look at. -/
theorem unset_of_planSlewto (ctx : Ctx) {p : KVAppPlan} (h : p.coorsys = 0 ∨ p.coorsys = 1) :
    ∃ it ∈ (Obss.planSlewto ctx p).targetItems, it.val = none := by
  rcases h with h | h
  · refine ⟨joinDbl "azi" none, ?_, rfl⟩
    simp [Obss.planSlewto, h, KVSlewto.targetItems, coorsysEqua, coorsysAltaz]
  · refine ⟨joinDbl "ra" none, ?_, rfl⟩
    simp [Obss.planSlewto, h, KVSlewto.targetItems, coorsysEqua]

/-- A plan's slew carries its target exactly when the plan is complete. -/
theorem carries_plan_iff {num : Numbering} {kvs : List KeyValPair} {p : KVAppPlan}
    (hread : p.ReadFrom kvs) (ctx : Ctx) :
    (∃ t, Requests num kvs t ∧ (Obss.planSlewto ctx p).targetItems = t.items) ↔
      PlanComplete kvs := by
  have hcoor : p.coorsys = (givenInt kvs "coor_sys").getD coorsysEqua := hread.coorsys
  by_cases hsys : p.coorsys = 0 ∨ p.coorsys = 1
  · obtain ⟨it, hit, hunset⟩ := unset_of_planSlewto ctx hsys
    constructor
    · rintro ⟨t, -, hsent⟩
      exact absurd hsent (Target.items_ne_of_unset hit hunset)
    · rintro ⟨n, hn, h0, h1, -⟩
      rw [hn, Option.getD_some] at hcoor
      omega
  · obtain ⟨h0, h1⟩ := not_or.mp hsys
    have hcopy : Obss.planSlewto ctx p =
        { utc := ctx.posix.toIsoExtendedString ctx.now, coorsys := p.coorsys,
          tle1 := p.tle1, tle2 := p.tle2 } := by
      simp [Obss.planSlewto, h0, h1]
    cases hgiven : givenInt kvs "coor_sys" with
    | none =>
        rw [hgiven] at hcoor
        exact absurd hcoor h1
    | some n =>
        rw [hgiven, Option.getD_some] at hcoor
        subst hcoor
        rw [carries_orbit (by rw [hcopy]; exact hread.tle1) (by rw [hcopy]; exact hread.tle2)
          (by rw [hcopy]; exact h1) (by rw [hcopy]; exact h0)]
        have horbit : requestedSystem num kvs = .orbit := by
          cases num <;>
            simp [requestedSystem, hgiven, Numbering.system, h0, h1, coorsysEqua, coorsysAltaz]
        simp [PlanComplete, hgiven, horbit, h0, h1]

/-- A slew line written to a GFT mount carries the requested target exactly
when the request is complete, by either way of counting. -/
theorem carriesTarget_iff_complete (num : Numbering) {rcvd : Text} {m : KVSlewto}
    (h : Forwarded rcvd m) : CarriesTarget num rcvd m ↔ Complete num rcvd := by
  rw [carriesTarget_iff]
  cases h with
  | plan p ctx s addr conn req hType hResolve hGft hSent =>
      obtain rfl : m = Obss.planSlewto ctx p :=
        KVMsg.slewto.inj (emits_processNewPlan ctx ⟨addr, p⟩ s _ hSent)
      rw [Complete, if_pos hType]
      exact carries_plan_iff (readFrom_resolve_plan hType hResolve) ctx
  | slew proto ctx s conn req hType hResolve hGft hSent =>
      obtain rfl : m = proto := KVMsg.slewto.inj (emits_slewto ctx proto s _ hSent)
      have hplan : iequals (lineType rcvd) kvtypeAppplan = false :=
        iequals_exclusive hType (by decide)
      rw [Complete, hplan]
      exact carries_slew_iff (readFrom_resolve hType hResolve)

/-- A GFT system with its mount on-line, and what it reads besides. -/
def gftSystem : Obss :=
  { Obss.create "001".toList "001".toList .gft 0 with tcpMount := some 1 }

def gftCtx : Ctx := Solo.ctx .blank { obss := gftSystem } (Event.plain .obsplanTick)

/-- A slew to an equatorial target. -/
def plainSlew : Text := "slew ra=10.5, dec=-20".toList

def plainSlewto : KVSlewto :=
  { newSlewto with ra := some (.fin (mkRat 21 2)), dec := some (.fin (-20)) }

theorem forwarded_plainSlew : Forwarded plainSlew plainSlewto :=
  .slew plainSlewto gftCtx gftSystem 1 (.slewto plainSlewto) (by decide) (by decide +kernel) rfl
    (by decide +kernel)

/-- It comes through. -/
theorem carriesTarget_plainSlew :
    Forwarded plainSlew plainSlewto ∧ CarriesTarget .enum plainSlew plainSlewto := by
  refine ⟨forwarded_plainSlew, (carriesTarget_iff_complete .enum forwarded_plainSlew).mpr ?_⟩
  refine ⟨⟨.fin (mkRat 21 2), ?_, ?_⟩, ⟨.fin (-20), ?_, ?_⟩, ?_⟩ <;> decide +kernel

/-- A plan for an equatorial target, in the numbering of plans. -/
def equatorialPlan : Text := "append_plan coor_sys=0, ra=10.5, dec=-20, imgtype=object".toList

def equatorialPlanMsg : KVAppPlan :=
  { newAppendPlan with
    coorsys := 0, ra := .fin (mkRat 21 2), dec := .fin (-20), imgtype := "object".toList
    objid := "objt".toList }

theorem forwarded_equatorialPlan :
    Forwarded equatorialPlan (Obss.planSlewto gftCtx equatorialPlanMsg) :=
  .plan equatorialPlanMsg gftCtx gftSystem 0 1 (.plan equatorialPlanMsg) (by decide)
    (by decide +kernel) rfl (by decide +kernel)

/-- Its slew line is printed as a horizontal one, with an azimuth and an
elevation nobody has set. -/
theorem not_carriesTarget :
    Forwarded equatorialPlan (Obss.planSlewto gftCtx equatorialPlanMsg) ∧
      ¬ CarriesTarget .comments equatorialPlan (Obss.planSlewto gftCtx equatorialPlanMsg) ∧
      ¬ CarriesTarget .enum equatorialPlan (Obss.planSlewto gftCtx equatorialPlanMsg) := by
  have hno : ∀ num, ¬ CarriesTarget num equatorialPlan
      (Obss.planSlewto gftCtx equatorialPlanMsg) := by
    intro num h
    obtain ⟨t, -, hsent⟩ := (carriesTarget_iff _ _ _).mp h
    obtain ⟨it, hit, hunset⟩ := unset_of_planSlewto gftCtx (p := equatorialPlanMsg) (.inl rfl)
    exact Target.items_ne_of_unset hit hunset hsent
  exact ⟨forwarded_equatorialPlan, hno _, hno _⟩

end Gtoaes
