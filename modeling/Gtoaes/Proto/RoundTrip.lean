import Gtoaes.Proto.Received
import Gtoaes.Proto.Reprint

/-!
Plans, slews and syncs, read from a line, printed and read again.

Printer and parser of these messages have drifted apart in two keywords: the
epoch is printed as `epoch` and read as `ecoch`, and the coordinate system of a
slew is printed as `coorsys` and read as `coor_sys`. Which lines come through
all the same is stated for each way of numbering the coordinate systems.
-/

namespace Gtoaes

open Lib

/-! ### What is compared -/

/-- The coordinates that go with a system, `none` where one is unset. -/
def coordinates (ra dec azi ele : Option Double) (tle1 tle2 : Text) :
    CoorSystem → List (Option Value)
  | .equatorial => [ra.map .dbl, dec.map .dbl]
  | .horizontal => [azi.map .dbl, ele.map .dbl]
  | .orbit => [some (.text tle1), some (.text tle2)]

structure Content where
  coorsys : ℤ
  coordinates : List (Option Value)
  epoch : Option Double
  kvs : List KeyValPair

/-- What a message says of its target, and its extra pairs. A sync is always by
right ascension and declination. -/
def KVMsg.content (num : Numbering) : KVMsg → Option Content
  | .appPlan m =>
      some ⟨m.coorsys, coordinates (some m.ra) (some m.dec) (some m.azi) (some m.ele) m.tle1 m.tle2
        (num.system m.coorsys), some m.epoch, m.kvs⟩
  | .slewto m =>
      some ⟨m.coorsys, coordinates m.ra m.dec m.azi m.ele m.tle1 m.tle2 (num.system m.coorsys),
        m.epoch, []⟩
  | .sync m => some ⟨coorsysEqua, coordinates m.ra m.dec none none [] [] .equatorial, m.epoch, []⟩
  | _ => none

/-- `b` agrees with `a` in all that `a` has set. -/
structure Content.Kept (a b : Content) : Prop where
  coorsys : b.coorsys = a.coorsys
  coordinates : List.Forall₂ (fun x y => ∀ v, x = some v → y = some v) a.coordinates b.coordinates
  epoch : b.epoch = a.epoch
  kvs : b.kvs = a.kvs

/-- The printed message resolves to one with the same content. -/
def ComesThrough (num : Numbering) (mem : Text → Value) (m : KVMsg) : Prop :=
  ∃ m' a b, resolve (m.toText mem) = .ok (some m') ∧ m.content num = some a ∧
    m'.content num = some b ∧ a.Kept b

theorem comesThrough_iff_kept {num : Numbering} {mem : Text → Value} {m m' : KVMsg}
    {a b : Content} (hres : resolve (m.toText mem) = .ok (some m')) (ha : m.content num = some a)
    (hb : m'.content num = some b) : ComesThrough num mem m ↔ a.Kept b := by
  constructor
  · rintro ⟨m'', a', b', hres', ha', hb', hkept⟩
    rw [hres] at hres'
    obtain rfl := Option.some.inj (Except.ok.inj hres')
    rw [ha] at ha'
    rw [hb] at hb'
    obtain rfl := Option.some.inj ha'
    obtain rfl := Option.some.inj hb'
    exact hkept
  · intro h
    exact ⟨m', a, b, hres, ha, hb, h⟩

/-- The type words of the messages concerned. -/
def targetTypes : List Text :=
  [kvtypeAppplan, kvtypeAppgwac, kvtypeTkimg, kvtypeSlewto, kvtypeSync]

/-- The number is printed exactly, and read back. -/
def Exact (x : Double) : Prop := stod x.printed.text = .ok x

/-- The numbers of a message that are set. -/
def KVMsg.doubles : KVMsg → List (Option Double)
  | .appPlan m =>
      [some m.ra, some m.dec, some m.epoch, some m.azi, some m.ele, some m.exptime, some m.delay]
  | .slewto m => [m.ra, m.dec, m.epoch, m.azi, m.ele]
  | .sync m => [m.ra, m.dec, m.epoch]
  | _ => []

def KVMsg.NumbersExact (m : KVMsg) : Prop := ∀ x, some x ∈ m.doubles → Exact x

/-- What an unset number prints as is some number again. -/
def ReadableMemory (mem : Text → Value) : Prop :=
  ∀ key, ∃ x y, mem key = .dbl x ∧ stod x.text = .ok y

/-! ### Which lines come through -/

/-- The line has no epoch but the default. A plan is not of system 0, which is
printed with an epoch, and has no coordinates but those printed with system 1.
A slew is of system 1, which is what an unknown keyword leaves it with, and has
no coordinates but the ones printed with it. -/
def Whole (num : Numbering) (rcvd : Text) : Prop :=
  readEpoch (linePairs rcvd).1 = .fin 2000 ∧
    if iequals (lineType rcvd) kvtypeSync then True
    else if iequals (lineType rcvd) kvtypeSlewto then
      (givenInt (linePairs rcvd).1 "coor_sys").getD 1 = 1 ∧
        (num = .comments →
          givenDbl (linePairs rcvd).1 "azi" = none ∧ givenDbl (linePairs rcvd).1 "ele" = none)
    else
      (givenInt (linePairs rcvd).1 "coor_sys").getD 1 ≠ 0 ∧
        (num = .enum → (givenInt (linePairs rcvd).1 "coor_sys").getD 1 = 1 →
          (givenDbl (linePairs rcvd).1 "ra").getD (.fin 0) = .fin 0 ∧
            (givenDbl (linePairs rcvd).1 "dec").getD (.fin 0) = .fin 0)

/-! ### Plans -/

variable {mem : Text → Value}

section

variable {α : Type} {keys : List (Key α)} {other : KeyValPair → α → α} {m m₁ m₂ : α}

theorem ReadsBack.append {as bs : List Item} (ha : ReadsBack mem keys other as m m₁)
    (hb : ReadsBack mem keys other bs m₁ m₂) : ReadsBack mem keys other (as ++ bs) m m₂ := by
  refine ⟨fun it hit => ?_, ?_⟩
  · obtain hit | hit := List.mem_append.mp hit
    · exact ha.named it hit
    · exact hb.named it hit
  · have hsplit : ∀ (kvs kvs' : List KeyValPair) (m : α), assignAll keys other kvs m = .ok m₁ →
        assignAll keys other kvs' m₁ = .ok m₂ → assignAll keys other (kvs ++ kvs') m = .ok m₂ := by
      intro kvs kvs' m h h'
      induction kvs generalizing m with
      | nil =>
          obtain rfl := Except.ok.inj h
          exact h'
      | cons kv kvs ih =>
          rw [assignAll] at h
          rw [List.cons_append, assignAll]
          cases hone : assign keys other kv m with
          | error e => simp [hone] at h
          | ok x =>
              simp only [hone] at h ⊢
              exact ih x h
    rw [valuePairs, List.filterMap_append]
    exact hsplit _ _ m ha.runs hb.runs

end

theorem readsBack_extras {kvs : List KeyValPair}
    (hkvs : ∀ kv ∈ kvs, kv.Sound ∧
      appendPlanKeys.find? (fun k => iequals kv.keyword k.name) = none) (m : KVAppPlan) :
    ReadsBack mem appendPlanKeys addPair
      (kvs.map fun kv => ⟨kv.keyword, some (.text kv.value)⟩) m { m with kvs := m.kvs ++ kvs } := by
  induction kvs generalizing m with
  | nil =>
      rw [List.append_nil]
      exact .nil
  | cons kv kvs ih =>
      obtain ⟨hsound, hfind⟩ := hkvs kv (by simp)
      have hrest := ih (fun kv h => hkvs kv (by simp [h])) (addPair kv m)
      have hadd : (addPair kv m).kvs ++ kvs = m.kvs ++ kv :: kvs := by simp [addPair]
      rw [hadd] at hrest
      exact .unknown hsound.given hsound.own hfind hrest

theorem reads_joinDbl (hmem : ReadableMemory mem) {o : Option Double}
    (hexact : ∀ x, o = some x → Exact x) (key : String) :
    ∃ y, stod ((joinDbl key o).valueText mem) = .ok y ∧ ∀ x, o = some x → y = x := by
  cases o with
  | none =>
      obtain ⟨x, y, hx, hy⟩ := hmem key.toList
      refine ⟨y, ?_, by simp⟩
      simpa [Item.valueText, joinDbl, hx, Value.toText] using hy
  | some x =>
      refine ⟨x, hexact x rfl, fun z hz => ?_⟩
      exact Option.some.inj hz

/-- The printed keyword of the epoch is not the one that is read. -/
theorem epoch_unknown : OwnKey "epoch".toList ∧
    appendPlanKeys.find? (fun k => iequals "epoch".toList k.name) = none ∧
    slewtoKeys.find? (fun k => iequals "epoch".toList k.name) = none ∧
    syncKeys.find? (fun k => iequals "epoch".toList k.name) = none := by
  decide

/-- Nor is the one of a slew's coordinate system. -/
theorem coorsys_unknown : OwnKey "coorsys".toList ∧
    slewtoKeys.find? (fun k => iequals "coorsys".toList k.name) = none := by
  decide

/-- The part of a plan that the printer branches on, read back. -/
def KVAppPlan.targetBack (p m : KVAppPlan) : KVAppPlan :=
  if p.coorsys = 0 then
    { m with ra := p.ra, dec := p.dec, kvs := m.kvs ++ [⟨"epoch".toList, p.epoch.printed.text⟩] }
  else if p.coorsys = 1 then { m with azi := p.azi, ele := p.ele }
  else { m with tle1 := p.tle1, tle2 := p.tle2 }

/-- A plan read back, as far as it is printed. -/
def KVAppPlan.back (p : KVAppPlan) : KVAppPlan :=
  let m := p.targetBack
    { newAppendPlan with
      planSn := p.planSn, objid := p.objid, obstype := p.obstype, coorsys := p.coorsys }
  { m with
    imgtype := p.imgtype, filter := p.filter, exptime := p.exptime, delay := p.delay
    frmcnt := p.frmcnt, loopcnt := p.loopcnt, priority := p.priority, planBegin := p.planBegin
    planEnd := p.planEnd, kvs := m.kvs ++ p.kvs }

theorem readsBack_plan {p : KVAppPlan} (hs : p.Sound)
    (hexact : (KVMsg.appPlan p).NumbersExact) :
    ReadsBack mem appendPlanKeys addPair p.ownItems newAppendPlan p.back := by
  have hread : ∀ x, some x ∈ (KVMsg.appPlan p).doubles → stod x.printed.text = .ok x := hexact
  simp only [KVMsg.doubles, List.mem_cons, Option.some.injEq, List.not_mem_nil, or_false] at hread
  have hints := hs.ints
  simp only [List.forall_mem_cons] at hints
  obtain ⟨hcoor, hfrm, hloop, hpri, -⟩ := hints
  -- head, target and tail of the items are read one after the other
  have hhead : ReadsBack mem appendPlanKeys addPair
      (joinGiven "plan_sn" p.planSn ++ joinGiven "objid" p.objid ++
        joinGiven "obstype" p.obstype ++ [joinInt "coor_sys" p.coorsys]) newAppendPlan
      { newAppendPlan with
        planSn := p.planSn, objid := p.objid, obstype := p.obstype, coorsys := p.coorsys } := by
    simp only [List.append_assoc]
    exact .given (fun _ => rfl) rfl <| .given (fun _ => rfl) rfl <| .given (fun _ => rfl) rfl <|
      .int rfl hcoor rfl .nil
  have htarget : ∀ m : KVAppPlan, m.tle1 = [] → m.tle2 = [] →
      ReadsBack mem appendPlanKeys addPair p.targetItems m (p.targetBack m) := by
    intro m h1 h2
    rw [KVAppPlan.targetItems, KVAppPlan.targetBack]
    split
    · have hepoch := hread p.epoch (by simp)
      exact .dbl (hread p.ra (by simp)) rfl <| .dbl (hread p.dec (by simp)) rfl <|
        .unknown (ne_nil_of_stod hepoch) epoch_unknown.1 epoch_unknown.2.1 .nil
    · split
      · exact .dbl (hread p.azi (by simp)) rfl <| .dbl (hread p.ele (by simp)) rfl .nil
      · refine .text rfl (fun _ => ?_) rfl <| .text rfl (fun _ => ?_) rfl .nil
        · rw [← h1]
        · rw [← h2]
  have htail : ∀ m : KVAppPlan, m.imgtype = [] → m.filter = [] → m.planBegin = [] →
      m.planEnd = [] → ReadsBack mem appendPlanKeys addPair
      ([joinText "imgtype" p.imgtype] ++ joinGiven "filter" p.filter ++
        [joinDbl "exptime" (some p.exptime), joinDbl "delay" (some p.delay),
         joinInt "frmcnt" p.frmcnt, joinInt "loopcnt" p.loopcnt, joinInt "priority" p.priority] ++
        joinGiven "plan_beg" p.planBegin ++ joinGiven "plan_end" p.planEnd ++
        p.kvs.map fun kv => ⟨kv.keyword, some (.text kv.value)⟩) m
      { m with
        imgtype := p.imgtype, filter := p.filter, exptime := p.exptime, delay := p.delay
        frmcnt := p.frmcnt, loopcnt := p.loopcnt, priority := p.priority
        planBegin := p.planBegin, planEnd := p.planEnd, kvs := m.kvs ++ p.kvs } := by
    rintro ⟨base, planSn, objid, obstype, coorsys, ra, dec, epoch, azi, ele, tle1, tle2, imgtype,
      filter, exptime, delay, frmcnt, loopcnt, priority, planBegin, planEnd, kvs⟩ rfl rfl rfl rfl
    simp only [List.append_assoc, List.cons_append, List.nil_append]
    exact .text rfl (fun _ => rfl) rfl <| .given (fun _ => rfl) rfl <|
      .dbl (hread p.exptime (by simp)) rfl <| .dbl (hread p.delay (by simp)) rfl <|
      .int rfl hfrm rfl <| .int rfl hloop rfl <| .int rfl hpri rfl <| .given (fun _ => rfl) rfl <|
      .given (fun _ => rfl) rfl <| readsBack_extras hs.pairs _
  have hall := (hhead.append (htarget _ rfl rfl)).append
    (htail (p.targetBack _) (by rw [KVAppPlan.targetBack]; split_ifs <;> rfl)
      (by rw [KVAppPlan.targetBack]; split_ifs <;> rfl)
      (by rw [KVAppPlan.targetBack]; split_ifs <;> rfl)
      (by rw [KVAppPlan.targetBack]; split_ifs <;> rfl))
  simp only [List.append_assoc] at hall
  simp only [KVAppPlan.ownItems, List.append_assoc]
  exact hall

theorem clean_joinInt (key : String) (n : ℤ) : Clean ((joinInt key n).valueText mem) :=
  clean_intText n

theorem clean_joinDbl (hmem : ReadableMemory mem) (key : String) (o : Option Double) :
    Clean ((joinDbl key o).valueText mem) := by
  cases o with
  | none =>
      obtain ⟨x, y, hx, -⟩ := hmem key.toList
      rw [Item.valueText, joinDbl, Option.map_none, Option.getD_none, hx]
      exact clean_dblText x
  | some x => exact clean_dblText x.printed

theorem clean_joinGiven {key : String} {t : Text} (ht : Clean t) {it : Item}
    (hit : it ∈ joinGiven key t) : Clean (it.valueText mem) := by
  rw [joinGiven] at hit
  split at hit
  · cases hit
  · rw [List.mem_singleton.mp hit]
    exact ht

theorem clean_base {m : KVBase} (h : m.Clean) {it : Item} (hit : it ∈ m.items) :
    Clean (it.valueText mem) := by
  have hgiven : m.items = joinGiven "utc" m.utc ++ joinGiven "gid" m.gid ++ joinGiven "uid" m.uid ++
      joinGiven "cid" m.cid := rfl
  rw [hgiven] at hit
  simp only [List.mem_append] at hit
  obtain ((hit | hit) | hit) | hit := hit
  · exact clean_joinGiven h.utc hit
  · exact clean_joinGiven h.gid hit
  · exact clean_joinGiven h.uid hit
  · exact clean_joinGiven h.cid hit

theorem clean_plan (hmem : ReadableMemory mem) {p : KVAppPlan} (hs : p.Sound) :
    ∀ it ∈ p.ownItems, Clean (it.valueText mem) := by
  have htext : ∀ t ∈ [p.planSn, p.objid, p.obstype, p.tle1, p.tle2, p.imgtype, p.filter,
      p.planBegin, p.planEnd], Clean t := hs.texts
  have htarget : ∀ it ∈ p.targetItems, Clean (it.valueText mem) := by
    intro it hit
    rw [KVAppPlan.targetItems] at hit
    split at hit
    · simp only [List.mem_cons, List.not_mem_nil, or_false] at hit
      obtain rfl | rfl | rfl := hit <;> exact clean_joinDbl hmem _ _
    · split at hit
      · simp only [List.mem_cons, List.not_mem_nil, or_false] at hit
        obtain rfl | rfl := hit <;> exact clean_joinDbl hmem _ _
      · simp only [List.mem_cons, List.not_mem_nil, or_false] at hit
        obtain rfl | rfl := hit
        · exact htext p.tle1 (by simp)
        · exact htext p.tle2 (by simp)
  intro it hit
  simp only [KVAppPlan.ownItems, List.mem_append, List.mem_cons, List.not_mem_nil, or_false,
    List.mem_map] at hit
  obtain (((((((((hit | hit) | hit) | rfl) | hit) | rfl) | hit) | hit) | hit) | hit) | hit := hit
  · exact clean_joinGiven (htext p.planSn (by simp)) hit
  · exact clean_joinGiven (htext p.objid (by simp)) hit
  · exact clean_joinGiven (htext p.obstype (by simp)) hit
  · exact clean_joinInt _ _
  · exact htarget it hit
  · exact htext p.imgtype (by simp)
  · exact clean_joinGiven (htext p.filter (by simp)) hit
  · obtain rfl | rfl | rfl | rfl | rfl := hit
    · exact clean_joinDbl hmem _ _
    · exact clean_joinDbl hmem _ _
    · exact clean_joinInt _ _
    · exact clean_joinInt _ _
    · exact clean_joinInt _ _
  · exact clean_joinGiven (htext p.planBegin (by simp)) hit
  · exact clean_joinGiven (htext p.planEnd (by simp)) hit
  · obtain ⟨kv, hkv, rfl⟩ := hit
    exact (hs.pairs kv hkv).1.value

theorem ownKey_appendPlan : ∀ k ∈ appendPlanKeys, OwnKey k.name := by decide

/-- A plan that comes from a line is read back as far as it was printed. -/
theorem resolve_printed_plan {rcvd w : Text} (hw : w ∈ planTypes) {p : KVAppPlan}
    (hp : PlanReceived w rcvd p) (hexact : (KVMsg.appPlan p).NumbersExact)
    (hmem : ReadableMemory mem) :
    ∃ basis, resolve ((KVMsg.appPlan p).toText mem) =
      .ok (some (.appPlan { p.back with toKVBase := basis })) := by
  have hback : ReadsBack mem appendPlanKeys addPair p.ownItems newAppendPlan p.back :=
    readsBack_plan hp.sound hexact
  have hword : Free (· == ' ') w ∧ w ≠ [] := by
    have hall : ∀ w ∈ planTypes, w.all (fun c => !(c == ' ')) = true ∧ w ≠ [] := by decide
    obtain ⟨hfree, hne⟩ := hall w hw
    exact ⟨fun c hc => by simpa using List.all_eq_true.mp hfree c hc, hne⟩
  have hreadable : (KVMsg.appPlan p).Readable mem := by
    refine ⟨hp.type ▸ hword.1, hp.type ▸ hword.2, fun it hit => ?_, hback.own ownKey_appendPlan⟩
    obtain hit | hit := List.mem_append.mp hit
    · exact clean_base hp.base hit
    · exact clean_plan hmem hp.sound it hit
  have htype : iequals (lineType ((KVMsg.appPlan p).toText mem)) w = true := by
    rw [lineType_toText hreadable]
    exact hp.type ▸ iequals_refl w
  have hobj : p.back.objid = p.objid := by
    rw [KVAppPlan.back, KVAppPlan.targetBack]
    split_ifs <;> rfl
  -- type and object are given, so `Resolve` fills in nothing
  have hnamed : amendPlan p.back = p.back := amendPlan_of_named hp.imgtype (hobj ▸ hp.objid)
  have hloop : planLoop (valuePairs mem p.ownItems) = .ok p.back := hback.runs
  refine ⟨{ type := w, utc := p.utc, gid := p.gid, uid := p.uid, cid := p.cid }, ?_⟩
  rw [resolve_plan hw htype, linePairs_toText hreadable, resolveAppendPlan_eq]
  simp only [KVMsg.ownItems, hloop, Except.map, hnamed, catchNumeric, asMsg, Option.map_some]
  rfl

section

variable {num : Numbering} {p : KVAppPlan} {basis : KVBase}

/-- A plan and its copy hold the same when nothing but the printed fields was
in it. -/
theorem comesThrough_plan_iff
    (hres : resolve ((KVMsg.appPlan p).toText mem) =
      .ok (some (.appPlan { p.back with toKVBase := basis }))) :
    ComesThrough num mem (.appPlan p) ↔
      p.epoch = .fin 2000 ∧ p.coorsys ≠ 0 ∧
        (num = .enum → p.coorsys = 1 → p.ra = .fin 0 ∧ p.dec = .fin 0) := by
  rw [comesThrough_iff_kept hres rfl rfl]
  by_cases hzero : p.coorsys = 0
  · -- the printed epoch comes back as an extra pair
    have hback : p.back.kvs = ⟨"epoch".toList, p.epoch.printed.text⟩ :: p.kvs := by
      simp [KVAppPlan.back, KVAppPlan.targetBack, hzero, newAppendPlan]
    refine ⟨fun h => ?_, fun h => absurd hzero h.2.1⟩
    have hkvs : p.back.kvs = p.kvs := h.kvs
    rw [hback] at hkvs
    exact absurd hkvs (List.cons_ne_self _ _)
  · by_cases hone : p.coorsys = 1
    · have hback : p.back.coorsys = 1 ∧ p.back.azi = p.azi ∧ p.back.ele = p.ele ∧
          p.back.ra = .fin 0 ∧ p.back.dec = .fin 0 ∧ p.back.epoch = .fin 2000 ∧
          p.back.kvs = p.kvs := by
        simp [KVAppPlan.back, KVAppPlan.targetBack, hone, newAppendPlan]
      obtain ⟨hcoor, hazi, hele, hra, hdec, hepoch, hkvs⟩ := hback
      constructor
      · intro h
        refine ⟨?_, hzero, fun hnum _ => ?_⟩
        · exact (Option.some.inj (hepoch ▸ h.epoch)).symm
        · have hcoords := h.coordinates
          subst hnum
          simpa [hone, hcoor, Numbering.system, coordinates, coorsysEqua, coorsysAltaz, hra, hdec,
            eq_comm] using hcoords
      · rintro ⟨hep, -, hplane⟩
        refine ⟨hcoor.trans hone.symm, ?_, by rw [hepoch, hep], hkvs⟩
        cases num with
        | comments =>
            simp [hone, hcoor, Numbering.system, coordinates, hazi, hele]
        | enum =>
            obtain ⟨h1, h2⟩ := hplane rfl hone
            simp [hone, hcoor, Numbering.system, coordinates, coorsysEqua, hra, hdec, h1, h2]
    · -- an orbit has no coordinates to mistake
      have hback : p.back.coorsys = p.coorsys ∧ p.back.tle1 = p.tle1 ∧ p.back.tle2 = p.tle2 ∧
          p.back.epoch = .fin 2000 ∧ p.back.kvs = p.kvs := by
        simp [KVAppPlan.back, KVAppPlan.targetBack, hzero, hone, newAppendPlan]
      obtain ⟨hcoor, htle1, htle2, hepoch, hkvs⟩ := hback
      have horbit : num.system p.coorsys = .orbit := by
        cases num <;> simp [Numbering.system, hzero, hone, coorsysEqua, coorsysAltaz]
      constructor
      · intro h
        exact ⟨(Option.some.inj (hepoch ▸ h.epoch)).symm, hzero, fun _ h1 => absurd h1 hone⟩
      · rintro ⟨hep, -, -⟩
        refine ⟨hcoor, ?_, by rw [hepoch, hep], hkvs⟩
        simp [hcoor, horbit, coordinates, htle1, htle2]

end

/-! ### Slews -/

/-- What is known of a slew message by the line it comes from. -/
structure SlewReceived (rcvd : Text) (m : KVSlewto) : Prop where
  type : m.type = kvtypeSlewto
  base : m.toKVBase.Clean
  fields : m.ReadFrom (linePairs rcvd).1

theorem slewReceived_of_resolve {rcvd : Text} (hType : iequals (lineType rcvd) kvtypeSlewto = true)
    {m : KVMsg} (h : resolve rcvd = .ok (some m)) :
    ∃ proto, m = .slewto proto ∧ SlewReceived rcvd proto := by
  have hsorted := sorted_linePairs rcvd
  have hread := h
  rw [resolve_of_type (List.mem_of_getElem? (i := 16) rfl) hType] at h
  cases hrun : assignAll slewtoKeys (fun _ m => m) (linePairs rcvd).1 newSlewto with
  | error e => simp [resolveSlewto, resolveWith, hrun, asMsg, Except.map, catchNumeric] at h
  | ok q =>
      simp only [resolveSlewto, resolveWith, hrun, asMsg, Except.map, catchNumeric,
        Option.map_some, Except.ok.injEq, Option.some.injEq] at h
      have htype : q.type = kvtypeSlewto := by
        have hkeys : ∀ k ∈ slewtoKeys, k.slot.Keeps fun m : KVSlewto => m.type := by
          simp [slewtoKeys, Slot.Keeps]
        exact assignAll_keeps hkeys (fun _ _ => rfl) hrun
      rw [← h] at hread
      refine ⟨_, h.symm, htype, ?_, readFrom_resolve hType hread⟩
      exact ⟨hsorted.base.utc, hsorted.base.gid, hsorted.base.uid, hsorted.base.cid⟩

theorem ownKey_slewto : ∀ k ∈ slewtoKeys, OwnKey k.name := by decide

/-- The copy of a slew is of the default system and epoch, and has of the rest
what was printed. -/
theorem readsBack_slewto {m : KVSlewto} (hexact : (KVMsg.slewto m).NumbersExact)
    (hmem : ReadableMemory mem) :
    ∃ m', ReadsBack mem slewtoKeys (fun _ m => m) m.ownItems newSlewto m' ∧
      m'.coorsys = coorsysEqua ∧ m'.epoch = some (.fin 2000) ∧
      (m.coorsys = coorsysEqua → m'.azi = none ∧ m'.ele = none ∧
        (∀ x, m.ra = some x → m'.ra = some x) ∧ (∀ x, m.dec = some x → m'.dec = some x)) := by
  have hread : ∀ o ∈ (KVMsg.slewto m).doubles, ∀ key,
      ∃ y, stod ((joinDbl key o).valueText mem) = .ok y ∧ ∀ x, o = some x → y = x :=
    fun o ho => reads_joinDbl hmem fun x hx => hexact x (hx ▸ ho)
  have hcoor : (joinInt "coorsys" m.coorsys).valueText mem ≠ [] := zeroPad_ne_nil 0 _
  rw [KVSlewto.ownItems, KVSlewto.targetItems]
  by_cases hequa : m.coorsys = coorsysEqua
  · obtain ⟨ra, hra, hra'⟩ := hread m.ra (by simp [KVMsg.doubles]) "ra"
    obtain ⟨dec, hdec, hdec'⟩ := hread m.dec (by simp [KVMsg.doubles]) "dec"
    obtain ⟨epoch, hepoch, -⟩ := hread m.epoch (by simp [KVMsg.doubles]) "epoch"
    rw [if_pos hequa]
    refine ⟨{ newSlewto with ra := some ra, dec := some dec }, ?_, rfl, rfl, fun _ =>
      ⟨rfl, rfl, fun x hx => ?_, fun x hx => ?_⟩⟩
    · exact .unknown hcoor coorsys_unknown.1 coorsys_unknown.2 <| .dbl hra rfl <| .dbl hdec rfl <|
        .unknown (ne_nil_of_stod hepoch) epoch_unknown.1 epoch_unknown.2.2.1 .nil
    · rw [hra' x hx]
    · rw [hdec' x hx]
  · rw [if_neg hequa]
    by_cases haltaz : m.coorsys = coorsysAltaz
    · obtain ⟨azi, hazi, -⟩ := hread m.azi (by simp [KVMsg.doubles]) "azi"
      obtain ⟨ele, hele, -⟩ := hread m.ele (by simp [KVMsg.doubles]) "ele"
      rw [if_pos haltaz]
      refine ⟨{ newSlewto with azi := some azi, ele := some ele }, ?_, rfl, rfl,
        fun h => absurd h hequa⟩
      exact .unknown hcoor coorsys_unknown.1 coorsys_unknown.2 <| .dbl hazi rfl <|
        .dbl hele rfl .nil
    · rw [if_neg haltaz]
      refine ⟨{ newSlewto with tle1 := m.tle1, tle2 := m.tle2 }, ?_, rfl, rfl,
        fun h => absurd h hequa⟩
      exact .unknown hcoor coorsys_unknown.1 coorsys_unknown.2 <| .text rfl (fun _ => rfl) rfl <|
        .text rfl (fun _ => rfl) rfl .nil

theorem clean_slewto (hmem : ReadableMemory mem) {rcvd : Text} {m : KVSlewto}
    (hm : SlewReceived rcvd m) : ∀ it ∈ m.ownItems, Clean (it.valueText mem) := by
  have hpairs := (sorted_linePairs rcvd).pairs
  intro it hit
  rw [KVSlewto.ownItems, KVSlewto.targetItems] at hit
  obtain rfl | hit := List.mem_cons.mp hit
  · exact clean_joinInt _ _
  · split at hit
    · simp only [List.mem_cons, List.not_mem_nil, or_false] at hit
      obtain rfl | rfl | rfl := hit <;> exact clean_joinDbl hmem _ _
    · split at hit
      · simp only [List.mem_cons, List.not_mem_nil, or_false] at hit
        obtain rfl | rfl := hit <;> exact clean_joinDbl hmem _ _
      · simp only [List.mem_cons, List.not_mem_nil, or_false] at hit
        obtain rfl | rfl := hit
        · have hclean := clean_of_given hpairs "tle1".toList
          rw [← hm.fields.tle1] at hclean
          exact hclean
        · have hclean := clean_of_given hpairs "tle2".toList
          rw [← hm.fields.tle2] at hclean
          exact hclean

theorem comesThrough_slew_iff {num : Numbering} {rcvd : Text} {m : KVSlewto}
    (hm : SlewReceived rcvd m) (hexact : (KVMsg.slewto m).NumbersExact)
    (hmem : ReadableMemory mem) :
    ComesThrough num mem (.slewto m) ↔
      m.epoch = some (.fin 2000) ∧ m.coorsys = coorsysEqua ∧
        (num = .comments → m.azi = none ∧ m.ele = none) := by
  obtain ⟨m', hback, hcoor, hepoch, hkept⟩ := readsBack_slewto hexact hmem
  have hreadable : (KVMsg.slewto m).Readable mem := by
    refine ⟨?_, ?_, fun it hit => ?_, hback.own ownKey_slewto⟩
    · exact hm.type ▸ (type_word (List.mem_of_getElem? (i := 16) rfl)).1
    · exact hm.type ▸ (type_word (List.mem_of_getElem? (i := 16) rfl)).2
    · obtain hit | hit := List.mem_append.mp hit
      · exact clean_base hm.base hit
      · exact clean_slewto hmem hm it hit
  have hrun : assignAll slewtoKeys (fun _ m => m) (valuePairs mem m.ownItems) newSlewto = .ok m' :=
    hback.runs
  have hres : resolve ((KVMsg.slewto m).toText mem) = .ok (some (.slewto
      { m' with toKVBase := m'.toKVBase.assign { m.toKVBase with type := [] } })) := by
    rw [resolve_toText hreadable (List.mem_of_getElem? (i := 16) rfl) hm.type]
    simp only [KVMsg.ownItems, resolveSlewto, resolveWith, hrun, Except.map, catchNumeric, asMsg,
      Option.map_some]
    rfl
  rw [comesThrough_iff_kept hres rfl rfl]
  constructor
  · intro h
    have hsys : m.coorsys = coorsysEqua := (hcoor ▸ h.coorsys).symm
    refine ⟨(hepoch ▸ h.epoch).symm, hsys, fun hnum => ?_⟩
    obtain ⟨hazi, hele, -, -⟩ := hkept hsys
    have hcoords := h.coordinates
    simp only [hnum, hsys, hcoor, Numbering.system, coordinates, coorsysEqua, hazi, hele,
      one_ne_zero, if_false, if_true, List.forall₂_cons, Option.map_none] at hcoords
    obtain ⟨h1, h2, -⟩ := hcoords
    constructor
    · cases ha : m.azi with
      | none => rfl
      | some x => simp [ha] at h1
    · cases he : m.ele with
      | none => rfl
      | some x => simp [he] at h2
  · rintro ⟨hep, hsys, hplane⟩
    obtain ⟨hazi, hele, hra, hdec⟩ := hkept hsys
    refine ⟨hcoor.trans hsys.symm, ?_, hepoch.trans hep.symm, rfl⟩
    cases num with
    | comments =>
        obtain ⟨h1, h2⟩ := hplane rfl
        simp [hsys, hcoor, Numbering.system, coordinates, coorsysEqua, hazi, hele, h1, h2]
    | enum =>
        have hset : ∀ {o o' : Option Double}, (∀ x, o = some x → o' = some x) →
            ∀ v, o.map Value.dbl = some v → o'.map Value.dbl = some v := by
          intro o o' ho v hv
          obtain ⟨x, hx, rfl⟩ := Option.map_eq_some_iff.mp hv
          rw [ho x hx]
          rfl
        simp only [hsys, hcoor, Numbering.system, coordinates, if_true]
        exact .cons (hset hra) (.cons (hset hdec) .nil)

/-! ### Syncs -/

/-- What is known of a sync message by the line it comes from. -/
structure SyncReceived (rcvd : Text) (m : KVSync) : Prop where
  type : m.type = kvtypeSync
  base : m.toKVBase.Clean
  epoch : m.epoch = some (readEpoch (linePairs rcvd).1)

theorem syncReceived_of_resolve {rcvd : Text} (hType : iequals (lineType rcvd) kvtypeSync = true)
    {m : KVMsg} (h : resolve rcvd = .ok (some m)) :
    ∃ proto, m = .sync proto ∧ SyncReceived rcvd proto := by
  have hsorted := sorted_linePairs rcvd
  rw [resolve_of_type (List.mem_of_getElem? (i := 17) rfl) hType] at h
  cases hrun : assignAll syncKeys (fun _ m => m) (linePairs rcvd).1
      { epoch := some (.fin 2000) } with
  | error e => simp [resolveSync, resolveWith, hrun, asMsg, Except.map, catchNumeric] at h
  | ok q =>
      simp only [resolveSync, resolveWith, hrun, asMsg, Except.map, catchNumeric,
        Option.map_some, Except.ok.injEq, Option.some.injEq] at h
      have htype : q.type = kvtypeSync := by
        have hkeys : ∀ k ∈ syncKeys, k.slot.Keeps fun m : KVSync => m.type := by
          simp [syncKeys, Slot.Keeps]
        exact assignAll_keeps hkeys (fun _ _ => rfl) hrun
      have hepoch : q.epoch = ((givenDbl (linePairs rcvd).1 "ecoch").map some).getD
          (some (.fin 2000)) :=
        dbl_given some hrun rfl (fun _ _ => rfl) (by simp [syncKeys, Slot.Keeps]) (fun _ _ => rfl)
      refine ⟨_, h.symm, htype, ?_, ?_⟩
      · exact ⟨hsorted.base.utc, hsorted.base.gid, hsorted.base.uid, hsorted.base.cid⟩
      · show q.epoch = _
        rw [hepoch, readEpoch]
        cases givenDbl (linePairs rcvd).1 "ecoch" <;> rfl

theorem ownKey_sync : ∀ k ∈ syncKeys, OwnKey k.name := by decide

theorem comesThrough_sync_iff {num : Numbering} {rcvd : Text} {m : KVSync}
    (hm : SyncReceived rcvd m) (hexact : (KVMsg.sync m).NumbersExact) (hmem : ReadableMemory mem) :
    ComesThrough num mem (.sync m) ↔ m.epoch = some (.fin 2000) := by
  have hread : ∀ o ∈ (KVMsg.sync m).doubles, ∀ key,
      ∃ y, stod ((joinDbl key o).valueText mem) = .ok y ∧ ∀ x, o = some x → y = x :=
    fun o ho => reads_joinDbl hmem fun x hx => hexact x (hx ▸ ho)
  obtain ⟨ra, hra, hra'⟩ := hread m.ra (by simp [KVMsg.doubles]) "ra"
  obtain ⟨dec, hdec, hdec'⟩ := hread m.dec (by simp [KVMsg.doubles]) "dec"
  obtain ⟨epoch, hepoch, -⟩ := hread m.epoch (by simp [KVMsg.doubles]) "epoch"
  have hback : ReadsBack mem syncKeys (fun _ m => m) m.ownItems { epoch := some (.fin 2000) }
      { ra := some ra, dec := some dec, epoch := some (.fin 2000) } :=
    .dbl hra rfl <| .dbl hdec rfl <|
      .unknown (ne_nil_of_stod hepoch) epoch_unknown.1 epoch_unknown.2.2.2 .nil
  have hreadable : (KVMsg.sync m).Readable mem := by
    refine ⟨?_, ?_, fun it hit => ?_, hback.own ownKey_sync⟩
    · exact hm.type ▸ (type_word (List.mem_of_getElem? (i := 17) rfl)).1
    · exact hm.type ▸ (type_word (List.mem_of_getElem? (i := 17) rfl)).2
    · obtain hit | hit := List.mem_append.mp hit
      · exact clean_base hm.base hit
      · simp only [KVMsg.ownItems, KVSync.ownItems, List.mem_cons, List.not_mem_nil, or_false] at hit
        obtain rfl | rfl | rfl := hit <;> exact clean_joinDbl hmem _ _
  have hrun : assignAll syncKeys (fun _ m => m) (valuePairs mem m.ownItems)
      { epoch := some (.fin 2000) } =
        .ok { ra := some ra, dec := some dec, epoch := some (.fin 2000) } := hback.runs
  have hres : resolve ((KVMsg.sync m).toText mem) = .ok (some (.sync
      { type := kvtypeSync, utc := m.utc, gid := m.gid, uid := m.uid, cid := m.cid
        ra := some ra, dec := some dec, epoch := some (.fin 2000) })) := by
    rw [resolve_toText hreadable (List.mem_of_getElem? (i := 17) rfl) hm.type]
    simp only [KVMsg.ownItems, resolveSync, resolveWith, hrun, Except.map, catchNumeric, asMsg,
      Option.map_some]
    rfl
  rw [comesThrough_iff_kept hres rfl rfl]
  constructor
  · intro h
    exact h.epoch.symm
  · intro hep
    have hset : ∀ {o : Option Double} {y : Double}, (∀ x, o = some x → y = x) →
        ∀ v, o.map Value.dbl = some v → (some y).map Value.dbl = some v := by
      intro o y ho v hv
      obtain ⟨x, hx, rfl⟩ := Option.map_eq_some_iff.mp hv
      rw [ho x hx]
      rfl
    exact ⟨rfl, .cons (hset hra') (.cons (hset hdec') .nil), hep.symm, rfl⟩

/-! ### All of them -/

/-- A message with a target comes through exactly when its line is whole. -/
theorem comesThrough_iff_whole (num : Numbering) {rcvd w : Text} {m : KVMsg}
    (hw : w ∈ targetTypes) (hType : iequals (lineType rcvd) w = true)
    (h : resolve rcvd = .ok (some m)) (hexact : m.NumbersExact) (hmem : ReadableMemory mem) :
    ComesThrough num mem m ↔ Whole num rcvd := by
  have hother : ∀ a ∈ targetTypes, ∀ b ∈ targetTypes, a ≠ b → iequals a b = false := by decide
  by_cases hsync : w = kvtypeSync
  · subst hsync
    obtain ⟨proto, rfl, hm⟩ := syncReceived_of_resolve hType h
    rw [comesThrough_sync_iff hm hexact hmem, hm.epoch, Whole, if_pos hType]
    simp
  · have hnosync : iequals (lineType rcvd) kvtypeSync = false :=
      iequals_exclusive hType (hother w hw _ (by simp [targetTypes]) hsync)
    by_cases hslew : w = kvtypeSlewto
    · subst hslew
      obtain ⟨proto, rfl, hm⟩ := slewReceived_of_resolve hType h
      rw [comesThrough_slew_iff hm hexact hmem, hm.fields.epoch, hm.fields.coorsys, hm.fields.azi,
        hm.fields.ele, Whole, hnosync, if_neg Bool.false_ne_true, if_pos hType, Option.some.injEq,
        coorsysEqua]
    · have hnoslew : iequals (lineType rcvd) kvtypeSlewto = false :=
        iequals_exclusive hType (hother w hw _ (by simp [targetTypes]) hslew)
      have hplan : w ∈ planTypes := by
        have hrest : ∀ w ∈ targetTypes, w ≠ kvtypeSync → w ≠ kvtypeSlewto → w ∈ planTypes := by
          decide
        exact hrest w hw hsync hslew
      obtain ⟨p, rfl, hp⟩ := planReceived_of_resolve hplan hType h
      obtain ⟨basis, hres⟩ := resolve_printed_plan hplan hp hexact hmem
      rw [comesThrough_plan_iff hres, hp.target.epoch, hp.target.coorsys, hp.target.ra,
        hp.target.dec]
      simp only [Whole, hnosync, hnoslew, Bool.false_eq_true, if_false]

/-- A slew to an equatorial target, for unit 001. -/
def unitSlew : Text := "slew gid=001, coor_sys=1, ra=10.5, dec=-20".toList

def unitSlewMsg : KVSlewto :=
  { newSlewto with
    gid := "001".toList, ra := some (.fin (mkRat 21 2)), dec := some (.fin (-20)) }

/-- Memory that reads as zero. -/
def zeroMem : Text → Value := fun _ => .dbl (.fin 0)

theorem readableMemory_zeroMem : ReadableMemory zeroMem :=
  fun _ => ⟨.fin 0, .fin 0, rfl, by decide +kernel⟩

theorem comesThrough_unitSlew :
    resolve unitSlew = .ok (some (.slewto unitSlewMsg)) ∧
      (KVMsg.slewto unitSlewMsg).NumbersExact ∧
      ComesThrough .enum zeroMem (.slewto unitSlewMsg) := by
  have hres : resolve unitSlew = .ok (some (.slewto unitSlewMsg)) := by decide +kernel
  have hexact : (KVMsg.slewto unitSlewMsg).NumbersExact := by
    have hall : ∀ o ∈ (KVMsg.slewto unitSlewMsg).doubles, ∀ x ∈ o, stod x.printed.text = .ok x := by
      decide +kernel
    exact fun x hx => hall (some x) hx x rfl
  refine ⟨hres, hexact, (comesThrough_iff_whole .enum (w := kvtypeSlewto) (by simp [targetTypes])
    (by decide) hres hexact readableMemory_zeroMem).mpr ?_⟩
  refine ⟨by decide +kernel, ?_⟩
  rw [if_neg (by decide), if_pos (by decide)]
  exact ⟨by decide +kernel, fun h => by cases h⟩

/-- A plan for an equatorial target, as the comments count it. -/
def unitPlan : Text := "append_plan gid=001, coor_sys=0, ra=10.5, dec=-20, imgtype=object".toList

def unitPlanMsg : KVAppPlan :=
  { newAppendPlan with
    gid := "001".toList, coorsys := 0, ra := .fin (mkRat 21 2), dec := .fin (-20)
    imgtype := "object".toList, objid := "objt".toList }

/-- Its epoch comes back as an extra pair. -/
theorem not_comesThrough :
    resolve unitPlan = .ok (some (.appPlan unitPlanMsg)) ∧
      (KVMsg.appPlan unitPlanMsg).NumbersExact ∧
      ¬ ComesThrough .comments zeroMem (.appPlan unitPlanMsg) ∧
      ¬ ComesThrough .enum zeroMem (.appPlan unitPlanMsg) := by
  have hres : resolve unitPlan = .ok (some (.appPlan unitPlanMsg)) := by decide +kernel
  have hexact : (KVMsg.appPlan unitPlanMsg).NumbersExact := by
    have hall : ∀ o ∈ (KVMsg.appPlan unitPlanMsg).doubles, ∀ x ∈ o,
        stod x.printed.text = .ok x := by
      decide +kernel
    exact fun x hx => hall (some x) hx x rfl
  have hback : resolve ((KVMsg.appPlan unitPlanMsg).toText zeroMem) =
      .ok (some (.appPlan { unitPlanMsg with kvs := [⟨"epoch".toList, "2000".toList⟩] })) := by
    decide +kernel
  have hno : ∀ num, ¬ ComesThrough num zeroMem (.appPlan unitPlanMsg) := by
    intro num h
    have hkept := (comesThrough_iff_kept hback rfl rfl).mp h
    have hkvs := hkept.kvs
    cases hkvs
  exact ⟨hres, hexact, hno _, hno _⟩

end Gtoaes
