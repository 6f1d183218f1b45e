import Gtoaes.Proto.PrintedLine
import Gtoaes.Proto.ReadFrom

/-!
What can be relied on of the pairs of a received line, and of the message that
is made of them.
-/

namespace Gtoaes

open Lib

/-- A pair as `resolve_kv` leaves it to the type. -/
structure KeyValPair.Sound (kv : KeyValPair) : Prop where
  own : OwnKey kv.keyword
  value : Clean kv.value
  given : kv.value ≠ []

/-- The base fields can be printed. -/
structure KVBase.Clean (m : KVBase) : Prop where
  utc : Gtoaes.Clean m.utc
  gid : Gtoaes.Clean m.gid
  uid : Gtoaes.Clean m.uid
  cid : Gtoaes.Clean m.cid

theorem Clean.trim {t : Text} (hcomma : Free (· == ',') t) (hequals : Free (· == '=') t) :
    Clean (trim t) :=
  ⟨hcomma.mono fun _ => mem_of_mem_trim, hequals.mono fun _ => mem_of_mem_trim, trim_trim t⟩

/-- Keyword and value of a pair are clean and not empty. -/
theorem clean_of_resolveKv {t : Text} (ht : Free (· == ',') t) {kv : KeyValPair}
    (h : resolveKv t = some kv) :
    Clean kv.keyword ∧ kv.keyword ≠ [] ∧ Clean kv.value ∧ kv.value ≠ [] := by
  rw [resolveKv] at h
  split at h
  · rename_i k v hcut
    have hpiece : ∀ p ∈ [k, v], Free (· == ',') p ∧ Free (· == '=') p := by
      intro p hp
      rw [← hcut] at hp
      exact ⟨ht.mono (mem_of_mem_split hp), free_of_mem_split hp⟩
    have hk := hpiece k (by simp)
    have hv := hpiece v (by simp)
    simp only at h
    split at h
    · cases h
    · rename_i hgiven
      obtain ⟨hkne, hvne⟩ := not_or.mp hgiven
      cases h
      exact ⟨.trim hk.1 hk.2, hkne, .trim hv.1 hv.2, hvne⟩
  · cases h

/-- What holds of the pairs sorted so far. -/
structure Sorted (acc : List KeyValPair × KVBase) : Prop where
  pairs : ∀ kv ∈ acc.1, kv.Sound
  base : acc.2.Clean

theorem Sorted.step {acc : List KeyValPair × KVBase} (h : Sorted acc) {kv : KeyValPair}
    (hkey : Clean kv.keyword) (hne : kv.keyword ≠ []) (hvalue : Clean kv.value)
    (hgiven : kv.value ≠ []) : Sorted (sortKv acc kv) := by
  obtain ⟨kvs, basis⟩ := acc
  have hbase := h.base
  rw [sortKv]
  split
  · exact ⟨h.pairs, { hbase with utc := hvalue }⟩
  · split
    · exact ⟨h.pairs, { hbase with gid := hvalue }⟩
    · split
      · exact ⟨h.pairs, { hbase with uid := hvalue }⟩
      · split
        · exact ⟨h.pairs, { hbase with cid := hvalue }⟩
        · rename_i hutc hgid huid hcid
          rw [Bool.not_eq_true] at hutc hgid huid hcid
          refine ⟨fun x hx => ?_, hbase⟩
          obtain hx | hx := List.mem_append.mp hx
          · exact h.pairs x hx
          · rw [List.mem_singleton.mp hx]
            exact ⟨⟨hkey, hne, hutc, hgid, huid, hcid⟩, hvalue, hgiven⟩

theorem sorted_foldl {kvs : List KeyValPair} {acc : List KeyValPair × KVBase} (h : Sorted acc)
    (hkvs : ∀ kv ∈ kvs,
      Clean kv.keyword ∧ kv.keyword ≠ [] ∧ Clean kv.value ∧ kv.value ≠ []) :
    Sorted (kvs.foldl sortKv acc) := by
  induction kvs generalizing acc with
  | nil => exact h
  | cons kv kvs ih =>
      obtain ⟨hkey, hne, hvalue, hgiven⟩ := hkvs kv (by simp)
      exact ih (h.step hkey hne hvalue hgiven) fun x hx => hkvs x (by simp [hx])

theorem sorted_linePairs (rcvd : Text) : Sorted (linePairs rcvd) := by
  have hempty : Sorted ([], {}) := ⟨by simp, by constructor <;> exact clean_nil⟩
  rw [linePairs]
  split
  · exact hempty
  · refine sorted_foldl hempty fun kv hkv => ?_
    obtain ⟨t, ht, hresolve⟩ := List.mem_filterMap.mp hkv
    exact clean_of_resolveKv (free_of_mem_split ht) hresolve

theorem clean_of_given {kvs : List KeyValPair} (hkvs : ∀ kv ∈ kvs, kv.Sound) (key : Text) :
    Clean ((given kvs key).getD []) := by
  cases h : given kvs key with
  | none => exact clean_nil
  | some v =>
      rw [given, Option.map_eq_some_iff] at h
      obtain ⟨kv, hfind, rfl⟩ := h
      exact (hkvs kv (List.mem_reverse.mp (List.mem_of_find?_eq_some hfind))).value

/-! ### An invariant of the walk over the pairs -/

/-- Storing a clean text, an `int` or a number with the slot preserves `P`. -/
def Slot.Preserves {α : Type} (P : α → Prop) : Slot α → Prop
  | .text set => ∀ v m, Clean v → P m → P (set v m)
  | .int set => ∀ n m, -2 ^ 31 ≤ n ∧ n < 2 ^ 31 → P m → P (set n m)
  | .dbl set => ∀ x m, P m → P (set x m)

theorem Slot.Preserves.assign {α : Type} {P : α → Prop} {slot : Slot α} (h : slot.Preserves P)
    {v : Text} {m m' : α} (hv : Clean v) (hm : P m) (hassign : slot.assign v m = .ok m') : P m' := by
  cases slot with
  | text set =>
      obtain rfl := Except.ok.inj hassign
      exact h v m hv hm
  | int set =>
      cases hn : stoi v with
      | error e => simp [Slot.assign, hn, Except.map] at hassign
      | ok n =>
          simp only [Slot.assign, hn, Except.map, Except.ok.injEq] at hassign
          exact hassign ▸ h n m (stoi_range hn) hm
  | dbl set =>
      cases hx : stod v with
      | error e => simp [Slot.assign, hx, Except.map] at hassign
      | ok x =>
          simp only [Slot.assign, hx, Except.map, Except.ok.injEq] at hassign
          exact hassign ▸ h x m hm

theorem assignAll_preserves {α : Type} {P : α → Prop} {keys : List (Key α)}
    {other : KeyValPair → α → α} (hkeys : ∀ k ∈ keys, k.slot.Preserves P)
    (hother : ∀ kv m, kv.Sound → keys.find? (fun k => iequals kv.keyword k.name) = none →
      P m → P (other kv m))
    {kvs : List KeyValPair} (hkvs : ∀ kv ∈ kvs, kv.Sound) {m m' : α} (hm : P m)
    (h : assignAll keys other kvs m = .ok m') : P m' := by
  induction kvs generalizing m with
  | nil =>
      obtain rfl := Except.ok.inj h
      exact hm
  | cons kv kvs ih =>
      have hkv := hkvs kv (by simp)
      have htail : ∀ kv ∈ kvs, kv.Sound := fun kv h => hkvs kv (by simp [h])
      rw [assignAll] at h
      cases hone : assign keys other kv m with
      | error e => simp [hone] at h
      | ok m₁ =>
          rw [hone] at h
          refine ih htail ?_ h
          rw [assign] at hone
          -- the keyword belongs to no field, or to the slot of one
          cases hfind : keys.find? (fun k => iequals kv.keyword k.name) with
          | none =>
              rw [hfind] at hone
              obtain rfl := Except.ok.inj hone
              exact hother kv m hkv hfind hm
          | some k =>
              rw [hfind] at hone
              exact (hkeys k (List.mem_of_find?_eq_some hfind)).assign hkv.value hm hone

/-! ### Plans -/

/-- A plan that a line can have given: it can be printed, and its extra pairs
are named by no field. -/
structure KVAppPlan.Sound (m : KVAppPlan) : Prop where
  texts : ∀ t ∈ [m.planSn, m.objid, m.obstype, m.tle1, m.tle2, m.imgtype, m.filter, m.planBegin,
    m.planEnd], Clean t
  ints : ∀ n ∈ [m.coorsys, m.frmcnt, m.loopcnt, m.priority], -2 ^ 31 ≤ n ∧ n < 2 ^ 31
  pairs : ∀ kv ∈ m.kvs, kv.Sound ∧
    appendPlanKeys.find? (fun k => iequals kv.keyword k.name) = none

/-- An unknown keyword is kept with its value. -/
def addPair (kv : KeyValPair) (m : KVAppPlan) : KVAppPlan := { m with kvs := m.kvs ++ [kv] }

/-- The loop of `resolve_append_plan`. -/
def planLoop (kvs : List KeyValPair) : Except StdExn KVAppPlan :=
  assignAll appendPlanKeys addPair kvs newAppendPlan

theorem resolveAppendPlan_eq (kvs : List KeyValPair) :
    resolveAppendPlan kvs = catchNumeric ((planLoop kvs).map amendPlan) := rfl

theorem sound_planLoop {kvs : List KeyValPair} (hkvs : ∀ kv ∈ kvs, kv.Sound) {m : KVAppPlan}
    (h : planLoop kvs = .ok m) : m.Sound := by
  refine assignAll_preserves (P := KVAppPlan.Sound) ?_ ?_ hkvs ?_ h
  · simp only [appendPlanKeys, List.forall_mem_cons, List.not_mem_nil, false_implies,
      implies_true, and_true, Slot.Preserves]
    -- each key sets one field, and what it sets it to is fit for that field
    refine ⟨?_, ?_, ?_, ?_, ?_, ?_, ?_, ?_, ?_, ?_, ?_, ?_, ?_, ?_, ?_, ?_, ?_, ?_, ?_, ?_⟩
    all_goals
      intros
      rename_i hm
      have htexts := hm.texts
      have hints := hm.ints
      refine ⟨?_, ?_, hm.pairs⟩
      all_goals
        simp only [List.forall_mem_cons] at htexts hints ⊢
        tauto
  · intro kv m hkv hfind hm
    refine ⟨hm.texts, hm.ints, fun x hx => ?_⟩
    obtain hx | hx := List.mem_append.mp hx
    · exact hm.pairs x hx
    · rw [List.mem_singleton.mp hx]
      exact ⟨hkv, hfind⟩
  · exact ⟨by simp [newAppendPlan], by simp [newAppendPlan, coorsysEqua], by simp [newAppendPlan]⟩

theorem assignAll_keeps {α β : Type} {get : α → β} {keys : List (Key α)}
    {other : KeyValPair → α → α} (hkeys : ∀ k ∈ keys, k.slot.Keeps get)
    (hother : ∀ kv m, get (other kv m) = get m) {kvs : List KeyValPair} {m m' : α}
    (h : assignAll keys other kvs m = .ok m') : get m' = get m := by
  induction kvs generalizing m with
  | nil =>
      obtain rfl := Except.ok.inj h
      rfl
  | cons kv kvs ih =>
      rw [assignAll] at h
      cases hone : assign keys other kv m with
      | error e => simp [hone] at h
      | ok m₁ =>
          rw [hone] at h
          rw [ih h]
          rw [assign] at hone
          cases hfind : keys.find? (fun k => iequals kv.keyword k.name) with
          | none =>
              rw [hfind] at hone
              obtain rfl := Except.ok.inj hone
              exact hother kv m
          | some k =>
              rw [hfind] at hone
              exact (hkeys k (List.mem_of_find?_eq_some hfind)).assign hone

theorem type_planLoop {kvs : List KeyValPair} {m : KVAppPlan} (h : planLoop kvs = .ok m) :
    m.type = kvtypeAppplan := by
  have hkeys : ∀ k ∈ appendPlanKeys, k.slot.Keeps fun m : KVAppPlan => m.type := by
    simp [appendPlanKeys, Slot.Keeps]
  have hother : ∀ (kv : KeyValPair) (m : KVAppPlan), (addPair kv m).type = m.type := fun _ _ => rfl
  exact assignAll_keeps hkeys hother h

/-- The defaults leave a plan with an image type and an object name. -/
theorem KVAppPlan.Sound.amend {m : KVAppPlan} (h : m.Sound) :
    (amendPlan m).Sound ∧ (amendPlan m).imgtype ≠ [] ∧ (amendPlan m).objid ≠ [] := by
  -- what is filled in is one of these words
  have hwords : ∀ t ∈ ["BIAS".toList, "OBJECT".toList, "bias".toList, "dark".toList, "flat".toList,
      "focs".toList, "objt".toList], Clean t ∧ t ≠ [] := by decide
  have himg : Clean (amendPlan m).imgtype ∧ (amendPlan m).imgtype ≠ [] := by
    rw [amendPlan]
    dsimp only
    split
    · split <;> exact hwords _ (by simp)
    · rename_i hne
      exact ⟨h.texts _ (by simp), hne⟩
  have hobj : Clean (amendPlan m).objid ∧ (amendPlan m).objid ≠ [] := by
    rw [amendPlan]
    dsimp only
    generalize (if m.imgtype = [] then _ else _) = imgtype
    split
    · split_ifs <;> exact hwords _ (by simp)
    · rename_i hne
      exact ⟨h.texts _ (by simp), hne⟩
  refine ⟨⟨fun t ht => ?_, h.ints, h.pairs⟩, himg.2, hobj.2⟩
  simp only [List.mem_cons, List.not_mem_nil, or_false] at ht
  obtain rfl | rfl | rfl | rfl | rfl | rfl | rfl | rfl | rfl := ht
  · exact h.texts m.planSn (by simp)
  · exact hobj.1
  · exact h.texts m.obstype (by simp)
  · exact h.texts m.tle1 (by simp)
  · exact h.texts m.tle2 (by simp)
  · exact himg.1
  · exact h.texts m.filter (by simp)
  · exact h.texts m.planBegin (by simp)
  · exact h.texts m.planEnd (by simp)

theorem amendPlan_of_named {m : KVAppPlan} (himg : m.imgtype ≠ []) (hobj : m.objid ≠ []) :
    amendPlan m = m := by
  simp [amendPlan, himg, hobj]

/-- The types whose message is a plan. -/
def planTypes : List Text := [kvtypeAppplan, kvtypeAppgwac, kvtypeTkimg]

/-- The three types differ in the tag that the message is given at the end. -/
theorem resolve_plan {rcvd w : Text} (hw : w ∈ planTypes)
    (hType : iequals (lineType rcvd) w = true) :
    resolve rcvd =
      (asMsg .appPlan ((resolveAppendPlan (linePairs rcvd).1).map
        (·.map fun m => { m with type := w }))).map (·.map (·.assign (linePairs rcvd).2)) := by
  have htag : (resolveAppendPlan (linePairs rcvd).1).map
      (·.map fun m => { m with type := kvtypeAppplan }) = resolveAppendPlan (linePairs rcvd).1 := by
    rw [resolveAppendPlan_eq]
    cases hrun : planLoop (linePairs rcvd).1 with
    | error e => rfl
    | ok q =>
        have htype : q.type = kvtypeAppplan := type_planLoop hrun
        simp only [Except.map, catchNumeric, Option.map_some, ← htype]
        rfl
  simp only [planTypes, List.mem_cons, List.not_mem_nil, or_false] at hw
  obtain rfl | rfl | rfl := hw
  · rw [resolve_of_type (List.mem_of_getElem? (i := 0) rfl) hType, htag]
  · rw [resolve_of_type (List.mem_of_getElem? (i := 1) rfl) hType]
    rfl
  · rw [resolve_of_type (List.mem_of_getElem? (i := 18) rfl) hType]
    rfl

/-- The target fields of a plan, as far as they are printed or compared. -/
structure KVAppPlan.TargetFrom (m : KVAppPlan) (kvs : List KeyValPair) : Prop where
  coorsys : m.coorsys = (givenInt kvs "coor_sys").getD 1
  ra : m.ra = (givenDbl kvs "ra").getD (.fin 0)
  dec : m.dec = (givenDbl kvs "dec").getD (.fin 0)
  epoch : m.epoch = readEpoch kvs

theorem targetFrom_planLoop {kvs : List KeyValPair} {m : KVAppPlan} (h : planLoop kvs = .ok m) :
    m.TargetFrom kvs := by
  constructor
  case coorsys =>
    have hcoor : m.coorsys = (givenInt kvs "coor_sys").getD newAppendPlan.coorsys :=
      int_given h rfl (fun _ _ => rfl) (by simp [appendPlanKeys, Slot.Keeps]) (fun _ _ => rfl)
    exact hcoor
  case ra =>
    have hra : m.ra = ((givenDbl kvs "ra").map id).getD newAppendPlan.ra :=
      dbl_given id h rfl (fun _ _ => rfl) (by simp [appendPlanKeys, Slot.Keeps]) (fun _ _ => rfl)
    rwa [Option.map_id] at hra
  case dec =>
    have hdec : m.dec = ((givenDbl kvs "dec").map id).getD newAppendPlan.dec :=
      dbl_given id h rfl (fun _ _ => rfl) (by simp [appendPlanKeys, Slot.Keeps]) (fun _ _ => rfl)
    rwa [Option.map_id] at hdec
  case epoch =>
    have hepoch : m.epoch = ((givenDbl kvs "ecoch").map id).getD newAppendPlan.epoch :=
      dbl_given id h rfl (fun _ _ => rfl) (by simp [appendPlanKeys, Slot.Keeps]) (fun _ _ => rfl)
    rwa [Option.map_id] at hepoch

/-- What is known of a plan message by the line it comes from. -/
structure PlanReceived (w rcvd : Text) (p : KVAppPlan) : Prop where
  type : p.type = w
  base : p.toKVBase.Clean
  sound : p.Sound
  imgtype : p.imgtype ≠ []
  objid : p.objid ≠ []
  target : p.TargetFrom (linePairs rcvd).1

theorem planReceived_of_resolve {rcvd w : Text} (hw : w ∈ planTypes)
    (hType : iequals (lineType rcvd) w = true) {m : KVMsg} (h : resolve rcvd = .ok (some m)) :
    ∃ p, m = .appPlan p ∧ PlanReceived w rcvd p := by
  have hsorted := sorted_linePairs rcvd
  rw [resolve_plan hw hType, resolveAppendPlan_eq] at h
  cases hrun : planLoop (linePairs rcvd).1 with
  | error e => simp [hrun, asMsg, Except.map, catchNumeric] at h
  | ok q =>
      simp only [hrun, asMsg, Except.map, catchNumeric, Option.map_some, Except.ok.injEq,
        Option.some.injEq] at h
      obtain ⟨hsound, himg, hobj⟩ := (sound_planLoop hsorted.pairs hrun).amend
      have htarget := targetFrom_planLoop hrun
      refine ⟨_, h.symm, rfl, ?_, ⟨hsound.texts, hsound.ints, hsound.pairs⟩, himg, hobj, ?_⟩
      · exact ⟨hsorted.base.utc, hsorted.base.gid, hsorted.base.uid, hsorted.base.cid⟩
      · exact ⟨htarget.coorsys, htarget.ra, htarget.dec, htarget.epoch⟩

end Gtoaes
