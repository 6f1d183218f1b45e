import Gtoaes.Proto.Given
import Gtoaes.Proto.Received

/-!
`Resolve` on pairs in another order. Each key of a chain has a field of its own, so that
two pairs with different keywords can be assigned in either order; pairs that no key
takes are dropped, or kept in a list. Keywords count without their letter case.
-/

namespace Gtoaes

open Lib

/-- A pair, its keyword in upper case. -/
def KeyValPair.folded (kv : KeyValPair) : KeyValPair := { kv with keyword := upper kv.keyword }

/-- The same pairs, but for the order and the case of keywords. -/
def Reordered (kvs kvs' : List KeyValPair) : Prop :=
  (kvs.map KeyValPair.folded).Perm (kvs'.map KeyValPair.folded)

/-- No keyword comes twice. -/
def Distinct (kvs : List KeyValPair) : Prop := (kvs.map fun kv => upper kv.keyword).Nodup

instance (kvs : List KeyValPair) : Decidable (Distinct kvs) := inferInstanceAs (Decidable (List.Nodup _))

theorem upper_upper (t : Text) : upper (upper t) = upper t := by
  rw [upper, upper, List.map_map]
  exact List.map_congr_left fun c _ => Char.toUpper_toUpper_eq_toUpper c

theorem iequals_upper (t name : Text) : iequals (upper t) name = iequals t name :=
  iequals_congr (iequals_iff_upper.mpr (upper_upper t)) name

/-! ### Keys with fields of their own -/

/-- What holds of every assignment through the slot. -/
def Slot.Every {α : Type} : Slot α → ((α → α) → Prop) → Prop
  | .text set, p => ∀ v, p (set v)
  | .int set, p => ∀ n, p (set n)
  | .dbl set, p => ∀ x, p (set x)

/-- Assignments through the slots change places. -/
def Slot.Apart {α : Type} (s t : Slot α) : Prop :=
  s.Every fun f => t.Every fun g => ∀ m, f (g m) = g (f m)

/-- Every key of the chain has fields of its own. -/
def OwnFields {α : Type} (keys : List (Key α)) : Prop := keys.Pairwise fun k k' => k.slot.Apart k'.slot

section Walk

variable {α : Type}

/-- An assignment, where the value reads, is one of those through the slot. -/
theorem Slot.Every.assign {slot : Slot α} {p : (α → α) → Prop} (h : slot.Every p) (v : Text) :
    (∀ m, (slot.assign v m).toOption = none) ∨
      ∃ f, p f ∧ ∀ m, (slot.assign v m).toOption = some (f m) := by
  cases slot with
  | text set => exact .inr ⟨set v, h v, fun m => rfl⟩
  | int set =>
      cases hv : stoi v with
      | error e => exact .inl fun m => by rw [Slot.assign, hv]; rfl
      | ok n => exact .inr ⟨set n, h n, fun m => by rw [Slot.assign, hv]; rfl⟩
  | dbl set =>
      cases hv : stod v with
      | error e => exact .inl fun m => by rw [Slot.assign, hv]; rfl
      | ok x => exact .inr ⟨set x, h x, fun m => by rw [Slot.assign, hv]; rfl⟩

theorem Slot.Apart.assign {s t : Slot α} (h : s.Apart t) (v w : Text) (m : α) :
    (s.assign v m).toOption.bind (fun m => (t.assign w m).toOption) =
      (t.assign w m).toOption.bind fun m => (s.assign v m).toOption := by
  obtain hs | ⟨f, hf, hs⟩ := Slot.Every.assign h v
  · simp only [hs, Option.bind_none, Option.bind_fun_none]
  · obtain ht | ⟨g, hg, ht⟩ := hf.assign w
    · simp only [ht, Option.bind_none, Option.bind_fun_none]
    · simp only [hs, ht, Option.bind_some, hg m]

theorem Slot.Apart.symm {s t : Slot α} (h : s.Apart t) : t.Apart s := by
  cases s <;> cases t <;> exact fun v w m => (h w v m).symm

theorem OwnFields.slot_apart {keys : List (Key α)} (h : OwnFields keys) {k k' : Key α} (hk : k ∈ keys)
    (hk' : k' ∈ keys) (hne : k ≠ k') : k.slot.Apart k'.slot :=
  haveI : Std.Symm fun k k' : Key α => k.slot.Apart k'.slot := ⟨fun _ _ => Slot.Apart.symm⟩
  List.Pairwise.forall h hk hk' hne

/-- One pass of the loop, that an exception has left or not. -/
def walkStep (keys : List (Key α)) (m : Option α) (kv : KeyValPair) : Option α :=
  m.bind fun m => (assign keys (fun _ m => m) kv m).toOption

theorem assignAll_cons_toOption (keys : List (Key α)) (other : KeyValPair → α → α) (kv : KeyValPair)
    (kvs : List KeyValPair) (m : α) :
    (assignAll keys other (kv :: kvs) m).toOption =
      (assign keys other kv m).toOption.bind fun m => (assignAll keys other kvs m).toOption := by
  rw [assignAll]
  cases assign keys other kv m <;> rfl

theorem assignAll_toOption (keys : List (Key α)) (kvs : List KeyValPair) (m : α) :
    (assignAll keys (fun _ m => m) kvs m).toOption = kvs.foldl (walkStep keys) (some m) := by
  have hnone : ∀ kvs : List KeyValPair, kvs.foldl (walkStep keys) none = none := by
    intro kvs
    induction kvs with
    | nil => rfl
    | cons kv kvs ih => exact ih
  induction kvs generalizing m with
  | nil => rfl
  | cons kv kvs ih =>
      rw [assignAll_cons_toOption, List.foldl_cons, walkStep, Option.bind_some]
      cases (assign keys (fun _ m => m) kv m).toOption with
      | none => exact (hnone kvs).symm
      | some m' => exact ih m'

theorem walkStep_folded (keys : List (Key α)) (m : Option α) (kv : KeyValPair) :
    walkStep keys m kv.folded = walkStep keys m kv := by
  simp only [walkStep, assign, KeyValPair.folded, iequals_upper]

/-- Pairs with different keywords change places. -/
theorem OwnFields.walkStep_comm {keys : List (Key α)} (h : OwnFields keys) {kv kv' : KeyValPair}
    (hne : iequals kv.keyword kv'.keyword = false) (m : Option α) :
    walkStep keys (walkStep keys m kv) kv' = walkStep keys (walkStep keys m kv') kv := by
  cases m with
  | none => rfl
  | some m =>
      simp only [walkStep, Option.bind_some, assign]
      cases hk : keys.find? fun k => iequals kv.keyword k.name with
      | none => cases keys.find? fun k => iequals kv'.keyword k.name <;> simp [Except.toOption]
      | some k =>
          cases hk' : keys.find? fun k => iequals kv'.keyword k.name with
          | none => simp [Except.toOption]
          | some k' =>
              -- one key for both would make the keywords equal
              have hkeys : k ≠ k' := by
                rintro rfl
                have hname := List.find?_some hk
                have hname' := List.find?_some hk'
                rw [iequals_comm] at hname'
                rw [iequals_trans hname hname'] at hne
                cases hne
              exact (h.slot_apart (List.mem_of_find?_eq_some hk) (List.mem_of_find?_eq_some hk')
                hkeys).assign kv.value kv'.value m

/-- The walk ends the same in every order. -/
theorem OwnFields.assignAll_reordered {keys : List (Key α)} (h : OwnFields keys)
    {kvs kvs' : List KeyValPair} (hsame : Reordered kvs kvs') (hkvs : Distinct kvs) (m : α) :
    (assignAll keys (fun _ m => m) kvs m).toOption =
      (assignAll keys (fun _ m => m) kvs' m).toOption := by
  have hfolded : ∀ kvs : List KeyValPair,
      (kvs.map KeyValPair.folded).foldl (walkStep keys) (some m) =
        kvs.foldl (walkStep keys) (some m) := by
    intro kvs
    simp only [List.foldl_map, walkStep_folded]
  rw [assignAll_toOption, assignAll_toOption, ← hfolded kvs, ← hfolded kvs']
  apply hsame.foldl_eq'
  intro x hx y hy z
  obtain ⟨kv, hkv, rfl⟩ := List.mem_map.mp hx
  obtain ⟨kv', hkv', rfl⟩ := List.mem_map.mp hy
  rw [walkStep_folded, walkStep_folded, walkStep_folded, walkStep_folded]
  cases hkey : iequals kv.keyword kv'.keyword with
  | false => exact h.walkStep_comm hkey z
  | true =>
      have hone : kv = kv' := List.inj_on_of_nodup_map hkvs hkv hkv' (iequals_iff_upper.mp hkey)
      rw [hone]

end Walk

/-! ### Pairs that no key takes -/

/-- The pairs that are left over by the chain, in their order. -/
def extraPairs {α : Type} (keys : List (Key α)) (kvs : List KeyValPair) : List KeyValPair :=
  kvs.filter fun kv => (keys.find? fun k => iequals kv.keyword k.name).isNone

theorem extraPairs_cons {α : Type} (keys : List (Key α)) (kv : KeyValPair) (kvs : List KeyValPair) :
    extraPairs keys (kv :: kvs) =
      (if (keys.find? fun k => iequals kv.keyword k.name).isNone then [kv] else []) ++
        extraPairs keys kvs := by
  rw [extraPairs, extraPairs, List.filter_cons]
  split <;> rfl

theorem Reordered.extraPairs {α : Type} (keys : List (Key α)) {kvs kvs' : List KeyValPair}
    (h : Reordered kvs kvs') : Reordered (extraPairs keys kvs) (extraPairs keys kvs') := by
  have hfolded : ∀ kvs : List KeyValPair, (Gtoaes.extraPairs keys kvs).map KeyValPair.folded =
      Gtoaes.extraPairs keys (kvs.map KeyValPair.folded) := by
    intro kvs
    simp only [Gtoaes.extraPairs, List.filter_map, Function.comp_def, KeyValPair.folded, iequals_upper]
  rw [Reordered, hfolded, hfolded]
  exact h.filter _

theorem Distinct.extraPairs {α : Type} (keys : List (Key α)) {kvs : List KeyValPair}
    (h : Distinct kvs) : Distinct (extraPairs keys kvs) :=
  h.sublist (List.filter_sublist.map _)

/-- The base fields as a chain of their own. -/
def baseKeys : List (Key KVBase) :=
  [⟨"utc".toList, .text fun v m => { m with utc := v }⟩,
   ⟨"gid".toList, .text fun v m => { m with gid := v }⟩,
   ⟨"uid".toList, .text fun v m => { m with uid := v }⟩,
   ⟨"cid".toList, .text fun v m => { m with cid := v }⟩]

theorem sortKv_eq (acc : List KeyValPair × KVBase) (kv : KeyValPair) :
    (sortKv acc kv).1 = acc.1 ++
        (if (baseKeys.find? fun k => iequals kv.keyword k.name).isNone then [kv] else []) ∧
      assign baseKeys (fun _ m => m) kv acc.2 = .ok (sortKv acc kv).2 := by
  obtain ⟨kvs, basis⟩ := acc
  simp only [sortKv, assign, baseKeys, List.find?_cons, List.find?_nil]
  by_cases hutc : iequals kv.keyword "utc".toList = true
  · simp only [hutc, Slot.assign, Option.isNone_some, if_true, Bool.false_eq_true, if_false,
      List.append_nil, and_self]
  · rw [Bool.not_eq_true] at hutc
    by_cases hgid : iequals kv.keyword "gid".toList = true
    · simp only [hutc, hgid, Slot.assign, Option.isNone_some, if_true, Bool.false_eq_true, if_false,
        List.append_nil, and_self]
    · rw [Bool.not_eq_true] at hgid
      by_cases huid : iequals kv.keyword "uid".toList = true
      · simp only [hutc, hgid, huid, Slot.assign, Option.isNone_some, if_true, Bool.false_eq_true,
          if_false, List.append_nil, and_self]
      · rw [Bool.not_eq_true] at huid
        by_cases hcid : iequals kv.keyword "cid".toList = true
        · simp only [hutc, hgid, huid, hcid, Slot.assign, Option.isNone_some, if_true,
            Bool.false_eq_true, if_false, List.append_nil, and_self]
        · rw [Bool.not_eq_true] at hcid
          simp only [hutc, hgid, huid, hcid, Option.isNone_none, if_true, Bool.false_eq_true,
            if_false, and_self]

/-- The sorted pairs are those that are no base fields, and the base is what the chain
makes of the others. -/
theorem foldl_sortKv (kvs : List KeyValPair) (acc : List KeyValPair × KVBase) :
    (kvs.foldl sortKv acc).1 = acc.1 ++ extraPairs baseKeys kvs ∧
      assignAll baseKeys (fun _ m => m) kvs acc.2 = .ok (kvs.foldl sortKv acc).2 := by
  induction kvs generalizing acc with
  | nil => exact ⟨(List.append_nil acc.1).symm, rfl⟩
  | cons kv kvs ih =>
      obtain ⟨hpairs, hbase⟩ := sortKv_eq acc kv
      obtain ⟨hrest, hrun⟩ := ih (sortKv acc kv)
      refine ⟨?_, ?_⟩
      · rw [List.foldl_cons, hrest, hpairs, extraPairs_cons, List.append_assoc]
      · rw [assignAll, hbase]
        exact hrun

theorem baseKeys_ownFields : OwnFields baseKeys := by
  simp only [OwnFields, baseKeys, List.pairwise_cons, List.forall_mem_cons, List.not_mem_nil,
    false_implies, implies_true, and_true, List.Pairwise.nil]
  repeat' apply And.intro
  all_goals exact fun _ _ _ => rfl

/-- Sorted in another order, the base fields are the same, and the pairs left to the type
come in another order. -/
theorem Reordered.sortKv {kvs kvs' : List KeyValPair} (h : Reordered kvs kvs')
    (hkvs : Distinct kvs) :
    Reordered (kvs.foldl sortKv ([], {})).1 (kvs'.foldl sortKv ([], {})).1 ∧
      Distinct (kvs.foldl Gtoaes.sortKv ([], {})).1 ∧
      (kvs.foldl Gtoaes.sortKv ([], {})).2 = (kvs'.foldl Gtoaes.sortKv ([], {})).2 := by
  obtain ⟨hpairs, hbase⟩ := foldl_sortKv kvs ([], {})
  obtain ⟨hpairs', hbase'⟩ := foldl_sortKv kvs' ([], {})
  rw [hpairs, hpairs']
  refine ⟨h.extraPairs baseKeys, hkvs.extraPairs baseKeys, ?_⟩
  have hwalk := baseKeys_ownFields.assignAll_reordered h hkvs {}
  rw [hbase, hbase'] at hwalk
  exact Option.some.inj hwalk

/-! ### Outcomes -/

/-- What comes of a line: a message, or a rejection. A malformed number is one, whatever
becomes of the process. -/
def outcome {α : Type} : Except NullDeref (Option α) → Option α
  | .ok m => m
  | .error _ => none

/-- Messages with equal fields; the extra pairs of a plan may come in another order, and
with keywords of another case. -/
inductive SameMsg : KVMsg → KVMsg → Prop
  | refl (m : KVMsg) : SameMsg m m
  | plan (p : KVAppPlan) {kvs : List KeyValPair} (h : Reordered p.kvs kvs) :
      SameMsg (.appPlan p) (.appPlan { p with kvs := kvs })

def SameOutcome (r r' : Except NullDeref (Option KVMsg)) : Prop :=
  Option.Rel SameMsg (outcome r) (outcome r')

theorem SameOutcome.of_eq {r r' : Except NullDeref (Option KVMsg)} (h : outcome r = outcome r') :
    SameOutcome r r' := by
  rw [SameOutcome, h]
  cases outcome r' with
  | none => exact .none
  | some m => exact .some (.refl m)

@[simp] theorem outcome_map {α β : Type} (f : α → β) (r : Except NullDeref (Option α)) :
    outcome (r.map (·.map f)) = (outcome r).map f := by
  cases r <;> rfl

@[simp] theorem outcome_asMsg {α : Type} (mk : α → KVMsg) (r : Except NullDeref (Option α)) :
    outcome (asMsg mk r) = (outcome r).map mk := outcome_map mk r

@[simp] theorem outcome_catchNumeric {α : Type} (r : Except StdExn α) :
    outcome (catchNumeric r) = r.toOption := by
  cases r <;> rfl

theorem SameMsg.assign {m m' : KVMsg} (h : SameMsg m m') (basis : KVBase) :
    SameMsg (m.assign basis) (m'.assign basis) := by
  cases h with
  | refl => exact .refl _
  | plan p h => exact .plan { p with toKVBase := p.toKVBase.assign basis } h

theorem SameOutcome.assign {r r' : Except NullDeref (Option KVMsg)} (h : SameOutcome r r')
    (basis : KVBase) :
    SameOutcome (r.map (·.map (·.assign basis))) (r'.map (·.map (·.assign basis))) := by
  rw [SameOutcome, outcome_map, outcome_map]
  rw [SameOutcome] at h
  generalize outcome r = m at h ⊢
  generalize outcome r' = m' at h ⊢
  cases h with
  | none => exact .none
  | some h => exact .some (h.assign basis)

theorem OwnFields.resolveWith {α : Type} {keys : List (Key α)} (h : OwnFields keys)
    {kvs kvs' : List KeyValPair} (hsame : Reordered kvs kvs') (hkvs : Distinct kvs) (init : α)
    (mk : α → KVMsg) :
    SameOutcome (asMsg mk (resolveWith keys init kvs)) (asMsg mk (resolveWith keys init kvs')) := by
  apply SameOutcome.of_eq
  simp only [Gtoaes.resolveWith, outcome_asMsg, outcome_catchNumeric,
    h.assignAll_reordered hsame hkvs init]

/-! ### Plans -/

/-- More extra pairs. -/
def KVAppPlan.addPairs (m : KVAppPlan) (kvs : List KeyValPair) : KVAppPlan :=
  { m with kvs := m.kvs ++ kvs }

theorem appendPlanKeys_ownFields : OwnFields appendPlanKeys := by
  simp only [OwnFields, appendPlanKeys, List.pairwise_cons, List.forall_mem_cons, List.not_mem_nil,
    false_implies, implies_true, and_true, List.Pairwise.nil]
  repeat' apply And.intro
  all_goals exact fun _ _ _ => rfl

/-- A pair is assigned to its field, or comes behind the extra pairs. -/
theorem assign_addPairs (kv : KeyValPair) (m : KVAppPlan) (kvs : List KeyValPair) :
    (assign appendPlanKeys addPair kv (m.addPairs kvs)).toOption =
      (assign appendPlanKeys (fun _ m => m) kv m).toOption.map fun m => m.addPairs (kvs ++
        if (appendPlanKeys.find? fun k => iequals kv.keyword k.name).isNone then [kv] else []) := by
  have hkeys : ∀ k ∈ appendPlanKeys, k.slot.Every fun f => ∀ (m : KVAppPlan) kvs,
      f (m.addPairs kvs) = (f m).addPairs kvs := by
    simp only [appendPlanKeys, List.forall_mem_cons, List.not_mem_nil, false_implies, implies_true,
      and_true]
    repeat' apply And.intro
    all_goals exact fun _ _ _ => rfl
  rw [assign, assign]
  cases hfind : appendPlanKeys.find? fun k => iequals kv.keyword k.name with
  | none =>
      simp only [Except.toOption, Option.map_some, Option.isNone_none, if_true]
      simp only [addPair, KVAppPlan.addPairs, List.append_assoc]
  | some k =>
      simp only [Option.isNone_some, Bool.false_eq_true, if_false, List.append_nil]
      obtain hk | ⟨f, hf, hk⟩ := (hkeys k (List.mem_of_find?_eq_some hfind)).assign kv.value
      · rw [hk, hk, Option.map_none]
      · rw [hk, hk, hf, Option.map_some]

theorem assignAll_addPairs (kvs : List KeyValPair) (m : KVAppPlan) (before : List KeyValPair) :
    (assignAll appendPlanKeys addPair kvs (m.addPairs before)).toOption =
      (assignAll appendPlanKeys (fun _ m => m) kvs m).toOption.map
        (·.addPairs (before ++ extraPairs appendPlanKeys kvs)) := by
  induction kvs generalizing m before with
  | nil => simp [assignAll, Except.toOption, extraPairs]
  | cons kv kvs ih =>
      rw [assignAll_cons_toOption, assignAll_cons_toOption, assign_addPairs, extraPairs_cons]
      cases (assign appendPlanKeys (fun _ m => m) kv m).toOption with
      | none => rfl
      | some m' => simp only [Option.map_some, Option.bind_some, ih, List.append_assoc]

/-- The loop fills in the fields and keeps the pairs that are left over. -/
theorem planLoop_toOption (kvs : List KeyValPair) :
    (planLoop kvs).toOption =
      (assignAll appendPlanKeys (fun _ m => m) kvs newAppendPlan).toOption.map
        (·.addPairs (extraPairs appendPlanKeys kvs)) :=
  assignAll_addPairs kvs newAppendPlan []

/-- Plans from the same pairs differ in their extra pairs at most. -/
theorem outcome_resolveAppendPlan (kvs : List KeyValPair) :
    outcome (resolveAppendPlan kvs) =
      (assignAll appendPlanKeys (fun _ m => m) kvs newAppendPlan).toOption.map
        fun m => (amendPlan m).addPairs (extraPairs appendPlanKeys kvs) := by
  have hmap : ((planLoop kvs).map amendPlan).toOption = (planLoop kvs).toOption.map amendPlan := by
    cases planLoop kvs <;> rfl
  rw [resolveAppendPlan_eq, outcome_catchNumeric, hmap, planLoop_toOption, Option.map_map]
  rfl

/-- The three types of plans, each with its tag. -/
theorem resolveAppendPlan_reordered {kvs kvs' : List KeyValPair} (hsame : Reordered kvs kvs')
    (hkvs : Distinct kvs) (tag : KVAppPlan → Text) (htag : ∀ m kvs, tag (m.addPairs kvs) = tag m) :
    SameOutcome
      (asMsg .appPlan ((resolveAppendPlan kvs).map (·.map fun m => { m with type := tag m })))
      (asMsg .appPlan ((resolveAppendPlan kvs').map (·.map fun m => { m with type := tag m }))) := by
  rw [SameOutcome]
  simp only [outcome_asMsg, outcome_map, outcome_resolveAppendPlan,
    appendPlanKeys_ownFields.assignAll_reordered hsame hkvs newAppendPlan]
  cases (assignAll appendPlanKeys (fun _ m => m) kvs' newAppendPlan).toOption with
  | none => exact .none
  | some m =>
      have hextra : ∀ before, Reordered (before ++ extraPairs appendPlanKeys kvs)
          (before ++ extraPairs appendPlanKeys kvs') := by
        intro before
        rw [Reordered, List.map_append, List.map_append]
        exact (hsame.extraPairs appendPlanKeys).append_left _
      simp only [Option.map_some, htag]
      exact .some (.plan { (amendPlan m).addPairs (extraPairs appendPlanKeys kvs) with
        type := tag (amendPlan m) } (hextra _))

/-! ### All types -/

theorem run_reordered {r : Resolver} (hr : r ∈ resolvers) {kvs kvs' : List KeyValPair}
    (hsame : Reordered kvs kvs') (hkvs : Distinct kvs) : SameOutcome (r.run kvs) (r.run kvs') := by
  have hplan := resolveAppendPlan_reordered hsame hkvs
  have hmap : ∀ kvs, (resolveAppendPlan kvs).map (·.map fun m => { m with type := m.type }) =
      resolveAppendPlan kvs := by
    intro kvs
    rcases resolveAppendPlan kvs with _ | _ | _ <;> rfl
  simp only [resolvers, List.mem_cons, List.not_mem_nil, or_false] at hr
  rcases hr with rfl | rfl | rfl | rfl | rfl | rfl | rfl | rfl | rfl | rfl | rfl | rfl | rfl | rfl |
    rfl | rfl | rfl | rfl | rfl | rfl | rfl | rfl | rfl | rfl | rfl | rfl
  case inl =>
    have hkeep := hplan (·.type) fun _ _ => rfl
    rwa [hmap, hmap] at hkeep
  all_goals
    first
      | exact .of_eq rfl
      | exact hplan (fun _ => _) fun _ _ => rfl
      | refine OwnFields.resolveWith ?_ hsame hkvs _ _
  all_goals
    simp only [OwnFields, checkPlanKeys, cameraKeys, camsetKeys, derotKeys, domeKeys, focusKeys, fwhmKeys,
      filterKeys, mountKeys, mcoverKeys, planKeys, slewtoKeys, syncKeys, trackvelKeys, exposeKeys,
      guideKeys, obssKeys, removePlanKeys, List.pairwise_cons, List.forall_mem_cons,
      List.not_mem_nil, false_implies, implies_true, and_true, List.Pairwise.nil]
    repeat' apply And.intro
    all_goals exact fun _ _ _ => rfl

theorem runFirst_reordered {type type' : Text} (htype : iequals type type' = true)
    {kvs kvs' : List KeyValPair} (hsame : Reordered kvs kvs') (hkvs : Distinct kvs)
    {rs : List Resolver} (hrs : ∀ r ∈ rs, r ∈ resolvers) :
    SameOutcome (runFirst type kvs rs) (runFirst type' kvs' rs) := by
  induction rs with
  | nil => exact .of_eq rfl
  | cons r rs ih =>
      rw [runFirst, runFirst, iequals_congr htype]
      split
      · exact run_reordered (hrs r List.mem_cons_self) hsame hkvs
      · exact ih fun r hr => hrs r (List.mem_cons_of_mem _ hr)

/-- Lines with the same word and the same pairs have the same outcome. -/
theorem resolve_reordered {line line' : Text} (htype : iequals (lineType line) (lineType line') = true)
    {kvs kvs' : List KeyValPair} (hline : linePairs line = kvs.foldl sortKv ([], {}))
    (hline' : linePairs line' = kvs'.foldl sortKv ([], {})) (hsame : Reordered kvs kvs')
    (hkvs : Distinct kvs) : SameOutcome (resolve line) (resolve line') := by
  obtain ⟨hpairs, hdistinct, hbase⟩ := hsame.sortKv hkvs
  rw [resolve_eq_dispatch, resolve_eq_dispatch, dispatch_eq, dispatch_eq, hline, hline', ← hbase]
  apply SameOutcome.assign
  exact runFirst_reordered htype hpairs hdistinct fun _ h => h

end Gtoaes
