import Mathlib
import Gtoaes.Proto.KVProtocol

/-!
When `KVProtocol::Resolve` returns.

The fields of a message type are read off the keyword chain of its `resolve_*`
function. `Resolve` returns exactly on the lines whose numeric fields all read;
on every other line a `catch` branch goes through the pointer it has reset.
-/

namespace Gtoaes

open Lib

/-- How the value of a field is read. -/
inductive FieldKind
  | text
  | int
  | dbl
  deriving DecidableEq

/-- The conversion of the field does not throw on the value. -/
def FieldKind.Reads : FieldKind → Text → Prop
  | .text, _ => True
  | .int, v => ∃ n, stoi v = .ok n
  | .dbl, v => ∃ x, stod v = .ok x

structure Field where
  name : Text
  kind : FieldKind
  deriving DecidableEq

def Slot.kind {α : Type} : Slot α → FieldKind
  | .text _ => .text
  | .int _ => .int
  | .dbl _ => .dbl

def Key.field {α : Type} (k : Key α) : Field := ⟨k.name, k.slot.kind⟩

/-- The field that a keyword names, if any. -/
def findField (fields : List Field) (keyword : Text) : Option Field :=
  fields.find? fun f => iequals keyword f.name

/-- Every pair that names a field has a value the field reads. -/
def FieldsRead (fields : List Field) (kvs : List KeyValPair) : Prop :=
  ∀ kv ∈ kvs, ∀ f, findField fields kv.keyword = some f → f.kind.Reads kv.value

@[simp] theorem fieldsRead_nil (fields : List Field) : FieldsRead fields [] := by
  simp [FieldsRead]

@[simp] theorem fieldsRead_cons (fields : List Field) (kv : KeyValPair) (kvs : List KeyValPair) :
    FieldsRead fields (kv :: kvs) ↔
      (∀ f, findField fields kv.keyword = some f → f.kind.Reads kv.value) ∧
        FieldsRead fields kvs := by
  simp [FieldsRead]

@[simp] theorem fieldsRead_no_fields (kvs : List KeyValPair) : FieldsRead [] kvs := by
  simp [FieldsRead, findField]

/-- The computation ends in a value. -/
def Returns {ε α : Type} (r : Except ε α) : Prop := ∃ x, r = .ok x

@[simp] theorem returns_ok {ε α : Type} (x : α) : Returns (.ok x : Except ε α) := ⟨x, rfl⟩

@[simp] theorem not_returns_error {ε α : Type} (e : ε) : ¬ Returns (.error e : Except ε α) := by
  rintro ⟨x, h⟩
  cases h

@[simp] theorem returns_map {ε α β : Type} (f : α → β) (r : Except ε α) :
    Returns (r.map f) ↔ Returns r := by
  cases r <;> simp [Except.map]

@[simp] theorem returns_asMsg {α : Type} (mk : α → KVMsg) (r : Except NullDeref (Option α)) :
    Returns (asMsg mk r) ↔ Returns r := by
  simp [asMsg]

@[simp] theorem returns_catchNumeric {α : Type} (r : Except StdExn α) :
    Returns (catchNumeric r) ↔ Returns r := by
  cases r <;> simp [catchNumeric]

theorem Slot.returns_assign {α : Type} (slot : Slot α) (v : Text) (m : α) :
    Returns (slot.assign v m) ↔ slot.kind.Reads v := by
  cases slot with
  | text set => simp [Slot.assign, Slot.kind, FieldKind.Reads]
  | int set => rw [Slot.assign, returns_map]; rfl
  | dbl set => rw [Slot.assign, returns_map]; rfl

theorem findField_map_field {α : Type} (keys : List (Key α)) (keyword : Text) :
    findField (keys.map Key.field) keyword =
      (keys.find? fun k => iequals keyword k.name).map Key.field := by
  rw [findField, List.find?_map]
  rfl

theorem returns_assign {α : Type} (keys : List (Key α)) (other : KeyValPair → α → α)
    (kv : KeyValPair) (m : α) :
    Returns (assign keys other kv m) ↔
      ∀ f, findField (keys.map Key.field) kv.keyword = some f → f.kind.Reads kv.value := by
  rw [findField_map_field, assign]
  cases keys.find? fun k => iequals kv.keyword k.name with
  | none => simp
  | some k => simpa [Key.field] using k.slot.returns_assign kv.value m

/-- The walk over the pairs succeeds exactly when each of them reads, whatever
the message it starts from. -/
theorem returns_assignAll {α : Type} (keys : List (Key α)) (other : KeyValPair → α → α)
    (kvs : List KeyValPair) (m : α) :
    Returns (assignAll keys other kvs m) ↔ FieldsRead (keys.map Key.field) kvs := by
  induction kvs generalizing m with
  | nil => simp [assignAll]
  | cons kv kvs ih =>
      rw [fieldsRead_cons, ← returns_assign keys other kv m, assignAll]
      cases assign keys other kv m with
      | error e => simp
      | ok m' => simpa using ih m'

theorem returns_resolveWith {α : Type} (keys : List (Key α)) (init : α) (kvs : List KeyValPair) :
    Returns (resolveWith keys init kvs) ↔ FieldsRead (keys.map Key.field) kvs := by
  rw [resolveWith, returns_catchNumeric, returns_assignAll]

theorem returns_resolveAppendPlan (kvs : List KeyValPair) :
    Returns (resolveAppendPlan kvs) ↔ FieldsRead (appendPlanKeys.map Key.field) kvs := by
  rw [resolveAppendPlan, returns_catchNumeric, returns_map, returns_assignAll]

/-- One message type: its word, its fields and its `resolve_*` function. -/
structure Resolver where
  type : Text
  fields : List Field
  run : List KeyValPair → Except NullDeref (Option KVMsg)

def resolvers : List Resolver :=
  [⟨kvtypeAppplan, appendPlanKeys.map Key.field, fun kvs => asMsg .appPlan (resolveAppendPlan kvs)⟩,
   ⟨kvtypeAppgwac, appendPlanKeys.map Key.field, fun kvs => asMsg .appPlan (resolveAppendGwac kvs)⟩,
   ⟨kvtypeAbort, [], fun kvs => asMsg .abort (resolveAbort kvs)⟩,
   ⟨kvtypeChkplan, checkPlanKeys.map Key.field,
     fun kvs => asMsg .checkPlan (resolveCheckPlan kvs)⟩,
   ⟨kvtypeCamera, cameraKeys.map Key.field, fun kvs => asMsg .camera (resolveCamera kvs)⟩,
   ⟨kvtypeCamset, camsetKeys.map Key.field, fun kvs => asMsg .camSet (resolveCamset kvs)⟩,
   ⟨kvtypeDerot, derotKeys.map Key.field, fun kvs => asMsg .derot (resolveDerot kvs)⟩,
   ⟨kvtypeDome, domeKeys.map Key.field, fun kvs => asMsg .dome (resolveDome kvs)⟩,
   ⟨kvtypeFocus, focusKeys.map Key.field, fun kvs => asMsg .focus (resolveFocus kvs)⟩,
   ⟨kvtypeFocusSync, [], fun kvs => asMsg .focusSync (resolveFocusSync kvs)⟩,
   ⟨kvtypeFwhm, fwhmKeys.map Key.field, fun kvs => asMsg .fwhm (resolveFwhm kvs)⟩,
   ⟨kvtypeFilter, filterKeys.map Key.field, fun kvs => asMsg .filter (resolveFilter kvs)⟩,
   ⟨kvtypeMount, mountKeys.map Key.field, fun kvs => asMsg .mount (resolveMount kvs)⟩,
   ⟨kvtypeMcover, mcoverKeys.map Key.field, fun kvs => asMsg .mirrCover (resolveMcover kvs)⟩,
   ⟨kvtypePlan, planKeys.map Key.field, fun kvs => asMsg .plan (resolvePlan kvs)⟩,
   ⟨kvtypePark, [], fun kvs => asMsg .park (resolvePark kvs)⟩,
   ⟨kvtypeSlewto, slewtoKeys.map Key.field, fun kvs => asMsg .slewto (resolveSlewto kvs)⟩,
   ⟨kvtypeSync, syncKeys.map Key.field, fun kvs => asMsg .sync (resolveSync kvs)⟩,
   ⟨kvtypeTkimg, appendPlanKeys.map Key.field, fun kvs => asMsg .appPlan (resolveTakeImage kvs)⟩,
   ⟨kvtypeTrack, [], fun kvs => asMsg .track (resolveTrack kvs)⟩,
   ⟨kvtypeTrackvel, trackvelKeys.map Key.field, fun kvs => asMsg .trackVel (resolveTrackvel kvs)⟩,
   ⟨kvtypeExpose, exposeKeys.map Key.field, fun kvs => asMsg .expose (resolveExpose kvs)⟩,
   ⟨kvtypeGuide, guideKeys.map Key.field, fun kvs => asMsg .guide (resolveGuide kvs)⟩,
   ⟨kvtypeHome, [], fun kvs => asMsg .home (resolveHome kvs)⟩,
   ⟨kvtypeObss, obssKeys.map Key.field, fun kvs => asMsg .obss (resolveObss kvs)⟩,
   ⟨kvtypeRmvplan, removePlanKeys.map Key.field,
     fun kvs => asMsg .removePlan (resolveRemovePlan kvs)⟩]

theorem returns_run {r : Resolver} (hr : r ∈ resolvers) (kvs : List KeyValPair) :
    Returns (r.run kvs) ↔ FieldsRead r.fields kvs := by
  simp only [resolvers, List.mem_cons, List.not_mem_nil, or_false] at hr
  rcases hr with rfl | rfl | rfl | rfl | rfl | rfl | rfl | rfl | rfl | rfl | rfl | rfl | rfl | rfl |
    rfl | rfl | rfl | rfl | rfl | rfl | rfl | rfl | rfl | rfl | rfl | rfl
  all_goals
    simp [resolveAppendGwac, resolveTakeImage, resolveAbort, resolveFocusSync, resolvePark,
      resolveTrack, resolveHome, returns_resolveAppendPlan, resolveCheckPlan, resolveCamera,
      resolveCamset, resolveDerot, resolveDome, resolveFocus, resolveFwhm, resolveFilter,
      resolveMount, resolveMcover, resolvePlan, resolveSlewto, resolveSync, resolveTrackvel,
      resolveExpose, resolveGuide, resolveObss, resolveRemovePlan, returns_resolveWith]

/-- The first resolver whose type the word equals, run on the pairs. -/
def runFirst (type : Text) (kvs : List KeyValPair) :
    List Resolver → Except NullDeref (Option KVMsg)
  | [] => .ok none
  | r :: rs => if iequals type r.type then r.run kvs else runFirst type kvs rs

/-- The letter by which the dispatch branches. -/
def initial (type : Text) : Char := (type.headD '\x00').toLower

theorem initial_of_iequals {a b : Text} (h : iequals a b = true) : initial a = initial b := by
  have hmap := iequals_iff.mp h
  have hhead : (a.headD '\x00').toUpper = (b.headD '\x00').toUpper := by
    cases a <;> cases b <;> simp_all
  rw [initial, initial, ← Char.toLower_toUpper_eq_toLower, hhead, Char.toLower_toUpper_eq_toLower]

/-- Resolvers whose initial fails a test that the word's own passes are out of
the question. -/
theorem runFirst_filter {type : Text} (kvs : List KeyValPair) (p : Char → Bool)
    (hp : p (initial type) = true) (rs : List Resolver) :
    runFirst type kvs rs = runFirst type kvs (rs.filter fun r => p (initial r.type)) := by
  induction rs with
  | nil => rfl
  | cons r rs ih =>
      cases h : iequals type r.type with
      | true =>
          have hr : p (initial r.type) = true := initial_of_iequals h ▸ hp
          simp [runFirst, h, hr]
      | false => cases hr : p (initial r.type) <;> simp [runFirst, h, hr, ih]

/-- A word equals only one of two type words that differ. -/
theorem iequals_exclusive {type a b : Text} (h : iequals type a = true)
    (hab : iequals a b = false) : iequals type b = false := by
  by_contra hb
  rw [Bool.not_eq_false] at hb
  have habs := iequals_trans (iequals_comm type a ▸ h) hb
  rw [hab] at habs
  cases habs

theorem dispatch_a (type : Text) (kvs : List KeyValPair) :
    dispatch 'a' type kvs = runFirst type kvs (resolvers.take 3) := by
  cases h : iequals type kvtypeAppplan with
  | true =>
      have hg : iequals type kvtypeAppgwac = false := iequals_exclusive h (by decide)
      have hb : iequals type kvtypeAbort = false := iequals_exclusive h (by decide)
      simp only [dispatch, resolvers, List.take, runFirst, h, hg, hb, if_true]
      cases asMsg .appPlan (resolveAppendPlan kvs) <;> rfl
  | false =>
      simp only [dispatch, resolvers, List.take, runFirst, h]
      rfl

/-- The letters with a branch of their own. -/
def branchLetters : List Char := ['a', 'c', 'd', 'f', 'm', 'p', 's', 't']

/-- Branching on the initial first makes no difference. -/
theorem dispatch_eq (type : Text) (kvs : List KeyValPair) :
    dispatch (initial type) type kvs = runFirst type kvs resolvers := by
  by_cases hch : initial type ∈ branchLetters
  · rw [runFirst_filter kvs (· == initial type) (beq_self_eq_true _)]
    generalize initial type = ch at hch
    simp only [branchLetters, List.mem_cons, List.not_mem_nil, or_false] at hch
    rcases hch with rfl | rfl | rfl | rfl | rfl | rfl | rfl | rfl
    · exact dispatch_a type kvs
    all_goals rfl
  · rw [runFirst_filter kvs (· ∉ branchLetters) (by simpa using hch)]
    generalize initial type = ch at hch
    simp only [branchLetters, List.mem_cons, List.not_mem_nil, or_false, not_or] at hch
    obtain ⟨ha, hc, hd, hf, hm, hp, hs, ht⟩ := hch
    simp only [dispatch, ha, hc, hd, hf, hm, hp, hs, ht, if_false]
    rfl

/-- The fields of a type word; none where the word is no type. -/
def fieldsOf (type : Text) : List Field :=
  ((resolvers.find? fun r => iequals type r.type).map Resolver.fields).getD []

theorem returns_runFirst (type : Text) (kvs : List KeyValPair) {rs : List Resolver}
    (hrs : ∀ r ∈ rs, r ∈ resolvers) :
    Returns (runFirst type kvs rs) ↔
      FieldsRead (((rs.find? fun r => iequals type r.type).map Resolver.fields).getD []) kvs := by
  induction rs with
  | nil => simp [runFirst]
  | cons r rs ih =>
      have hr : r ∈ resolvers := hrs r (by simp)
      have htail : ∀ r ∈ rs, r ∈ resolvers := fun r h => hrs r (by simp [h])
      cases h : iequals type r.type with
      | true => simpa [runFirst, h] using returns_run hr kvs
      | false => simpa [runFirst, h] using ih htail

theorem returns_dispatch (type : Text) (kvs : List KeyValPair) :
    Returns (dispatch (initial type) type kvs) ↔ FieldsRead (fieldsOf type) kvs := by
  rw [dispatch_eq]
  exact returns_runFirst type kvs fun _ h => h

/-- Every numeric field of the line reads: what `stoi` or `stod` is called on
when the line is resolved, it accepts. -/
def NumericFieldsRead (rcvd : Text) : Prop :=
  FieldsRead (fieldsOf (lineType rcvd)) (linePairs rcvd).1

theorem initial_lineType (rcvd : Text) :
    initial (lineType rcvd) = ((rcvd.dropWhile (· == ' ')).headD '\x00').toLower := by
  rw [initial, lineType]
  cases h : rcvd.dropWhile (· == ' ') with
  | nil => rfl
  | cons c cs =>
      have hc : c ≠ ' ' := by
        have hdrop := List.head?_dropWhile_not (· == ' ') rcvd
        simpa [h] using hdrop
      simp [hc]

theorem resolve_eq_dispatch (rcvd : Text) :
    resolve rcvd = (dispatch (initial (lineType rcvd)) (lineType rcvd) (linePairs rcvd).1).map
      (·.map (·.assign (linePairs rcvd).2)) := by
  rw [initial_lineType, resolve]

theorem returns_resolve (rcvd : Text) : Returns (resolve rcvd) ↔ NumericFieldsRead rcvd := by
  rw [resolve_eq_dispatch, returns_map, returns_dispatch, NumericFieldsRead]

theorem resolvers_exclusive :
    resolvers.Pairwise fun a b => iequals a.type b.type = false := by
  decide

theorem runFirst_of_iequals {type : Text} {r : Resolver} {rs : List Resolver}
    (hrs : rs.Pairwise fun a b => iequals a.type b.type = false) (hr : r ∈ rs)
    (h : iequals type r.type = true) (kvs : List KeyValPair) :
    runFirst type kvs rs = r.run kvs := by
  induction rs with
  | nil => cases hr
  | cons a rs ih =>
      obtain ⟨ha, hrest⟩ := List.pairwise_cons.mp hrs
      rcases List.mem_cons.mp hr with rfl | hmem
      · simp [runFirst, h]
      · have hdiff : iequals r.type a.type = false := iequals_comm a.type r.type ▸ ha r hmem
        rw [runFirst, iequals_exclusive h hdiff]
        exact ih hrest hmem

/-- A line of a known type is the work of that type's resolver. -/
theorem resolve_of_type {rcvd : Text} {r : Resolver} (hr : r ∈ resolvers)
    (h : iequals (lineType rcvd) r.type = true) :
    resolve rcvd =
      (r.run (linePairs rcvd).1).map (·.map (·.assign (linePairs rcvd).2)) := by
  rw [resolve_eq_dispatch, dispatch_eq, runFirst_of_iequals resolvers_exclusive hr h]

/-- What is asked of `Resolve` on a line: it returns a message or a null
pointer, the latter where a numeric field makes the conversion throw. -/
def ResolvesSafely (rcvd : Text) : Prop :=
  Returns (resolve rcvd) ∧ (¬ NumericFieldsRead rcvd → resolve rcvd = .ok none)

/-- `Resolve` behaves on exactly the lines whose numeric fields all read. -/
theorem resolvesSafely_iff_numericFieldsRead (rcvd : Text) :
    ResolvesSafely rcvd ↔ NumericFieldsRead rcvd := by
  constructor
  · intro h
    exact (returns_resolve rcvd).mp h.1
  · intro h
    exact ⟨(returns_resolve rcvd).mpr h, fun hn => absurd h hn⟩

/-- A camera report whose state is no number. -/
def badReport : Text := "camera cid=001, state=x".toList

theorem not_resolvesSafely : ¬ ResolvesSafely badReport := by
  have hcrash : resolve badReport = .error .nullDeref := by decide +kernel
  rintro ⟨hret, -⟩
  rw [hcrash] at hret
  exact not_returns_error _ hret

end Gtoaes
