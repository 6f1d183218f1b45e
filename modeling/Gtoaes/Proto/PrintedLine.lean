import Gtoaes.Lib.ReadBack
import Gtoaes.Proto.NumericFields
import Gtoaes.Proto.Print

/-!
What `KVProtocol::Resolve` makes of a line that `ToString` has printed.

The items come back as key/value pairs, less those whose value is empty: the
base fields are set aside, the others go to the `resolve_*` function of the
type.
-/

namespace Gtoaes

open Lib

/-- A text that survives as keyword or value: no separator in it, no white
space at its ends. -/
structure Clean (t : Text) : Prop where
  comma : Free (· == ',') t
  equals : Free (· == '=') t
  trimmed : trim t = t

@[simp] theorem clean_nil : Clean [] := ⟨free_nil, free_nil, rfl⟩

instance : DecidablePred Clean := fun t =>
  decidable_of_iff (t.all (fun c => !(c == ',') && !(c == '=')) = true ∧ trim t = t) <| by
    rw [List.all_eq_true]
    constructor
    · rintro ⟨hfree, htrim⟩
      exact ⟨fun c hc => by simpa using (Bool.and_eq_true_iff.mp (hfree c hc)).1,
        fun c hc => by simpa using (Bool.and_eq_true_iff.mp (hfree c hc)).2, htrim⟩
    · intro h
      exact ⟨fun c hc => by simp [h.comma c hc, h.equals c hc], h.trimmed⟩

theorem clean_of_isNumeral {t : Text} (h : ∀ c ∈ t, isNumeral c = true) : Clean t := by
  refine ⟨fun c hc => ?_, fun c hc => ?_, trim_of_free fun c hc => isSpace_of_isNumeral (h c hc)⟩
  · exact beq_false_of_ne (ne_of_isNumeral (h c hc) rfl)
  · exact beq_false_of_ne (ne_of_isNumeral (h c hc) rfl)

theorem clean_intText (n : ℤ) : Clean (intText n) :=
  clean_of_isNumeral fun _ hc => isNumeral_of_mem_zeroPad hc

theorem clean_dblText (x : Double) : Clean x.text :=
  clean_of_isNumeral fun _ hc => isNumeral_of_mem_text hc

/-- An item whose keyword and value both survive. -/
structure Item.Clean (mem : Text → Value) (it : Item) : Prop where
  keyword : Gtoaes.Clean it.key
  named : it.key ≠ []
  value : Gtoaes.Clean (it.valueText mem)

/-- The pair that comes of an item; none where the value is empty. -/
def Item.pair (mem : Text → Value) (it : Item) : Option KeyValPair :=
  if it.valueText mem = [] then none else some ⟨it.key, it.valueText mem⟩

def valuePairs (mem : Text → Value) (items : List Item) : List KeyValPair :=
  items.filterMap (Item.pair mem)

variable {mem : Text → Value}

theorem resolveKv_text {it : Item} (h : it.Clean mem) : resolveKv (it.text mem) = it.pair mem := by
  have hopen : NotOpening (· == '=') (it.valueText mem) := fun c hc =>
    h.value.equals c (List.mem_of_head? hc)
  have hcut : split (· == '=') (it.text mem) = [it.key, it.valueText mem] := by
    rw [Item.text, split_append_cons h.keyword.equals rfl hopen, split_of_free h.value.equals]
  rw [resolveKv, hcut, Item.pair]
  simp [h.keyword.trimmed, h.value.trimmed, h.named]

/-- The whole list of items, read back. -/
theorem filterMap_itemsText {items : List Item} (h : ∀ it ∈ items, it.Clean mem) :
    (split (· == ',') (itemsText mem items)).filterMap resolveKv = valuePairs mem items := by
  have hpieces : ∀ p ∈ items.map (Item.text mem), p ≠ [] ∧ Free (· == ',') p := by
    intro p hp
    obtain ⟨it, hit, rfl⟩ := List.mem_map.mp hp
    refine ⟨by simp [Item.text], ?_⟩
    rw [Item.text, free_append, free_cons]
    exact ⟨(h it hit).keyword.comma, rfl, (h it hit).value.comma⟩
  have hlast : resolveKv [] = none := rfl
  rw [itemsText, split_closed rfl hpieces, List.filterMap_append, List.filterMap_map, valuePairs]
  have hend : List.filterMap resolveKv [[]] = [] := by simp [hlast]
  rw [hend, List.append_nil]
  exact List.filterMap_congr fun it hit => resolveKv_text (h it hit)

/-! ### The base fields -/

/-- A keyword that survives and is none of the base fields'. -/
def OwnKey (key : Text) : Prop :=
  Clean key ∧ key ≠ [] ∧ iequals key "utc".toList = false ∧ iequals key "gid".toList = false ∧
    iequals key "uid".toList = false ∧ iequals key "cid".toList = false

instance : DecidablePred OwnKey := fun _ => inferInstanceAs (Decidable (_ ∧ _))

theorem foldl_sortKv_own {kvs : List KeyValPair} (h : ∀ kv ∈ kvs, OwnKey kv.keyword)
    (acc : List KeyValPair) (basis : KVBase) :
    kvs.foldl sortKv (acc, basis) = (acc ++ kvs, basis) := by
  induction kvs generalizing acc with
  | nil => simp
  | cons kv kvs ih =>
      obtain ⟨-, -, hutc, hgid, huid, hcid⟩ := h kv (by simp)
      have hone : sortKv (acc, basis) kv = (acc ++ [kv], basis) := by
        simp only [sortKv, hutc, hgid, huid, hcid, Bool.false_eq_true, if_false]
      rw [List.foldl_cons, hone, ih fun kv hkv => h kv (by simp [hkv]), List.append_assoc,
        List.singleton_append]

theorem foldl_sortKv_base (m : KVBase) :
    (valuePairs mem m.items).foldl sortKv ([], {}) = ([], { m with type := [] }) := by
  have hpair : ∀ (key : String) (t : Text), t ≠ [] →
      (joinText key t).pair mem = some ⟨key.toList, t⟩ := by
    intro key t ht
    simp [Item.pair, Item.valueText, joinText, Value.toText, ht]
  obtain ⟨type, utc, gid, uid, cid⟩ := m
  by_cases hutc : utc = [] <;> by_cases hgid : gid = [] <;> by_cases huid : uid = [] <;>
    by_cases hcid : cid = [] <;>
    simp [KVBase.items, valuePairs, hpair, hutc, hgid, huid, hcid, sortKv, iequals]

theorem keyword_of_mem_valuePairs {items : List Item} {kv : KeyValPair}
    (h : kv ∈ valuePairs mem items) : ∃ it ∈ items, it.key = kv.keyword := by
  obtain ⟨it, hit, hkv⟩ := List.mem_filterMap.mp h
  refine ⟨it, hit, ?_⟩
  rw [Item.pair] at hkv
  split at hkv
  · cases hkv
  · cases hkv
    rfl

/-! ### The line -/

theorem keyword_of_mem_base {m : KVBase} {it : Item} (h : it ∈ m.items) :
    Clean it.key ∧ it.key ≠ [] := by
  have hkeys : ∀ key ∈ ["utc", "gid", "uid", "cid"], Clean key.toList ∧ key.toList ≠ [] := by
    decide
  have hgiven : ∀ (key : String) (t : Text), it ∈ (if t = [] then [] else [joinText key t]) →
      it.key = key.toList := by
    intro key t hit
    split at hit
    · cases hit
    · rw [List.mem_singleton.mp hit]
      rfl
  simp only [KVBase.items, List.mem_append] at h
  obtain ((h | h) | h) | h := h <;> rw [hgiven _ _ h] <;> exact hkeys _ (by simp)

/-- No item of the message is lost on the way. -/
structure KVMsg.Readable (mem : Text → Value) (m : KVMsg) : Prop where
  type : Free (· == ' ') m.base.type
  typed : m.base.type ≠ []
  value : ∀ it ∈ m.base.items ++ m.ownItems, Clean (it.valueText mem)
  own : ∀ it ∈ m.ownItems, OwnKey it.key

theorem KVMsg.Readable.items {m : KVMsg} (h : m.Readable mem) :
    ∀ it ∈ m.base.items ++ m.ownItems, it.Clean mem := by
  intro it hit
  have hkey : Gtoaes.Clean it.key ∧ it.key ≠ [] := by
    obtain hbase | hown := List.mem_append.mp hit
    · exact keyword_of_mem_base hbase
    · exact ⟨(h.own it hown).1, (h.own it hown).2.1⟩
  exact ⟨hkey.1, hkey.2, h.value it hit⟩

theorem dropWhile_type {t : Text} (hfree : Free (· == ' ') t) (hne : t ≠ []) (rest : Text) :
    (t ++ rest).dropWhile (· == ' ') = t ++ rest := by
  obtain ⟨c, t, rfl⟩ := List.exists_cons_of_ne_nil hne
  have hc : (c == ' ') = false := ((free_cons c t).mp hfree).1
  rw [List.cons_append, List.dropWhile_cons_of_neg (by simp [hc])]

theorem lineType_toText {m : KVMsg} (h : m.Readable mem) :
    lineType (m.toText mem) = m.base.type := by
  rw [lineType, KVMsg.toText, dropWhile_type h.type h.typed]
  refine takeWhile_append_stop (fun c hc => ?_) (fun c hc => ?_)
  · simpa using h.type c hc
  · cases hc
    rfl

/-- A keyword does not open with a blank. -/
theorem dropWhile_itemsText {items : List Item} (h : ∀ it ∈ items, it.Clean mem) :
    (itemsText mem items).dropWhile (· == ' ') = itemsText mem items := by
  cases items with
  | nil => rfl
  | cons it items =>
      have hit := h it (by simp)
      obtain ⟨c, key, hkey⟩ := List.exists_cons_of_ne_nil hit.named
      have hc : (c == ' ') = false := by
        have hspace : isSpace c = false := by
          have htrim := hit.keyword.trimmed
          rw [hkey] at htrim
          have hfront := congrArg (List.dropWhile isSpace) htrim
          rw [trim, dropWhile_reverse_dropWhile (dropWhile_dropWhile_self isSpace _), ← trim,
            htrim] at hfront
          cases hs : isSpace c with
          | false => rfl
          | true =>
              rw [List.dropWhile_cons_of_pos hs] at hfront
              have hlen := congrArg List.length hfront
              have hle := (List.dropWhile_sublist isSpace (l := key)).length_le
              simp only [List.length_cons] at hlen
              omega
        refine beq_false_of_ne ?_
        rintro rfl
        cases hspace
      simp [itemsText, Item.text, hkey, hc]

theorem lineItems_toText {m : KVMsg} (h : m.Readable mem) :
    lineItems (m.toText mem) = itemsText mem (m.base.items ++ m.ownItems) := by
  have htype : ∀ c ∈ m.base.type, (c != ' ') = true := fun c hc => by simpa using h.type c hc
  have hstop : (m.base.type ++ ' ' :: itemsText mem (m.base.items ++ m.ownItems)).dropWhile
      (· != ' ') = ' ' :: itemsText mem (m.base.items ++ m.ownItems) := by
    rw [List.dropWhile_append_of_pos htype]
    rfl
  rw [lineItems, KVMsg.toText, dropWhile_type h.type h.typed, hstop,
    List.dropWhile_cons_of_pos rfl, dropWhile_itemsText h.items]

theorem itemsText_eq_nil {items : List Item} (h : itemsText mem items = []) : items = [] := by
  cases items with
  | nil => rfl
  | cons it items => simp [itemsText] at h

/-- The printed line is taken apart into the message's own items and its base
fields. -/
theorem linePairs_toText {m : KVMsg} (h : m.Readable mem) :
    linePairs (m.toText mem) = (valuePairs mem m.ownItems, { m.base with type := [] }) := by
  have hkvs : resolveKvs (itemsText mem (m.base.items ++ m.ownItems)) =
      (valuePairs mem m.ownItems, { m.base with type := [] }) := by
    rw [resolveKvs, filterMap_itemsText h.items, valuePairs, List.filterMap_append,
      List.foldl_append, ← valuePairs, foldl_sortKv_base, ← valuePairs, foldl_sortKv_own,
      List.nil_append]
    intro kv hkv
    obtain ⟨it, hit, hkey⟩ := keyword_of_mem_valuePairs hkv
    exact hkey ▸ h.own it hit
  rw [linePairs, lineItems_toText h]
  split
  · rename_i hempty
    have hnil := itemsText_eq_nil hempty
    rw [hempty] at hkvs
    rw [← hkvs]
    rfl
  · exact hkvs

/-- Resolving a printed line is the work of the type's resolver on the items. -/
theorem resolve_toText {m : KVMsg} (h : m.Readable mem) {r : Resolver} (hr : r ∈ resolvers)
    (htype : m.base.type = r.type) :
    resolve (m.toText mem) =
      (r.run (valuePairs mem m.ownItems)).map (·.map (·.assign { m.base with type := [] })) := by
  have hword : iequals (lineType (m.toText mem)) r.type = true := by
    rw [lineType_toText h, htype, iequals_refl]
  rw [resolve_of_type hr hword, linePairs_toText h]

/-! ### Keys, one by one -/

/-- The items, read back, take the message to this one. What they are called is
known: a key of the chain, or a keyword that survives. -/
structure ReadsBack {α : Type} (mem : Text → Value) (keys : List (Key α))
    (other : KeyValPair → α → α) (items : List Item) (m m' : α) : Prop where
  named : ∀ it ∈ items, it.key ∈ keys.map Key.name ∨ OwnKey it.key
  runs : assignAll keys other (valuePairs mem items) m = .ok m'

section

variable {α : Type} {keys : List (Key α)} {other : KeyValPair → α → α} {items : List Item}
  {m m' : α}

theorem ReadsBack.nil : ReadsBack mem keys other [] m m := ⟨by simp, rfl⟩

theorem valuePairs_cons {it : Item} (h : it.valueText mem ≠ []) :
    valuePairs mem (it :: items) = ⟨it.key, it.valueText mem⟩ :: valuePairs mem items := by
  simp [valuePairs, Item.pair, h]

theorem valuePairs_cons_empty {it : Item} (h : it.valueText mem = []) :
    valuePairs mem (it :: items) = valuePairs mem items := by
  simp [valuePairs, Item.pair, h]

theorem ReadsBack.item {it : Item} {m₁ : α} (hne : it.valueText mem ≠ [])
    (hkey : it.key ∈ keys.map Key.name ∨ OwnKey it.key)
    (hassign : assign keys other ⟨it.key, it.valueText mem⟩ m = .ok m₁)
    (hrest : ReadsBack mem keys other items m₁ m') :
    ReadsBack mem keys other (it :: items) m m' := by
  refine ⟨List.forall_mem_cons.mpr ⟨hkey, hrest.named⟩, ?_⟩
  rw [valuePairs_cons hne, assignAll, hassign]
  exact hrest.runs

/-- A keyword of no key. -/
theorem ReadsBack.unknown {it : Item} (hne : it.valueText mem ≠ []) (hkey : OwnKey it.key)
    (hfind : keys.find? (fun k => iequals it.key k.name) = none)
    (hrest : ReadsBack mem keys other items (other ⟨it.key, it.valueText mem⟩ m) m') :
    ReadsBack mem keys other (it :: items) m m' := by
  refine .item hne (.inr hkey) ?_ hrest
  rw [assign, hfind]

theorem name_of_find {key : Text} {slot : Slot α}
    (hfind : keys.find? (fun k => iequals key k.name) = some ⟨key, slot⟩) :
    key ∈ keys.map Key.name :=
  List.mem_map.mpr ⟨⟨key, slot⟩, List.mem_of_find?_eq_some hfind, rfl⟩

theorem ReadsBack.int {it : Item} {n : ℤ} {set : ℤ → α → α} (hval : it.val = some (.int n))
    (hn : -2 ^ 31 ≤ n ∧ n < 2 ^ 31)
    (hfind : keys.find? (fun k => iequals it.key k.name) = some ⟨it.key, .int set⟩)
    (hrest : ReadsBack mem keys other items (set n m) m') :
    ReadsBack mem keys other (it :: items) m m' := by
  have htext : it.valueText mem = intText n := by simp [Item.valueText, hval, Value.toText]
  refine .item (htext ▸ zeroPad_ne_nil 0 n) (.inl (name_of_find hfind)) ?_ hrest
  rw [assign, hfind, htext]
  simp [Slot.assign, stoi_intText hn, Except.map]

theorem ReadsBack.dbl {it : Item} {x : Double} {set : Double → α → α}
    (hread : stod (it.valueText mem) = .ok x)
    (hfind : keys.find? (fun k => iequals it.key k.name) = some ⟨it.key, .dbl set⟩)
    (hrest : ReadsBack mem keys other items (set x m) m') :
    ReadsBack mem keys other (it :: items) m m' := by
  refine .item (ne_nil_of_stod hread) (.inl (name_of_find hfind)) ?_ hrest
  rw [assign, hfind]
  simp [Slot.assign, hread, Except.map]

/-- An empty text is not read; it does no harm where the field is empty. -/
theorem ReadsBack.text {it : Item} {t : Text} {set : Text → α → α}
    (hval : it.val = some (.text t)) (hempty : t = [] → set [] m = m)
    (hfind : keys.find? (fun k => iequals it.key k.name) = some ⟨it.key, .text set⟩)
    (hrest : ReadsBack mem keys other items (set t m) m') :
    ReadsBack mem keys other (it :: items) m m' := by
  have htext : it.valueText mem = t := by simp [Item.valueText, hval, Value.toText]
  by_cases ht : t = []
  · refine ⟨List.forall_mem_cons.mpr ⟨.inl (name_of_find hfind), hrest.named⟩, ?_⟩
    rw [valuePairs_cons_empty (htext.trans ht)]
    rw [ht, hempty ht] at hrest
    exact hrest.runs
  · refine .item (htext ▸ ht) (.inl (name_of_find hfind)) ?_ hrest
    rw [assign, hfind, htext]
    rfl

theorem ReadsBack.given {key : String} {t : Text} {set : Text → α → α}
    (hempty : t = [] → set [] m = m)
    (hfind : keys.find? (fun k => iequals key.toList k.name) = some ⟨key.toList, .text set⟩)
    (hrest : ReadsBack mem keys other items (set t m) m') :
    ReadsBack mem keys other (joinGiven key t ++ items) m m' := by
  rw [joinGiven]
  split
  · rename_i ht
    rw [ht, hempty ht] at hrest
    exact hrest
  · exact .text rfl hempty hfind hrest

theorem ReadsBack.own (hkeys : ∀ k ∈ keys, OwnKey k.name)
    (h : ReadsBack mem keys other items m m') : ∀ it ∈ items, OwnKey it.key := by
  intro it hit
  obtain hkey | hkey := h.named it hit
  · obtain ⟨k, hk, hname⟩ := List.mem_map.mp hkey
    exact hname ▸ hkeys k hk
  · exact hkey

end

end Gtoaes
