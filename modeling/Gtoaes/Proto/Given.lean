import Gtoaes.Proto.KVProtocol

/-!
What a resolved message holds, in terms of the line: a field has the value of
the last pair that names it, and its default where no pair does.
-/

namespace Gtoaes

open Lib

/-- The value of the last pair with a keyword. -/
def given (kvs : List KeyValPair) (key : Text) : Option Text :=
  (kvs.reverse.find? fun kv => iequals kv.keyword key).map KeyValPair.value

/-- The last value as an integer, where it reads as one. -/
def givenInt (kvs : List KeyValPair) (key : String) : Option ℤ :=
  (given kvs key.toList).bind fun v => (stoi v).toOption

def givenDbl (kvs : List KeyValPair) (key : String) : Option Double :=
  (given kvs key.toList).bind fun v => (stod v).toOption

@[simp] theorem given_nil (key : Text) : given [] key = none := rfl

theorem given_cons (kv : KeyValPair) (kvs : List KeyValPair) (key : Text) :
    given (kv :: kvs) key =
      (given kvs key).or (if iequals kv.keyword key then some kv.value else none) := by
  rw [given, given, List.reverse_cons, List.find?_append, Option.map_or]
  cases h : iequals kv.keyword key <;> simp [h]

/-- Storing a value with the slot leaves what `get` reads alone. -/
def Slot.Keeps {α β : Type} (get : α → β) : Slot α → Prop
  | .text set => ∀ v m, get (set v m) = get m
  | .int set => ∀ v m, get (set v m) = get m
  | .dbl set => ∀ v m, get (set v m) = get m

theorem Slot.Keeps.assign {α β : Type} {get : α → β} {slot : Slot α} (h : slot.Keeps get)
    {v : Text} {m m' : α} (hassign : slot.assign v m = .ok m') : get m' = get m := by
  cases slot with
  | text set =>
      simp only [Slot.assign, Except.ok.injEq] at hassign
      rw [← hassign]
      exact h v m
  | int set =>
      cases hv : stoi v with
      | error e => simp [Slot.assign, hv, Except.map] at hassign
      | ok n =>
          simp only [Slot.assign, hv, Except.map, Except.ok.injEq] at hassign
          rw [← hassign]
          exact h n m
  | dbl set =>
      cases hv : stod v with
      | error e => simp [Slot.assign, hv, Except.map] at hassign
      | ok x =>
          simp only [Slot.assign, hv, Except.map, Except.ok.injEq] at hassign
          rw [← hassign]
          exact h x m

/-- In a chain of keys, `get` reads the field of one key: that key stores what
`read` makes of the value, and no other branch touches the field. -/
structure Tracks {α β : Type} (keys : List (Key α)) (other : KeyValPair → α → α) (key : Text)
    (get : α → β) (read : Text → Except StdExn β) : Prop where
  stores : ∃ k, keys.find? (fun k => iequals key k.name) = some k ∧
    ∀ v m m', k.slot.assign v m = .ok m' → read v = .ok (get m')
  keeps : ∀ k ∈ keys, iequals key k.name = false → k.slot.Keeps get
  keepsOther : ∀ kv m, get (other kv m) = get m

section

variable {α β : Type} {keys : List (Key α)} {other : KeyValPair → α → α} {key : Text}
  {get : α → β} {read : Text → Except StdExn β}

/-- What becomes of a tracked field, by the value given for it. -/
def Holds (get : α → β) (read : Text → Except StdExn β) (m m' : α) : Option Text → Prop
  | none => get m' = get m
  | some v => read v = .ok (get m')

theorem iequals_congr {a b : Text} (h : iequals a b = true) (c : Text) :
    iequals a c = iequals b c := by
  rw [iequals, iequals, iequals_iff.mp h]

theorem Tracks.assign (h : Tracks keys other key get read) {kv : KeyValPair} {m m' : α}
    (hassign : assign keys other kv m = .ok m') :
    Holds get read m m' (if iequals kv.keyword key then some kv.value else none) := by
  cases hkey : iequals kv.keyword key with
  | true =>
      obtain ⟨k, hfind, hstore⟩ := h.stores
      have hsame : keys.find? (fun k => iequals kv.keyword k.name) = some k := by
        simpa only [iequals_congr hkey] using hfind
      rw [Gtoaes.assign, hsame] at hassign
      exact hstore kv.value m m' hassign
  | false =>
      rw [Gtoaes.assign] at hassign
      cases hfind : keys.find? (fun k => iequals kv.keyword k.name) with
      | none =>
          rw [hfind] at hassign
          obtain rfl := Except.ok.inj hassign
          exact h.keepsOther kv m
      | some k =>
          rw [hfind] at hassign
          have hname : iequals kv.keyword k.name = true := by simpa using List.find?_some hfind
          have hdiff : iequals key k.name = false := by
            by_contra hsame
            rw [Bool.not_eq_false] at hsame
            rw [iequals_congr hname, iequals_comm, hsame] at hkey
            cases hkey
          exact (h.keeps k (List.mem_of_find?_eq_some hfind) hdiff).assign hassign

/-- The field after the walk: the last value given for it, or what it was. -/
theorem Tracks.assignAll (h : Tracks keys other key get read) {kvs : List KeyValPair} {m m' : α}
    (hrun : assignAll keys other kvs m = .ok m') : Holds get read m m' (given kvs key) := by
  induction kvs generalizing m with
  | nil =>
      obtain rfl := Except.ok.inj hrun
      exact rfl
  | cons kv kvs ih =>
      rw [Gtoaes.assignAll] at hrun
      cases hone : Gtoaes.assign keys other kv m with
      | error e => simp [hone] at hrun
      | ok m₁ =>
          simp only [hone] at hrun
          have hhead := h.assign hone
          have htail := ih hrun
          rw [given_cons]
          cases hg : given kvs key with
          | some v => simpa [hg, Holds] using htail
          | none =>
              have hget : get m' = get m₁ := by simpa [hg, Holds] using htail
              cases hkey : iequals kv.keyword key <;> simp_all [Holds]

end

/-! ### A field by the kind of its key -/

section

variable {α β : Type} {keys : List (Key α)} {other : KeyValPair → α → α} {key : String}
  {name : Text} {kvs : List KeyValPair} {m m' : α}

theorem text_given {get : α → Text} {set : Text → α → α}
    (hrun : assignAll keys other kvs m = .ok m')
    (hfind : keys.find? (fun k => iequals key.toList k.name) = some ⟨name, .text set⟩)
    (hset : ∀ v m, get (set v m) = v)
    (hkeeps : ∀ k ∈ keys, iequals key.toList k.name = false → k.slot.Keeps get)
    (hother : ∀ kv m, get (other kv m) = get m) :
    get m' = (given kvs key.toList).getD (get m) := by
  have htracks : Tracks keys other key.toList get .ok := by
    refine ⟨⟨_, hfind, ?_⟩, hkeeps, hother⟩
    intro v m m' h
    obtain rfl := Except.ok.inj h
    rw [hset]
  have hheld := htracks.assignAll hrun
  cases hg : given kvs key.toList with
  | none => simpa [hg, Holds] using hheld
  | some v => simpa [hg, Holds, eq_comm] using hheld

theorem int_given {get : α → ℤ} {set : ℤ → α → α}
    (hrun : assignAll keys other kvs m = .ok m')
    (hfind : keys.find? (fun k => iequals key.toList k.name) = some ⟨name, .int set⟩)
    (hset : ∀ n m, get (set n m) = n)
    (hkeeps : ∀ k ∈ keys, iequals key.toList k.name = false → k.slot.Keeps get)
    (hother : ∀ kv m, get (other kv m) = get m) :
    get m' = (givenInt kvs key).getD (get m) := by
  have htracks : Tracks keys other key.toList get stoi := by
    refine ⟨⟨_, hfind, ?_⟩, hkeeps, hother⟩
    intro v m m' h
    cases hv : stoi v with
    | error e => simp [Slot.assign, hv, Except.map] at h
    | ok n =>
        simp only [Slot.assign, hv, Except.map, Except.ok.injEq] at h
        rw [← h, hset]
  have hheld := htracks.assignAll hrun
  cases hg : given kvs key.toList with
  | none => simpa [givenInt, hg, Holds] using hheld
  | some v =>
      simp only [hg, Holds] at hheld
      simp [givenInt, hg, hheld, Except.toOption]

/-- `wrap` is the identity, or marks the field as set. -/
theorem dbl_given {get : α → β} {set : Double → α → α} (wrap : Double → β)
    (hrun : assignAll keys other kvs m = .ok m')
    (hfind : keys.find? (fun k => iequals key.toList k.name) = some ⟨name, .dbl set⟩)
    (hset : ∀ x m, get (set x m) = wrap x)
    (hkeeps : ∀ k ∈ keys, iequals key.toList k.name = false → k.slot.Keeps get)
    (hother : ∀ kv m, get (other kv m) = get m) :
    get m' = ((givenDbl kvs key).map wrap).getD (get m) := by
  have htracks : Tracks keys other key.toList get fun v => (stod v).map wrap := by
    refine ⟨⟨_, hfind, ?_⟩, hkeeps, hother⟩
    intro v m m' h
    cases hv : stod v with
    | error e => simp [Slot.assign, hv, Except.map] at h
    | ok x =>
        simp only [Slot.assign, hv, Except.map, Except.ok.injEq] at h
        rw [← h, hset]
        rfl
  have hheld := htracks.assignAll hrun
  cases hg : given kvs key.toList with
  | none => simpa [givenDbl, hg, Holds] using hheld
  | some v =>
      simp only [hg, Holds] at hheld
      cases hv : stod v with
      | error e => simp [hv, Except.map] at hheld
      | ok x =>
          simp only [hv, Except.map, Except.ok.injEq] at hheld
          simp [givenDbl, hg, hv, hheld, Except.toOption]

/-- A field that is unset until it is given. -/
theorem optDbl_given {get : α → Option Double} {set : Double → α → α}
    (hrun : assignAll keys other kvs m = .ok m')
    (hfind : keys.find? (fun k => iequals key.toList k.name) = some ⟨name, .dbl set⟩)
    (hset : ∀ x m, get (set x m) = some x)
    (hkeeps : ∀ k ∈ keys, iequals key.toList k.name = false → k.slot.Keeps get)
    (hother : ∀ kv m, get (other kv m) = get m) (hunset : get m = none) :
    get m' = givenDbl kvs key := by
  rw [dbl_given some hrun hfind hset hkeeps hother, hunset]
  cases givenDbl kvs key <;> rfl

end

end Gtoaes
