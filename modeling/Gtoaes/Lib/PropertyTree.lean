import Mathlib.Data.List.Infix
import Gtoaes.Lib.UpdateFirst

/-!
Trees of values under paths of keys. A node has a value and children in order, of
which several may have one key; a search takes the first. What is added under a path
never hides what is there, so values added under paths none of which leads to another
are all found again.
-/

namespace Gtoaes.Lib

inductive PropertyTree (κ β : Type) where
  | node (data : β) (children : List (κ × PropertyTree κ β))

namespace PropertyTree

variable {κ β : Type} [DecidableEq κ]

def data : PropertyTree κ β → β
  | node d _ => d

def children : PropertyTree κ β → List (κ × PropertyTree κ β)
  | node _ cs => cs

/-- The first child of a key. -/
def find (t : PropertyTree κ β) (k : κ) : Option (PropertyTree κ β) :=
  (t.children.find? (·.1 == k)).map Prod.snd

def pushBack (t : PropertyTree κ β) (k : κ) (v : PropertyTree κ β) : PropertyTree κ β :=
  node t.data (t.children ++ [(k, v)])

/-- The first child of a key is changed. -/
def modify (t : PropertyTree κ β) (k : κ) (f : PropertyTree κ β → PropertyTree κ β) :
    PropertyTree κ β :=
  node t.data (updateFirst (·.1 == k) (fun c => (c.1, f c.2)) t.children)

/-- Down the first children of the keys. -/
def getChild : List κ → PropertyTree κ β → Option (PropertyTree κ β)
  | [], t => some t
  | k :: path, t => (t.find k).bind (getChild path)

/-- One more child `v` under the last key of the path. Nodes that are missing on the
way to it are made, with the value `d`. -/
def addChild (d : β) : List κ → (t v : PropertyTree κ β) → PropertyTree κ β
  | [], t, _ => t
  | [k], t, v => t.pushBack k v
  | k :: k' :: path, t, v =>
      match t.find k with
      | some _ => t.modify k fun c => addChild d (k' :: path) c v
      | none => t.pushBack k (addChild d (k' :: path) (node d []) v)

/-- The value under a path. -/
def get (path : List κ) (t : PropertyTree κ β) : Option β := (t.getChild path).map data

/-- A value added under a path. -/
def add (d : β) (path : List κ) (t : PropertyTree κ β) (x : β) : PropertyTree κ β :=
  t.addChild d path (node x [])

/-- One value after the other. -/
def addAll (d : β) (entries : List (List κ × β)) (t : PropertyTree κ β) : PropertyTree κ β :=
  entries.foldl (fun t e => t.add d e.1 e.2) t

/-! ### Searching -/

theorem find_pushBack (t : PropertyTree κ β) (j k : κ) (v : PropertyTree κ β) :
    (t.pushBack k v).find j = (t.find j).or (if k = j then some v else none) := by
  rw [find, find, pushBack, children, List.find?_append, Option.map_or]
  congr 1
  by_cases hk : k = j <;> simp [hk]

theorem find_modify (t : PropertyTree κ β) (j k : κ) (f : PropertyTree κ β → PropertyTree κ β) :
    (t.modify k f).find j = if k = j then (t.find j).map f else t.find j := by
  rw [find, find, modify, children]
  induction t.children with
  | nil => simp [updateFirst]
  | cons c cs ih =>
      rw [updateFirst, List.find?_cons]
      cases hk : c.1 == k with
      | true =>
          -- the child that is changed comes first
          obtain rfl := beq_iff_eq.mp hk
          rw [if_pos rfl, List.find?_cons]
          cases hj : c.1 == j with
          | true => rw [if_pos (beq_iff_eq.mp hj)]; rfl
          | false => rw [if_neg (beq_eq_false_iff_ne.mp hj)]
      | false =>
          rw [if_neg Bool.false_ne_true, List.find?_cons]
          cases hj : c.1 == j with
          | true =>
              have hne : k ≠ j := fun h => beq_eq_false_iff_ne.mp hk ((beq_iff_eq.mp hj).trans h.symm)
              rw [if_neg hne]
          | false => exact ih

@[simp] theorem getChild_cons (k : κ) (path : List κ) (t : PropertyTree κ β) :
    t.getChild (k :: path) = (t.find k).bind (getChild path) := rfl

theorem getChild_leaf (d : β) {path : List κ} (h : path ≠ []) :
    (node d [] : PropertyTree κ β).getChild path = none := by
  cases path with
  | nil => exact absurd rfl h
  | cons k path => rfl

/-! ### Adding -/

variable {d : β}

/-- What is added where nothing was is found there. -/
theorem getChild_addChild {path : List κ} {t v : PropertyTree κ β} (hne : path ≠ [])
    (h : t.getChild path = none) : (t.addChild d path v).getChild path = some v := by
  fun_induction addChild d path t v with
  | case1 => exact absurd rfl hne
  | case2 k t v =>
      have hnone : t.find k = none := by simpa [getChild] using h
      rw [getChild_cons, find_pushBack, hnone, if_pos rfl]
      rfl
  | case3 k k' path t v c hc ih =>
      rw [getChild_cons, hc, Option.bind_some] at h
      rw [getChild_cons, find_modify, if_pos rfl, hc, Option.map_some, Option.bind_some]
      exact ih c (List.cons_ne_nil _ _) h
  | case4 k k' path t v hc ih =>
      rw [getChild_cons, find_pushBack, hc, if_pos rfl, Option.none_or, Option.bind_some]
      exact ih (List.cons_ne_nil _ _) (getChild_leaf d (List.cons_ne_nil _ _))

/-- What leads neither there nor from there stays as it is. -/
theorem getChild_addChild_of_apart {path q : List κ} {t v : PropertyTree κ β}
    (hq : ¬ q <+: path) (hpath : ¬ path <+: q) :
    (t.addChild d path v).getChild q = t.getChild q := by
  -- along the added path, until the other one branches off
  fun_induction addChild d path t v generalizing q with
  | case1 => exact absurd List.nil_prefix hpath
  | case2 k t v =>
      cases q with
      | nil => exact absurd List.nil_prefix hq
      | cons j q =>
          have hne : k ≠ j := fun h => hpath (List.cons_prefix_cons.mpr ⟨h, List.nil_prefix⟩)
          rw [getChild_cons, getChild_cons, find_pushBack, if_neg hne, Option.or_none]
  | case3 k k' path t v c hc ih =>
      cases q with
      | nil => exact absurd List.nil_prefix hq
      | cons j q =>
          rw [getChild_cons, getChild_cons, find_modify]
          by_cases hk : k = j
          · subst hk
            rw [List.cons_prefix_cons, and_iff_right rfl] at hq hpath
            rw [if_pos rfl, hc, Option.map_some, Option.bind_some, Option.bind_some]
            exact ih c hq hpath
          · rw [if_neg hk]
  | case4 k k' path t v hc ih =>
      cases q with
      | nil => exact absurd List.nil_prefix hq
      | cons j q =>
          rw [getChild_cons, getChild_cons, find_pushBack]
          by_cases hk : k = j
          · subst hk
            rw [List.cons_prefix_cons, and_iff_right rfl] at hq hpath
            have hne : q ≠ [] := by
              rintro rfl
              exact hq List.nil_prefix
            rw [if_pos rfl, hc, Option.none_or, Option.bind_some, Option.bind_none]
            exact (ih hq hpath).trans (getChild_leaf d hne)
          · rw [if_neg hk, Option.or_none]

theorem get_cons (k : κ) (path : List κ) (t : PropertyTree κ β) :
    t.get (k :: path) = (t.find k).bind (get path) := by
  rw [get, getChild_cons]
  cases t.find k <;> rfl

/-- No value is hidden by what is added. -/
theorem get_addChild_of_get {path q : List κ} {t v : PropertyTree κ β} {x : β}
    (h : t.get q = some x) : (t.addChild d path v).get q = some x := by
  -- what is added comes behind what is there, and a search takes the first
  fun_induction addChild d path t v generalizing q with
  | case1 => exact h
  | case2 k t v =>
      cases q with
      | nil => exact h
      | cons j q =>
          rw [get_cons] at h
          obtain ⟨c, hc, hx⟩ := Option.bind_eq_some_iff.mp h
          rw [get_cons, find_pushBack, hc, Option.some_or, Option.bind_some, hx]
  | case3 k k' path t v c hc ih =>
      cases q with
      | nil => exact h
      | cons j q =>
          rw [get_cons] at h ⊢
          rw [find_modify]
          by_cases hk : k = j
          · subst hk
            rw [hc, Option.bind_some] at h
            rw [if_pos rfl, hc, Option.map_some, Option.bind_some]
            exact ih c h
          · rwa [if_neg hk]
  | case4 k k' path t v hc ih =>
      cases q with
      | nil => exact h
      | cons j q =>
          rw [get_cons] at h
          obtain ⟨c, hc, hx⟩ := Option.bind_eq_some_iff.mp h
          rw [get_cons, find_pushBack, hc, Option.some_or, Option.bind_some, hx]

/-- Under a new child of the root stands what stands in it. -/
theorem get_addChild_singleton {k : κ} {t : PropertyTree κ β} (h : t.find k = none)
    (v : PropertyTree κ β) (path : List κ) :
    (t.addChild d [k] v).get (k :: path) = v.get path := by
  rw [get_cons, addChild, find_pushBack, h, if_pos rfl]
  rfl

/-! ### Values -/

/-- Neither path leads to the other. -/
def Apart (p q : List κ) : Prop := ¬ p <+: q ∧ ¬ q <+: p

instance (p q : List κ) : Decidable (Apart p q) := inferInstanceAs (Decidable (_ ∧ _))

theorem get_add {path : List κ} {t : PropertyTree κ β} (h : t.getChild path = none) (x : β) :
    (t.add d path x).get path = some x := by
  have hne : path ≠ [] := by
    rintro rfl
    cases h
  rw [get, add, getChild_addChild hne h]
  rfl

theorem get_addAll_of_get (entries : List (List κ × β)) {t : PropertyTree κ β} {q : List κ}
    {x : β} (h : t.get q = some x) : (t.addAll d entries).get q = some x := by
  induction entries generalizing t with
  | nil => exact h
  | cons e entries ih => exact ih (get_addChild_of_get h)

/-- Values added under paths apart from each other, where there was nothing, are all
found. -/
theorem get_addAll {entries : List (List κ × β)} {t : PropertyTree κ β}
    (hfree : ∀ e ∈ entries, t.getChild e.1 = none)
    (hapart : (entries.map Prod.fst).Pairwise Apart) :
    ∀ e ∈ entries, (t.addAll d entries).get e.1 = some e.2 := by
  induction entries generalizing t with
  | nil => simp
  | cons e entries ih =>
      rw [List.map_cons, List.pairwise_cons] at hapart
      obtain ⟨hhead, htail⟩ := hapart
      intro e' he'
      obtain rfl | he' := List.mem_cons.mp he'
      · exact get_addAll_of_get entries (get_add (hfree e' List.mem_cons_self) e'.2)
      · refine ih (fun f hf => ?_) htail e' he'
        obtain ⟨hef, hfe⟩ := hhead f.1 (List.mem_map_of_mem hf)
        exact (getChild_addChild_of_apart hfe hef).trans (hfree f (List.mem_cons_of_mem _ hf))

end PropertyTree

end Gtoaes.Lib
