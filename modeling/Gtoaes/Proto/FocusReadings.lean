import Gtoaes.Proto.NonKVArrays

/-!
What a focus line says about each of the five cameras: the number behind the last of
its labels, if it has the label at all. The positions of the message are these, and
`INT_MAX` where there is none.
-/

namespace Gtoaes

open Lib

namespace NonKVProtocol

/-- The pairs that are stored. The last one is only if a separator closes it. -/
def storedPairs (closed : Bool) : List (Text × Text) → List (Text × Text)
  | [] => []
  | g :: gs =>
      if gs = [] then if closed = true ∧ FocusPair g.1 g.2 then [g] else []
      else g :: storedPairs closed gs

/-- The number behind the last label for that place. -/
def readingOf (k : ℕ) : List (Text × Text) → Option ℤ
  | [] => none
  | g :: gs => (readingOf k gs).or (if resolveFocus g.1 = k then some (atoi g.2) else none)

theorem storedPairs_subset {closed : Bool} {gs : List (Text × Text)} {g : Text × Text}
    (h : g ∈ storedPairs closed gs) : g ∈ gs := by
  induction gs with
  | nil => cases h
  | cons g' gs ih =>
      rw [storedPairs] at h
      split at h
      · split at h
        · rw [List.mem_singleton.mp h]
          exact List.mem_cons_self
        · cases h
      · obtain rfl | h := List.mem_cons.mp h
        · exact List.mem_cons_self
        · exact List.mem_cons_of_mem _ (ih h)

theorem readingOf_eq_none {k : ℕ} {gs : List (Text × Text)}
    (h : ∀ g ∈ gs, resolveFocus g.1 ≠ k) : readingOf k gs = none := by
  induction gs with
  | nil => rfl
  | cons g gs ih =>
      rw [readingOf, ih fun g' hg' => h g' (List.mem_cons_of_mem g hg'),
        if_neg (h g List.mem_cons_self)]
      rfl

/-- One pair stored. -/
theorem getD_set_label {pos : List ℤ} (hpos : pos.length = 10) {index : ℤ} (hindex : 0 ≤ index)
    {k : ℕ} (hk : k < 10) (v : ℤ) :
    (pos.set index.toNat v).getD k 0 =
      (if index = k then some v else none).getD (pos.getD k 0) := by
  rw [List.getD_eq_getElem?_getD, List.getElem?_set, List.getD_eq_getElem?_getD]
  by_cases heq : index = k
  · rw [if_pos heq, if_pos (by omega), if_pos (by omega)]
    rfl
  · rw [if_neg heq, if_neg (by omega)]
    rfl

/-- The positions that storing the pairs comes to. -/
theorem storeGroups_getD {closed : Bool} {gs : List (Text × Text)} {index : ℤ} {pos : List ℤ}
    {r : ℤ × List ℤ} (hpos : pos.length = 10) (h : storeGroups closed gs index pos = .ok r)
    (hr : 0 ≤ r.1) {k : ℕ} (hk : k < 10) :
    r.2.getD k 0 = (readingOf k (storedPairs closed gs)).getD (pos.getD k 0) := by
  induction gs generalizing index pos with
  | nil =>
      obtain rfl := Except.ok.inj h
      rfl
  | cons g gs ih =>
      rw [storeGroups, storeFocus_eq hpos] at h
      rw [storedPairs]
      by_cases hlast : gs = []
      · rw [if_pos hlast] at h ⊢
        by_cases hstored : closed = true ∧ FocusPair g.1 g.2
        · rw [if_pos hstored] at h ⊢
          by_cases hfits : g.1.length < 20 ∧ g.2.length < 20
          · rw [if_pos hfits] at h
            obtain rfl := Except.ok.inj h
            rw [if_neg (not_lt_of_ge hr), getD_set_label hpos hr hk]
            rfl
          · rw [if_neg hfits] at h
            cases h
        · rw [if_neg hstored] at h ⊢
          split at h
          · obtain rfl := Except.ok.inj h
            rfl
          · cases h
      · rw [if_neg hlast] at h ⊢
        by_cases hfits : g.1.length < 20 ∧ g.2.length < 20
        · rw [if_pos hfits] at h
          change (if resolveFocus g.1 < 0 then _ else _) = _ at h
          by_cases hneg : resolveFocus g.1 < 0
          · rw [if_pos hneg] at h
            obtain rfl := Except.ok.inj h
            exact absurd hneg (not_lt_of_ge hr)
          · rw [if_neg hneg] at h
            dsimp only at h
            rw [if_neg hneg] at h
            rw [ih (by rw [List.length_set, hpos]) h, readingOf,
              getD_set_label hpos (not_lt.mp hneg) hk]
            cases readingOf k (storedPairs closed gs) <;> rfl
        · rw [if_neg hfits] at h
          cases h

/-- The label of a camera occurs in a focus line. -/
def LabelOccurs (s : Text) (k : ℕ) : Prop := ∃ g ∈ pairsOf s 8, resolveFocus g.1 = k

/-- What a focus line says about a camera. -/
def labelReading (s : Text) (k : ℕ) : Option ℤ :=
  readingOf k (storedPairs (pairsClosed s 8) (pairsOf s 8))

theorem labelReading_eq_none {s : Text} {k : ℕ} (h : ¬ LabelOccurs s k) :
    labelReading s k = none :=
  readingOf_eq_none fun g hg heq => h ⟨g, storedPairs_subset hg, heq⟩

/-- A message with focus positions comes from a focus line. -/
theorem keywordOf_of_focus {s : Text} {proto : NonKVMsg} {pos : List ℤ}
    (h : NonKVProtocol.resolve s = .ok (some proto)) (hkind : proto.kind = .focus pos) :
    ∃ r : ℤ × List ℤ, storeGroups (pairsClosed s 8) (pairsOf s 8) (-1) noFocus = .ok r ∧
      0 ≤ r.1 ∧ r.2 = pos := by
  have hother : ∀ {gid uid t kind}, readFields gid uid t kind = .ok (some proto) →
      kind = .focus pos := by
    intro gid uid t kind hread
    obtain ⟨-, rfl⟩ := readFields_eq_some_iff.mp hread
    exact hkind
  cases hkey : keywordOf s with
  | none =>
      rw [NonKVProtocol.resolve, resolveHead_eq, hkey] at h
      cases h
  | some x =>
      obtain ⟨k, place⟩ := x
      cases k with
      | response =>
          rw [resolve_response hkey, array_eq_some_iff] at h
          cases hother h.2
      | finished =>
          rw [resolve_of_keywordOf hkey, branch] at h
          cases h
      | status =>
          rw [resolve_status hkey, array_eq_some_iff, guard_eq_some_iff] at h
          cases hother h.2.2
      | currentpos =>
          rw [resolve_currentpos hkey, array_eq_some_iff, guard_eq_some_iff] at h
          cases hother h.2.2
      | focus =>
          rw [resolve_focus hkey] at h
          cases hstore : storeGroups (pairsClosed s place) (pairsOf s place) (-1) noFocus with
          | error e =>
              rw [hstore] at h
              cases h
          | ok r =>
              rw [hstore] at h
              obtain ⟨⟨hindex, rfl⟩, hread⟩ := guard_eq_some_iff.mp h
              exact ⟨r, hstore, hindex, NonKVKind.focus.inj (hother hread)⟩

/-- The positions of a message, by the line it was read from. -/
theorem getD_of_resolve {s : Text} {proto : NonKVMsg} {pos : List ℤ}
    (h : NonKVProtocol.resolve s = .ok (some proto)) (hkind : proto.kind = .focus pos) {k : ℕ}
    (hk : k < 5) : pos.getD k 0 = (labelReading s k).getD intMax := by
  obtain ⟨r, hstore, hindex, rfl⟩ := keywordOf_of_focus h hkind
  have hten : k < 10 := by omega
  have hunread : noFocus.getD k 0 = intMax := by
    rw [noFocus, List.getD_eq_getElem?_getD, List.getElem?_replicate, if_pos hten]
    rfl
  rw [storeGroups_getD rfl hstore hindex hten, hunread, labelReading]

end NonKVProtocol

end Gtoaes
