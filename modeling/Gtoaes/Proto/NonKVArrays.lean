import Gtoaes.Proto.FocusLine

/-!
Which lines `NonKVProtocol::Resolve` takes apart within its arrays: two of 20
characters for fields, labels and numbers, one of 20 states and one of 10 focus
positions. Nothing but the text in between the marks bounds what is written there.
-/

namespace Gtoaes

open Lib

namespace NonKVProtocol

/-! ### Focus positions -/

/-- The pairs of a focus line fit, as far as they are read: an unknown label is the
last to be. A pair that is stored takes a terminating zero in each array. -/
def FocusFits (closed : Bool) : List (Text × Text) → Prop
  | [] => True
  | g :: gs =>
      if gs = [] then
        if closed = true ∧ FocusPair g.1 g.2 then g.1.length < 20 ∧ g.2.length < 20
        else g.1.length ≤ 20 ∧ g.2.length ≤ 20
      else (g.1.length < 20 ∧ g.2.length < 20) ∧ (0 ≤ resolveFocus g.1 → FocusFits closed gs)

/-- The place of the last label that is looked up. -/
def lastIndex (closed : Bool) : ℤ → List (Text × Text) → ℤ
  | index, [] => index
  | index, g :: gs =>
      if gs = [] then if closed = true ∧ FocusPair g.1 g.2 then resolveFocus g.1 else index
      else if resolveFocus g.1 < 0 then resolveFocus g.1
      else lastIndex closed (resolveFocus g.1) gs

theorem resolveFocus_lt (id : Text) : resolveFocus id < 10 := by
  simp only [resolveFocus]
  split_ifs <;> omega

/-- The place of a label is one of the ten there are. -/
theorem storeFocus_eq {pos : List ℤ} (hpos : pos.length = 10) (lab num : Text) :
    storeFocus lab num pos =
      if lab.length < 20 ∧ num.length < 20 then
        .ok (resolveFocus lab,
          if resolveFocus lab < 0 then pos else pos.set (resolveFocus lab).toNat (atoi num))
      else .error .overrun := by
  have hlt : resolveFocus lab < (pos.length : ℤ) := hpos ▸ resolveFocus_lt lab
  rw [storeFocus]
  split
  · simp only [if_pos hlt]
    split <;> rfl
  · rfl

/-- Storing goes well exactly if the pairs fit, and ends with the last label. -/
theorem storeGroups_cases (closed : Bool) (gs : List (Text × Text)) (index : ℤ) {pos : List ℤ}
    (hpos : pos.length = 10) :
    (¬ FocusFits closed gs ∧ storeGroups closed gs index pos = .error .overrun) ∨
      (FocusFits closed gs ∧ ∃ positions,
        storeGroups closed gs index pos = .ok (lastIndex closed index gs, positions)) := by
  induction gs generalizing index pos with
  | nil => exact .inr ⟨trivial, pos, rfl⟩
  | cons g gs ih =>
      rw [storeGroups, FocusFits, lastIndex, storeFocus_eq hpos]
      by_cases hlast : gs = []
      · rw [if_pos hlast, if_pos hlast, if_pos hlast]
        by_cases hstored : closed = true ∧ FocusPair g.1 g.2
        · rw [if_pos hstored, if_pos hstored, if_pos hstored]
          by_cases hfits : g.1.length < 20 ∧ g.2.length < 20
          · exact .inr ⟨hfits, _, if_pos hfits⟩
          · exact .inl ⟨hfits, if_neg hfits⟩
        · rw [if_neg hstored, if_neg hstored, if_neg hstored]
          by_cases hfits : g.1.length ≤ 20 ∧ g.2.length ≤ 20
          · exact .inr ⟨hfits, _, if_pos hfits⟩
          · exact .inl ⟨hfits, if_neg hfits⟩
      · rw [if_neg hlast, if_neg hlast, if_neg hlast]
        by_cases hfits : g.1.length < 20 ∧ g.2.length < 20
        · rw [if_pos hfits]
          show (_ ∧ (if resolveFocus g.1 < 0 then _ else _) = _) ∨
            (_ ∧ ∃ positions, (if resolveFocus g.1 < 0 then _ else _) = _)
          by_cases hneg : resolveFocus g.1 < 0
          · simp only [if_pos hneg]
            exact .inr ⟨⟨hfits, fun h => absurd hneg (not_lt_of_ge h)⟩, pos, rfl⟩
          · simp only [if_neg hneg]
            have hset : (pos.set (resolveFocus g.1).toNat (atoi g.2)).length = 10 := by
              rw [List.length_set, hpos]
            obtain ⟨hnot, herr⟩ | ⟨hrest, positions, hok⟩ := ih (resolveFocus g.1) hset
            · exact .inl ⟨fun h => hnot (h.2 (not_lt.mp hneg)), herr⟩
            · exact .inr ⟨⟨hfits, fun _ => hrest⟩, positions, hok⟩
        · rw [if_neg hfits]
          exact .inl ⟨fun h => hfits h.1, rfl⟩

/-- A focus line, by the pairs that it has. -/
theorem resolve_focus_cases {s : Text} {pos : ℕ} (h : keywordOf s = some (.focus, pos)) :
    (¬ FocusFits (pairsClosed s pos) (pairsOf s pos) ∧
        NonKVProtocol.resolve s = .error .overrun) ∨
      (FocusFits (pairsClosed s pos) (pairsOf s pos) ∧ ∃ positions,
        NonKVProtocol.resolve s =
          if 0 ≤ lastIndex (pairsClosed s pos) (-1) (pairsOf s pos) ∧ pos = 8 then
            readFields (idsBefore s pos).1 (idsBefore s pos).2 (afterField (behind s (pos + 5)))
              (.focus positions)
          else .ok none) := by
  rw [resolve_focus h]
  obtain ⟨hnot, herr⟩ | ⟨hfits, positions, hok⟩ :=
    storeGroups_cases (pairsClosed s pos) (pairsOf s pos) (-1) (show noFocus.length = 10 from rfl)
  · rw [herr]
    exact .inl ⟨hnot, rfl⟩
  · rw [hok]
    exact .inr ⟨hfits, positions, rfl⟩

/-! ### The arrays of a line -/

/-- What the line has written into an array fits there: its fields, and the serial
number where it is read at all. -/
def ArraysFit (s : Text) : Prop :=
  match keywordOf s with
  | some (.response, pos) => 8 ≤ s.length → (fieldAt (recText s pos) 2).length < 20
  | some (.status, pos) =>
      (fieldAt (behind s (pos + 6)) 0).length ≤ 20 ∧
        (pos = 5 → (fieldAt (behind s (pos + 6)) 3).length < 20)
  | some (.currentpos, pos) =>
      ((fieldAt (behind s (pos + 10)) 0).length < 20 ∧
          (fieldAt (behind s (pos + 10)) 1).length < 20) ∧
        ((fieldAt (behind s (pos + 10)) 0 ≠ [] ∧ fieldAt (behind s (pos + 10)) 1 ≠ []) ∧ pos = 8 →
          (fieldAt (behind s (pos + 10)) 4).length < 20)
  | some (.focus, pos) =>
      FocusFits (pairsClosed s pos) (pairsOf s pos) ∧
        (0 ≤ lastIndex (pairsClosed s pos) (-1) (pairsOf s pos) ∧ pos = 8 →
          (fieldAt (behind s (pos + 5)) 3).length < 20)
  | _ => True

theorem readFields_ne_overrun_iff {gid uid t : Text} {kind : NonKVKind} :
    readFields gid uid t kind ≠ .error .overrun ↔ (fieldAt t 2).length < 20 := by
  rw [readFields_eq]
  by_cases hlen : (fieldAt t 2).length < 20
  · rw [if_pos hlen]
    refine iff_of_true ?_ hlen
    split <;> simp
  · rw [if_neg hlen]
    exact iff_of_false (not_not_intro rfl) hlen

/-- Every index written is within its array, exactly if the line fits. -/
theorem resolve_ne_overrun_iff (s : Text) :
    NonKVProtocol.resolve s ≠ .error .overrun ↔ ArraysFit s := by
  have hguard : ∀ {p : Prop} [Decidable p] {r : Except NonKVFault (Option NonKVMsg)},
      (if p then r else .ok none) ≠ .error .overrun ↔ (p → r ≠ .error .overrun) := by
    intro p _ r
    rw [ne_eq, guard_eq_error_iff, not_and]
  rw [ArraysFit]
  cases hkey : keywordOf s with
  | none =>
      rw [NonKVProtocol.resolve, resolveHead_eq, hkey]
      exact iff_of_true (by simp) trivial
  | some x =>
      obtain ⟨k, pos⟩ := x
      cases k with
      | response =>
          rw [resolve_response hkey]
          simp only
          by_cases hlen : 8 ≤ s.length
          · rw [if_pos hlen, readFields_ne_overrun_iff]
            exact (imp_iff_right hlen).symm
          · rw [if_neg hlen]
            exact iff_of_true (by simp) fun h => absurd h hlen
      | finished =>
          rw [resolve_of_keywordOf hkey, branch]
          exact iff_of_true (by simp) trivial
      | status =>
          rw [resolve_status hkey, array_ne_error_iff, hguard, readFields_ne_overrun_iff]
          rfl
      | currentpos =>
          rw [resolve_currentpos hkey, array_ne_error_iff, hguard, readFields_ne_overrun_iff]
          rfl
      | focus =>
          obtain ⟨hnot, herr⟩ | ⟨hfits, positions, hok⟩ := resolve_focus_cases hkey
          · rw [herr]
            exact iff_of_false (not_not_intro rfl) fun h => hnot h.1
          · rw [hok, hguard, readFields_ne_overrun_iff]
            exact (and_iff_right hfits).symm

/-- A status line of 21 digits. -/
def status21 : Text :=
  "g#001status000000000000000000000%2024-03-29%13:07:26%1%".toList

/-- The last digit is written behind the array of states. -/
theorem resolve_status21 : NonKVProtocol.resolve status21 = .error .overrun := by
  decide +kernel

end NonKVProtocol

end Gtoaes
