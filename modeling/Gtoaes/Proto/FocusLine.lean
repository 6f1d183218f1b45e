import Gtoaes.Proto.NonKVFields

/-!
Focus lines. The loop of `NonKVProtocol::Resolve` gathers letters in one array and
all other characters in another, and takes both for a label and its number when the
next letter comes. Here the text is cut into these pairs first, and the loop is what
storing them one by one comes to.
-/

namespace Gtoaes

open Lib

namespace NonKVProtocol

/-- The text cut in front of each letter that follows both letters and others: the
letters and the others of each piece. -/
def focusGroups (lab num : Text) : Text → List (Text × Text)
  | [] => [(lab, num)]
  | ch :: t =>
      if ch.isAlpha then
        if FocusPair lab num then (lab, num) :: focusGroups [ch] [] t
        else focusGroups (lab ++ [ch]) num t
      else focusGroups lab (num ++ [ch]) t

/-- Storing pairs, up to the first label that is unknown. The last pair is stored only
if a separator closes it. -/
def storeGroups (closed : Bool) :
    List (Text × Text) → ℤ → List ℤ → Except NonKVFault (ℤ × List ℤ)
  | [], index, pos => .ok (index, pos)
  | g :: gs, index, pos =>
      if gs = [] then
        if closed = true ∧ FocusPair g.1 g.2 then storeFocus g.1 g.2 pos
        else if g.1.length ≤ 20 ∧ g.2.length ≤ 20 then .ok (index, pos)
        else .error .overrun
      else do
        let r ← storeFocus g.1 g.2 pos
        if r.1 < 0 then .ok r else storeGroups closed gs r.1 r.2

theorem focusGroups_eq_cons (lab num t : Text) :
    ∃ lab' num' gs, focusGroups lab num t = (lab', num') :: gs ∧
      lab.length ≤ lab'.length ∧ num.length ≤ num'.length := by
  induction t generalizing lab num with
  | nil => exact ⟨lab, num, [], rfl, le_rfl, le_rfl⟩
  | cons ch t ih =>
      rw [focusGroups]
      split
      · split
        · exact ⟨lab, num, _, rfl, le_rfl, le_rfl⟩
        · obtain ⟨lab', num', gs, heq, hlab, hnum⟩ := ih (lab ++ [ch]) num
          rw [List.length_append] at hlab
          exact ⟨lab', num', gs, heq, by omega, hnum⟩
      · obtain ⟨lab', num', gs, heq, hlab, hnum⟩ := ih lab (num ++ [ch])
        rw [List.length_append] at hnum
        exact ⟨lab', num', gs, heq, hlab, by omega⟩

theorem focusGroups_ne_nil (lab num t : Text) : focusGroups lab num t ≠ [] := by
  obtain ⟨lab', num', gs, heq, -⟩ := focusGroups_eq_cons lab num t
  rw [heq]
  exact List.cons_ne_nil _ _

/-- A pair that is too long is not stored. -/
theorem storeGroups_overrun {lab num t : Text} (h : 20 < lab.length ∨ 20 < num.length)
    (closed : Bool) (index : ℤ) (pos : List ℤ) :
    storeGroups closed (focusGroups lab num t) index pos = .error .overrun := by
  obtain ⟨lab', num', gs, heq, hlab, hnum⟩ := focusGroups_eq_cons lab num t
  have hstore : storeFocus lab' num' pos = .error .overrun := if_neg (by omega)
  have hlong : ¬ (lab'.length ≤ 20 ∧ num'.length ≤ 20) := by omega
  rw [heq, storeGroups, hstore, if_neg hlong, ite_self]
  split <;> rfl

/-- The loop stores the pairs of the text in front of the first separator. -/
theorem focusLoop_eq (t : Text) (i : ℕ) {lab num : Text} (hlab : lab.length ≤ 20)
    (hnum : num.length ≤ 20) (index : ℤ) (pos : List ℤ) :
    (focusLoop t i lab num index pos).map (fun r => (r.1, r.2.1)) =
      storeGroups (decide (sep ∈ t)) (focusGroups lab num (t.takeWhile (· != sep))) index pos := by
  induction t generalizing i lab num index pos with
  | nil => exact (if_pos ⟨hlab, hnum⟩).symm
  | cons ch t ih =>
      rw [focusLoop]
      by_cases hsep : ch = sep
      · subst hsep
        have hstop : (sep :: t).takeWhile (· != sep) = [] := by simp
        rw [if_pos rfl, hstop, decide_eq_true List.mem_cons_self, focusGroups, storeGroups,
          if_pos rfl]
        by_cases hpair : FocusPair lab num
        · rw [if_pos hpair, if_pos ⟨rfl, hpair⟩]
          cases storeFocus lab num pos <;> rfl
        · rw [if_neg hpair, if_neg fun h => hpair h.2, if_pos ⟨hlab, hnum⟩]
          rfl
      · have hgo : (ch :: t).takeWhile (· != sep) = ch :: t.takeWhile (· != sep) :=
          List.takeWhile_cons_of_pos (by simpa using hsep)
        have hclosed : decide (sep ∈ ch :: t) = decide (sep ∈ t) := by
          simp [Ne.symm hsep]
        rw [if_neg hsep, hgo, hclosed, focusGroups]
        by_cases halpha : ch.isAlpha = true
        · rw [if_pos halpha, if_pos halpha]
          by_cases hpair : FocusPair lab num
          · rw [if_pos hpair, if_pos hpair, storeGroups, if_neg (focusGroups_ne_nil _ _ _)]
            cases hstore : storeFocus lab num pos with
            | error e => rfl
            | ok r =>
                show Except.map _ (if r.1 < 0 then _ else _) = if r.1 < 0 then _ else _
                by_cases hneg : r.1 < 0
                · rw [if_pos hneg, if_pos hneg]
                  rfl
                · rw [if_neg hneg, if_neg hneg]
                  exact ih (i + 1) (by simp) (by simp) r.1 r.2
          · rw [if_neg hpair, if_neg hpair]
            by_cases hlt : lab.length < 20
            · rw [if_pos hlt]
              exact ih (i + 1) (by rw [List.length_append]; exact hlt) hnum index pos
            · rw [if_neg hlt, storeGroups_overrun (by simp; omega)]
              rfl
        · rw [if_neg halpha, if_neg halpha]
          by_cases hlt : num.length < 20
          · rw [if_pos hlt]
            exact ih (i + 1) hlab (by rw [List.length_append]; exact hlt) index pos
          · rw [if_neg hlt, storeGroups_overrun (by simp; omega)]
            rfl

/-- Where the last label is known the loop has come to the separator, or to the end. -/
theorem focusLoop_end {t : Text} {i : ℕ} {lab num : Text} {index : ℤ} {pos : List ℤ}
    {r : ℤ × List ℤ × ℕ} (h : focusLoop t i lab num index pos = .ok r) (hr : 0 ≤ r.1) :
    r.2.2 = i + (t.takeWhile (· != sep)).length := by
  induction t generalizing i lab num index pos with
  | nil => exact (Except.ok.inj h) ▸ rfl
  | cons ch t ih =>
      rw [focusLoop] at h
      by_cases hsep : ch = sep
      · have hstop : (ch :: t).takeWhile (· != sep) = [] := by simp [hsep]
        rw [if_pos hsep] at h
        rw [hstop]
        by_cases hpair : FocusPair lab num
        · rw [if_pos hpair] at h
          cases hstore : storeFocus lab num pos with
          | error e => rw [hstore] at h; cases h
          | ok x =>
              rw [hstore] at h
              exact (Except.ok.inj h) ▸ rfl
        · rw [if_neg hpair] at h
          exact (Except.ok.inj h) ▸ rfl
      · have hgo : (ch :: t).takeWhile (· != sep) = ch :: t.takeWhile (· != sep) :=
          List.takeWhile_cons_of_pos (by simpa using hsep)
        -- one more character has been passed
        have hnext : ∀ {lab num index pos}, focusLoop t (i + 1) lab num index pos = .ok r →
            r.2.2 = i + ((ch :: t).takeWhile (· != sep)).length := by
          intro lab num index pos hrest
          rw [ih hrest, hgo, List.length_cons]
          omega
        rw [if_neg hsep] at h
        by_cases halpha : ch.isAlpha = true
        · rw [if_pos halpha] at h
          by_cases hpair : FocusPair lab num
          · rw [if_pos hpair] at h
            cases hstore : storeFocus lab num pos with
            | error e => rw [hstore] at h; cases h
            | ok x =>
                rw [hstore] at h
                have hcases : (if x.1 < 0 then Except.ok (x.1, x.2, i)
                    else focusLoop t (i + 1) [ch] [] x.1 x.2) = .ok r := h
                by_cases hneg : x.1 < 0
                · rw [if_pos hneg] at hcases
                  obtain rfl := Except.ok.inj hcases
                  exact absurd hr (not_le_of_gt hneg)
                · rw [if_neg hneg] at hcases
                  exact hnext hcases
          · rw [if_neg hpair] at h
            by_cases hlt : lab.length < 20
            · rw [if_pos hlt] at h
              exact hnext h
            · rw [if_neg hlt] at h
              cases h
        · rw [if_neg halpha] at h
          by_cases hlt : num.length < 20
          · rw [if_pos hlt] at h
            exact hnext h
          · rw [if_neg hlt] at h
            cases h

/-- The pairs of a focus line. -/
def pairsOf (s : Text) (pos : ℕ) : List (Text × Text) :=
  focusGroups [] [] (fieldAt (behind s (pos + 5)) 0)

/-- A separator ends them. -/
def pairsClosed (s : Text) (pos : ℕ) : Bool := decide (sep ∈ behind s (pos + 5))

/-- A focus line in terms of its pairs. -/
theorem resolve_focus {s : Text} {pos : ℕ} (h : keywordOf s = some (.focus, pos)) :
    NonKVProtocol.resolve s =
      match storeGroups (pairsClosed s pos) (pairsOf s pos) (-1) noFocus with
      | .error e => .error e
      | .ok (index, positions) =>
          if 0 ≤ index ∧ pos = 8 then
            readFields (idsBefore s pos).1 (idsBefore s pos).2 (afterField (behind s (pos + 5)))
              (.focus positions)
          else .ok none := by
  have hids := idsFit_before (pos_le_of_keywordOf h)
  have hnil : ([] : Text).length ≤ 20 := Nat.zero_le _
  have hloop := focusLoop_eq (behind s (pos + 5)) (pos + 5) hnil hnil (-1) noFocus
  rw [← fieldAt_zero, ← pairsOf, ← pairsClosed] at hloop
  rw [resolve_of_keywordOf h, branch, resolveFocusLine, ← hloop]
  cases hr : focusLoop (behind s (pos + 5)) (pos + 5) [] [] (-1) noFocus with
  | error e =>
      rw [behind] at hr
      rw [hr]
      rfl
  | ok r =>
      rw [behind] at hr
      rw [hr]
      by_cases hindex : 0 ≤ r.1
      · have hend := focusLoop_end hr hindex
        simp only [bind, Except.bind, if_pos hindex]
        show resolveTail s _ = _
        rw [resolveTail_fields, hend]
        show (if IdsFit (idsBefore s pos).1 (idsBefore s pos).2 then readFields _ _ (behind s
          (pos + 5 + (fieldAt (behind s (pos + 5)) 0).length + 1)) _ else _) = _
        rw [behind_field]
        exact if_congr (hids.trans (and_iff_right hindex).symm) rfl rfl
      · simp only [bind, Except.bind, Except.map, if_neg hindex]
        rw [if_neg fun h => hindex h.1]

end NonKVProtocol

end Gtoaes
