import Gtoaes.Proto.NonKVResolve

/-!
The lines of the frame protocol by their parts: the first keyword, the fields
behind it, and in a focus line the pairs of a label and a number. What
`NonKVProtocol::Resolve` does to a line is told in these terms, without its
indices and arrays.
-/

namespace Gtoaes

open Lib

open NonKVProtocol

/-! ### Texts cut at separators -/

/-- What follows the next separator. -/
def afterField (t : Text) : Text := (t.dropWhile (· != sep)).drop 1

theorem takeWhile_cut {a : Text} (ha : sep ∉ a) (t : Text) :
    (a ++ sep :: t).takeWhile (· != sep) = a := by
  refine takeWhile_append_stop (fun c hc => ?_) (fun c hc => ?_)
  · have hne : c ≠ sep := fun h => ha (h ▸ hc)
    simpa using hne
  · obtain rfl : sep = c := by simpa using hc
    simp

theorem afterField_cut {a : Text} (ha : sep ∉ a) (t : Text) : afterField (a ++ sep :: t) = t := by
  have hall : ∀ c ∈ a, (c != sep) = true := by
    intro c hc
    have hne : c ≠ sep := fun h => ha (h ▸ hc)
    simpa using hne
  rw [afterField, List.dropWhile_append_of_pos hall]
  simp

theorem takeWhile_uncut {a : Text} (ha : sep ∉ a) : a.takeWhile (· != sep) = a := by
  have h := takeWhile_append_stop (p := (· != sep)) (a := a) (b := []) (fun c hc => ?_) (by simp)
  · rwa [List.append_nil] at h
  · have hne : c ≠ sep := fun h => ha (h ▸ hc)
    simpa using hne

theorem drop_field (t : Text) :
    t.drop ((t.takeWhile (· != sep)).length + 1) = afterField t := by
  have hcut : t.drop (t.takeWhile (· != sep)).length = t.dropWhile (· != sep) := by
    calc
      t.drop (t.takeWhile (· != sep)).length =
          (t.takeWhile (· != sep) ++ t.dropWhile (· != sep)).drop
            (t.takeWhile (· != sep)).length := by rw [List.takeWhile_append_dropWhile]
      _ = t.dropWhile (· != sep) := List.drop_left
  rw [afterField, ← hcut, List.drop_drop]

/-- A text with a separator, cut at the first one. -/
theorem exists_cut {t : Text} (h : 0 < t.count sep) :
    ∃ a rest, t = a ++ sep :: rest ∧ sep ∉ a ∧ rest.count sep + 1 = t.count sep := by
  obtain ⟨a, rest, rfl, ha⟩ := List.eq_append_cons_of_mem (List.count_pos_iff.mp h)
  refine ⟨a, rest, rfl, ha, ?_⟩
  simp [List.count_append, List.count_eq_zero_of_not_mem ha]

/-! ### The common part on a text of fields -/

/-- Date, time and serial number from the fields of a text. -/
def readFields (gid uid t : Text) (kind : NonKVKind) : Except NonKVFault (Option NonKVMsg) :=
  let date := t.takeWhile (· != sep)
  let time := (afterField t).takeWhile (· != sep)
  let sn := (afterField (afterField t)).takeWhile (· != sep)
  if sn.length < 20 then
    if sn = [] then .ok none
    else .ok (some ⟨gid, uid, date ++ 'T' :: time, atoi sn, kind⟩)
  else .error .overrun

/-- The ids have the lengths that `Resolve` asks for. -/
def IdsFit (gid uid : Text) : Prop := gid.length = 3 ∧ (uid = [] ∨ uid.length = 3)

instance (gid uid : Text) : Decidable (IdsFit gid uid) := inferInstanceAs (Decidable (_ ∧ _))

theorem resolveTail_of_not_idsFit {s : Text} {h : NonKVHead} (hids : ¬ IdsFit h.gid h.uid) :
    resolveTail s h = .ok none := by
  rw [resolveTail, if_pos]
  simp only [IdsFit] at hids
  tauto

theorem resolveTail_eq {s : Text} {h : NonKVHead} (hfit : IdsFit h.gid h.uid) :
    resolveTail s h =
      readFields h.gid h.uid ((s.take (s.length - 1)).drop (h.i + 1)) h.kind := by
  have hids : ¬ (h.gid.length ≠ 3 ∨ (h.uid ≠ [] ∧ h.uid.length ≠ 3)) := by
    simp only [IdsFit] at hfit
    tauto
  have hnext : ∀ i, (s.take (s.length - 1)).drop (i + (field s (s.length - 1) i).length + 1) =
      afterField ((s.take (s.length - 1)).drop i) := by
    intro i
    rw [← drop_field, List.drop_drop, field, Nat.add_assoc]
  have hdate : field s (s.length - 1) (h.i + 1) =
      ((s.take (s.length - 1)).drop (h.i + 1)).takeWhile (· != sep) := rfl
  have htime : field s (s.length - 1)
      (h.i + 1 + (field s (s.length - 1) (h.i + 1)).length + 1) =
        (afterField ((s.take (s.length - 1)).drop (h.i + 1))).takeWhile (· != sep) := by
    rw [field, hnext]
  have hsn : field s (s.length - 1)
      (h.i + 1 + (field s (s.length - 1) (h.i + 1)).length + 1 +
        (field s (s.length - 1)
          (h.i + 1 + (field s (s.length - 1) (h.i + 1)).length + 1)).length + 1) =
        (afterField (afterField ((s.take (s.length - 1)).drop (h.i + 1)))).takeWhile
          (· != sep) := by
    rw [field, hnext, hnext]
  rw [resolveTail, if_neg hids]
  simp only [buffered]
  rw [hsn, htime, hdate, readFields]
  by_cases hshort : ((afterField (afterField ((s.take (s.length - 1)).drop (h.i + 1)))).takeWhile
      (· != sep)).length < 20
  · simp only [hshort, if_true]
  · simp only [hshort, if_false]

namespace NonKVProtocol

/-! ### Keywords -/

/-- The keywords, in the order they are looked for. -/
inductive Keyword
  | response
  | finished
  | status
  | currentpos
  | focus
  deriving DecidableEq

/-- The line stands between its marks. -/
def Framed (s : Text) : Prop := "g#".toList <+: s ∧ "%".toList <:+ s

instance (s : Text) : Decidable (Framed s) := inferInstanceAs (Decidable (_ ∧ _))

/-- The first of the keywords that is in the line, and where. -/
def keywordOf (s : Text) : Option (Keyword × ℕ) :=
  if Framed s then
    ((findWord "Rec" s).map (Keyword.response, ·)).or
      (((findWord "finished" s).map (Keyword.finished, ·)).or
        (((findWord "status" s).map (Keyword.status, ·)).or
          (((findWord "currentpos" s).map (Keyword.currentpos, ·)).or
            ((findWord "focus" s).map (Keyword.focus, ·)))))
  else none

/-- The branch of a keyword. -/
def branch (s : Text) : Keyword × ℕ → Except NonKVFault (Option NonKVHead)
  | (.response, pos) => resolveRec s pos
  | (.finished, _) => .ok none
  | (.status, pos) => resolveState s (s.length - 1) pos
  | (.currentpos, pos) => resolvePos s (s.length - 1) pos
  | (.focus, pos) => resolveFocusLine s (s.length - 1) pos

theorem resolveHead_eq (s : Text) :
    resolveHead s = match keywordOf s with
      | some x => branch s x
      | none => .ok none := by
  rw [resolveHead, keywordOf]
  by_cases hframed : Framed s
  · have hmarks : ¬ ¬ ("g#".toList <+: s ∧ "%".toList <:+ s) := not_not_intro hframed
    rw [if_neg hmarks, if_pos hframed]
    cases findWord "Rec" s with
    | some pos => rfl
    | none =>
    cases findWord "finished" s with
    | some pos => rfl
    | none =>
    cases findWord "status" s with
    | some pos => rfl
    | none =>
    cases findWord "currentpos" s with
    | some pos => rfl
    | none => cases findWord "focus" s <;> rfl
  · have hmarks : ¬ ("g#".toList <+: s ∧ "%".toList <:+ s) := hframed
    rw [if_pos hmarks, if_neg hframed]

/-! ### Fields -/

/-- What is read from a place on: all but the last separator. -/
def behind (s : Text) (k : ℕ) : Text := (s.take (s.length - 1)).drop k

/-- The field of a text with that number. -/
def fieldAt (t : Text) (k : ℕ) : Text := (afterField^[k] t).takeWhile (· != sep)

theorem fieldAt_zero (t : Text) : fieldAt t 0 = t.takeWhile (· != sep) := rfl

theorem field_eq (s : Text) (k : ℕ) : field s (s.length - 1) k = fieldAt (behind s k) 0 := rfl

/-- Behind a field and its separator the next one begins. -/
theorem behind_field (s : Text) (k : ℕ) :
    behind s (k + (fieldAt (behind s k) 0).length + 1) = afterField (behind s k) := by
  rw [← drop_field, behind, behind, List.drop_drop, Nat.add_assoc]
  rfl

theorem fieldAt_succ (t : Text) (k : ℕ) : fieldAt t (k + 1) = fieldAt (afterField t) k := rfl

theorem readFields_eq (gid uid t : Text) (kind : NonKVKind) :
    readFields gid uid t kind =
      if (fieldAt t 2).length < 20 then
        if fieldAt t 2 = [] then .ok none
        else .ok (some ⟨gid, uid, fieldAt t 0 ++ 'T' :: fieldAt t 1, atoi (fieldAt t 2), kind⟩)
      else .error .overrun := rfl

/-- A message is read where the serial number is there and fits. -/
theorem readFields_eq_some_iff {gid uid t : Text} {kind : NonKVKind} {proto : NonKVMsg} :
    readFields gid uid t kind = .ok (some proto) ↔
      ((fieldAt t 2).length < 20 ∧ fieldAt t 2 ≠ []) ∧
        proto = ⟨gid, uid, fieldAt t 0 ++ 'T' :: fieldAt t 1, atoi (fieldAt t 2), kind⟩ := by
  rw [readFields_eq]
  by_cases hlen : (fieldAt t 2).length < 20
  · by_cases hne : fieldAt t 2 = []
    · simp [hne]
    · simp [hlen, hne, eq_comm]
  · simp [hlen]

section Guards

variable {p : Prop} [Decidable p] {r : Except NonKVFault (Option NonKVMsg)}

theorem guard_eq_some_iff {proto : NonKVMsg} :
    (if p then r else .ok none) = .ok (some proto) ↔ p ∧ r = .ok (some proto) := by
  by_cases hp : p <;> simp [hp]

theorem guard_eq_error_iff {e : NonKVFault} :
    (if p then r else .ok none) = .error e ↔ p ∧ r = .error e := by
  by_cases hp : p <;> simp [hp]

theorem array_eq_some_iff {e : NonKVFault} {proto : NonKVMsg} :
    (if p then r else .error e) = .ok (some proto) ↔ p ∧ r = .ok (some proto) := by
  by_cases hp : p <;> simp [hp]

theorem array_ne_error_iff {e : NonKVFault} :
    (if p then r else .error e) ≠ .error e ↔ p ∧ r ≠ .error e := by
  by_cases hp : p <;> simp [hp]

end Guards

/-- The common part, whatever the lengths of the ids. -/
theorem resolveTail_fields (s : Text) (h : NonKVHead) :
    resolveTail s h =
      if IdsFit h.gid h.uid then readFields h.gid h.uid (behind s (h.i + 1)) h.kind
      else .ok none := by
  by_cases hids : IdsFit h.gid h.uid
  · rw [if_pos hids, resolveTail_eq hids, behind]
  · rw [if_neg hids, resolveTail_of_not_idsFit hids]

/-! ### A line by its keyword -/

section Keyword

variable {s : Text} {k : Keyword} {pos : ℕ}

def Keyword.text : Keyword → Text
  | response => "Rec".toList
  | finished => "finished".toList
  | status => "status".toList
  | currentpos => "currentpos".toList
  | focus => "focus".toList

theorem framed_of_keywordOf (h : keywordOf s = some (k, pos)) : Framed s := by
  rw [keywordOf] at h
  split at h
  · next hframed => exact hframed
  · cases h

theorem find_of_findWord {w : String} (h : findWord w s = some pos) :
    find w.toList s = some pos := by
  obtain ⟨k, hk, hpos⟩ := Option.bind_eq_some_iff.mp h
  split at hpos
  · exact hpos ▸ hk
  · cases hpos

/-- The keyword stands where it is found. -/
theorem find_of_keywordOf (h : keywordOf s = some (k, pos)) : find k.text s = some pos := by
  rw [keywordOf, if_pos (framed_of_keywordOf h)] at h
  simp only [Option.or_eq_some_iff, Option.map_eq_some_iff, Prod.mk.injEq] at h
  obtain ⟨x, hx, rfl, rfl⟩ | ⟨-, ⟨x, hx, rfl, rfl⟩ | ⟨-, ⟨x, hx, rfl, rfl⟩ |
    ⟨-, ⟨x, hx, rfl, rfl⟩ | ⟨-, x, hx, rfl, rfl⟩⟩⟩⟩ := h <;> exact find_of_findWord hx

theorem pos_le_of_keywordOf (h : keywordOf s = some (k, pos)) : pos ≤ s.length := by
  have hfind := find_of_keywordOf h
  have hne : k.text ≠ [] := by cases k <;> exact List.cons_ne_nil _ _
  have hle := find_lt hne hfind
  omega

theorem resolve_of_keywordOf (h : keywordOf s = some (k, pos)) :
    NonKVProtocol.resolve s = match branch s (k, pos) with
      | .error e => .error e
      | .ok none => .ok none
      | .ok (some h) => resolveTail s h := by
  have hhead : resolveHead s = branch s (k, pos) := by
    rw [resolveHead_eq, h]
  rw [NonKVProtocol.resolve]
  exact hhead ▸ rfl

/-- Behind `Rec`, less a separator directly behind it. -/
def recText (s : Text) (pos : ℕ) : Text :=
  if (behind s (pos + 3)).head? = some sep then behind s (pos + 4) else behind s (pos + 3)

/-- `Rec` is not the end of the line. -/
theorem rec_lt (h : keywordOf s = some (.response, pos)) : pos + 3 < s.length := by
  obtain ⟨rest, hrest⟩ := prefix_of_find (find_of_keywordOf h)
  obtain ⟨front, hfront⟩ := (framed_of_keywordOf h).2
  have hne : rest ≠ [] := by
    rintro rfl
    have hs : s = s.take pos ++ ['R', 'e', 'c'] :=
      (List.take_append_drop pos s).symm.trans (congrArg (s.take pos ++ ·) hrest.symm)
    have hc : s.getLast? = some 'c' := by
      rw [hs, List.getLast?_append]
      rfl
    have hpercent : s.getLast? = some '%' := by
      rw [← hfront, List.getLast?_append]
      rfl
    rw [hc] at hpercent
    cases hpercent
  have hlen := congrArg List.length hrest
  have hpos := List.length_pos_iff.mpr hne
  rw [List.length_append, List.length_drop] at hlen
  have htext : Keyword.response.text.length = 3 := rfl
  omega

theorem head?_behind (s : Text) (k : ℕ) :
    (behind s k).head? = if k < s.length - 1 then s[k]? else none := by
  rw [behind, List.head?_drop, List.getElem?_take]

theorem behind_eq_nil {k : ℕ} (h : s.length - 1 ≤ k) : behind s k = [] := by
  apply List.drop_eq_nil_of_le
  rw [List.length_take]
  omega

/-- Where the branch of `Rec` stops. -/
theorem behind_rec {c : Char} (hc : s[pos + 3]? = some c) :
    behind s ((if c ≠ sep then pos + 2 else pos + 3) + 1) = recText s pos := by
  rw [recText, head?_behind, hc]
  by_cases hsep : c = sep
  · subst hsep
    rw [if_neg (not_not_intro rfl)]
    by_cases hend : pos + 3 < s.length - 1
    · rw [if_pos hend, if_pos rfl]
    · rw [if_neg hend, if_neg (by simp), behind_eq_nil (by omega), behind_eq_nil (by omega)]
  · have hhead : ¬ (if pos + 3 < s.length - 1 then some c else none) = some sep := by
      split
      · simpa using hsep
      · simp
    rw [if_pos hsep, if_neg hhead]

theorem resolve_response (h : keywordOf s = some (.response, pos)) :
    NonKVProtocol.resolve s =
      if 8 ≤ s.length then
        readFields ((s.drop 2).take 3) ((s.drop 5).take 3) (recText s pos) .response
      else .error .outOfRange := by
  obtain ⟨c, hat⟩ : ∃ c, s[pos + 3]? = some c := ⟨_, List.getElem?_eq_getElem (rec_lt h)⟩
  rw [resolve_of_keywordOf h, branch, resolveRec]
  by_cases hlen : 8 ≤ s.length
  · have hgid : slice s 2 3 = .ok ((s.drop 2).take 3) := if_pos (by omega)
    have huid : slice s 5 3 = .ok ((s.drop 5).take 3) := if_pos (by omega)
    have hids : IdsFit ((s.drop 2).take 3) ((s.drop 5).take 3) := by
      rw [IdsFit, List.length_take, List.length_take, List.length_drop, List.length_drop]
      omega
    rw [if_pos hlen, hgid, huid]
    simp only [hat]
    show resolveTail s _ = _
    rw [resolveTail_fields, if_pos hids, behind_rec hat]
  · have huid : slice s 5 3 = .error .outOfRange := if_neg (by omega)
    rw [if_neg hlen, huid]
    by_cases hgid : 2 + 3 ≤ s.length
    · rw [slice, if_pos hgid]
      rfl
    · rw [slice, if_neg hgid]
      rfl

/-- The group in front of `status`. -/
theorem idsFit_status (h : keywordOf s = some (.status, pos)) :
    IdsFit ((s.take pos).drop 2) [] ↔ pos = 5 := by
  have hle := pos_le_of_keywordOf h
  simp only [IdsFit, List.length_drop, List.length_take, true_or, and_true]
  omega

/-- Group and unit in front of `currentpos` or `focus`. -/
theorem idsFit_before (h : pos ≤ s.length) :
    IdsFit (idsBefore s pos).1 (idsBefore s pos).2 ↔ pos = 8 := by
  simp only [IdsFit, idsBefore, List.length_drop, List.length_take, ← List.length_eq_zero_iff]
  omega

theorem resolve_status (h : keywordOf s = some (.status, pos)) :
    NonKVProtocol.resolve s =
      if (fieldAt (behind s (pos + 6)) 0).length ≤ 20 then
        if pos = 5 then
          readFields ((s.take pos).drop 2) [] (afterField (behind s (pos + 6)))
            (.status ((fieldAt (behind s (pos + 6)) 0).map stateOf))
        else .ok none
      else .error .overrun := by
  rw [resolve_of_keywordOf h, branch, resolveState, field_eq]
  by_cases hlen : (fieldAt (behind s (pos + 6)) 0).length ≤ 20
  · rw [if_pos hlen, if_pos hlen]
    show resolveTail s _ = _
    rw [resolveTail_fields, behind_field]
    exact if_congr (idsFit_status h) rfl rfl
  · rw [if_neg hlen, if_neg hlen]

theorem buffered_eq (s : Text) (k : ℕ) :
    buffered s (s.length - 1) k =
      if (fieldAt (behind s k) 0).length < 20 then .ok (fieldAt (behind s k) 0)
      else .error .overrun := by
  rw [buffered, field_eq]

theorem resolvePos_eq (s : Text) (pos : ℕ) :
    resolvePos s (s.length - 1) pos =
      if (fieldAt (behind s (pos + 10)) 0).length < 20 ∧
          (fieldAt (behind s (pos + 10)) 1).length < 20 then
        if fieldAt (behind s (pos + 10)) 0 ≠ [] ∧ fieldAt (behind s (pos + 10)) 1 ≠ [] then
          .ok (some ⟨(idsBefore s pos).1, (idsBefore s pos).2,
            .position
              ⟨(Double.ofInt (atoi (fieldAt (behind s (pos + 10)) 0))).scale (1 / 10000),
                (Double.ofInt (atoi (fieldAt (behind s (pos + 10)) 1))).scale (1 / 10000)⟩,
            pos + 10 + (fieldAt (behind s (pos + 10)) 0).length + 1 +
              (fieldAt (behind s (pos + 10)) 1).length⟩)
        else .ok none
      else .error .overrun := by
  have hnext : behind s (pos + 10 + (fieldAt (behind s (pos + 10)) 0).length + 1) =
      afterField (behind s (pos + 10)) := behind_field s (pos + 10)
  rw [resolvePos, buffered_eq]
  by_cases hra : (fieldAt (behind s (pos + 10)) 0).length < 20
  · rw [if_pos hra]
    show (buffered s (s.length - 1)
      (pos + 10 + (fieldAt (behind s (pos + 10)) 0).length + 1) >>= _) = _
    rw [buffered_eq, hnext, ← fieldAt_succ]
    by_cases hdec : (fieldAt (behind s (pos + 10)) 1).length < 20
    · rw [if_pos hdec, if_pos ⟨hra, hdec⟩]
      rfl
    · rw [if_neg hdec, if_neg fun h => hdec h.2]
      rfl
  · rw [if_neg hra, if_neg fun h => hra h.1]
    rfl

theorem resolve_currentpos (h : keywordOf s = some (.currentpos, pos)) :
    NonKVProtocol.resolve s =
      if (fieldAt (behind s (pos + 10)) 0).length < 20 ∧
          (fieldAt (behind s (pos + 10)) 1).length < 20 then
        if (fieldAt (behind s (pos + 10)) 0 ≠ [] ∧ fieldAt (behind s (pos + 10)) 1 ≠ []) ∧
            pos = 8 then
          readFields (idsBefore s pos).1 (idsBefore s pos).2
            (afterField (afterField (behind s (pos + 10))))
            (.position
              ⟨(Double.ofInt (atoi (fieldAt (behind s (pos + 10)) 0))).scale (1 / 10000),
                (Double.ofInt (atoi (fieldAt (behind s (pos + 10)) 1))).scale (1 / 10000)⟩)
        else .ok none
      else .error .overrun := by
  have hids := idsFit_before (pos_le_of_keywordOf h)
  have hdec : behind s (pos + 10 + (fieldAt (behind s (pos + 10)) 0).length + 1 +
      (fieldAt (behind s (pos + 10)) 1).length + 1) =
        afterField (afterField (behind s (pos + 10))) := by
    rw [fieldAt_succ, ← behind_field s (pos + 10)]
    exact behind_field s _
  rw [resolve_of_keywordOf h, branch, resolvePos_eq]
  by_cases hlen : (fieldAt (behind s (pos + 10)) 0).length < 20 ∧
      (fieldAt (behind s (pos + 10)) 1).length < 20
  · rw [if_pos hlen, if_pos hlen]
    by_cases hne : fieldAt (behind s (pos + 10)) 0 ≠ [] ∧ fieldAt (behind s (pos + 10)) 1 ≠ []
    · rw [if_pos hne]
      show resolveTail s _ = _
      rw [resolveTail_fields, hdec]
      exact if_congr (hids.trans (and_iff_right hne).symm) rfl rfl
    · rw [if_neg hne, if_neg fun h => hne h.1]
  · rw [if_neg hlen, if_neg hlen]

end Keyword

end NonKVProtocol

end Gtoaes
