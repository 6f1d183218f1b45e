import Mathlib
import Gtoaes.Lib.Split

/-!
What does not depend on how a text is spelled: tests of characters that are no letters
do not see the letter case, trimming does not see white space at the ends, and a reader
of pieces that takes nothing from an empty piece does not see runs of separators.
-/

namespace Gtoaes.Lib

/-! ### Letter case -/

/-- A test that no letter passes does not see the case. -/
theorem apply_toUpper {p : Char → Bool} (hp : ∀ c : Char, c.isAlpha = true → p c = false) (c : Char) :
    p c.toUpper = p c := by
  cases halpha : c.isAlpha with
  | true => rw [hp c halpha, hp c.toUpper (by rwa [Char.isAlpha_toUpper_eq_isAlpha])]
  | false =>
      have hlower : ¬ c.isLower = true := by
        rw [Char.isAlpha, Bool.or_eq_false_iff] at halpha
        simp [halpha.2]
      rw [Char.toUpper_eq_of_not_isLower hlower]

theorem beq_of_isAlpha {s : Char} (hs : s.isAlpha = false) (c : Char) (hc : c.isAlpha = true) :
    (c == s) = false := by
  rw [beq_eq_false_iff_ne]
  rintro rfl
  rw [hs] at hc
  cases hc

theorem isAlpha_iff_toNat (c : Char) : c.isAlpha = true ↔
    (65 ≤ c.toNat ∧ c.toNat ≤ 90) ∨ (97 ≤ c.toNat ∧ c.toNat ≤ 122) := by
  simp only [Char.isAlpha, Char.isUpper, Char.isLower, Bool.or_eq_true, Bool.and_eq_true,
    decide_eq_true_eq, UInt32.le_iff_toNat_le]
  rfl

theorem isSpace_of_isAlpha (c : Char) (hc : c.isAlpha = true) : isSpace c = false := by
  by_contra h
  rw [Bool.not_eq_false, isSpace, Bool.or_eq_true, Bool.and_eq_true] at h
  have hspace : c.toNat = 32 ∨ (9 ≤ c.toNat ∧ c.toNat ≤ 13) := by
    rcases h with h | ⟨hlow, hhigh⟩
    · rw [beq_iff_eq] at h
      exact .inl (by rw [h]; rfl)
    · exact .inr ⟨of_decide_eq_true hlow, of_decide_eq_true hhigh⟩
  rw [isAlpha_iff_toNat] at hc
  omega

theorem Free.of_iequals {sep : Char → Bool} (hsep : ∀ c, c.isAlpha = true → sep c = false) {a b : Text}
    (h : iequals a b = true) (hb : Free sep b) : Free sep a := by
  intro c hc
  have hmem : c.toUpper ∈ b.map Char.toUpper := iequals_iff.mp h ▸ List.mem_map_of_mem hc
  obtain ⟨d, hd, hupper⟩ := List.mem_map.mp hmem
  rw [← apply_toUpper hsep, ← hupper, apply_toUpper hsep]
  exact hb d hd

theorem upper_trim (t : Text) : upper (trim t) = trim (upper t) := by
  have hdrop : ∀ t : Text, upper (t.dropWhile isSpace) = (upper t).dropWhile isSpace := by
    intro t
    have hcase : isSpace ∘ Char.toUpper = isSpace := funext (apply_toUpper isSpace_of_isAlpha)
    rw [upper, upper, List.dropWhile_map, hcase]
  have hreverse : ∀ t : Text, upper t.reverse = (upper t).reverse := fun t => List.map_reverse
  rw [trim, trim, hreverse, hdrop, hreverse, hdrop]

theorem iequals_trim {a b : Text} (h : iequals a b = true) : iequals (trim a) (trim b) = true := by
  rw [iequals_iff_upper] at h ⊢
  rw [upper_trim, upper_trim, h]

/-! ### White space -/

/-- White space and nothing else. -/
def Blank (t : Text) : Prop := ∀ c ∈ t, isSpace c = true

instance (t : Text) : Decidable (Blank t) := List.decidableBAll (fun c => isSpace c = true) t

theorem Blank.free {sep : Char → Bool} (hsep : ∀ c, isSpace c = true → sep c = false) {t : Text}
    (h : Blank t) : Free sep t := fun c hc => hsep c (h c hc)

theorem Blank.dropWhile_append {t : Text} (h : Blank t) (u : Text) :
    (t ++ u).dropWhile isSpace = u.dropWhile isSpace :=
  List.dropWhile_append_of_pos h

/-- A run ends before the first that fails the test. -/
theorem dropWhile_append_stop {p : Char → Bool} {a b : Text} (ha : ∀ c ∈ a, p c = true)
    (hb : ∀ c, b.head? = some c → p c = false) : (a ++ b).dropWhile p = b := by
  rw [List.dropWhile_append_of_pos ha]
  cases b with
  | nil => rfl
  | cons c b => rw [List.dropWhile_cons_of_neg (by simp [hb c rfl])]

theorem trim_append_blank {a b : Text} (ha : Blank a) (hb : Blank b) (t : Text) :
    trim (a ++ t ++ b) = trim t := by
  rw [trim, trim, List.append_assoc, ha.dropWhile_append, List.dropWhile_append]
  split
  · rename_i hall
    rw [List.isEmpty_iff] at hall
    have hdrop := hb.dropWhile_append []
    rw [List.append_nil] at hdrop
    rw [hall, hdrop]
    rfl
  · have hreverse : Blank b.reverse := fun c hc => hb c (List.mem_reverse.mp hc)
    rw [List.reverse_append, hreverse.dropWhile_append]

/-! ### Pieces -/

section

variable {sep : Char → Bool} {β : Type*} {f : Text → Option β}

theorem pieces_cons_of_not {c : Char} (hc : sep c = false) (t : Text) :
    ∃ p ps, pieces sep t = p :: ps ∧ pieces sep (c :: t) = (c :: p) :: ps := by
  obtain ⟨p, ps, htail⟩ : ∃ p ps, pieces sep t = p :: ps := exists_piece t
  exact ⟨p, ps, htail, pieces_cons_of_free hc htail⟩

/-- Runs of separators make empty pieces. -/
theorem filterMap_split (hf : f [] = none) (t : Text) :
    (split sep t).filterMap f = (pieces sep t).filterMap f := by
  -- the first piece stays what it is
  have hpieces : ∃ p ps qs, pieces sep (squeeze sep t) = p :: ps ∧ pieces sep t = p :: qs ∧
      ps.filterMap f = qs.filterMap f := by
    induction t using squeeze.induct sep with
    | case1 => exact ⟨[], [], [], rfl, rfl, rfl⟩
    | case2 c =>
        obtain ⟨p, ps, h⟩ := List.exists_cons_of_ne_nil (@pieces_ne_nil sep [c])
        exact ⟨p, ps, ps, h, h, rfl⟩
    | case3 c d t hsep ih =>
        obtain ⟨p, ps, qs, hsqueezed, hpieces, hrest⟩ := ih
        rw [Bool.and_eq_true] at hsep
        have hempty : p = [] := by
          rw [pieces, if_pos hsep.2] at hpieces
          exact (List.cons.inj hpieces).1.symm
        refine ⟨[], ps, p :: qs, ?_, ?_, ?_⟩
        · rw [squeeze, if_pos (by simp [hsep]), hsqueezed, hempty]
        · rw [pieces, if_pos hsep.1, hpieces]
        · rw [hrest, hempty, List.filterMap_cons, hf]
    | case4 c d t hsep ih =>
        obtain ⟨p, ps, qs, hsqueezed, hpieces, hrest⟩ := ih
        rw [squeeze, if_neg hsep]
        cases hc : sep c with
        | true =>
            refine ⟨[], p :: ps, p :: qs, ?_, ?_, ?_⟩
            · rw [pieces, if_pos hc, hsqueezed]
            · rw [pieces, if_pos hc, hpieces]
            · rw [List.filterMap_cons, List.filterMap_cons, hrest]
        | false =>
            refine ⟨c :: p, ps, qs, ?_, ?_, hrest⟩
            · simp [pieces, hc, hsqueezed]
            · simp only [pieces, hc, Bool.false_eq_true, if_false] at hpieces ⊢
              rw [hpieces]
  obtain ⟨p, ps, qs, hsqueezed, hpieces, hrest⟩ := hpieces
  rw [split, hsqueezed, hpieces, List.filterMap_cons, List.filterMap_cons, hrest]

/-- Cells joined by separators come back. -/
theorem pieces_intercalate {s : Char} (hs : sep s = true) {cells : List Text}
    (hcells : ∀ cell ∈ cells, Free sep cell) (hne : cells ≠ []) :
    pieces sep ([s].intercalate cells) = cells := by
  induction cells with
  | nil => exact absurd rfl hne
  | cons cell cells ih =>
      obtain ⟨hcell, hrest⟩ := List.forall_mem_cons.mp hcells
      cases cells with
      | nil => rw [List.intercalate_singleton, pieces_of_free hcell]
      | cons cell' cells =>
          rw [List.intercalate_cons_cons, List.append_assoc, List.singleton_append,
            pieces_append_cons hcell hs, ih hrest (List.cons_ne_nil _ _)]

/-- What the reader does not see at the head of a piece may be dropped in front. -/
theorem filterMap_pieces_dropWhile {p : Char → Bool} (hp : ∀ c, p c = true → sep c = false)
    (hf : ∀ c t, p c = true → f (c :: t) = f t) (t : Text) :
    (pieces sep (t.dropWhile p)).filterMap f = (pieces sep t).filterMap f := by
  induction t with
  | nil => rfl
  | cons c t ih =>
      rw [List.dropWhile_cons]
      split
      · rename_i hc
        obtain ⟨q, qs, hpieces, hcons⟩ := pieces_cons_of_not (hp c hc) t
        rw [ih, hpieces, hcons, List.filterMap_cons, List.filterMap_cons, hf c q hc]
      · rfl

end

end Gtoaes.Lib
