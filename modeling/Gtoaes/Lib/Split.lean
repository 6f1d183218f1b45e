import Gtoaes.Lib.Text

/-!
Cutting a text at its separators undoes putting it together from pieces that
have none.
-/

namespace Gtoaes.Lib

/-- No character of the text is a separator. -/
def Free (sep : Char → Bool) (t : Text) : Prop := ∀ c ∈ t, sep c = false

instance (sep : Char → Bool) (t : Text) : Decidable (Free sep t) :=
  List.decidableBAll (fun c => sep c = false) t

section

variable {sep : Char → Bool}

@[simp] theorem free_nil : Free sep [] := by simp [Free]

@[simp] theorem free_cons (c : Char) (t : Text) :
    Free sep (c :: t) ↔ sep c = false ∧ Free sep t := by
  simp [Free]

@[simp] theorem free_append (a b : Text) : Free sep (a ++ b) ↔ Free sep a ∧ Free sep b := by
  simp [Free, or_imp, forall_and]

theorem Free.mono {a b : Text} (h : Free sep b) (hsub : ∀ c ∈ a, c ∈ b) : Free sep a :=
  fun c hc => h c (hsub c hc)

/-! ### Runs of separators -/

theorem squeeze_cons_cons (c d : Char) (t : Text) :
    squeeze sep (c :: d :: t) =
      if sep c && sep d then squeeze sep (d :: t) else c :: squeeze sep (d :: t) := rfl

theorem squeeze_cons_of_free {c : Char} (hc : sep c = false) (t : Text) :
    squeeze sep (c :: t) = c :: squeeze sep t := by
  cases t with
  | nil => rfl
  | cons d t => exact if_neg (by simp [hc])

theorem squeeze_append_of_free {a : Text} (ha : Free sep a) (t : Text) :
    squeeze sep (a ++ t) = a ++ squeeze sep t := by
  induction a with
  | nil => rfl
  | cons c a ih =>
      obtain ⟨hc, hrest⟩ := (free_cons c a).mp ha
      rw [List.cons_append, squeeze_cons_of_free hc, ih hrest, List.cons_append]

/-- The text does not open with a separator. -/
def NotOpening (sep : Char → Bool) (t : Text) : Prop := ∀ c, t.head? = some c → sep c = false

theorem squeeze_cons_of_notOpening {t : Text} (ht : NotOpening sep t) (s : Char) :
    squeeze sep (s :: t) = s :: squeeze sep t := by
  cases t with
  | nil => rfl
  | cons d t =>
      have hd : sep d = false := ht d rfl
      exact if_neg (by simp [hd])

/-! ### Pieces -/

theorem pieces_cons_of_sep {c : Char} (hc : sep c = true) (t : Text) :
    pieces sep (c :: t) = [] :: pieces sep t := if_pos hc

/-- Any other character goes in front of the first piece. -/
theorem pieces_cons_of_free {c : Char} (hc : sep c = false) {t p : Text} {ps : List Text}
    (ht : pieces sep t = p :: ps) : pieces sep (c :: t) = (c :: p) :: ps := by
  have hfree : ¬ sep c = true := by simp [hc]
  rw [show pieces sep (c :: t) = _ from if_neg hfree, ht]

theorem exists_piece (t : Text) : ∃ p ps, pieces sep t = p :: ps := by
  induction t with
  | nil => exact ⟨[], [], rfl⟩
  | cons c t ih =>
      obtain ⟨p, ps, ht⟩ := ih
      cases hc : sep c with
      | true => exact ⟨[], _, pieces_cons_of_sep hc t⟩
      | false => exact ⟨c :: p, ps, pieces_cons_of_free hc ht⟩

theorem pieces_ne_nil (t : Text) : pieces sep t ≠ [] := by
  obtain ⟨p, ps, ht⟩ : ∃ p ps, pieces sep t = p :: ps := exists_piece t
  rw [ht]
  exact List.cons_ne_nil p ps

theorem pieces_of_free {a : Text} (ha : Free sep a) : pieces sep a = [a] := by
  induction a with
  | nil => rfl
  | cons c a ih =>
      obtain ⟨hc, hrest⟩ := (free_cons c a).mp ha
      exact pieces_cons_of_free hc (ih hrest)

theorem pieces_append_cons {a : Text} (ha : Free sep a) {s : Char} (hs : sep s = true) (t : Text) :
    pieces sep (a ++ s :: t) = a :: pieces sep t := by
  induction a with
  | nil => exact pieces_cons_of_sep hs t
  | cons c a ih =>
      obtain ⟨hc, hrest⟩ := (free_cons c a).mp ha
      exact pieces_cons_of_free hc (ih hrest)

/-- A piece of a longer text is that of the rest, with a character more where it is the
first one. -/
theorem mem_pieces_cons {c : Char} {t p : Text} (hp : p ∈ pieces sep (c :: t)) :
    p ∈ pieces sep t ∨ p = [] ∨ sep c = false ∧ ∃ q ∈ pieces sep t, p = c :: q := by
  cases hc : sep c with
  | true =>
      rw [pieces_cons_of_sep hc, List.mem_cons] at hp
      rcases hp with rfl | hp
      · exact .inr (.inl rfl)
      · exact .inl hp
  | false =>
      obtain ⟨q, qs, ht⟩ : ∃ q qs, pieces sep t = q :: qs := exists_piece t
      rw [pieces_cons_of_free hc ht, List.mem_cons] at hp
      rw [ht]
      rcases hp with rfl | hp
      · exact .inr (.inr ⟨rfl, q, List.mem_cons_self, rfl⟩)
      · exact .inl (List.mem_cons_of_mem q hp)

theorem free_of_mem_pieces {t p : Text} (hp : p ∈ pieces sep t) : Free sep p := by
  induction t generalizing p with
  | nil =>
      obtain rfl := List.mem_singleton.mp hp
      exact free_nil
  | cons c t ih =>
      rcases mem_pieces_cons hp with hp | rfl | ⟨hc, q, hq, rfl⟩
      · exact ih hp
      · exact free_nil
      · exact (free_cons c q).mpr ⟨hc, ih hq⟩

theorem mem_of_mem_pieces {t p : Text} (hp : p ∈ pieces sep t) : ∀ c ∈ p, c ∈ t := by
  induction t generalizing p with
  | nil =>
      obtain rfl := List.mem_singleton.mp hp
      exact nofun
  | cons c t ih =>
      intro d hd
      rcases mem_pieces_cons hp with hp | rfl | ⟨-, q, hq, rfl⟩
      · exact List.mem_cons_of_mem c (ih hp d hd)
      · cases hd
      · rcases List.mem_cons.mp hd with rfl | hd
        · exact List.mem_cons_self
        · exact List.mem_cons_of_mem c (ih hq d hd)

theorem mem_of_mem_squeeze {t : Text} {c : Char} (hc : c ∈ squeeze sep t) : c ∈ t := by
  induction t using squeeze.induct sep with
  | case1 => exact hc
  | case2 d => exact hc
  | case3 d e t hsep ih =>
      rw [squeeze_cons_cons, if_pos hsep] at hc
      exact List.mem_cons_of_mem d (ih hc)
  | case4 d e t hsep ih =>
      rw [squeeze_cons_cons, if_neg hsep, List.mem_cons] at hc
      obtain rfl | hc := hc
      · exact List.mem_cons_self
      · exact List.mem_cons_of_mem d (ih hc)

/-! ### Cutting -/

theorem split_of_free {a : Text} (ha : Free sep a) : split sep a = [a] := by
  have hsqueeze : squeeze sep a = a := by
    have h := squeeze_append_of_free ha []
    rwa [List.append_nil, show squeeze sep [] = [] from rfl, List.append_nil] at h
  rw [split, hsqueeze, pieces_of_free ha]

theorem split_append_cons {a : Text} (ha : Free sep a) {s : Char} (hs : sep s = true) {t : Text}
    (ht : NotOpening sep t) : split sep (a ++ s :: t) = a :: split sep t := by
  rw [split, squeeze_append_of_free ha, squeeze_cons_of_notOpening ht, pieces_append_cons ha hs,
    split]

theorem free_of_mem_split {t p : Text} (hp : p ∈ split sep t) : Free sep p :=
  free_of_mem_pieces hp

theorem mem_of_mem_split {t p : Text} (hp : p ∈ split sep t) : ∀ c ∈ p, c ∈ t :=
  fun c hc => mem_of_mem_squeeze (mem_of_mem_pieces hp c hc)

/-- Pieces each closed by a separator come back one by one; behind the last
separator there is an empty piece. -/
theorem split_closed {s : Char} (hs : sep s = true) {ps : List Text}
    (hps : ∀ p ∈ ps, p ≠ [] ∧ Free sep p) :
    split sep (ps.flatMap fun p => p ++ [s]) = ps ++ [[]] := by
  induction ps with
  | nil => rfl
  | cons p ps ih =>
      have hrest : ∀ q ∈ ps, q ≠ [] ∧ Free sep q := fun q hq => hps q (by simp [hq])
      have hopen : NotOpening sep (ps.flatMap fun p => p ++ [s]) := by
        intro c hc
        cases ps with
        | nil => cases hc
        | cons q qs =>
            obtain ⟨hne, hfree⟩ := hrest q (by simp)
            obtain ⟨d, q, rfl⟩ := List.exists_cons_of_ne_nil hne
            obtain rfl : d = c := by simpa using hc
            exact ((free_cons d q).mp hfree).1
      have hhead : ((p :: ps).flatMap fun p => p ++ [s]) =
          p ++ s :: ps.flatMap fun p => p ++ [s] := by simp
      rw [hhead, split_append_cons (hps p (by simp)).2 hs hopen, ih hrest, List.cons_append]

end

/-! ### White space at the ends -/

theorem mem_of_mem_trim {t : Text} {c : Char} (hc : c ∈ trim t) : c ∈ t := by
  rw [trim, List.mem_reverse] at hc
  have hback := List.dropWhile_sublist isSpace |>.subset hc
  exact (List.dropWhile_sublist isSpace).subset (List.mem_reverse.mp hback)

theorem dropWhile_dropWhile_self {α : Type} (p : α → Bool) (l : List α) :
    (l.dropWhile p).dropWhile p = l.dropWhile p := by
  cases h : l.dropWhile p with
  | nil => rfl
  | cons a as =>
      have ha : p a = false := by
        have hhead := List.head?_dropWhile_not p l
        simpa [h] using hhead
      simp [ha]

/-- The first character that is kept stays first when the end is cut. -/
theorem dropWhile_reverse_dropWhile {l : Text} (h : l.dropWhile isSpace = l) :
    ((l.reverse.dropWhile isSpace).reverse).dropWhile isSpace =
      (l.reverse.dropWhile isSpace).reverse := by
  cases l with
  | nil => rfl
  | cons a as =>
      have ha : isSpace a = false := by
        cases hs : isSpace a with
        | false => rfl
        | true =>
            rw [List.dropWhile_cons_of_pos hs] at h
            have hlen := congrArg List.length h
            have hle := (List.dropWhile_sublist isSpace (l := as)).length_le
            simp only [List.length_cons] at hlen
            omega
      have hkeep : (as.reverse ++ [a]).dropWhile isSpace =
          as.reverse.dropWhile isSpace ++ [a] := by
        rw [List.dropWhile_append]
        split
        · rename_i hall
          rw [List.isEmpty_iff] at hall
          simp [hall, ha]
        · rfl
      rw [List.reverse_cons, hkeep, List.reverse_append, List.reverse_singleton,
        List.singleton_append, List.dropWhile_cons_of_neg (by simp [ha])]

theorem trim_trim (t : Text) : trim (trim t) = trim t := by
  have hfront : (trim t).dropWhile isSpace = trim t := by
    rw [trim]
    exact dropWhile_reverse_dropWhile (dropWhile_dropWhile_self isSpace t)
  have hback : (trim t).reverse.dropWhile isSpace = (trim t).reverse := by
    rw [trim, List.reverse_reverse]
    exact dropWhile_dropWhile_self isSpace _
  calc
    trim (trim t) = (((trim t).dropWhile isSpace).reverse.dropWhile isSpace).reverse := rfl
    _ = trim t := by rw [hfront, hback, List.reverse_reverse]

/-- A text without white space has none to lose. -/
theorem trim_of_free {t : Text} (h : Free isSpace t) : trim t = t := by
  have hnone : ∀ {l : Text}, (∀ c ∈ l, isSpace c = false) → l.dropWhile isSpace = l := by
    intro l hl
    cases l with
    | nil => rfl
    | cons a as => simp [hl a (by simp)]
  rw [trim, hnone h, hnone fun c hc => h c (List.mem_reverse.mp hc), List.reverse_reverse]

end Gtoaes.Lib
