import Mathlib.Data.List.Nodup

/-!
Updating the first element of a list that meets a test, as a loop with a
`break` does, and what that does to counts.
-/

namespace Gtoaes.Lib

variable {α β : Type*}

/-- `f` applied to the first element that meets `p`. -/
def updateFirst (p : α → Bool) (f : α → α) : List α → List α
  | [] => []
  | a :: l => if p a then f a :: l else a :: updateFirst p f l

theorem updateFirst_of_find?_none {p : α → Bool} {l : List α} (h : l.find? p = none)
    (f : α → α) : updateFirst p f l = l := by
  induction l with
  | nil => rfl
  | cons a l ih =>
      rw [List.find?_cons] at h
      cases hp : p a <;> simp_all [updateFirst]

/-- A view that `f` keeps is kept along the whole list. -/
theorem map_updateFirst {v : α → β} {f : α → α} (hf : ∀ a, v (f a) = v a) (p : α → Bool)
    (l : List α) : (updateFirst p f l).map v = l.map v := by
  induction l with
  | nil => rfl
  | cons a l ih =>
      simp only [updateFirst]
      split
      · simp [hf]
      · simp [ih]

/-- A view of the whole list is kept just where `f` keeps it of the element
found. -/
theorem map_updateFirst_iff {v : α → β} {f : α → α} {p : α → Bool} {l : List α} :
    (updateFirst p f l).map v = l.map v ↔ ∀ a, l.find? p = some a → v (f a) = v a := by
  induction l with
  | nil => simp [updateFirst]
  | cons a l ih =>
      rw [updateFirst, List.find?_cons]
      cases hp : p a with
      | true =>
          rw [if_pos rfl, List.map_cons, List.map_cons]
          constructor
          · rintro h _ ⟨⟩
            exact (List.cons.inj h).1
          · intro h
            rw [h a rfl]
      | false =>
          rw [if_neg Bool.false_ne_true, List.map_cons, List.map_cons, List.cons_inj_right]
          exact ih

/-- Around the element found, everything stays. -/
theorem updateFirst_of_find? {f : α → α} {p : α → Bool} {l : List α} {a : α}
    (h : l.find? p = some a) :
    ∃ as bs, l = as ++ a :: bs ∧ updateFirst p f l = as ++ f a :: bs := by
  induction l with
  | nil => cases h
  | cons b l ih =>
      rw [List.find?_cons] at h
      rw [updateFirst]
      cases hp : p b with
      | true =>
          obtain rfl : b = a := by simpa [hp] using h
          exact ⟨[], l, rfl, rfl⟩
      | false =>
          obtain ⟨as, bs, hl, hu⟩ := ih (by simpa [hp] using h)
          refine ⟨b :: as, bs, by rw [hl, List.cons_append], ?_⟩
          rw [if_neg Bool.false_ne_true, hu, List.cons_append]

/-- `b` put in the place of a second list at which the first one's first element
that meets `p` stands. -/
def setFirst (p : α → Bool) (b : β) : List α → List β → List β
  | a :: l, c :: m => if p a then b :: m else c :: setFirst p b l m
  | _, m => m

/-- What is put in the place of an equal leaves the list equal. -/
theorem map_setFirst {γ : Type*} {v : α → γ} {w : β → γ} {p : α → Bool} {b : β} {l : List α}
    {m : List β} (hlm : l.map v = m.map w) (hb : ∀ a, l.find? p = some a → v a = w b) :
    (setFirst p b l m).map w = m.map w := by
  induction l generalizing m with
  | nil => rfl
  | cons a l ih =>
      cases m with
      | nil => cases hlm
      | cons c m =>
          obtain ⟨hac, hlm⟩ := List.cons.inj hlm
          rw [List.find?_cons] at hb
          rw [setFirst]
          cases hp : p a with
          | true =>
              rw [hp] at hb
              rw [if_pos rfl, List.map_cons, List.map_cons, ← hb a rfl, hac]
          | false =>
              rw [hp] at hb
              rw [if_neg Bool.false_ne_true, List.map_cons, List.map_cons, ih hlm hb]

/-- Where the view tells the elements apart, a search by the view finds the one
that has it. -/
theorem find?_of_nodup {v : α → β} {p : α → Bool} {l : List α} {a : α} (hnodup : (l.map v).Nodup)
    (ha : a ∈ l) (hp : ∀ b, p b = true ↔ v b = v a) : l.find? p = some a := by
  cases hfind : l.find? p with
  | none => exact absurd ((hp a).mpr rfl) (List.find?_eq_none.mp hfind a ha)
  | some b =>
      have hb : v b = v a := (hp b).mp (List.find?_some hfind)
      rw [List.inj_on_of_nodup_map hnodup (List.mem_of_find?_eq_some hfind) ha hb]

/-- What the elements of a list stand for, each stands for in one place. -/
theorem index_unique {f : α → Option β} {l : List α} (hnodup : (l.filterMap f).Nodup) {i j : ℕ}
    {a b : α} {c : β} (hi : l[i]? = some a) (hj : l[j]? = some b) (ha : f a = some c)
    (hb : f b = some c) : i = j := by
  have hpair := List.pairwise_iff_getElem.mp (List.pairwise_filterMap.mp hnodup)
  obtain ⟨hilt, rfl⟩ := List.getElem?_eq_some_iff.mp hi
  obtain ⟨hjlt, rfl⟩ := List.getElem?_eq_some_iff.mp hj
  rcases Nat.lt_trichotomy i j with hlt | heq | hlt
  · exact absurd rfl (hpair i j hilt hjlt hlt c ha c hb)
  · exact heq
  · exact absurd rfl (hpair j i hjlt hilt hlt c hb c ha)

/-- The element found is the one at the place found. -/
theorem find?_of_findIdx? {p : α → Bool} {l : List α} {i : ℕ} (h : l.findIdx? p = some i) :
    l.find? p = l[i]? := by
  induction l generalizing i with
  | nil => cases h
  | cons a l ih =>
      rw [List.findIdx?_cons] at h
      rw [List.find?_cons]
      cases hp : p a with
      | true =>
          rw [hp] at h
          obtain rfl := Option.some.inj h
          rfl
      | false =>
          rw [hp] at h
          obtain ⟨j, hj, rfl⟩ := Option.map_eq_some_iff.mp h
          exact ih hj

/-- Only the place found is written to. -/
theorem getElem?_updateFirst (p : α → Bool) (f : α → α) (l : List α) (i : ℕ) :
    (updateFirst p f l)[i]? = if l.findIdx? p = some i then l[i]?.map f else l[i]? := by
  induction l generalizing i with
  | nil => rfl
  | cons a l ih =>
      rw [updateFirst, List.findIdx?_cons]
      cases hp : p a with
      | true =>
          cases i with
          | zero => rfl
          | succ i => simp
      | false =>
          cases i with
          | zero => simp
          | succ i => simp [ih]

/-- The element found is in the list as `f` leaves it. -/
theorem mem_updateFirst_of_find? {p : α → Bool} {l : List α} {a : α} (h : l.find? p = some a)
    (f : α → α) : f a ∈ updateFirst p f l := by
  induction l with
  | nil => simp at h
  | cons b l ih =>
      rw [List.find?_cons] at h
      cases hp : p b
      · rw [hp] at h
        simp [updateFirst, hp, ih h]
      · rw [hp] at h
        obtain rfl := Option.some.inj h
        simp [updateFirst, hp]

/-- The count of `q` loses the element found and gains its image. -/
theorem countP_updateFirst {p : α → Bool} {l : List α} {a : α} (h : l.find? p = some a)
    (f : α → α) (q : α → Bool) :
    (updateFirst p f l).countP q + (if q a then 1 else 0) =
      l.countP q + (if q (f a) then 1 else 0) := by
  induction l with
  | nil => simp at h
  | cons b l ih =>
      rw [List.find?_cons] at h
      cases hp : p b
      · rw [hp] at h
        have hrest := ih h
        simp only [updateFirst, hp, Bool.false_eq_true, if_false, List.countP_cons]
        omega
      · rw [hp] at h
        obtain rfl := Option.some.inj h
        simp only [updateFirst, hp, if_true, List.countP_cons]
        omega

/-- Where every element that meets `q` meets `r` and the counts agree, the two
tests agree on the list. -/
theorem forall_of_countP_eq {q r : α → Bool} {l : List α} (hqr : ∀ a ∈ l, q a = true → r a = true)
    (h : l.countP q = l.countP r) : ∀ a ∈ l, r a = true → q a = true := by
  induction l with
  | nil => simp
  | cons b l ih =>
      have hle : l.countP q ≤ l.countP r :=
        List.countP_mono_left fun a ha => hqr a (by simp [ha])
      have hb := hqr b (by simp)
      rw [List.countP_cons, List.countP_cons] at h
      have htail : l.countP q = l.countP r := by
        cases hq : q b <;> cases hr : r b <;> simp [hq, hr] at h hb <;> omega
      have hhead : r b = true → q b = true := by
        cases hq : q b <;> cases hr : r b <;> simp_all
      intro a ha
      rcases List.mem_cons.mp ha with rfl | ha
      · exact hhead
      · exact ih (fun a ha => hqr a (by simp [ha])) htail a ha

end Gtoaes.Lib
