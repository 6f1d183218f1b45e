import Gtoaes.Lib.Ostream
import Gtoaes.Lib.Split

/-!
The conversions of the C++ library on the numerals that it prints.
-/

namespace Gtoaes.Lib

/-! ### Integers -/

theorem digitsValue_eq_ofDigitChars (ds : Text) :
    digitsValue 10 decVal ds = Nat.ofDigitChars 10 ds 0 := by
  rw [digitsValue, Nat.ofDigitChars_eq_foldl]
  congr 1
  ext n d
  rw [decVal, Nat.mul_comm]

/-- Leading zeros count for nothing. -/
theorem digitsValue_zeros (k n : ℕ) :
    digitsValue 10 decVal (List.replicate k '0' ++ Nat.toDigits 10 n) = n := by
  rw [digitsValue_eq_ofDigitChars, Nat.ofDigitChars_append, Nat.ofDigitChars_replicate_zero,
    Nat.mul_zero, Nat.ofDigitChars_ten_toDigits]

/-- The digits of `zeroPad`, behind the sign. -/
def padded (width : ℕ) (n : ℤ) : Text :=
  List.replicate (width - (if n < 0 then 1 else 0) - (Nat.toDigits 10 n.natAbs).length) '0' ++
    Nat.toDigits 10 n.natAbs

theorem zeroPad_eq (width : ℕ) (n : ℤ) :
    zeroPad width n = (if n < 0 then ['-'] else []) ++ padded width n := by
  rw [zeroPad, padded]
  by_cases h : n < 0 <;> simp [h]

theorem isDigit_of_mem_padded {width : ℕ} {n : ℤ} {c : Char} (hc : c ∈ padded width n) :
    c.isDigit = true := by
  rw [padded, List.mem_append] at hc
  obtain hc | hc := hc
  · rw [List.eq_of_mem_replicate hc]
    rfl
  · exact Nat.isDigit_of_mem_toDigits (by decide) (by decide) hc

theorem padded_ne_nil (width : ℕ) (n : ℤ) : padded width n ≠ [] := by
  simp [padded, Nat.toDigits_ne_nil]

theorem zeroPad_ne_nil (width : ℕ) (n : ℤ) : zeroPad width n ≠ [] := by
  simp [zeroPad_eq, padded_ne_nil]

theorem isSpace_of_isDigit {c : Char} (h : c.isDigit = true) : isSpace c = false := by
  have hrange : 48 ≤ c.toNat ∧ c.toNat ≤ 57 := Char.isDigit_iff_toNat.mp h
  simp only [isSpace, Bool.or_eq_false_iff, beq_eq_false_iff_ne, ne_eq, Bool.and_eq_false_iff,
    decide_eq_false_iff_not]
  refine ⟨?_, .inr (by omega)⟩
  rintro rfl
  cases h

theorem sign_of_isDigit {c : Char} (h : c.isDigit = true) (t : Text) :
    sign (c :: t) = (false, c :: t) := by
  have hplain : c ≠ '-' ∧ c ≠ '+' := by
    constructor <;> rintro rfl <;> cases h
  unfold sign
  split <;> simp_all

theorem takeWhile_append_stop {α : Type} {p : α → Bool} {a b : List α} (ha : ∀ x ∈ a, p x = true)
    (hb : ∀ x, b.head? = some x → p x = false) : (a ++ b).takeWhile p = a := by
  rw [List.takeWhile_append_of_pos ha]
  cases b with
  | nil => simp
  | cons x b => simp [hb x rfl]

/-- A printed integer has no white space to skip, and its sign is its own. -/
theorem sign_zeroPad (width : ℕ) (n : ℤ) (rest : Text) :
    sign ((zeroPad width n ++ rest).dropWhile isSpace) =
      (decide (n < 0), padded width n ++ rest) := by
  rw [zeroPad_eq]
  by_cases hneg : n < 0
  · simp [hneg, sign, isSpace]
  · obtain ⟨d, ds, hds⟩ := List.exists_cons_of_ne_nil (padded_ne_nil width n)
    have hd : d.isDigit = true := isDigit_of_mem_padded (hds ▸ List.mem_cons_self)
    simp only [hneg, if_false, List.nil_append, hds, List.cons_append, decide_false]
    rw [List.dropWhile_cons_of_neg (by simp [isSpace_of_isDigit hd]), sign_of_isDigit hd]

theorem takeWhile_padded (width : ℕ) (n : ℤ) {rest : Text}
    (hrest : ∀ c, rest.head? = some c → c.isDigit = false) :
    (padded width n ++ rest).takeWhile Char.isDigit = padded width n :=
  takeWhile_append_stop (fun _ hc => isDigit_of_mem_padded hc) hrest

theorem signed_padded (width : ℕ) (n : ℤ) :
    signed (decide (n < 0)) (digitsValue 10 decVal (padded width n)) = n := by
  have hvalue : digitsValue 10 decVal (padded width n) = n.natAbs := digitsValue_zeros _ _
  rw [hvalue]
  by_cases hneg : n < 0
  · rw [decide_eq_true hneg, signed, if_pos rfl]
    omega
  · rw [decide_eq_false hneg, signed, if_neg (by simp)]
    omega

/-- A printed integer tells what it was printed from. -/
theorem zeroPad_injective (width : ℕ) : Function.Injective (zeroPad width) := by
  have hread : ∀ n : ℤ, signed (sign ((zeroPad width n ++ []).dropWhile isSpace)).1
      (digitsValue 10 decVal (sign ((zeroPad width n ++ []).dropWhile isSpace)).2) = n := by
    intro n
    rw [sign_zeroPad, List.append_nil, signed_padded]
  intro m n h
  rw [← hread m, ← hread n, h]

theorem upper_zeroPad (width : ℕ) (n : ℤ) : upper (zeroPad width n) = zeroPad width n := by
  refine (List.map_congr_left fun c hc => ?_).trans (List.map_id _)
  rw [zeroPad_eq, List.mem_append] at hc
  obtain hc | hc := hc
  · split at hc
    · rw [List.mem_singleton.mp hc]
      rfl
    · cases hc
  · have hrange : 48 ≤ c.toNat ∧ c.toNat ≤ 57 :=
      Char.isDigit_iff_toNat.mp (isDigit_of_mem_padded hc)
    refine dif_neg fun hlower => ?_
    have hlow : 'a'.toNat ≤ c.toNat := hlower.1
    exact absurd (hlow.trans hrange.2) (by decide)

/-- Printed integers that differ, differ in more than letter case. -/
theorem eq_of_iequals_zeroPad {width : ℕ} {m n : ℤ}
    (h : iequals (zeroPad width m) (zeroPad width n) = true) : m = n := by
  rw [iequals_iff_upper, upper_zeroPad, upper_zeroPad] at h
  exact zeroPad_injective width h

/-- `stoi` reads a printed integer and stops at what follows it. -/
theorem stoi_zeroPad {n : ℤ} (hn : -2 ^ 31 ≤ n ∧ n < 2 ^ 31) (width : ℕ) {rest : Text}
    (hrest : ∀ c, rest.head? = some c → c.isDigit = false) :
    stoi (zeroPad width n ++ rest) = .ok n := by
  simp only [stoi, sign_zeroPad, takeWhile_padded width n hrest, padded_ne_nil, if_false,
    signed_padded, hn, and_self, if_true]

theorem stoi_intText {n : ℤ} (hn : -2 ^ 31 ≤ n ∧ n < 2 ^ 31) : stoi (intText n) = .ok n := by
  have h : stoi (zeroPad 0 n ++ []) = .ok n := stoi_zeroPad hn 0 (by simp)
  rwa [List.append_nil] at h

/-- What `stoi` returns is an `int`. -/
theorem stoi_range {t : Text} {n : ℤ} (h : stoi t = .ok n) : -2 ^ 31 ≤ n ∧ n < 2 ^ 31 := by
  simp only [stoi] at h
  split at h
  · cases h
  · split at h
    · rename_i hrange
      cases h
      exact hrange
    · cases h

/-! ### The characters of a printed number -/

/-- A character that numbers are printed with. -/
def isNumeral (c : Char) : Bool := c.isDigit || c ∈ "-+.einfa".toList

theorem isNumeral_of_isDigit {c : Char} (h : c.isDigit = true) : isNumeral c = true := by
  simp [isNumeral, h]

theorem isNumeral_of_mem_zeroPad {width : ℕ} {n : ℤ} {c : Char} (hc : c ∈ zeroPad width n) :
    isNumeral c = true := by
  rw [zeroPad_eq, List.mem_append] at hc
  obtain hc | hc := hc
  · split at hc
    · rw [List.mem_singleton.mp hc]
      rfl
    · cases hc
  · exact isNumeral_of_isDigit (isDigit_of_mem_padded hc)

theorem isNumeral_of_mem_fraction {ds : Text} (hds : ∀ c ∈ ds, isNumeral c = true) {c : Char}
    (hc : c ∈ fraction ds) : isNumeral c = true := by
  rw [fraction] at hc
  split at hc
  · cases hc
  · obtain rfl | hc := List.mem_cons.mp hc
    · rfl
    · rw [dropZeros, List.mem_reverse] at hc
      exact hds c (List.mem_reverse.mp ((List.dropWhile_sublist _).subset hc))

theorem isNumeral_of_mem_generalText {e : ℤ} {ds : Text} (hds : ∀ c ∈ ds, isNumeral c = true)
    {c : Char} (hc : c ∈ generalText e ds) : isNumeral c = true := by
  have htake : ∀ k, ∀ c ∈ ds.take k, isNumeral c = true := fun k c hc =>
    hds c (List.mem_of_mem_take hc)
  have hdrop : ∀ k, ∀ c ∈ ds.drop k, isNumeral c = true := fun k c hc =>
    hds c (List.mem_of_mem_drop hc)
  rw [generalText] at hc
  split at hc
  · simp only [List.mem_append, List.mem_cons] at hc
    obtain (hc | hc) | rfl | rfl | hc := hc
    · exact htake 1 c hc
    · exact isNumeral_of_mem_fraction (hdrop 1) hc
    · rfl
    · split <;> rfl
    · exact isNumeral_of_mem_zeroPad hc
  · split at hc
    · obtain rfl | hc := List.mem_cons.mp hc
      · rfl
      · refine isNumeral_of_mem_fraction (fun c hc => ?_) hc
        obtain hc | hc := List.mem_append.mp hc
        · rw [List.eq_of_mem_replicate hc]
          rfl
        · exact hds c hc
    · obtain hc | hc := List.mem_append.mp hc
      · exact htake _ c hc
      · exact isNumeral_of_mem_fraction (hdrop _) hc

theorem isNumeral_of_mem_text {x : Double} {c : Char} (hc : c ∈ x.text) : isNumeral c = true := by
  cases x with
  | nan =>
      have hall : Double.nan.text.all isNumeral = true := by decide
      exact List.all_eq_true.mp hall c hc
  | inf neg =>
      have hall : ∀ neg, (Double.inf neg).text.all isNumeral = true := by decide
      exact List.all_eq_true.mp (hall neg) c hc
  | fin q =>
      rw [Double.text] at hc
      split at hc
      · rw [List.mem_singleton.mp hc]
        rfl
      · obtain hc | hc := List.mem_append.mp hc
        · split at hc
          · rw [List.mem_singleton.mp hc]
            rfl
          · cases hc
        · refine isNumeral_of_mem_generalText (fun c hc => ?_) hc
          exact isNumeral_of_isDigit (Nat.isDigit_of_mem_toDigits (by decide) (by decide) hc)

theorem isSpace_of_isNumeral {c : Char} (h : isNumeral c = true) : isSpace c = false := by
  rw [isNumeral, Bool.or_eq_true] at h
  obtain h | h := h
  · exact isSpace_of_isDigit h
  · have hall : "-+.einfa".toList.all (fun c => !isSpace c) = true := by decide
    simpa using List.all_eq_true.mp hall c (by simpa using h)

theorem ne_of_isNumeral {c d : Char} (h : isNumeral c = true) (hd : isNumeral d = false) :
    c ≠ d := by
  rintro rfl
  rw [h] at hd
  cases hd

/-- `stod` takes no empty text. -/
theorem ne_nil_of_stod {t : Text} {x : Double} (h : stod t = .ok x) : t ≠ [] := by
  rintro rfl
  have hthrow : stod [] = .error .invalidArgument := by decide +kernel
  rw [hthrow] at h
  cases h

end Gtoaes.Lib
