import Gtoaes.Lib.ReadBack

/-!
C strings: searching a text, `atoi`, and the integer formats of `printf` that
the frame protocol uses.
-/

namespace Gtoaes.Lib

/-- `find`: where the pattern first stands. -/
def find (p : Text) : Text → Option ℕ
  | [] => if p = [] then some 0 else none
  | c :: t => if p.isPrefixOf (c :: t) then some 0 else (find p t).map (· + 1)

/-- `atoi` as `strtol` narrowed to an `int`. -/
def atoi (t : Text) : ℤ :=
  let (neg, t) := sign (t.dropWhile isSpace)
  let v := signed neg (digitsValue 10 decVal (t.takeWhile Char.isDigit))
  toInt32 (max (-2 ^ 63) (min (2 ^ 63 - 1) v))

/-- A value of an `int`. -/
def IsInt (n : ℤ) : Prop := -2 ^ 31 ≤ n ∧ n < 2 ^ 31

instance (n : ℤ) : Decidable (IsInt n) := inferInstanceAs (Decidable (_ ∧ _))

theorem isInt_toInt32 (n : ℤ) : IsInt (toInt32 n) := by
  have hlow := Int.le_bmod (x := n) (m := 2 ^ 32) (by decide)
  have hhigh := Int.bmod_lt (x := n) (m := 2 ^ 32) (by decide)
  rw [toInt32, IsInt]
  omega

theorem toInt32_of_isInt {n : ℤ} (h : IsInt n) : toInt32 n = n := by
  obtain ⟨hlow, hhigh⟩ := h
  apply Int.bmod_eq_of_le_mul_two <;> omega

/-- Narrowing adds to an integer only from below. -/
theorem toInt32_le {n : ℤ} (h : -2 ^ 31 ≤ n) : toInt32 n ≤ n := by
  by_cases hn : n < 2 ^ 31
  · exact (toInt32_of_isInt ⟨h, hn⟩).le
  · have hlt := (isInt_toInt32 n).2
    omega

/-- A double converted to `int`, towards zero. What does not fit is undefined in
the language; it becomes the least `int`, as the processor has it. -/
def Double.toInt : Double → ℤ
  | .fin q =>
      let n := if 0 ≤ q then ⌊q⌋ else ⌈q⌉
      if -2 ^ 31 ≤ n ∧ n < 2 ^ 31 then n else -2 ^ 31
  | _ => -2 ^ 31

/-- An integer with its sign, plus or minus. -/
def signChar (n : ℤ) : Char := if n < 0 then '-' else '+'

/-- `%+0wd` -/
def signPad (width : ℕ) (n : ℤ) : Text :=
  let ds := Nat.toDigits 10 n.natAbs
  signChar n :: (List.replicate (width - 1 - ds.length) '0' ++ ds)

/-- `%+wd` -/
def signBlank (width : ℕ) (n : ℤ) : Text :=
  let ds := Nat.toDigits 10 n.natAbs
  List.replicate (width - 1 - ds.length) ' ' ++ signChar n :: ds

/-- What `snprintf` leaves in a buffer of that size. -/
def snprintf (size : ℕ) (t : Text) : Text := t.take (size - 1)

example : find "Rec".toList "trackRec%".toList = some 5 := by decide

example : atoi " -12%".toList = -12 := by decide

example : signPad 6 (-25) = "-00025".toList ∧ signBlank 8 25 = "     +25".toList := by decide

/-! ### Searching -/

theorem find_lt {p t : Text} (hp : p ≠ []) {k : ℕ} (h : find p t = some k) :
    k + p.length ≤ t.length := by
  induction t generalizing k with
  | nil => simp [find, hp] at h
  | cons c t ih =>
      rw [find] at h
      split at h
      · rename_i hpre
        obtain rfl := Option.some.inj h
        have hle := (List.isPrefixOf_iff_prefix.mp hpre).length_le
        omega
      · obtain ⟨j, hj, rfl⟩ := Option.map_eq_some_iff.mp h
        have hle := ih hj
        simp only [List.length_cons]
        omega

/-- The pattern stands at the place found. -/
theorem prefix_of_find {p t : Text} {k : ℕ} (h : find p t = some k) : p <+: t.drop k := by
  induction t generalizing k with
  | nil =>
      rw [find] at h
      split at h
      · next hp => exact hp ▸ List.nil_prefix
      · cases h
  | cons c t ih =>
      rw [find] at h
      split at h
      · next hpre =>
          obtain rfl := Option.some.inj h
          exact List.isPrefixOf_iff_prefix.mp hpre
      · obtain ⟨j, hj, rfl⟩ := Option.map_eq_some_iff.mp h
        exact ih hj

/-- What follows the place found makes no difference. -/
theorem find_append {p t : Text} (hp : p ≠ []) {k : ℕ} (h : find p t = some k) (rest : Text) :
    find p (t ++ rest) = some k := by
  induction t generalizing k with
  | nil => simp [find, hp] at h
  | cons c t ih =>
      rw [find] at h
      rw [List.cons_append, find]
      split at h
      · rename_i hpre
        have hlong : p.isPrefixOf (c :: (t ++ rest)) = true := by
          rw [List.isPrefixOf_iff_prefix] at hpre ⊢
          exact hpre.trans (List.prefix_append (c :: t) rest)
        rw [if_pos hlong, h]
      · rename_i hpre
        obtain ⟨j, hj, rfl⟩ := Option.map_eq_some_iff.mp h
        have hle := find_lt hp hj
        have hshort : ¬ p.isPrefixOf (c :: (t ++ rest)) = true := by
          intro hlong
          rw [List.isPrefixOf_iff_prefix] at hlong hpre
          refine hpre (List.prefix_of_prefix_length_le hlong (List.prefix_append (c :: t) rest) ?_)
          simp only [List.length_cons]
          omega
        rw [if_neg hshort, ih hj]
        rfl

/-- A text without some character of the pattern. -/
theorem find_eq_none_of_not_mem {p t : Text} {c : Char} (hp : c ∈ p) (ht : c ∉ t) :
    find p t = none := by
  cases h : find p t with
  | none => rfl
  | some k => exact absurd (List.mem_of_mem_drop ((prefix_of_find h).subset hp)) ht

/-- The pattern is found behind a text without its first character. -/
theorem find_of_not_mem {c : Char} {p pre : Text} (h : c ∉ pre) (rest : Text) :
    find (c :: p) (pre ++ (c :: p) ++ rest) = some pre.length := by
  induction pre with
  | nil =>
      have hpre : (c :: p).isPrefixOf (c :: (p ++ rest)) = true := by
        rw [List.isPrefixOf_iff_prefix]
        exact List.prefix_append (c :: p) rest
      exact if_pos hpre
  | cons d pre ih =>
      rw [List.mem_cons, not_or] at h
      have hpre : ¬ (c :: p).isPrefixOf (d :: (pre ++ (c :: p) ++ rest)) = true := by
        rw [List.isPrefixOf_iff_prefix, List.cons_prefix_cons]
        exact fun heq => h.1 heq.1
      rw [List.cons_append, List.cons_append, find, if_neg hpre, ih h.2]
      rfl

theorem exists_find {p : Text} (a b : Text) : ∃ k ≤ a.length, find p (a ++ p ++ b) = some k := by
  induction a with
  | nil =>
      refine ⟨0, le_rfl, ?_⟩
      cases hp : p ++ b with
      | nil =>
          obtain ⟨rfl, rfl⟩ := List.append_eq_nil_iff.mp hp
          rfl
      | cons c t =>
          have hpre : p.isPrefixOf (c :: t) = true := by
            rw [List.isPrefixOf_iff_prefix, ← hp]
            exact List.prefix_append p b
          rw [List.nil_append, hp, find, if_pos hpre]
  | cons c a ih =>
      obtain ⟨k, hk, hfind⟩ := ih
      simp only [List.cons_append, find]
      split
      · exact ⟨0, Nat.zero_le _, rfl⟩
      · rw [List.append_assoc] at hfind
        exact ⟨k + 1, by simpa using hk, by simp [hfind]⟩

/-! ### Numbers -/

theorem atoi_zeroPad {n : ℤ} (hn : IsInt n) (width : ℕ) :
    atoi (zeroPad width n) = n := by
  have hclamp : max (-2 ^ 63) (min (2 ^ 63 - 1) n) = n := by
    obtain ⟨hlow, hhigh⟩ := hn
    omega
  have hsign := sign_zeroPad width n []
  have hdigits : (padded width n ++ []).takeWhile Char.isDigit = padded width n :=
    takeWhile_padded width n (by simp)
  simp only [List.append_nil] at hsign hdigits
  simp only [atoi, hsign, hdigits, signed_padded]
  rw [hclamp, toInt32_of_isInt hn]

theorem length_padded_of_nonneg {width : ℕ} {n : ℤ} (hn : 0 ≤ n) (hlt : n < 10 ^ width)
    (hw : 0 < width) : (padded width n).length = width := by
  have hdigits : (Nat.toDigits 10 n.natAbs).length ≤ width := by
    rw [Nat.length_toDigits_le_iff (by decide) hw]
    have hcast : ((n.natAbs : ℕ) : ℤ) < ((10 ^ width : ℕ) : ℤ) := by
      rw [Int.natAbs_of_nonneg hn]
      exact_mod_cast hlt
    exact_mod_cast hcast
  rw [padded, if_neg (by omega), List.length_append, List.length_replicate]
  omega

/-- A number that fits the width is padded to it. -/
theorem length_zeroPad {width : ℕ} {n : ℤ} (hn : 0 ≤ n) (hlt : n < 10 ^ width) (hw : 0 < width) :
    (zeroPad width n).length = width := by
  rw [zeroPad_eq, if_neg (by omega), List.nil_append, length_padded_of_nonneg hn hlt hw]

theorem isDigit_of_mem_zeroPad {width : ℕ} {n : ℤ} (hn : 0 ≤ n) {c : Char}
    (hc : c ∈ zeroPad width n) : c.isDigit = true := by
  rw [zeroPad_eq, if_neg (by omega), List.nil_append] at hc
  exact isDigit_of_mem_padded hc

/-! ### How long a printed `int` gets -/

/-- A double becomes some `int`, whatever its value. -/
theorem Double.toInt_range (x : Double) : IsInt x.toInt := by
  cases x with
  | fin q =>
      rw [toInt]
      generalize (if 0 ≤ q then ⌊q⌋ else ⌈q⌉) = n
      split
      · assumption
      · constructor <;> omega
  | _ => exact ⟨le_rfl, by norm_num [toInt]⟩

/-- How many characters `%0wd` makes of a number. -/
def zeroPadWidth (width : ℕ) (n : ℤ) : ℕ :=
  max width ((if n < 0 then 1 else 0) + (Nat.toDigits 10 n.natAbs).length)

/-- How many `%+0wd` and `%+wd` make of it. -/
def signWidth (width : ℕ) (n : ℤ) : ℕ := max width (1 + (Nat.toDigits 10 n.natAbs).length)

theorem length_zeroPad_eq (width : ℕ) (n : ℤ) : (zeroPad width n).length = zeroPadWidth width n := by
  simp only [zeroPad, zeroPadWidth, List.length_append, List.length_replicate]
  split <;> simp only [List.length_nil, List.length_cons] <;> omega

theorem length_signPad (width : ℕ) (n : ℤ) : (signPad width n).length = signWidth width n := by
  simp only [signPad, signWidth, List.length_cons, List.length_append, List.length_replicate]
  omega

theorem length_signBlank (width : ℕ) (n : ℤ) : (signBlank width n).length = signWidth width n := by
  simp only [signBlank, signWidth, List.length_cons, List.length_append, List.length_replicate]
  omega

section

variable {n : ℤ} (hn : IsInt n) {width : ℕ}
include hn

theorem length_toDigits_le : (Nat.toDigits 10 n.natAbs).length ≤ 10 := by
  obtain ⟨hlow, hhigh⟩ := hn
  rw [Nat.length_toDigits_le_iff (by decide) (by decide)]
  omega

theorem zeroPadWidth_le (hw : width ≤ 11) : zeroPadWidth width n ≤ 11 := by
  have hdigits := length_toDigits_le hn
  rw [zeroPadWidth]
  split <;> omega

theorem signWidth_le (hw : width ≤ 11) : signWidth width n ≤ 11 := by
  have hdigits := length_toDigits_le hn
  rw [signWidth]
  omega

end

end Gtoaes.Lib
