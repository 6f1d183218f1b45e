import Gtoaes.Lib.LUFactors
import Gtoaes.Lib.Sweep
import Mathlib.Algebra.Order.Field.Basic
import Mathlib.Data.Rat.Cast.OfScientific
import Mathlib.Data.ZMod.IntUnitsPower
import Mathlib.Tactic.Positivity

/-!
`LUdcmp` of `AMath.cpp`: elimination in place with scaled partial pivoting. The matrix
is a block of memory, row after row; `double` is an ordered field, and is exact.

A column without a pivot is not noticed. The row found for the column before is then
taken for the pivot row, whether it is done already or not.
-/

namespace Gtoaes

open Lib

variable {K : Type} [Field K] [LinearOrder K]

/-- The variables of `LUdcmp` and what it leaves in `ludcmp_`; `a` is the block. -/
structure LUState (K : Type) where
  a : ℕ → K
  scale : ℕ → K
  np : ℤ
  idx : ℕ → ℕ
  imax : ℕ

/-- The greatest magnitude of a row. -/
def rowBig (n : ℕ) (a : ℕ → K) (i : ℕ) : K :=
  sweep 0 n (fun j big => if |a (i * n + j)| > big then |a (i * n + j)| else big) 0

/-- The first loop; none where a row is zero. -/
def rowScales (n : ℕ) (a : ℕ → K) : Option (ℕ → K) :=
  sweep 0 n
    (fun i scale => scale.bind fun scale =>
      if rowBig n a i = 0 then none else some (Function.update scale i (1 / rowBig n a i)))
    (some fun _ => 0)

/-- `big` and `imax` after the search of the column, which begins with the old `imax`. -/
def findPivot (n k : ℕ) (s : LUState K) : K × ℕ :=
  sweep k n
    (fun i best =>
      if s.scale i * |s.a (i * n + k)| > best.1 then (s.scale i * |s.a (i * n + k)|, i) else best)
    (0, s.imax)

def swapRows (n k imax : ℕ) (a : ℕ → K) : ℕ → K :=
  sweep 0 n
    (fun j a => Function.update (Function.update a (imax * n + j) (a (k * n + j)))
      (k * n + j) (a (imax * n + j)))
    a

/-- The rows below the pivot row, from left to right. -/
def eliminateRows (n k : ℕ) (a : ℕ → K) : ℕ → K :=
  sweep (k + 1) n
    (fun i a =>
      let t := a (i * n + k) / a (k * n + k)
      sweep (k + 1) n
        (fun j a => Function.update a (i * n + j) (a (i * n + j) - t * a (k * n + j)))
        (Function.update a (i * n + k) t))
    a

def tiny : K := 1e-30

/-- One pass of the second loop. -/
def luColumn (n k : ℕ) (s : LUState K) : LUState K :=
  let imax := (findPivot n k s).2
  let swapped :=
    if k ≠ imax then
      { s with
        a := swapRows n k imax s.a
        np := s.np + 1
        scale := Function.update s.scale imax (s.scale k) }
    else s
  let a :=
    if swapped.a (k * n + k) = 0 then Function.update swapped.a (k * n + k) tiny else swapped.a
  { swapped with a := eliminateRows n k a, idx := Function.update swapped.idx k imax, imax := imax }

/-- `LUdcmp` of a block; none where it returns false. -/
def luBlock (n : ℕ) (a : ℕ → K) (idx : ℕ → ℕ) : Option (LUState K) :=
  (rowScales n a).map fun scale =>
    sweep 0 n (luColumn n) { a := a, scale := scale, np := 0, idx := idx, imax := 0 }

/-! ### The matrix of a block -/

/-- The block, as a matrix. -/
def matrixOf (n : ℕ) (a : ℕ → K) : Matrix (Fin n) (Fin n) K := fun i j => a (i * n + j)

/-- Cells of a block are those of one row and one column. -/
theorem cell_inj {n i j i' j' : ℕ} (hj : j < n) (hj' : j' < n) :
    i * n + j = i' * n + j' ↔ i = i' ∧ j = j' := by
  constructor
  · intro h
    have hcol : j = j' := by
      have hmod := congrArg (· % n) h
      simpa [Nat.mul_add_mod_of_lt, hj, hj', Nat.add_mod, Nat.mod_eq_of_lt] using hmod
    subst hcol
    exact ⟨Nat.eq_of_mul_eq_mul_right (by omega) (Nat.add_right_cancel h), rfl⟩
  · rintro ⟨rfl, rfl⟩
    rfl

omit [Field K] [LinearOrder K] in
theorem update_cell (n : ℕ) {i j i' j' : ℕ} (hj : j < n) (hj' : j' < n) (a : ℕ → K) (x : K) :
    Function.update a (i * n + j) x (i' * n + j') =
      if i' = i ∧ j' = j then x else a (i' * n + j') := by
  rw [Function.update_apply]
  exact if_congr (cell_inj hj' hj) rfl rfl

/-! ### What the loops do to it -/

theorem rowBig_eq_zero_iff [IsStrictOrderedRing K] (n : ℕ) (a : ℕ → K) (i : ℕ) :
    0 ≤ rowBig n a i ∧ (rowBig n a i = 0 ↔ ∀ j < n, a (i * n + j) = 0) := by
  refine sweep_induction (motive := fun m big => 0 ≤ big ∧ (big = 0 ↔ ∀ j < m, a (i * n + j) = 0))
    (Nat.zero_le n) ⟨le_rfl, by simp⟩ fun j big _ _ hbig => ?_
  obtain ⟨hnonneg, hzero⟩ := hbig
  have hsucc : (∀ l < j + 1, a (i * n + l) = 0) ↔ (∀ l < j, a (i * n + l) = 0) ∧ a (i * n + j) = 0 :=
    Nat.forall_lt_succ_right
  rw [hsucc, ← hzero]
  split_ifs with hlarger
  · refine ⟨abs_nonneg _, ?_⟩
    rw [abs_eq_zero]
    refine ⟨fun h => ?_, fun h => h.2⟩
    rw [h, abs_zero] at hlarger
    exact absurd hlarger hnonneg.not_gt
  · refine ⟨hnonneg, fun h => ⟨h, ?_⟩, fun h => h.1⟩
    rw [h] at hlarger
    exact abs_nonpos_iff.mp (not_lt.mp hlarger)

section Ordered

variable [IsStrictOrderedRing K]

/-- The first loop fails at a zero row, and else every scale is positive. -/
theorem rowScales_spec (n : ℕ) (a : ℕ → K) :
    (rowScales n a = none ↔ ∃ i < n, ∀ j < n, a (i * n + j) = 0) ∧
      ∀ scale, rowScales n a = some scale → ∀ i < n, 0 < scale i := by
  refine sweep_induction (motive := fun m (r : Option (ℕ → K)) =>
      (r = none ↔ ∃ i < m, ∀ j < n, a (i * n + j) = 0) ∧
        ∀ scale, r = some scale → ∀ i < m, 0 < scale i)
    (Nat.zero_le n) ⟨by simp, fun _ _ i hi => absurd hi (Nat.not_lt_zero i)⟩ fun m r _ _ hr => ?_
  obtain ⟨hnone, hpositive⟩ := hr
  obtain ⟨hnonneg, hzero⟩ := rowBig_eq_zero_iff n a m
  have hsucc : (∃ i < m + 1, ∀ j < n, a (i * n + j) = 0) ↔
      (∃ i < m, ∀ j < n, a (i * n + j) = 0) ∨ ∀ j < n, a (m * n + j) = 0 :=
    Nat.exists_lt_succ_right
  rw [hsucc, ← hnone, ← hzero]
  cases r with
  | none => exact ⟨by simp, nofun⟩
  | some scale =>
      simp only [Option.bind_some, reduceCtorEq, false_or]
      split_ifs with hbig
      · exact ⟨by simp [hbig], nofun⟩
      · refine ⟨by simp [hbig], ?_⟩
        rintro _ ⟨⟩ i hi
        rw [Function.update_apply]
        split_ifs with h
        · exact one_div_pos.mpr (lt_of_le_of_ne hnonneg (Ne.symm hbig))
        · exact hpositive scale rfl i (by omega)

/-- Where the column has a pivot, the row that is found has one. -/
theorem findPivot_spec {n k : ℕ} (hk : k < n) {s : LUState K} (hscale : ∀ i < n, 0 < s.scale i)
    (hpivot : ∃ i, k ≤ i ∧ i < n ∧ s.a (i * n + k) ≠ 0) :
    k ≤ (findPivot n k s).2 ∧ (findPivot n k s).2 < n ∧ s.a ((findPivot n k s).2 * n + k) ≠ 0 := by
  have hfound : 0 ≤ (findPivot n k s).1 ∧
      ((findPivot n k s).1 = 0 → ∀ i, k ≤ i → i < n → s.a (i * n + k) = 0) ∧
      (0 < (findPivot n k s).1 → k ≤ (findPivot n k s).2 ∧ (findPivot n k s).2 < n ∧
        s.a ((findPivot n k s).2 * n + k) ≠ 0) := by
    refine sweep_induction (motive := fun m (best : K × ℕ) => 0 ≤ best.1 ∧
        (best.1 = 0 → ∀ i, k ≤ i → i < m → s.a (i * n + k) = 0) ∧
        (0 < best.1 → k ≤ best.2 ∧ best.2 < m ∧ s.a (best.2 * n + k) ≠ 0))
      hk.le ⟨le_rfl, fun _ i hlow hhigh => by omega, fun h => absurd h (lt_irrefl 0)⟩
      fun m best hlow hhigh hbest => ?_
    obtain ⟨hnonneg, hzero, hrow⟩ := hbest
    split_ifs with hlarger
    · have hpos : 0 < s.scale m * |s.a (m * n + k)| := hnonneg.trans_lt hlarger
      refine ⟨hpos.le, fun h => absurd h hpos.ne', fun _ => ⟨hlow, Nat.lt_succ_self m, ?_⟩⟩
      intro h
      rw [h, abs_zero, mul_zero] at hpos
      exact lt_irrefl 0 hpos
    · refine ⟨hnonneg, fun h i hlow hi => ?_, fun h => ?_⟩
      · by_cases him : i = m
        · subst him
          rw [h] at hlarger
          have hle : |s.a (i * n + k)| ≤ 0 :=
            nonpos_of_mul_nonpos_right (not_lt.mp hlarger) (hscale i hhigh)
          exact abs_nonpos_iff.mp hle
        · exact hzero h i hlow (by omega)
      · obtain ⟨hle, hlt, hne⟩ := hrow h
        exact ⟨hle, by omega, hne⟩
  obtain ⟨hnonneg, hzero, hrow⟩ := hfound
  obtain ⟨i, hlow, hhigh, hne⟩ := hpivot
  exact hrow (lt_of_le_of_ne hnonneg fun h => hne (hzero h.symm i hlow hhigh))

end Ordered

omit [Field K] [LinearOrder K] in
theorem swapRows_cell {n k imax : ℕ} (a : ℕ → K) (r : ℕ) {c : ℕ} (hc : c < n) :
    swapRows n k imax a (r * n + c) = a (Equiv.swap k imax r * n + c) := by
  -- the columns that were passed are swapped
  have hswept : ∀ r c, c < n → swapRows n k imax a (r * n + c) =
      if c < n then a (Equiv.swap k imax r * n + c) else a (r * n + c) := by
    refine sweep_induction (motive := fun m (b : ℕ → K) => ∀ r c, c < n → b (r * n + c) =
        if c < m then a (Equiv.swap k imax r * n + c) else a (r * n + c))
      (Nat.zero_le n) (fun r c _ => by simp) fun m b _ hm hb r c hc => ?_
    rw [update_cell n hm hc, update_cell n hm hc, hb k m hm, hb imax m hm, if_neg (lt_irrefl m),
      if_neg (lt_irrefl m), hb r c hc]
    by_cases hcm : c = m
    · subst hcm
      simp only [and_true, Nat.lt_succ_self, if_true, lt_irrefl, if_false]
      rw [Equiv.swap_apply_def]
      split_ifs <;> rfl
    · have hpassed : c < m + 1 ↔ c < m := by omega
      simp only [hcm, and_false, if_false, hpassed]
  rw [hswept r c hc, if_pos hc]

theorem swap_val {n : ℕ} (i q r : Fin n) :
    ((Equiv.swap i q r : Fin n) : ℕ) = Equiv.swap i.val q.val r.val := by
  simp only [Equiv.swap_apply_def, Fin.ext_iff]
  split_ifs <;> rfl

omit [Field K] [LinearOrder K] in
theorem matrixOf_swapRows {n : ℕ} (k imax : Fin n) (a : ℕ → K) :
    matrixOf n (swapRows n k imax a) = (matrixOf n a).submatrix (Equiv.swap k imax) id := by
  ext r c
  rw [Matrix.submatrix_apply, matrixOf, matrixOf, swapRows_cell a r c.isLt, swap_val, id]

/-- A row below the pivot row, once it is done. -/
def eliminatedCell (n k : ℕ) (a : ℕ → K) (r c : ℕ) : K :=
  if c = k then a (r * n + k) / a (k * n + k)
  else if k < c then a (r * n + c) - a (r * n + k) / a (k * n + k) * a (k * n + c)
  else a (r * n + c)

omit [LinearOrder K] in
/-- The inner loop, over the columns of row `i`. -/
theorem eliminateRow_cell {n k i : ℕ} (hk : k < n) (hi : k < i) (a : ℕ → K) {r c : ℕ} (hc : c < n) :
    sweep (k + 1) n
        (fun j b => Function.update b (i * n + j)
          (b (i * n + j) - a (i * n + k) / a (k * n + k) * b (k * n + j)))
        (Function.update a (i * n + k) (a (i * n + k) / a (k * n + k))) (r * n + c) =
      if r = i then eliminatedCell n k a i c else a (r * n + c) := by
  obtain ⟨t, ht⟩ : ∃ t, a (i * n + k) / a (k * n + k) = t := ⟨_, rfl⟩
  rw [ht]
  -- a cell is as it was, as long as the loop has not come to it
  have hbefore : ∀ m ≤ n, ∀ r c, c < n → (r = i → c ≤ k ∨ m ≤ c) →
      sweep (k + 1) m
          (fun j b => Function.update b (i * n + j) (b (i * n + j) - t * b (k * n + j)))
          (Function.update a (i * n + k) t) (r * n + c) =
        if r = i ∧ c = k then t else a (r * n + c) := by
    intro m hm r c hc hpassed
    rw [← update_cell n hk hc]
    refine sweep_update_of_ne (f := fun j b => b (i * n + j) - t * b (k * n + j))
      fun j hlow hj => ?_
    rw [Ne.eq_def, cell_inj (by omega) hc]
    rintro ⟨rfl, rfl⟩
    have := hpassed rfl
    omega
  split_ifs with hr
  · subst hr
    rcases lt_trichotomy c k with h | rfl | h
    · rw [hbefore n le_rfl r c hc fun _ => .inl h.le, if_neg fun hck => h.ne hck.2, eliminatedCell,
        if_neg h.ne, if_neg h.asymm]
    · rw [hbefore n le_rfl r c hc fun _ => .inl le_rfl, if_pos ⟨rfl, rfl⟩, eliminatedCell, if_pos rfl, ht]
    · rw [sweep_update_self (f := fun j b => b (r * n + j) - t * b (k * n + j)) h hc
        fun j hcj hj => by rw [Ne.eq_def, cell_inj hj hc]; omega]
      rw [hbefore c hc.le r c hc fun _ => .inr le_rfl, if_neg fun hck => h.ne' hck.2,
        hbefore c hc.le k c hc fun hkr => absurd hkr hi.ne, if_neg fun hck => h.ne' hck.2,
        eliminatedCell, if_neg h.ne', if_pos h, ht]
  · rw [hbefore n le_rfl r c hc fun hri => absurd hri hr, if_neg fun hrc => hr hrc.1]

omit [LinearOrder K] in
theorem eliminateRows_cell {n k : ℕ} (hk : k < n) (a : ℕ → K) {r c : ℕ} (hr : r < n) (hc : c < n) :
    eliminateRows n k a (r * n + c) =
      if k < r then eliminatedCell n k a r c else a (r * n + c) := by
  have hswept : ∀ r c, c < n → eliminateRows n k a (r * n + c) =
      if k < r ∧ r < n then eliminatedCell n k a r c else a (r * n + c) := by
    refine sweep_induction (motive := fun m (b : ℕ → K) => ∀ r c, c < n → b (r * n + c) =
      if k < r ∧ r < m then eliminatedCell n k a r c else a (r * n + c)) hk ?_ ?_
    · intro r c _
      rw [if_neg (by omega)]
    · intro m b hlow hm hb r c hc
      -- the pivot row and the rows from `m` on are as they were
      have hpivotRow : ∀ c < n, b (k * n + c) = a (k * n + c) := by
        intro c hc
        rw [hb k c hc, if_neg (by omega)]
      have hrow : ∀ c < n, b (m * n + c) = a (m * n + c) := by
        intro c hc
        rw [hb m c hc, if_neg (by omega)]
      rw [eliminateRow_cell hk hlow b hc, hb r c hc]
      have hdone : eliminatedCell n k b m c = eliminatedCell n k a m c := by
        simp only [eliminatedCell, hpivotRow k hk, hpivotRow c hc, hrow k hk, hrow c hc]
      rw [hdone]
      rcases lt_trichotomy r m with h | rfl | h
      · have hpassed : r < m + 1 := by omega
        simp only [if_neg h.ne, h, hpassed]
      · rw [if_pos rfl, if_pos ⟨hlow, Nat.lt_succ_self r⟩]
      · have hopen : ¬ r < m + 1 := by omega
        simp only [if_neg h.ne', h.asymm, hopen, and_false, if_false]
  rw [hswept r c hc]
  simp only [hr, and_true]

omit [LinearOrder K] in
theorem matrixOf_eliminateRows {n : ℕ} (k : Fin n) (a : ℕ → K) :
    matrixOf n (eliminateRows n k a) = eliminate k (matrixOf n a) := by
  ext r c
  rw [matrixOf, eliminateRows_cell k.isLt a r.isLt c.isLt]
  simp only [eliminate, eliminatedCell, matrixOf, Fin.lt_def, Fin.ext_iff]

/-! ### The decomposition of a nonsingular matrix -/

/-- The order the rows have after `k` swaps. -/
def rowOrder (idx : ℕ → ℕ) : ℕ → Equiv.Perm ℕ
  | 0 => 1
  | k + 1 => rowOrder idx k * Equiv.swap k (idx k)

theorem rowOrder_congr {idx idx' : ℕ → ℕ} {k : ℕ} (h : ∀ j < k, idx j = idx' j) :
    rowOrder idx k = rowOrder idx' k := by
  induction k with
  | zero => rfl
  | succ k ih =>
      rw [rowOrder, rowOrder, ih fun j hj => h j (Nat.lt_succ_of_lt hj), h k (Nat.lt_succ_self k)]

/-- Before column `k`: the block holds the factors of `A` with its rows in order, as
`idx` tells, and the parity of the order is that of `np`. -/
structure LUInvariant {n : ℕ} (A : Matrix (Fin n) (Fin n) K) (k : ℕ) (s : LUState K) : Prop where
  factors : ∃ (σ : Equiv.Perm (Fin n)) (m : ℕ), Factors A σ k (matrixOf n s.a) ∧
    (∀ i : Fin n, (σ i : ℕ) = rowOrder s.idx k i) ∧ s.np = m ∧ Equiv.Perm.sign σ = (-1) ^ m
  scale_pos : ∀ i < n, 0 < s.scale i
  idx_mem : ∀ j < k, j ≤ s.idx j ∧ s.idx j < n

/-- The block with its pivot row in place: the rows are swapped, or they are one row. -/
def pivotRows (n k imax : ℕ) (a : ℕ → K) : ℕ → K := if k ≠ imax then swapRows n k imax a else a

omit [Field K] [LinearOrder K] in
theorem matrixOf_pivotRows {n : ℕ} (k imax : Fin n) (a : ℕ → K) :
    matrixOf n (pivotRows n k imax a) = (matrixOf n a).submatrix (Equiv.swap k imax) id := by
  rw [pivotRows]
  split_ifs with h
  · exact matrixOf_swapRows k imax a
  · obtain rfl : k = imax := Fin.ext (not_not.mp h)
    rw [Equiv.swap_self]
    rfl

/-- One pass where the pivot is not zero. -/
theorem luColumn_of_pivot {n k q : ℕ} {s : LUState K} (hq : (findPivot n k s).2 = q)
    (hdiag : pivotRows n k q s.a (k * n + k) ≠ 0) :
    luColumn n k s =
      { a := eliminateRows n k (pivotRows n k q s.a)
        scale := if k ≠ q then Function.update s.scale q (s.scale k) else s.scale
        np := if k ≠ q then s.np + 1 else s.np
        idx := Function.update s.idx k q
        imax := q } := by
  rw [pivotRows] at hdiag ⊢
  by_cases hkq : k ≠ q
  · rw [if_pos hkq] at hdiag
    simp only [luColumn, hq, if_pos hkq, if_neg hdiag]
  · rw [if_neg hkq] at hdiag
    simp only [luColumn, hq, if_neg hkq, if_neg hdiag]

theorem LUInvariant.column [IsStrictOrderedRing K] {n k : ℕ} {A : Matrix (Fin n) (Fin n) K}
    {s : LUState K} (h : LUInvariant A k s) (hA : A.det ≠ 0) (hk : k < n) :
    LUInvariant A (k + 1) (luColumn n k s) := by
  obtain ⟨σ, m, hfactors, horder, hnp, hsign⟩ := h.factors
  obtain ⟨i, hlow, hpivot⟩ := hfactors.exists_pivot hA (c := ⟨k, hk⟩) rfl
  obtain ⟨himaxLow, himax, hne⟩ := findPivot_spec hk h.scale_pos ⟨i, hlow, i.isLt, hpivot⟩
  obtain ⟨q, hq⟩ : ∃ q : Fin n, (findPivot n k s).2 = q := ⟨⟨_, himax⟩, rfl⟩
  rw [hq] at himaxLow hne
  have hswap := hfactors.swap (i := ⟨k, hk⟩) (q := q) le_rfl himaxLow
  have hmatrix : matrixOf n (pivotRows n k q s.a) =
      (matrixOf n s.a).submatrix (Equiv.swap ⟨k, hk⟩ q) id := matrixOf_pivotRows ⟨k, hk⟩ q s.a
  have hdiag : pivotRows n k q s.a (k * n + k) ≠ 0 := by
    have hcell := congrFun (congrFun hmatrix ⟨k, hk⟩) ⟨k, hk⟩
    rw [Matrix.submatrix_apply, Equiv.swap_apply_left] at hcell
    exact hcell.trans_ne hne
  rw [luColumn_of_pivot hq hdiag]
  rw [← hmatrix] at hswap
  refine ⟨⟨σ * Equiv.swap ⟨k, hk⟩ q, if k ≠ q then m + 1 else m, ?_, ?_, ?_, ?_⟩, ?_, ?_⟩
  · rw [matrixOf_eliminateRows ⟨k, hk⟩]
    exact hswap.eliminate (k := ⟨k, hk⟩) hdiag
  · intro i
    have hearlier : rowOrder (Function.update s.idx k q) k = rowOrder s.idx k :=
      rowOrder_congr fun j hj => Function.update_of_ne hj.ne _ _
    show _ = rowOrder (Function.update s.idx k q) (k + 1) i
    rw [rowOrder, hearlier, Function.update_self, Equiv.Perm.mul_apply, Equiv.Perm.mul_apply, horder,
      swap_val]
  · show (if k ≠ q then s.np + 1 else s.np) = _
    split_ifs
    · rw [hnp]
      rfl
    · exact hnp
  · rw [Equiv.Perm.sign_mul, hsign]
    split_ifs with hkq
    · rw [Equiv.Perm.sign_swap fun h => hkq (congrArg Fin.val h), pow_succ]
    · obtain rfl : (⟨k, hk⟩ : Fin n) = q := Fin.ext (not_not.mp hkq)
      rw [Equiv.swap_self, Equiv.Perm.sign_refl, mul_one]
  · intro i hi
    show 0 < (if k ≠ q then Function.update s.scale q (s.scale k) else s.scale) i
    split_ifs
    · rw [Function.update_apply]
      split_ifs
      · exact h.scale_pos k hk
      · exact h.scale_pos i hi
    · exact h.scale_pos i hi
  · intro j hj
    show j ≤ Function.update s.idx k q j ∧ Function.update s.idx k q j < n
    by_cases hjk : j = k
    · subst hjk
      rw [Function.update_self]
      exact ⟨himaxLow, q.isLt⟩
    · rw [Function.update_of_ne hjk]
      exact h.idx_mem j (by omega)

theorem luColumn_np (n k : ℕ) (s : LUState K) : s.np ≤ (luColumn n k s).np := by
  simp only [luColumn]
  split_ifs
  · exact Int.le_add_one le_rfl
  · exact le_rfl

/-- A decomposition that does not stop at a zero row counts its swaps. -/
theorem luBlock_np_nonneg {n : ℕ} {a : ℕ → K} {idx : ℕ → ℕ} {r : LUState K}
    (h : luBlock n a idx = some r) : 0 ≤ r.np := by
  obtain ⟨scale, -, rfl⟩ := Option.map_eq_some_iff.mp h
  exact sweep_induction (motive := fun _ (s : LUState K) => 0 ≤ s.np) (Nat.zero_le n) le_rfl
    fun k s _ _ hs => hs.trans (luColumn_np n k s)

/-- The matrix has a row of zeros. -/
def HasZeroRow {n : ℕ} (A : Matrix (Fin n) (Fin n) K) : Prop := ∃ i, ∀ j, A i j = 0

omit [LinearOrder K] in
theorem HasZeroRow.det_eq_zero {n : ℕ} {A : Matrix (Fin n) (Fin n) K} (h : HasZeroRow A) :
    A.det = 0 := by
  obtain ⟨i, hi⟩ := h
  exact Matrix.det_eq_zero_of_row_eq_zero i hi

theorem luBlock_eq_none_iff [IsStrictOrderedRing K] (n : ℕ) (a : ℕ → K) (idx : ℕ → ℕ) :
    luBlock n a idx = none ↔ HasZeroRow (matrixOf n a) := by
  rw [luBlock, Option.map_eq_none_iff, (rowScales_spec n a).1]
  constructor
  · rintro ⟨i, hi, hzero⟩
    exact ⟨⟨i, hi⟩, fun j => hzero j j.isLt⟩
  · rintro ⟨i, hzero⟩
    exact ⟨i, i.isLt, fun j hj => hzero ⟨j, hj⟩⟩

/-- A nonsingular matrix is decomposed. -/
theorem luBlock_spec [IsStrictOrderedRing K] {n : ℕ} {a : ℕ → K} (idx : ℕ → ℕ)
    (hA : (matrixOf n a).det ≠ 0) :
    ∃ r, luBlock n a idx = some r ∧ LUInvariant (matrixOf n a) n r := by
  cases hscales : rowScales n a with
  | none =>
      have hnone : luBlock n a idx = none := by rw [luBlock, hscales]; rfl
      exact absurd ((luBlock_eq_none_iff n a idx).mp hnone).det_eq_zero hA
  | some scale =>
      refine ⟨_, by rw [luBlock, hscales, Option.map_some], ?_⟩
      apply sweep_induction (motive := fun k (s : LUState K) => LUInvariant (matrixOf n a) k s)
        (Nat.zero_le n)
      · exact ⟨⟨1, 0, Factors.init _, fun _ => rfl, rfl, by simp⟩, (rowScales_spec n a).2 scale hscales,
          fun j hj => absurd hj (Nat.not_lt_zero j)⟩
      · exact fun k s _ hk hs => hs.column hA hk

end Gtoaes
