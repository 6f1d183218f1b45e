import Gtoaes.AMath.LinearSystem

/-!
Singular matrices. `LUdcmp` looks for rows of zeros, which are the only singular
matrices it finds: what becomes of the rows in the elimination is not looked at.
-/

namespace Gtoaes

open Lib

variable {P K : Type} [Field K] [LinearOrder K] [IsStrictOrderedRing K] [DecidableEq P]

namespace AMath

theorem matrixInvert_fst (n : ℕ) (a : P) (s : AMath P K) :
    (matrixInvert n a s).1 = false ↔ HasZeroRow (matrixOf n (s.heap a)) := by
  rw [← luDcmp_fst, matrixInvert]
  obtain ⟨ok, t⟩ := luDcmp n a s
  cases ok
  · exact Iff.rfl
  · exact Iff.rfl

omit [LinearOrder K] [IsStrictOrderedRing K] in
/-- An entry of the normal matrix is the product of two basis functions over the
samples. -/
theorem normalMatrix_cell (m : ℕ) {n i j : ℕ} (hi : i < n) (hj : j < n) (x : ℕ → K) :
    normalMatrix m n x (i * n + j) =
      ∑ k ∈ Finset.range m, x (i * m + k) * x (j * m + k) := by
  obtain ⟨f, hf⟩ : ∃ f : ℕ → ℕ → K,
      ∀ i j, f i j = ∑ k ∈ Finset.range m, x (i * m + k) * x (j * m + k) := ⟨_, fun _ _ => rfl⟩
  have hentry : ∀ i j, sweep 0 m (fun k t => t + x (i * m + k) * x (j * m + k)) 0 = f i j := by
    intro i j
    rw [sweep_add (Nat.zero_le m), zero_add, hf, Finset.range_eq_Ico]
  -- a row is stored once, and stays
  have hrow : ∀ (a : ℕ → K) r, sweep 0 n (fun l a => Function.update a (r * n + l) (f r l)) a
      (i * n + j) = if r = i then f i j else a (i * n + j) := by
    intro a r
    split_ifs with h
    · subst h
      refine sweep_update_self (f := fun l _ => f r l) (Nat.zero_le j) hj fun l hjl hl => ?_
      rw [Ne.eq_def, cell_inj hl hj]
      omega
    · refine sweep_update_of_ne (f := fun l _ => f r l) fun l _ hl => ?_
      rw [Ne.eq_def, cell_inj hl hj]
      exact fun heq => h heq.1
  have hswept : normalMatrix m n x (i * n + j) = if i < n then f i j else 0 := by
    simp only [normalMatrix, hentry]
    refine sweep_induction (motive := fun l (z : ℕ → K) => z (i * n + j) = if i < l then f i j else 0)
      (Nat.zero_le n) rfl fun l z _ _ hz => ?_
    rw [hrow, hz]
    split_ifs <;> first | rfl | omega
  rw [hswept, if_pos hi, hf]

/-- A row of the normal matrix is zero where its basis function is zero at every sample:
on the diagonal stands a sum of squares. -/
theorem normalMatrix_hasZeroRow (m n : ℕ) (x : ℕ → K) :
    HasZeroRow (matrixOf n (normalMatrix m n x)) ↔ ∃ i < n, ∀ k < m, x (i * m + k) = 0 := by
  constructor
  · rintro ⟨i, hzero⟩
    refine ⟨i, i.isLt, fun k hk => ?_⟩
    have hdiag := hzero i
    rw [matrixOf, normalMatrix_cell m i.isLt i.isLt,
      Finset.sum_eq_zero_iff_of_nonneg fun k _ => mul_self_nonneg _] at hdiag
    exact mul_self_eq_zero.mp (hdiag k (Finset.mem_range.mpr hk))
  · rintro ⟨i, hi, hzero⟩
    refine ⟨⟨i, hi⟩, fun j => ?_⟩
    rw [matrixOf, normalMatrix_cell m hi j.isLt]
    apply Finset.sum_eq_zero
    intro k hk
    rw [hzero k (Finset.mem_range.mp hk), zero_mul]

theorem lsFitLinear_fst (m n : ℕ) (x y c fresh : P) (s : AMath P K) :
    (lsFitLinear m n x y c fresh s).1 = false ↔ ∃ i < n, ∀ k < m, s.heap x (i * m + k) = 0 := by
  have hblock : ({ s with heap := Function.update s.heap fresh (normalMatrix m n (s.heap x)) } :
      AMath P K).heap fresh = normalMatrix m n (s.heap x) := Function.update_self _ _ _
  rw [← normalMatrix_hasZeroRow, ← hblock, ← luDcmp_fst, lsFitLinear]
  obtain ⟨ok, t⟩ := luDcmp n fresh
    { s with heap := Function.update s.heap fresh (normalMatrix m n (s.heap x)) }
  cases ok
  · exact Iff.rfl
  · exact Iff.rfl

/-- Of the singular matrices, those with a row of zeros are refused, and of the sample
sets with a singular normal matrix those at which a basis function is zero throughout. -/
theorem singular_refused_iff :
    (∀ (n : ℕ) (a : P) (s : AMath P K), (matrixOf n (s.heap a)).det = 0 →
      ((matrixInvert n a s).1 = false ↔ HasZeroRow (matrixOf n (s.heap a)))) ∧
    ∀ (m n : ℕ) (x y c fresh : P) (s : AMath P K),
      (matrixOf n (normalMatrix m n (s.heap x))).det = 0 →
        ((lsFitLinear m n x y c fresh s).1 = false ↔
          ∃ i < n, ∀ k < m, s.heap x (i * m + k) = 0) :=
  ⟨fun n a s _ => matrixInvert_fst n a s,
    fun m n x y c fresh s _ => lsFitLinear_fst m n x y c fresh s⟩

/-- Blocks that are zero throughout are refused. -/
theorem singular_refused_zero :
    (matrixInvert 2 0 (new fun _ _ => 0 : AMath ℕ ℚ)).1 = false ∧
      (lsFitLinear 1 1 0 1 2 3 (new fun _ _ => 0 : AMath ℕ ℚ)).1 = false := by
  have hrefused := singular_refused_iff (P := ℕ) (K := ℚ)
  constructor
  · apply (hrefused.1 2 0 _ _).mpr
    · exact ⟨0, fun _ => rfl⟩
    · exact Matrix.det_eq_zero_of_row_eq_zero 0 fun _ => rfl
  · apply (hrefused.2 1 1 0 1 2 3 _ _).mpr
    · exact ⟨0, Nat.one_pos, fun _ _ => rfl⟩
    · exact HasZeroRow.det_eq_zero
        ((normalMatrix_hasZeroRow 1 1 _).mpr ⟨0, Nat.one_pos, fun _ _ => rfl⟩)

/-- Ones throughout: a singular matrix, and a normal matrix that is singular as there is
one sample for two basis functions. -/
def ones : AMath ℕ ℚ :=
  new fun _ _ => 1

theorem ones_not_refused :
    (matrixOf 2 (ones.heap 0)).det = 0 ∧ (matrixInvert 2 0 ones).1 = true ∧
      (matrixOf 2 (normalMatrix 1 2 (ones.heap 1))).det = 0 ∧
      (lsFitLinear 1 2 1 2 3 4 ones).1 = true := by
  have hnormal : ∀ i j : Fin 2, matrixOf 2 (normalMatrix 1 2 (ones.heap 1)) i j = 1 := by
    intro i j
    rw [matrixOf, normalMatrix_cell 1 i.isLt j.isLt]
    simp [ones, new]
  refine ⟨?_, ?_, ?_, ?_⟩
  · rw [Matrix.det_fin_two]
    norm_num [matrixOf, ones, new]
  · rw [← Bool.not_eq_false, matrixInvert_fst]
    rintro ⟨i, hi⟩
    exact one_ne_zero (hi 0)
  · rw [Matrix.det_fin_two]
    simp only [hnormal]
    norm_num
  · rw [← Bool.not_eq_false, lsFitLinear_fst]
    rintro ⟨i, -, hi⟩
    exact one_ne_zero (hi 0 Nat.one_pos)

end AMath

end Gtoaes
