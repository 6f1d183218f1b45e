import Gtoaes.AMath.Singular
import Gtoaes.Lib.LeastSquares

/-!
Products of matrices, and the linear fit. `MatrixMultiply` copies its factors first, so
that any of the three arrays may be the same; `LSFitLinear` sets up the normal equations,
and where the basis functions are independent solves them for the best coefficients.
-/

namespace Gtoaes

open Lib Matrix

variable {P K : Type} [Field K]

/-- An array of `n` columns. -/
def rectOf (m n : ℕ) (a : ℕ → K) : Matrix (Fin m) (Fin n) K := fun i j => a (i * n + j)

namespace AMath

variable [DecidableEq P]

/-- The result of `MatrixMultiply`, stored row by row. -/
def productCells (m p n : ℕ) (lt rt y : ℕ → K) : ℕ → K :=
  sweep 0 m
    (fun j y => sweep 0 n
      (fun i y => Function.update y (j * n + i)
        (sweep 0 p (fun k sum => sum + lt (j * p + k) * rt (k * n + i)) 0))
      y)
    y

/-- `MatrixMultiply(m, p, n, L, R, Y)` -/
def matrixMultiply (m p n : ℕ) (L R Y : P) (s : AMath P K) : AMath P K :=
  { s with heap := Function.update s.heap Y (productCells m p n (s.heap L) (s.heap R) (s.heap Y)) }

/-! ### Products -/

omit [Field K] in
/-- Rows are stored one after the other: each keeps those before it. -/
theorem sweep_rows {m n r c : ℕ} (f : ℕ → ℕ → K) (hr : r < m) (hc : c < n) (y : ℕ → K) :
    sweep 0 m (fun j y => sweep 0 n (fun i y => Function.update y (j * n + i) (f j i)) y) y
      (r * n + c) = f r c := by
  have hrow : ∀ (y : ℕ → K) j, sweep 0 n (fun i y => Function.update y (j * n + i) (f j i)) y
      (r * n + c) = if j = r then f r c else y (r * n + c) := by
    intro y j
    split_ifs with h
    · subst h
      refine sweep_update_self (f := fun i _ => f j i) (Nat.zero_le c) hc fun i hci hi => ?_
      rw [Ne.eq_def, cell_inj hi hc]
      omega
    · refine sweep_update_of_ne (f := fun i _ => f j i) fun i _ hi => ?_
      rw [Ne.eq_def, cell_inj hi hc]
      exact fun heq => h heq.1
  have hswept : sweep 0 m
      (fun j y => sweep 0 n (fun i y => Function.update y (j * n + i) (f j i)) y) y (r * n + c) =
        if r < m then f r c else y (r * n + c) := by
    refine sweep_induction (motive := fun j (z : ℕ → K) =>
      z (r * n + c) = if r < j then f r c else y (r * n + c)) (Nat.zero_le m) rfl
        fun j z _ _ hz => ?_
    rw [hrow, hz]
    split_ifs <;> first | rfl | omega
  rw [hswept, if_pos hr]

omit [Field K] in
/-- Cells behind the last row are not stored to. -/
theorem sweep_rows_of_le {m n i : ℕ} (f : ℕ → ℕ → K) (hi : m * n ≤ i) (y : ℕ → K) :
    sweep 0 m (fun j y => sweep 0 n (fun i y => Function.update y (j * n + i) (f j i)) y) y i =
      y i := by
  refine sweep_induction (motive := fun _ (z : ℕ → K) => z i = y i) (Nat.zero_le m) rfl
    fun j z _ hj hz => ?_
  rw [← hz]
  refine sweep_update_of_ne (f := fun i _ => f j i) fun l _ hl => ?_
  have hcell : j * n + l < m * n := by
    calc j * n + l < j * n + n := by omega
      _ = (j + 1) * n := by ring
      _ ≤ m * n := Nat.mul_le_mul_right n hj
  omega

theorem rectOf_productCells (m p n : ℕ) (lt rt y : ℕ → K) :
    rectOf m n (productCells m p n lt rt y) = rectOf m p lt * rectOf p n rt := by
  ext i j
  have hentry : ∀ j i : ℕ, sweep 0 p (fun k sum => sum + lt (j * p + k) * rt (k * n + i)) 0 =
      ∑ k ∈ Finset.range p, lt (j * p + k) * rt (k * n + i) := by
    intro j i
    rw [sweep_add (Nat.zero_le p), zero_add, Finset.range_eq_Ico]
  rw [rectOf, productCells, sweep_rows _ i.isLt j.isLt, hentry, Matrix.mul_apply,
    ← Fin.sum_univ_eq_sum_range fun k => lt (i * p + k) * rt (k * n + j)]
  rfl

theorem rectOf_matrixMultiply (m p n : ℕ) (L R Y : P) (s : AMath P K) :
    rectOf m n ((matrixMultiply m p n L R Y s).heap Y) =
      rectOf m p (s.heap L) * rectOf p n (s.heap R) := by
  rw [matrixMultiply, ← rectOf_productCells m p n (s.heap L) (s.heap R) (s.heap Y)]
  simp only [Function.update_self]

/-- What a product leaves as it was. -/
theorem matrixMultiply_frame (m p n : ℕ) (L R Y : P) (s : AMath P K) (q : P) (i : ℕ)
    (hout : q = Y → m * n ≤ i) : (matrixMultiply m p n L R Y s).heap q i = s.heap q i := by
  by_cases hq : q = Y
  · subst hq
    rw [matrixMultiply]
    simp only [Function.update_self]
    exact sweep_rows_of_le _ (hout rfl) _
  · rw [matrixMultiply]
    simp only [Function.update_of_ne hq]

/-! ### Inverses -/

section Ordered

variable [LinearOrder K]

/-- A decomposition leaves the other arrays alone. -/
theorem luDcmp_heap_of_ne {n : ℕ} {a q : P} (hq : q ≠ a) (s : AMath P K) :
    (luDcmp n a s).2.heap q = s.heap q := by
  rw [luDcmp]
  cases luBlock n (s.heap a) s.ludcmp.idx with
  | none => rfl
  | some r => exact Function.update_of_ne hq _ _

theorem matrixInvert_heap_of_ne {n : ℕ} {a q : P} (hq : q ≠ a) (s : AMath P K) :
    (matrixInvert n a s).2.heap q = s.heap q := by
  rw [← luDcmp_heap_of_ne hq s, matrixInvert]
  obtain ⟨ok, t⟩ := luDcmp n a s
  cases ok
  · rfl
  · exact Function.update_of_ne hq _ _

variable [IsStrictOrderedRing K]

/-- `MatrixMultiply` stores the product and nothing else, whichever of its arrays are the
same; and the product of a regular matrix with what `MatrixInvert` makes of its copy is
the unit matrix, from either side and wherever it is stored. -/
theorem matrixMultiply_inPlace (s : AMath P K) :
    (∀ (m p n : ℕ) (L R Y : P),
      rectOf m n ((matrixMultiply m p n L R Y s).heap Y) =
          rectOf m p (s.heap L) * rectOf p n (s.heap R) ∧
        ∀ q i, (q = Y → m * n ≤ i) → (matrixMultiply m p n L R Y s).heap q i = s.heap q i) ∧
    ∀ (n : ℕ) (a b Y : P), a ≠ b → (rectOf n n (s.heap a)).det ≠ 0 →
      rectOf n n (s.heap b) = rectOf n n (s.heap a) →
        rectOf n n ((matrixMultiply n n n a b Y (matrixInvert n a s).2).heap Y) = 1 ∧
          rectOf n n ((matrixMultiply n n n b a Y (matrixInvert n a s).2).heap Y) = 1 := by
  refine ⟨fun m p n L R Y => ⟨rectOf_matrixMultiply m p n L R Y s,
    matrixMultiply_frame m p n L R Y s⟩, fun n a b Y hab hdet hcopy => ?_⟩
  have hinverse : rectOf n n ((matrixInvert n a s).2.heap a) = (rectOf n n (s.heap a))⁻¹ :=
    (matrixInvert_spec hdet).2
  have hkept : rectOf n n ((matrixInvert n a s).2.heap b) = rectOf n n (s.heap a) := by
    rw [matrixInvert_heap_of_ne hab.symm, hcopy]
  rw [rectOf_matrixMultiply, rectOf_matrixMultiply, hinverse, hkept]
  exact ⟨Matrix.nonsing_inv_mul _ hdet.isUnit, Matrix.mul_nonsing_inv _ hdet.isUnit⟩

end Ordered

/-- A product with an inverse, stored over the inverse. -/
theorem matrixMultiply_inPlace_swapped :
    rectOf 2 2 ((matrixMultiply 2 2 2 0 1 0 (matrixInvert 2 0 swapped).2).heap 0) = 1 := by
  have hdet : (rectOf 2 2 (swapped.heap 0)).det ≠ 0 := by
    rw [Matrix.det_fin_two]
    norm_num [rectOf, swapped, new]
  exact ((matrixMultiply_inPlace swapped).2 2 0 1 0 (by decide) hdet rfl).1

section Ordered

variable [LinearOrder K] [IsStrictOrderedRing K]

/-! ### The linear fit -/

omit [LinearOrder K] [IsStrictOrderedRing K] in
theorem matrixOf_normalMatrix (m n : ℕ) (x : ℕ → K) :
    matrixOf n (normalMatrix m n x) = rectOf n m x * (rectOf n m x)ᵀ := by
  ext i j
  rw [matrixOf, normalMatrix_cell m i.isLt j.isLt, Matrix.mul_apply,
    ← Fin.sum_univ_eq_sum_range fun k => x (i * m + k) * x (j * m + k)]
  rfl

omit [LinearOrder K] [IsStrictOrderedRing K] in
theorem vectorOf_normalRight (m n : ℕ) (x y : ℕ → K) :
    vectorOf n (normalRight m n x y) = rectOf n m x *ᵥ vectorOf m y := by
  ext i
  obtain ⟨f, hf⟩ : ∃ f : ℕ → K, ∀ i, f i = ∑ k ∈ Finset.range m, x (i * m + k) * y k :=
    ⟨_, fun _ => rfl⟩
  have hentry : ∀ i, sweep 0 m (fun k t => t + x (i * m + k) * y k) 0 = f i := by
    intro i
    rw [sweep_add (Nat.zero_le m), zero_add, hf, Finset.range_eq_Ico]
  have hcell : normalRight m n x y (id i.val) = f i := by
    simp only [normalRight, hentry]
    exact sweep_update_self (f := fun i _ => f i) (Nat.zero_le _) i.isLt fun j hij _ => hij.ne'
  rw [vectorOf, show normalRight m n x y i = f i from hcell, hf, ← Fin.sum_univ_eq_sum_range fun k => x (i * m + k) * y k]
  rfl

/-- The coefficients solve the normal equations, if they are regular. -/
theorem lsFitLinear_solves {m n : ℕ} {x : P} (y c fresh : P) {s : AMath P K}
    (hdet : (matrixOf n (normalMatrix m n (s.heap x))).det ≠ 0) :
    (lsFitLinear m n x y c fresh s).1 = true ∧
      matrixOf n (normalMatrix m n (s.heap x)) *ᵥ
          vectorOf n ((lsFitLinear m n x y c fresh s).2.heap c) =
        vectorOf n (normalRight m n (s.heap x) (s.heap y)) := by
  obtain ⟨s', hs'⟩ : ∃ s' : AMath P K,
    { s with heap := Function.update s.heap fresh (normalMatrix m n (s.heap x)) } = s' := ⟨_, rfl⟩
  have hblock : s'.heap fresh = normalMatrix m n (s.heap x) := by
    rw [← hs']
    exact Function.update_self _ _ _
  rw [← hblock] at hdet
  obtain ⟨htrue, r, hr, -, hobj, hfactors⟩ := luDcmp_spec hdet
  obtain ⟨t, ht⟩ : ∃ t, luDcmp n fresh s' = (true, t) := ⟨_, Prod.ext htrue rfl⟩
  rw [ht] at hobj hfactors
  dsimp only at hobj hfactors
  have hfit : lsFitLinear m n x y c fresh s = (true, { t with
      heap := Function.update t.heap c (substitute n (fun _ => r.a) r.idx
        fun i => if i < n then normalRight m n (s.heap x) (s.heap y) i else t.heap c i) }) := by
    rw [lsFitLinear, hs', ht]
    dsimp only
    rw [hobj, hfactors]
  have hcopy : vectorOf n (fun i => if i < n then normalRight m n (s.heap x) (s.heap y) i
      else t.heap c i) = vectorOf n (normalRight m n (s.heap x) (s.heap y)) := by
    ext i
    exact if_pos i.isLt
  rw [hfit, ← hblock]
  refine ⟨rfl, ?_⟩
  simp only [Function.update_self]
  rw [substitute_spec hr hdet, hcopy]

omit [IsStrictOrderedRing K] in
/-- A fit stores its coefficients, and its matrix in an array of its own. -/
theorem lsFitLinear_heap_of_ne (m n : ℕ) (x y : P) {c fresh q : P} (hc : q ≠ c) (hfresh : q ≠ fresh)
    (s : AMath P K) : (lsFitLinear m n x y c fresh s).2.heap q = s.heap q := by
  obtain ⟨s', hs'⟩ : ∃ s' : AMath P K,
    { s with heap := Function.update s.heap fresh (normalMatrix m n (s.heap x)) } = s' := ⟨_, rfl⟩
  have hkept : (luDcmp n fresh s').2.heap q = s.heap q := by
    rw [luDcmp_heap_of_ne hfresh, ← hs']
    exact Function.update_of_ne hfresh _ _
  rw [lsFitLinear, hs', ← hkept]
  obtain ⟨ok, t⟩ := luDcmp n fresh s'
  cases ok
  · rfl
  · exact Function.update_of_ne hc _ _

/-- Where no basis function is a combination of the others at the samples, the fit
succeeds, and its coefficients are those with the least sum of squares, and no others
are. It may store them over the samples. -/
theorem lsFitLinear_minimises {m n : ℕ} {x : P} (y c fresh : P) {s : AMath P K}
    (hindep : ∀ z, z ᵥ* rectOf n m (s.heap x) = 0 → z = 0) :
    (lsFitLinear m n x y c fresh s).1 = true ∧
      (∀ z, (∀ z', deviation (rectOf n m (s.heap x)) (vectorOf m (s.heap y)) z ≤
          deviation (rectOf n m (s.heap x)) (vectorOf m (s.heap y)) z') ↔
        z = vectorOf n ((lsFitLinear m n x y c fresh s).2.heap c)) ∧
      ∀ q, q ≠ c → q ≠ fresh → (lsFitLinear m n x y c fresh s).2.heap q = s.heap q := by
  have hdet : (matrixOf n (normalMatrix m n (s.heap x))).det ≠ 0 := by
    rw [matrixOf_normalMatrix]
    exact det_normal_ne_zero hindep
  obtain ⟨htrue, hsolves⟩ := lsFitLinear_solves y c fresh hdet
  rw [matrixOf_normalMatrix, vectorOf_normalRight, normalEquations_iff] at hsolves
  refine ⟨htrue, fun z => ⟨fun hleast => ?_, ?_⟩,
    fun q hc hfresh => lsFitLinear_heap_of_ne m n x y hc hfresh s⟩
  · exact eq_of_deviation_le hindep hsolves (hleast _)
  · rintro rfl
    exact deviation_le hsolves

end Ordered

/-- Two samples of the functions `1` and `k`, one for each row. -/
def lineSamples : AMath ℕ ℚ := new fun _ i => if i = 2 then 0 else 1

theorem lsFitLinear_minimises_line : (lsFitLinear 2 2 0 1 2 3 lineSamples).1 = true := by
  refine (lsFitLinear_minimises (m := 2) (n := 2) (x := 0) 1 2 3 fun z hz => ?_).1
  have hfirst := congrFun hz 0
  have hsecond := congrFun hz 1
  simp only [Matrix.vecMul, dotProduct, Fin.sum_univ_two, rectOf, lineSamples, new] at hfirst hsecond
  ext i
  fin_cases i
  · simpa using hfirst
  · simp at hfirst
    simpa [hfirst] using hsecond

end AMath

end Gtoaes
