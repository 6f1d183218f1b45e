import Gtoaes.AMath.LUsolve
import Mathlib.LinearAlgebra.Matrix.NonsingularInverse

/-!
The methods of `AMath` around the decomposition, on an object and the memory. Memory is
in blocks, an array each; a pointer is a block, so that two arrays are the same or have
nothing in common. What a method allocates and releases again is its own, but for the
matrix of `LSFitLinear`, the address of which the object keeps.
-/

namespace Gtoaes

open Lib

variable {P K : Type}

/-- `ludcmp_` -/
structure LUdcmp (P : Type) where
  n : ℤ
  np : ℤ
  luptr : Option P
  idx : ℕ → ℕ

/-- An object and the memory. -/
structure AMath (P K : Type) where
  ludcmp : LUdcmp P
  heap : P → ℕ → K

namespace AMath

/-- A new object. -/
def new (heap : P → ℕ → K) : AMath P K :=
  { ludcmp := { n := -1, np := -1, luptr := none, idx := fun _ => 0 }, heap := heap }

variable [DecidableEq P]

/-- An array, while the array `x` holds `cells`. -/
def array (s : AMath P K) (x : P) (p : P) (cells : ℕ → K) : ℕ → K :=
  if p = x then cells else s.heap p

/-- What `luptr` points to, while the array `x` holds `cells`. -/
def factors [Zero K] (s : AMath P K) (x : P) (cells : ℕ → K) : ℕ → K :=
  match s.ludcmp.luptr with
  | some p => s.array x p cells
  | none => fun _ => 0

variable [Field K] [LinearOrder K]

/-- `LUdcmp(n, a)` -/
def luDcmp (n : ℕ) (a : P) (s : AMath P K) : Bool × AMath P K :=
  match luBlock n (s.heap a) s.ludcmp.idx with
  | none => (false, { s with ludcmp := { s.ludcmp with n := n, np := -1, luptr := some a } })
  | some r =>
      (decide (0 ≤ r.np),
        { ludcmp := { n := n, np := r.np, luptr := some a, idx := r.idx }
          heap := Function.update s.heap a r.a })

/-- `LUsolve(b, x)` -/
def luSolve (b x : P) (s : AMath P K) : Bool × AMath P K :=
  if s.ludcmp.np < 0 then (false, s)
  else
    let n := s.ludcmp.n.toNat
    let copy := if x = b then s.heap x else fun i => if i < n then s.heap b i else s.heap x i
    (true, { s with
      heap := Function.update s.heap x (substitute n (s.factors x) s.ludcmp.idx copy) })

/-- The columns of `LUsolve(m, b, x)`: each is solved in an array of its own. The arrays
of the factors and of the right sides may be that of the solutions. -/
def solveColumns (n m : ℕ) (lu b : (ℕ → K) → ℕ → K) (idx : ℕ → ℕ) (x : ℕ → K) : ℕ → K :=
  sweep 0 m
    (fun j x =>
      let col := substitute n (fun _ => lu x) idx (fun i => b x (i * m + j))
      sweep 0 n (fun i x => Function.update x (i * m + j) (col i)) x)
    x

/-- `LUsolve(m, b, x)` -/
def luSolveColumns (m : ℕ) (b x : P) (s : AMath P K) : Bool × AMath P K :=
  if s.ludcmp.np < 0 then (false, s)
  else
    (true, { s with
      heap := Function.update s.heap x
        (solveColumns s.ludcmp.n.toNat m (s.factors x) (s.array x b) s.ludcmp.idx (s.heap x)) })

/-- `LUDet(n, a)` -/
def luDet (n : ℕ) (a : P) (s : AMath P K) : K × AMath P K :=
  if s.ludcmp.luptr = some a ∧ s.ludcmp.np < 0 then (0, s)
  else
    match luDcmp n a s with
    | (false, s) => (0, s)
    | (true, s) =>
        let t := sweep 0 n (fun i t => t * s.heap a (i * (n + 1))) 1
        (if s.ludcmp.np.tmod 2 ≠ 0 then -t else t, s)

/-- The array `y` of `MatrixInvert`, with ones on its diagonal. -/
def unitArray (n : ℕ) : ℕ → K :=
  sweep 0 n (fun i y => Function.update y (i * (n + 1)) 1) (fun _ => 0)

/-- `MatrixInvert(n, a)` -/
def matrixInvert (n : ℕ) (a : P) (s : AMath P K) : Bool × AMath P K :=
  match luDcmp n a s with
  | (false, s) => (false, s)
  | (true, s) =>
      let y := solveColumns n n (fun _ => s.heap a) id s.ludcmp.idx (unitArray n)
      (true, { s with
        heap := Function.update s.heap a (fun i => if i < n * n then y i else s.heap a i) })

/-- The matrix of `LSFitLinear`. -/
def normalMatrix (m n : ℕ) (x : ℕ → K) : ℕ → K :=
  sweep 0 n
    (fun i a => sweep 0 n
      (fun j a => Function.update a (i * n + j)
        (sweep 0 m (fun k t => t + x (i * m + k) * x (j * m + k)) 0))
      a)
    (fun _ => 0)

/-- Its right side. -/
def normalRight (m n : ℕ) (x y : ℕ → K) : ℕ → K :=
  sweep 0 n (fun i r => Function.update r i (sweep 0 m (fun k t => t + x (i * m + k) * y k) 0))
    (fun _ => 0)

/-- `LSFitLinear(m, n, x, y, c)`, where the matrix is allocated at `fresh`. -/
def lsFitLinear (m n : ℕ) (x y c fresh : P) (s : AMath P K) : Bool × AMath P K :=
  let right := normalRight m n (s.heap x) (s.heap y)
  match luDcmp n fresh { s with heap := Function.update s.heap fresh (normalMatrix m n (s.heap x)) } with
  | (false, s) => (false, s)
  | (true, s) =>
      let copy := fun i => if i < n then right i else s.heap c i
      (true, { s with
        heap := Function.update s.heap c
          (substitute n (fun _ => s.heap fresh) s.ludcmp.idx copy) })

/-! ### After a decomposition -/

/-- The object holds the factors of `A`, which stand at `a`. -/
def Decomposed (n : ℕ) (a : P) (A : Matrix (Fin n) (Fin n) K) (s : AMath P K) : Prop :=
  ∃ r : LUState K, LUInvariant A n r ∧ 0 ≤ r.np ∧
    s.ludcmp = { n := n, np := r.np, luptr := some a, idx := r.idx } ∧ s.heap a = r.a

/-- The decomposition returns false for a zero row, and for nothing else. -/
theorem luDcmp_fst [IsStrictOrderedRing K] (n : ℕ) (a : P) (s : AMath P K) :
    (luDcmp n a s).1 = false ↔ HasZeroRow (matrixOf n (s.heap a)) := by
  rw [← luBlock_eq_none_iff n (s.heap a) s.ludcmp.idx, luDcmp]
  cases hblock : luBlock n (s.heap a) s.ludcmp.idx with
  | none => simp
  | some r => simp [luBlock_np_nonneg hblock]

theorem luDcmp_spec [IsStrictOrderedRing K] {n : ℕ} {a : P} {s : AMath P K}
    (hA : (matrixOf n (s.heap a)).det ≠ 0) :
    (luDcmp n a s).1 = true ∧ Decomposed n a (matrixOf n (s.heap a)) (luDcmp n a s).2 := by
  obtain ⟨r, hblock, hr⟩ := luBlock_spec s.ludcmp.idx hA
  have hnp := luBlock_np_nonneg hblock
  rw [luDcmp, hblock]
  exact ⟨decide_eq_true hnp, r, hr, hnp, rfl, Function.update_self _ _ _⟩

/-- A column of an array of `m` columns. -/
def columnOf (n m j : ℕ) (x : ℕ → K) : Fin n → K := fun i => x (i * m + j)

section Solved

variable {n : ℕ} {a : P} {A : Matrix (Fin n) (Fin n) K} {s : AMath P K}

omit [LinearOrder K] [DecidableEq P] in
/-- A nonsingular system has one solution. -/
theorem mulVec_eq_iff (hA : A.det ≠ 0) {x b : Fin n → K} (hx : A.mulVec x = b) (z : Fin n → K) :
    A.mulVec z = b ↔ z = x := by
  rw [← hx]
  exact (Matrix.mulVec_injective_of_isUnit ((Matrix.isUnit_iff_isUnit_det A).mpr hA.isUnit)).eq_iff

theorem Decomposed.luSolve (h : Decomposed n a A s) (hA : A.det ≠ 0) (b : P) {x : P} (hx : x ≠ a) :
    (luSolve b x s).1 = true ∧
      A.mulVec (vectorOf n ((luSolve b x s).2.heap x)) = vectorOf n (s.heap b) := by
  obtain ⟨r, hr, hnp, hobj, hblock⟩ := h
  have hfactors : s.factors x = fun _ => r.a := by
    ext cells i
    simp only [factors, hobj, array, if_neg hx.symm, hblock]
  have hregular : ¬ s.ludcmp.np < 0 := by
    rw [hobj]
    exact not_lt.mpr hnp
  refine ⟨by rw [AMath.luSolve, if_neg hregular], ?_⟩
  obtain ⟨copy, hcopy⟩ : ∃ copy, (if x = b then s.heap x
      else fun i => if i < s.ludcmp.n.toNat then s.heap b i else s.heap x i) = copy := ⟨_, rfl⟩
  have hresult : (AMath.luSolve b x s).2.heap x = substitute n (fun _ => r.a) r.idx copy := by
    rw [AMath.luSolve, if_neg hregular]
    simp only [Function.update_self, hfactors, hcopy]
    rw [hobj]
    rfl
  have hright : vectorOf n copy = vectorOf n (s.heap b) := by
    ext i
    rw [vectorOf, vectorOf, ← hcopy]
    by_cases hxb : x = b
    · rw [if_pos hxb, hxb]
    · rw [if_neg hxb]
      simp only [hobj, Int.toNat_natCast, i.isLt, if_true]
  rw [hresult, substitute_spec hr hA, hright]

omit [DecidableEq P] [Field K] [LinearOrder K] in
/-- Storing a column leaves the others. -/
theorem store_column (n : ℕ) {m j j' : ℕ} (hj : j < m) (hj' : j' < m) (col x : ℕ → K) (i : ℕ) :
    sweep 0 n (fun i x => Function.update x (i * m + j) (col i)) x (i * m + j') =
      if i < n ∧ j' = j then col i else x (i * m + j') := by
  have hcell : ∀ k, k * m + j = i * m + j' ↔ k = i ∧ j = j' := fun k => cell_inj hj hj'
  split_ifs with h
  · obtain ⟨hi, rfl⟩ := h
    refine sweep_update_self (f := fun i _ => col i) (Nat.zero_le i) hi fun k hik _ => ?_
    rw [Ne.eq_def, hcell]
    omega
  · refine sweep_update_of_ne (f := fun i _ => col i) fun k _ hk => ?_
    rw [Ne.eq_def, hcell]
    rintro ⟨rfl, rfl⟩
    exact h ⟨hk, rfl⟩

/-- Every column of the result solves the system for the column of the right sides, as
it was at first. -/
theorem solveColumns_spec {r : LUState K} (hr : LUInvariant A n r) (hA : A.det ≠ 0) {m : ℕ}
    {lu b : (ℕ → K) → ℕ → K} {x₀ b₀ : ℕ → K} (hlu : ∀ x, lu x = r.a)
    (hb : ∀ x j, j < m → columnOf n m j x = columnOf n m j x₀ →
      columnOf n m j (b x) = columnOf n m j b₀) {j : ℕ} (hj : j < m) :
    A.mulVec (columnOf n m j (solveColumns n m lu b r.idx x₀)) = columnOf n m j b₀ := by
  have hswept : ∀ j < m, if j < m then
      A.mulVec (columnOf n m j (solveColumns n m lu b r.idx x₀)) = columnOf n m j b₀
      else columnOf n m j (solveColumns n m lu b r.idx x₀) = columnOf n m j x₀ := by
    refine sweep_induction (motive := fun k (x : ℕ → K) => ∀ j < m, if j < k then
        A.mulVec (columnOf n m j x) = columnOf n m j b₀ else columnOf n m j x = columnOf n m j x₀)
      (Nat.zero_le m) (fun j _ => by rw [if_neg (Nat.not_lt_zero j)]) fun k x _ hk hx j hj => ?_
    obtain ⟨col, hcol⟩ : ∃ col, substitute n (fun _ => lu x) r.idx (fun i => b x (i * m + k)) = col :=
      ⟨_, rfl⟩
    have hstored : columnOf n m j
          (sweep 0 n (fun i x => Function.update x (i * m + k) (col i)) x) =
        if j = k then vectorOf n col else columnOf n m j x := by
      ext i
      rw [columnOf, store_column n hk hj]
      by_cases hjk : j = k
      · rw [if_pos ⟨i.isLt, hjk⟩, if_pos hjk, vectorOf]
      · rw [if_neg fun h => hjk h.2, if_neg hjk, columnOf]
    have hcurrent := hx j hj
    dsimp only
    rw [hcol, hstored]
    rcases lt_trichotomy j k with h | rfl | h
    · rw [if_pos h] at hcurrent
      rw [if_pos (Nat.lt_succ_of_lt h), if_neg h.ne]
      exact hcurrent
    · rw [if_neg (lt_irrefl j)] at hcurrent
      rw [if_pos (Nat.lt_succ_self j), if_pos rfl, ← hcol, hlu x, substitute_spec hr hA]
      exact hb x j hj hcurrent
    · rw [if_neg h.asymm] at hcurrent
      rw [if_neg (by omega), if_neg h.ne']
      exact hcurrent
  have hcolumn := hswept j hj
  rwa [if_pos hj] at hcolumn

theorem Decomposed.luSolveColumns (h : Decomposed n a A s) (hA : A.det ≠ 0) (m : ℕ) (b : P) {x : P}
    (hx : x ≠ a) :
    (luSolveColumns m b x s).1 = true ∧ ∀ j < m,
      A.mulVec (columnOf n m j ((luSolveColumns m b x s).2.heap x)) = columnOf n m j (s.heap b) := by
  obtain ⟨r, hr, hnp, hobj, hblock⟩ := h
  have hfactors : ∀ cells, s.factors x cells = r.a := by
    intro cells
    simp only [factors, hobj, array, if_neg hx.symm, hblock]
  have hregular : ¬ s.ludcmp.np < 0 := by
    rw [hobj]
    exact not_lt.mpr hnp
  refine ⟨by rw [AMath.luSolveColumns, if_neg hregular], fun j hj => ?_⟩
  have hresult : (AMath.luSolveColumns m b x s).2.heap x =
      solveColumns n m (s.factors x) (s.array x b) r.idx (s.heap x) := by
    rw [AMath.luSolveColumns, if_neg hregular]
    simp only [Function.update_self]
    rw [hobj]
    rfl
  rw [hresult]
  refine solveColumns_spec hr hA hfactors (fun cells j hj hsame => ?_) hj
  rw [array]
  split_ifs with hbx
  · rw [hsame, hbx]
  · rfl

omit [LinearOrder K] in
/-- The unit array holds the unit matrix. -/
theorem unitArray_cell {r c : ℕ} (hr : r < n) (hc : c < n) :
    unitArray n (r * n + c) = if r = c then (1 : K) else 0 := by
  have hcell : ∀ k < n, k * (n + 1) = r * n + c ↔ k = r ∧ k = c := by
    intro k hk
    rw [mul_add_one]
    exact cell_inj hk hc
  rw [unitArray]
  split_ifs with h
  · subst h
    rw [← (hcell r hr).mpr ⟨rfl, rfl⟩]
    refine sweep_update_self (f := fun _ _ => 1) (Nat.zero_le r) hr fun k hrk hk => ?_
    rw [(hcell r hr).mpr ⟨rfl, rfl⟩, Ne.eq_def, hcell k hk]
    omega
  · refine sweep_update_of_ne (f := fun _ _ => 1) fun k _ hk => ?_
    rw [Ne.eq_def, hcell k hk]
    omega

end Solved

section Inverse

variable [IsStrictOrderedRing K]

theorem matrixInvert_spec {n : ℕ} {a : P} {s : AMath P K} (hA : (matrixOf n (s.heap a)).det ≠ 0) :
    (matrixInvert n a s).1 = true ∧
      matrixOf n ((matrixInvert n a s).2.heap a) = (matrixOf n (s.heap a))⁻¹ := by
  obtain ⟨htrue, r, hr, -, hobj, hblock⟩ := luDcmp_spec hA
  obtain ⟨t, ht⟩ : ∃ t, luDcmp n a s = (true, t) := ⟨_, Prod.ext htrue rfl⟩
  rw [ht] at hobj hblock
  obtain ⟨y, hy⟩ : ∃ y, solveColumns n n (fun _ => t.heap a) id t.ludcmp.idx (unitArray n) = y :=
    ⟨_, rfl⟩
  have hinvert : matrixInvert n a s = (true, { t with
      heap := Function.update t.heap a (fun i => if i < n * n then y i else t.heap a i) }) := by
    rw [matrixInvert, ht]
    simp only [hy]
  have hcells : matrixOf n ((matrixInvert n a s).2.heap a) = matrixOf n y := by
    ext i j
    have hcell : i.val * n + j.val < n * n := by
      calc i.val * n + j.val < i.val * n + n := by omega
        _ = (i.val + 1) * n := by ring
        _ ≤ n * n := Nat.mul_le_mul_right n i.isLt
    rw [hinvert]
    simp only [matrixOf, Function.update_self, if_pos hcell]
  refine ⟨by rw [hinvert], ?_⟩
  rw [hcells]
  refine (Matrix.inv_eq_right_inv ?_).symm
  ext i j
  have hcolumn : (matrixOf n (s.heap a)).mulVec (columnOf n n j y) = columnOf n n j (unitArray n) := by
    rw [← hy, hobj]
    exact solveColumns_spec hr hA (fun _ => hblock) (fun _ _ _ h => h) j.isLt
  have hentry := congrFun hcolumn i
  rw [columnOf, unitArray_cell i.isLt j.isLt] at hentry
  rw [Matrix.mul_apply, Matrix.one_apply]
  simp only [Fin.ext_iff]
  exact hentry

/-- A nonsingular matrix is decomposed. While its factors stand at `a`, `LUsolve` brings
the one solution for every right side, and for every column of right sides; only the
array of the solution must not be that of the factors. `MatrixInvert` leaves the inverse. -/
theorem luDcmp_solves {n : ℕ} {a : P} {s : AMath P K} {A : Matrix (Fin n) (Fin n) K}
    (hA : A.det ≠ 0) (ha : matrixOf n (s.heap a) = A) :
    (luDcmp n a s).1 = true ∧
      (∀ t : AMath P K, t.ludcmp = (luDcmp n a s).2.ludcmp →
        t.heap a = (luDcmp n a s).2.heap a → ∀ b x, x ≠ a →
          ((luSolve b x t).1 = true ∧ ∀ z, A.mulVec z = vectorOf n (t.heap b) ↔
            z = vectorOf n ((luSolve b x t).2.heap x)) ∧
          ∀ m, (luSolveColumns m b x t).1 = true ∧
            ∀ j < m, ∀ z, A.mulVec z = columnOf n m j (t.heap b) ↔
              z = columnOf n m j ((luSolveColumns m b x t).2.heap x)) ∧
      (matrixInvert n a s).1 = true ∧ matrixOf n ((matrixInvert n a s).2.heap a) = A⁻¹ := by
  subst ha
  obtain ⟨htrue, r, hr, hnp, hobj, hblock⟩ := luDcmp_spec hA
  refine ⟨htrue, fun t ht hta b x hx => ?_, matrixInvert_spec hA⟩
  have hdecomposed : Decomposed n a (matrixOf n (s.heap a)) t :=
    ⟨r, hr, hnp, ht.trans hobj, hta.trans hblock⟩
  refine ⟨?_, fun m => ?_⟩
  · obtain ⟨hsolved, hresult⟩ := hdecomposed.luSolve hA b hx
    exact ⟨hsolved, mulVec_eq_iff hA hresult⟩
  · obtain ⟨hsolved, hresult⟩ := hdecomposed.luSolveColumns hA m b hx
    exact ⟨hsolved, fun j hj => mulVec_eq_iff hA (hresult j hj)⟩

end Inverse

/-- An object and the rows `[0, 1]` and `[2, 1]`, which must be swapped. -/
def swapped : AMath ℕ ℚ :=
  new fun _ i => if i = 0 then 0 else if i = 2 then 2 else 1

theorem luDcmp_solves_swapped :
    (luDcmp 2 0 swapped).1 = true ∧ (matrixInvert 2 0 swapped).1 = true := by
  have hdet : (matrixOf 2 (swapped.heap 0)).det ≠ 0 := by
    rw [Matrix.det_fin_two]
    norm_num [matrixOf, swapped, new]
  obtain ⟨hdone, -, hinverse, -⟩ := luDcmp_solves hdet rfl
  exact ⟨hdone, hinverse⟩

end AMath

end Gtoaes
