import Gtoaes.AMath.LUdcmp

/-!
The substitutions of `LUsolve`. The right side is brought into the order of the rows
while it is substituted forward, one swap before each row; the leading zeros of what
comes out are skipped in the sums.
-/

namespace Gtoaes

open Lib

variable {K : Type} [Field K] [DecidableEq K]

/-- The first loop, with `ii` and the array `x`. The factors are read from `lu`, which may
be the array itself. -/
def forwardStep (n : ℕ) (lu : (ℕ → K) → ℕ → K) (idx : ℕ → ℕ) (i : ℕ) (s : ℕ × (ℕ → K)) :
    ℕ × (ℕ → K) :=
  let k := idx i
  let sum := s.2 k
  let x := Function.update s.2 k (s.2 i)
  if s.1 ≠ 0 then
    (s.1, Function.update x i (sweep (s.1 - 1) i (fun j sum => sum - lu x (i * n + j) * x j) sum))
  else (if sum ≠ 0 then i + 1 else 0, Function.update x i sum)

/-- The second loop. -/
def backwardStep (n : ℕ) (lu : (ℕ → K) → ℕ → K) (i : ℕ) (x : ℕ → K) : ℕ → K :=
  Function.update x i
    (sweep (i + 1) n (fun j sum => sum - lu x (i * n + j) * x j) (x i) / lu x (i * n + i))

/-- `LUsolve` from the copy of `b` in `x` on. -/
def substitute (n : ℕ) (lu : (ℕ → K) → ℕ → K) (idx : ℕ → ℕ) (x : ℕ → K) : ℕ → K :=
  sweepDown (backwardStep n lu) n (sweep 0 n (forwardStep n lu idx) (0, x)).2

/-! ### Forward -/

/-- Before row `i`: `y` stands in front of it, solved; behind it the right side has been
brought into order so far. -/
structure ForwardInvariant (n : ℕ) (lu : ℕ → K) (idx : ℕ → ℕ) (b : ℕ → K) (i : ℕ)
    (s : ℕ × (ℕ → K)) : Prop where
  solved : ∀ r < i, (∑ j ∈ Finset.range r, lu (r * n + j) * s.2 j) + s.2 r = b (rowOrder idx (r + 1) r)
  open_rows : ∀ r, i ≤ r → r < n → s.2 r = b (rowOrder idx i r)
  leading : ∀ r, r < (if s.1 = 0 then i else s.1 - 1) → s.2 r = 0
  first_le : s.1 ≤ i

/-- What a pass stores in its row, whether or not it skips zeros. -/
theorem ForwardInvariant.forwardStep_snd {n : ℕ} {lu : ℕ → K} {idx : ℕ → ℕ} {b : ℕ → K} {i : ℕ}
    {s : ℕ × (ℕ → K)} (h : ForwardInvariant n lu idx b i s) (hidx : i ≤ idx i) :
    (forwardStep n (fun _ => lu) idx i s).2 =
      Function.update (Function.update s.2 (idx i) (s.2 i)) i
        (s.2 (idx i) - ∑ j ∈ Finset.range i, lu (i * n + j) * s.2 j) := by
  have hkept : ∀ j < i, Function.update s.2 (idx i) (s.2 i) j = s.2 j := fun j hj =>
    Function.update_of_ne (by omega) _ _
  have hleading := h.leading
  by_cases hii : s.1 = 0
  · rw [if_pos hii] at hleading
    have hsum : ∑ j ∈ Finset.range i, lu (i * n + j) * s.2 j = 0 :=
      Finset.sum_eq_zero fun j hj => by rw [hleading j (Finset.mem_range.mp hj), mul_zero]
    simp only [forwardStep, hii, ne_eq, not_true_eq_false, if_false, hsum, sub_zero]
  · rw [if_neg hii] at hleading
    have hfirst : s.1 - 1 ≤ i := by
      have := h.first_le
      omega
    have hsum : ∑ j ∈ Finset.range i, lu (i * n + j) * s.2 j =
        ∑ j ∈ Finset.Ico (s.1 - 1) i,
          lu (i * n + j) * Function.update s.2 (idx i) (s.2 i) j := by
      rw [← Finset.sum_range_add_sum_Ico _ hfirst, Finset.sum_eq_zero fun j hj => ?_, zero_add]
      · exact Finset.sum_congr rfl fun j hj => by rw [hkept j (Finset.mem_Ico.mp hj).2]
      · rw [hleading j (Finset.mem_range.mp hj), mul_zero]
    simp only [forwardStep, ne_eq, hii, not_false_eq_true, if_true]
    rw [sweep_sub hfirst, hsum]

theorem ForwardInvariant.step {n : ℕ} {lu : ℕ → K} {idx : ℕ → ℕ} {b : ℕ → K} {i : ℕ}
    {s : ℕ × (ℕ → K)} (h : ForwardInvariant n lu idx b i s) (hi : i < n)
    (hidx : i ≤ idx i ∧ idx i < n) :
    ForwardInvariant n lu idx b (i + 1) (forwardStep n (fun _ => lu) idx i s) := by
  have hstored := h.forwardStep_snd hidx.1
  obtain ⟨y, hy⟩ : ∃ y, s.2 (idx i) - ∑ j ∈ Finset.range i, lu (i * n + j) * s.2 j = y := ⟨_, rfl⟩
  rw [hy] at hstored
  have hkept : ∀ j < i, (forwardStep n (fun _ => lu) idx i s).2 j = s.2 j := by
    intro j hj
    rw [hstored, Function.update_of_ne (by omega), Function.update_of_ne (by omega)]
  have hnew : (forwardStep n (fun _ => lu) idx i s).2 i = y := by
    rw [hstored, Function.update_self]
  have hcount : (forwardStep n (fun _ => lu) idx i s).1 =
      if s.1 = 0 then if s.2 (idx i) = 0 then 0 else i + 1 else s.1 := by
    simp only [forwardStep]
    split_ifs <;> simp_all
  have hleading := h.leading
  have hfirst := h.first_le
  refine ⟨fun r hr => ?_, fun r hlow hr => ?_, fun r hr => ?_, ?_⟩
  · have hsum : ∀ r ≤ i, ∑ j ∈ Finset.range r,
          lu (r * n + j) * (forwardStep n (fun _ => lu) idx i s).2 j =
        ∑ j ∈ Finset.range r, lu (r * n + j) * s.2 j := by
      intro r hr
      refine Finset.sum_congr rfl fun j hj => ?_
      rw [hkept j (by have := Finset.mem_range.mp hj; omega)]
    rw [hsum r (by omega)]
    rcases Nat.lt_succ_iff_lt_or_eq.mp hr with hlt | rfl
    · rw [hkept r hlt, h.solved r hlt]
    · rw [hnew, ← hy, rowOrder, Equiv.Perm.mul_apply, Equiv.swap_apply_left,
        ← h.open_rows (idx r) hidx.1 hidx.2]
      ring
  · -- the row that was swapped away stands where the other one stood
    rw [hstored, Function.update_of_ne (by omega), rowOrder, Equiv.Perm.mul_apply,
      Function.update_apply]
    by_cases hrk : r = idx i
    · rw [if_pos hrk, hrk, Equiv.swap_apply_right, h.open_rows i le_rfl hi]
    · rw [if_neg hrk, Equiv.swap_apply_of_ne_of_ne (by omega) hrk, h.open_rows r (by omega) hr]
  · rw [hcount] at hr
    by_cases hii : s.1 = 0
    · rw [if_pos hii] at hr hleading
      by_cases hsum : s.2 (idx i) = 0
      · rw [if_pos hsum, if_pos rfl] at hr
        rcases Nat.lt_succ_iff_lt_or_eq.mp hr with hlt | rfl
        · rw [hkept r hlt, hleading r hlt]
        · rw [hnew, ← hy, hsum, zero_sub, neg_eq_zero]
          exact Finset.sum_eq_zero fun j hj => by rw [hleading j (Finset.mem_range.mp hj), mul_zero]
      · rw [if_neg hsum, if_neg (Nat.succ_ne_zero i)] at hr
        have hlt : r < i := by omega
        rw [hkept r hlt, hleading r hlt]
    · rw [if_neg hii, if_neg hii] at hr
      rw [if_neg hii] at hleading
      rw [hkept r (by omega), hleading r hr]
  · rw [hcount]
    split_ifs <;> omega

theorem forward_spec {n : ℕ} (lu : ℕ → K) {idx : ℕ → ℕ} (b : ℕ → K)
    (hidx : ∀ j < n, j ≤ idx j ∧ idx j < n) :
    ForwardInvariant n lu idx b n (sweep 0 n (forwardStep n (fun _ => lu) idx) (0, b)) := by
  apply sweep_induction (motive := fun i s => ForwardInvariant n lu idx b i s) (Nat.zero_le n)
  · exact ⟨fun r hr => absurd hr (Nat.not_lt_zero r), fun _ _ _ => rfl,
      fun r hr => absurd hr (Nat.not_lt_zero r), le_rfl⟩
  · exact fun i s _ hi hs => hs.step hi (hidx i hi)

/-! ### Backward -/

/-- After row `i`: the solution from there on, and `y` in front of it. -/
structure BackwardInvariant (n : ℕ) (lu : ℕ → K) (y : ℕ → K) (i : ℕ) (x : ℕ → K) : Prop where
  solved : ∀ r, i ≤ r → r < n →
    lu (r * n + r) * x r + ∑ j ∈ Finset.Ico (r + 1) n, lu (r * n + j) * x j = y r
  open_rows : ∀ r < i, x r = y r

omit [DecidableEq K] in
theorem BackwardInvariant.step {n : ℕ} {lu : ℕ → K} {y : ℕ → K} {i : ℕ} {x : ℕ → K}
    (h : BackwardInvariant n lu y (i + 1) x) (hi : i < n) (hdiag : lu (i * n + i) ≠ 0) :
    BackwardInvariant n lu y i (backwardStep n (fun _ => lu) i x) := by
  have hkept : ∀ j, j ≠ i → backwardStep n (fun _ => lu) i x j = x j := fun j hj =>
    Function.update_of_ne hj _ _
  have hsum : ∀ r, i ≤ r → ∑ j ∈ Finset.Ico (r + 1) n,
        lu (r * n + j) * backwardStep n (fun _ => lu) i x j =
      ∑ j ∈ Finset.Ico (r + 1) n, lu (r * n + j) * x j := by
    intro r hr
    refine Finset.sum_congr rfl fun j hj => ?_
    rw [hkept j (by have := (Finset.mem_Ico.mp hj).1; omega)]
  refine ⟨fun r hlow hr => ?_, fun r hr => ?_⟩
  · rw [hsum r hlow]
    by_cases hri : r = i
    · subst hri
      have hnew : backwardStep n (fun _ => lu) r x r =
          (x r - ∑ j ∈ Finset.Ico (r + 1) n, lu (r * n + j) * x j) / lu (r * n + r) := by
        rw [backwardStep, Function.update_self, sweep_sub hi]
      rw [hnew, mul_div_cancel₀ _ hdiag, sub_add_cancel, h.open_rows r (Nat.lt_succ_self r)]
    · rw [hkept r hri, h.solved r (by omega) hr]
  · rw [hkept r hr.ne, h.open_rows r (by omega)]

omit [DecidableEq K] in
theorem backward_spec {n : ℕ} {lu : ℕ → K} (y : ℕ → K) (hdiag : ∀ i < n, lu (i * n + i) ≠ 0) :
    BackwardInvariant n lu y 0 (sweepDown (backwardStep n (fun _ => lu)) n y) := by
  apply sweepDown_induction (motive := fun i x => BackwardInvariant n lu y i x)
  · exact ⟨fun r hlow hr => absurd hr (not_lt.mpr hlow), fun _ _ => rfl⟩
  · exact fun i x hi hx => hx.step hi (hdiag i hi)

/-! ### The solution -/

/-- Later swaps leave a row in its place. -/
theorem rowOrder_apply {n : ℕ} {idx : ℕ → ℕ} (hidx : ∀ j < n, j ≤ idx j ∧ idx j < n) {i m : ℕ}
    (hi : i < m) (hm : m ≤ n) : rowOrder idx m i = rowOrder idx (i + 1) i := by
  induction m with
  | zero => exact absurd hi (Nat.not_lt_zero i)
  | succ m ih =>
      rcases Nat.lt_succ_iff_lt_or_eq.mp hi with hlt | rfl
      · have hlow := (hidx m hm).1
        rw [rowOrder, Equiv.Perm.mul_apply, Equiv.swap_apply_of_ne_of_ne (by omega) (by omega),
          ih hlt (Nat.le_of_succ_le hm)]
      · rfl

omit [DecidableEq K] in
theorem sum_lt_eq_range {n : ℕ} (i : Fin n) (f : ℕ → K) :
    (∑ j : Fin n, if j < i then f j else 0) = ∑ j ∈ Finset.range i, f j := by
  have hindex : (∑ j : Fin n, if j < i then f j else 0) =
      ∑ j ∈ Finset.range n, if j < i.val then f j else 0 :=
    Fin.sum_univ_eq_sum_range (fun j => if j < i.val then f j else 0) n
  rw [hindex, ← Finset.sum_filter]
  refine Finset.sum_congr (Finset.ext fun j => ?_) fun _ _ => rfl
  simp only [Finset.mem_filter, Finset.mem_range]
  omega

omit [DecidableEq K] in
theorem sum_gt_eq_Ico {n : ℕ} (i : Fin n) (f : ℕ → K) :
    (∑ j : Fin n, if i < j then f j else 0) = ∑ j ∈ Finset.Ico (i.val + 1) n, f j := by
  have hindex : (∑ j : Fin n, if i < j then f j else 0) =
      ∑ j ∈ Finset.range n, if i.val < j then f j else 0 :=
    Fin.sum_univ_eq_sum_range (fun j => if i.val < j then f j else 0) n
  rw [hindex, ← Finset.sum_filter]
  refine Finset.sum_congr (Finset.ext fun j => ?_) fun _ _ => rfl
  simp only [Finset.mem_filter, Finset.mem_range, Finset.mem_Ico]
  omega

/-- The first cells of a block, as a vector. -/
def vectorOf (n : ℕ) (x : ℕ → K) : Fin n → K := fun i => x i

end Gtoaes

namespace Gtoaes

open Lib

variable {K : Type} [Field K] [LinearOrder K]

/-- With the factors of a nonsingular matrix, the system is solved. -/
theorem substitute_spec {n : ℕ} {A : Matrix (Fin n) (Fin n) K} {s : LUState K}
    (h : LUInvariant A n s) (hA : A.det ≠ 0) (b : ℕ → K) :
    A.mulVec (vectorOf n (substitute n (fun _ => s.a) s.idx b)) = vectorOf n b := by
  obtain ⟨σ, m, hfactors, horder, -⟩ := h.factors
  have hforward := forward_spec s.a b h.idx_mem
  have hback := backward_spec (sweep 0 n (forwardStep n (fun _ => s.a) s.idx) (0, b)).2
    (fun i hi => hfactors.diag_ne_zero hA ⟨i, hi⟩)
  apply hfactors.mulVec_eq
    (y := vectorOf n (sweep 0 n (forwardStep n (fun _ => s.a) s.idx) (0, b)).2)
  · intro i
    have hrow := hforward.solved i i.isLt
    rw [← rowOrder_apply h.idx_mem i.isLt le_rfl, ← horder i] at hrow
    rw [← sum_lt_eq_range i] at hrow
    exact hrow
  · intro i
    have hrow := hback.solved i (Nat.zero_le _) i.isLt
    rw [← sum_gt_eq_Ico i] at hrow
    exact hrow

end Gtoaes
