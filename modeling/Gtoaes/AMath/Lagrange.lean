import Gtoaes.Lib.Sweep
import Mathlib.LinearAlgebra.Lagrange

/-!
`Lagrange` of `AMath.cpp`: interpolation from a window of nodes about each point. The
numbers are exact, and the output is not among the inputs.
-/

namespace Gtoaes.AMath

open Lib Polynomial

variable {K : Type} [Field K] [LinearOrder K]

/-- `OD`, at least 2 and at most the number of nodes. -/
def lagrangeOrder (N : ℕ) (OD : ℤ) : ℤ :=
  let OD := if OD < 2 then 2 else OD
  if OD > N then N else OD

/-- The first node above `x`, or their number. -/
def firstAbove (N : ℕ) (XI : ℕ → K) (x : K) : ℕ := (List.range N).findIdx fun j => XI j > x

/-- `SI` and `EI`, the first and the last node of the window. -/
def lagrangeWindow (N : ℕ) (XI : ℕ → K) (OD : ℤ) (x : K) : ℤ × ℤ :=
  let OH := OD.tdiv 2
  let SI := firstAbove N XI x - OH
  let EI := SI + OD - 1
  let (SI, EI) := if SI < 0 then (0, OD - 1) else (SI, EI)
  if EI ≥ N then (N - 1 - OD + 1, N - 1) else (SI, EI)

/-- `t0` after the loop over the window. -/
def lagrangeSum (XI YI : ℕ → K) (SI EI : ℕ) (x : K) : K :=
  sweep SI (EI + 1)
    (fun i t0 =>
      let t1 := sweep SI i (fun j t1 => t1 * (x - XI j) / (XI i - XI j)) 1
      let t1 := sweep (i + 1) (EI + 1) (fun j t1 => t1 * (x - XI j) / (XI i - XI j)) t1
      t0 + t1 * YI i)
    0

/-- `Lagrange`; `YO` is the output. -/
def lagrange (N : ℕ) (XI YI : ℕ → K) (OD : ℤ) (M : ℕ) (XO YO : ℕ → K) : ℕ → K :=
  sweep 0 M
    (fun k YO =>
      let (SI, EI) := lagrangeWindow N XI (lagrangeOrder N OD) (XO k)
      Function.update YO k (lagrangeSum XI YI SI.toNat EI.toNat (XO k)))
    YO

example : lagrange 4 (fun i => (i : ℚ)) (fun i => (i : ℚ) ^ 2) 3 1 (fun _ => 7 / 2) (fun _ => 0) 0 =
    49 / 4 := by decide +kernel

/-! ### The window -/

theorem lagrangeOrder_eq {N : ℕ} (OD : ℤ) : lagrangeOrder N OD = min (max OD 2) N := by
  simp only [lagrangeOrder]
  split_ifs <;> omega

omit [Field K] in
theorem firstAbove_le (N : ℕ) (XI : ℕ → K) (x : K) : firstAbove N XI x ≤ N := by
  have hle : firstAbove N XI x ≤ (List.range N).length := List.findIdx_le_length
  rwa [List.length_range] at hle

omit [Field K] in
/-- The window lies among the nodes and has as many of them as the order. -/
theorem lagrangeWindow_mem {N : ℕ} {OD : ℤ} (hOD : 0 < OD ∧ OD ≤ N) (XI : ℕ → K) (x : K) :
    0 ≤ (lagrangeWindow N XI OD x).1 ∧ (lagrangeWindow N XI OD x).2 ≤ N - 1 ∧
      (lagrangeWindow N XI OD x).2 - (lagrangeWindow N XI OD x).1 + 1 = OD := by
  have hfirst := firstAbove_le N XI x
  obtain ⟨SI, hSI⟩ : ∃ SI, (firstAbove N XI x : ℤ) - OD.tdiv 2 = SI := ⟨_, rfl⟩
  rw [lagrangeWindow, hSI]
  rw [Int.tdiv_eq_ediv_of_nonneg (by omega)] at hSI
  by_cases hneg : SI < 0
  · simp only [if_pos hneg]
    split_ifs <;> omega
  · simp only [if_neg hneg]
    split_ifs <;> omega

/-! ### The value -/

omit [LinearOrder K] in
/-- The loop adds the Lagrange basis at the nodes of the window. -/
theorem lagrangeSum_eq (XI YI : ℕ → K) {SI EI : ℕ} (hle : SI ≤ EI + 1) (x : K) :
    lagrangeSum XI YI SI EI x =
      (Lagrange.interpolate (Finset.Ico SI (EI + 1)) XI YI).eval x := by
  have hbasis : ∀ i ∈ Finset.Ico SI (EI + 1),
      sweep (i + 1) (EI + 1) (fun j t1 => t1 * (x - XI j) / (XI i - XI j))
        (sweep SI i (fun j t1 => t1 * (x - XI j) / (XI i - XI j)) 1) =
      (Lagrange.basis (Finset.Ico SI (EI + 1)) XI i).eval x := by
    intro i hi
    obtain ⟨hlow, hhigh⟩ := Finset.mem_Ico.mp hi
    simp only [mul_div_assoc]
    rw [sweep_mul hlow, sweep_mul hhigh, one_mul, Lagrange.basis, eval_prod]
    have hdisjoint : Disjoint (Finset.Ico SI i) (Finset.Ico (i + 1) (EI + 1)) := by
      refine Finset.disjoint_left.mpr fun j hj hj' => ?_
      rw [Finset.mem_Ico] at hj hj'
      omega
    have hothers : (Finset.Ico SI (EI + 1)).erase i =
        Finset.Ico SI i ∪ Finset.Ico (i + 1) (EI + 1) := by
      ext j
      simp only [Finset.mem_erase, Finset.mem_union, Finset.mem_Ico]
      omega
    rw [hothers, Finset.prod_union hdisjoint]
    simp [Lagrange.basisDivisor, div_eq_inv_mul]
  rw [lagrangeSum, sweep_add hle, zero_add, Lagrange.interpolate_apply, eval_finsetSum]
  refine Finset.sum_congr rfl fun i hi => ?_
  rw [eval_mul, eval_C, ← hbasis i hi, mul_comm]

omit [LinearOrder K] in
/-- With more nodes than its degree, a polynomial is its interpolation. -/
theorem lagrangeSum_eq_eval {XI YI : ℕ → K} {SI EI : ℕ} (hle : SI ≤ EI + 1)
    (hinj : Set.InjOn XI (Finset.Ico SI (EI + 1))) {P : K[X]} (hP : P.degree < (EI + 1 - SI : ℕ))
    (hYI : ∀ i ∈ Finset.Ico SI (EI + 1), YI i = P.eval (XI i)) (x : K) :
    lagrangeSum XI YI SI EI x = P.eval x := by
  rw [← Nat.card_Ico] at hP
  rw [lagrangeSum_eq XI YI hle,
    ← Lagrange.eq_interpolate_of_eval_eq YI hinj hP fun i hi => (hYI i hi).symm]

/-- What is stored for a point stays. -/
theorem lagrange_apply {N : ℕ} (XI YI : ℕ → K) (OD : ℤ) {M k : ℕ} (hk : k < M) (XO YO : ℕ → K) :
    lagrange N XI YI OD M XO YO k =
      lagrangeSum XI YI (lagrangeWindow N XI (lagrangeOrder N OD) (XO k)).1.toNat
        (lagrangeWindow N XI (lagrangeOrder N OD) (XO k)).2.toNat (XO k) := by
  have hcell : ∀ j, k < j → j < M → id j ≠ id k := fun j hkj _ => hkj.ne'
  exact sweep_update_self (Nat.zero_le k) hk hcell

/-- The window of every point lies among the nodes, with as many of them as the order
says, and a polynomial of a lower degree is reproduced. -/
theorem lagrange_exact {N : ℕ} (hN : 1 ≤ N) {XI : ℕ → K}
    (hXI : ∀ i j, i < j → j < N → XI i < XI j) (YI : ℕ → K) (OD : ℤ) (M : ℕ) (XO YO : ℕ → K) :
    (∀ x, 0 ≤ (lagrangeWindow N XI (lagrangeOrder N OD) x).1 ∧
      (lagrangeWindow N XI (lagrangeOrder N OD) x).2 ≤ N - 1 ∧
      (lagrangeWindow N XI (lagrangeOrder N OD) x).2 -
        (lagrangeWindow N XI (lagrangeOrder N OD) x).1 + 1 = min (max OD 2) N) ∧
    ∀ P : K[X], P.degree < (min (max OD 2) N).toNat → (∀ i < N, YI i = P.eval (XI i)) →
      ∀ k < M, lagrange N XI YI OD M XO YO k = P.eval (XO k) := by
  have horder : lagrangeOrder N OD = min (max OD 2) N := lagrangeOrder_eq OD
  have hbound : 1 ≤ lagrangeOrder N OD ∧ lagrangeOrder N OD ≤ N := by omega
  have hwindow := lagrangeWindow_mem hbound XI
  refine ⟨fun x => by rw [← horder]; exact hwindow x, fun P hP hYI k hk => ?_⟩
  obtain ⟨hlow, hhigh, hcount⟩ := hwindow (XO k)
  rw [lagrange_apply XI YI OD hk]
  obtain ⟨w, hw⟩ : ∃ w, lagrangeWindow N XI (lagrangeOrder N OD) (XO k) = w := ⟨_, rfl⟩
  rw [hw] at hlow hhigh hcount ⊢
  have hinside : ∀ i ∈ Finset.Ico w.1.toNat (w.2.toNat + 1), i < N := by
    intro i hi
    rw [Finset.mem_Ico] at hi
    omega
  apply lagrangeSum_eq_eval (by omega)
  · intro i hi j hj hij
    have hiN := hinside i hi
    have hjN := hinside j hj
    rcases lt_trichotomy i j with hlt | heq | hgt
    · exact absurd hij (hXI i j hlt hjN).ne
    · exact heq
    · exact absurd hij (hXI j i hgt hiN).ne'
  · rwa [show w.2.toNat + 1 - w.1.toNat = (min (max OD 2) N).toNat by omega]
  · exact fun i hi => hYI i (hinside i hi)

/-- The middle of a line between two nodes. -/
theorem lagrange_exact_line :
    lagrange 2 (fun i => (i : ℚ)) (fun i => (i : ℚ)) 0 1 (fun _ => 1 / 2) (fun _ => 0) 0 = 1 / 2 := by
  have hXI : ∀ i j, i < j → j < 2 → ((i : ℕ) : ℚ) < (j : ℕ) := fun i j hij _ => by exact_mod_cast hij
  have h := (lagrange_exact (by decide : 1 ≤ 2) hXI (fun i => (i : ℚ)) 0 1 (fun _ => 1 / 2)
    (fun _ => 0)).2 X (by rw [degree_X]; decide) (fun i _ => by rw [eval_X]) 0 (by decide)
  rwa [eval_X] at h

end Gtoaes.AMath
