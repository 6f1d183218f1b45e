import Gtoaes.AMath.Singular
import Gtoaes.Lib.Machine

/-!
`LUDet` in a run of calls on one object. Its value is the determinant where the
decomposition finds every pivot, and where it fails. Where the object remembers a failed
decomposition at the same address, it is zero for whatever stands there by now.
-/

namespace Gtoaes

open Lib

variable {P K : Type} [Field K] [LinearOrder K] [DecidableEq P]

namespace AMath

/-- The last decomposition failed, and was at `a`. -/
def FailedAt (a : P) (s : AMath P K) : Prop := s.ludcmp.luptr = some a ∧ s.ludcmp.np < 0

instance (a : P) (s : AMath P K) : Decidable (FailedAt a s) :=
  inferInstanceAs (Decidable (_ ∧ _))

omit [LinearOrder K] [DecidableEq P] in
/-- The product of the pivots. -/
theorem diagonal_product (n : ℕ) (a : ℕ → K) :
    sweep 0 n (fun i t => t * a (i * (n + 1))) 1 = ∏ i, matrixOf n a i i := by
  rw [sweep_mul (Nat.zero_le n) (fun i => a (i * (n + 1))), one_mul, ← Finset.range_eq_Ico, ← Fin.prod_univ_eq_prod_range]
  refine Finset.prod_congr rfl fun i _ => ?_
  rw [matrixOf, mul_add_one]

omit [Field K] [LinearOrder K] [DecidableEq P] in
/-- `np % 2` of a count. -/
theorem tmod_two_ne_zero_iff (m : ℕ) : (m : ℤ).tmod 2 ≠ 0 ↔ ¬ Even m := by
  rw [Int.tmod_eq_emod_of_nonneg (Int.natCast_nonneg m), Nat.even_iff]
  omega

theorem luDet_of_failedAt {n : ℕ} {a : P} {s : AMath P K} (h : FailedAt a s) :
    luDet n a s = (0, s) := if_pos h

section Ordered

variable [IsStrictOrderedRing K] {n : ℕ} {a : P} {s : AMath P K}

theorem luDet_of_det_ne_zero (h : ¬ FailedAt a s) (hA : (matrixOf n (s.heap a)).det ≠ 0) :
    (luDet n a s).1 = (matrixOf n (s.heap a)).det := by
  obtain ⟨htrue, r, hr, -, hobj, hblock⟩ := luDcmp_spec hA
  obtain ⟨t, ht⟩ : ∃ t, luDcmp n a s = (true, t) := ⟨_, Prod.ext htrue rfl⟩
  rw [ht] at hobj hblock
  obtain ⟨σ, m, hfactors, -, hnp, hsign⟩ := hr.factors
  have hnp' : t.ludcmp.np = m := by
    rw [hobj]
    exact hnp
  rw [luDet, if_neg (by exact h), ht]
  simp only [diagonal_product, hnp', tmod_two_ne_zero_iff]
  rw [hfactors.det_eq, hsign, hblock]
  -- an odd number of swaps turns the sign
  by_cases hm : Even m
  · rw [if_neg (not_not_intro hm), hm.neg_one_pow]
    simp
  · rw [if_pos hm, (Nat.not_even_iff_odd.mp hm).neg_one_pow]
    simp

theorem luDet_of_hasZeroRow (hzero : HasZeroRow (matrixOf n (s.heap a))) : (luDet n a s).1 = 0 := by
  have hfalse := (luDcmp_fst n a s).mpr hzero
  obtain ⟨t, ht⟩ : ∃ t, luDcmp n a s = (false, t) := ⟨_, Prod.ext hfalse rfl⟩
  rw [luDet, ht]
  split_ifs <;> rfl

end Ordered

/-! ### Runs -/

/-- What a client does: the calls that use `ludcmp_`, and storing an array. The matrix
of `LSFitLinear` is at `fresh`. -/
inductive Call (P K : Type)
  | luDcmp (n : ℕ) (a : P)
  | luSolve (b x : P)
  | luSolveColumns (m : ℕ) (b x : P)
  | luDet (n : ℕ) (a : P)
  | matrixInvert (n : ℕ) (a : P)
  | lsFitLinear (m n : ℕ) (x y c fresh : P)
  | store (p : P) (cells : ℕ → K)

/-- What `LUDet` returned, and for which matrix. -/
structure Determinant (K : Type) where
  n : ℕ
  a : ℕ → K
  value : K

/-- It is the determinant. -/
def Determinant.Exact (d : Determinant K) : Prop := d.value = (matrixOf d.n d.a).det

/-- An object in use. -/
def client : Machine (AMath P K) (Call P K) (Determinant K) where
  step s
    | .luDcmp n a => ((luDcmp n a s).2, [])
    | .luSolve b x => ((luSolve b x s).2, [])
    | .luSolveColumns m b x => ((luSolveColumns m b x s).2, [])
    | .luDet n a => ((luDet n a s).2, [{ n := n, a := s.heap a, value := (luDet n a s).1 }])
    | .matrixInvert n a => ((matrixInvert n a s).2, [])
    | .lsFitLinear m n x y c fresh => ((lsFitLinear m n x y c fresh s).2, [])
    | .store p cells => ({ s with heap := Function.update s.heap p cells }, [])

abbrev Run (P K : Type) := Config (AMath P K) (Determinant K)

/-- Every determinant so far is right. -/
def Run.Exact (c : Run P K) : Prop := ∀ d ∈ c.hist, d.Exact

/-- A failure that is remembered is one of the matrix that stands there now; and a
singular matrix that is to be decomposed has a row of zeros. -/
def Noticed (c : Run P K) : Call P K → Prop
  | .luDet n a =>
      if FailedAt a c.state then (matrixOf n (c.state.heap a)).det = 0
      else (matrixOf n (c.state.heap a)).det = 0 → HasZeroRow (matrixOf n (c.state.heap a))
  | _ => True

/-- One `LUDet`. -/
theorem luDet_exact [IsStrictOrderedRing K] {n : ℕ} {a : P} {c : Run P K}
    (h : Noticed c (.luDet n a)) : (luDet n a c.state).1 = (matrixOf n (c.state.heap a)).det := by
  rw [Noticed] at h
  by_cases hfailed : FailedAt a c.state
  · rw [if_pos hfailed] at h
    rw [h, luDet_of_failedAt hfailed]
  · by_cases hdet : (matrixOf n (c.state.heap a)).det = 0
    · rw [if_neg hfailed] at h
      rw [hdet, luDet_of_hasZeroRow (h hdet)]
    · exact luDet_of_det_ne_zero hfailed hdet

theorem Run.Exact.next [IsStrictOrderedRing K] {c : Run P K} {call : Call P K} (h : c.Exact)
    (hcall : Noticed c call) : Run.Exact (client.next c call) := by
  intro d hd
  rw [Machine.next_hist, List.mem_append] at hd
  cases call with
  | luDet n a =>
      rcases hd with hd | hd
      · exact h d hd
      · obtain rfl := List.mem_singleton.mp hd
        exact luDet_exact hcall
  | _ => exact h d (hd.resolve_right List.not_mem_nil)

/-- A run in which every singular matrix is noticed has only right determinants. -/
theorem luDet_returns_det [IsStrictOrderedRing K] (heap : P → ℕ → K) (calls : List (Call P K))
    (h : client.Each Noticed { state := new heap, hist := [] } calls) :
    client.Always Run.Exact { state := new heap, hist := [] } calls :=
  Machine.always_of_each nofun h fun _ _ hexact hcall => hexact.next hcall

omit [LinearOrder K] in
theorem noticed_of_det_ne_zero {n : ℕ} {a : P} {c : Run P K} (h : ¬ FailedAt a c.state)
    (hdet : (matrixOf n (c.state.heap a)).det ≠ 0) : Noticed c (.luDet n a) := by
  rw [Noticed, if_neg h]
  exact fun hzero => absurd hzero hdet

omit [LinearOrder K] in
/-- A matrix with a row of zeros is noticed, by its rows or by the failure before. -/
theorem noticed_of_hasZeroRow {n : ℕ} {a : P} {c : Run P K}
    (h : HasZeroRow (matrixOf n (c.state.heap a))) : Noticed c (.luDet n a) := by
  rw [Noticed]
  split_ifs
  · exact h.det_eq_zero
  · exact fun _ => h

/-- A unit matrix, and after it a matrix of zeros, twice. -/
theorem luDet_returns_det_zero :
    client.Always (Run.Exact (P := ℕ) (K := ℚ)) { state := ones, hist := [] }
      [.luDet 1 0, .store 0 fun _ => 0, .luDet 1 0, .luDet 1 0] := by
  apply luDet_returns_det
  refine ⟨?_, trivial, ?_, ?_, trivial⟩
  · apply noticed_of_det_ne_zero
    · decide
    · exact (Matrix.det_fin_one _).trans_ne one_ne_zero
  · exact noticed_of_hasZeroRow ⟨0, by decide +kernel⟩
  · exact noticed_of_hasZeroRow ⟨0, by decide +kernel⟩

/-- Ones throughout have the determinant -1; and where the matrix of zeros failed, every
other matrix has the determinant zero. -/
theorem not_luDet_returns_det :
    ¬ client.Always (Run.Exact (P := ℕ) (K := ℚ)) { state := ones, hist := [] } [.luDet 2 0] ∧
      ¬ client.Always (Run.Exact (P := ℕ) (K := ℚ)) { state := ones, hist := [] }
        [.store 0 fun _ => 0, .luDet 1 0, .store 0 fun _ => 1, .luDet 1 0] := by
  constructor
  · rintro ⟨-, h⟩
    have hexact : (luDet 2 0 ones).1 = (matrixOf 2 (ones.heap 0)).det :=
      h _ (List.mem_singleton_self _)
    have hvalue : (luDet 2 0 ones).1 = -1 := by decide +kernel
    rw [hvalue, Matrix.det_fin_two] at hexact
    norm_num [matrixOf, ones, new] at hexact
  · rintro ⟨-, -, -, -, h⟩
    obtain ⟨s, hs⟩ : ∃ s, (client.exec { state := ones, hist := [] }
        [.store 0 fun _ => 0, .luDet 1 0, .store 0 fun _ => 1]).state = s := ⟨_, rfl⟩
    have hfailed : FailedAt 0 s := by
      rw [← hs]
      decide +kernel
    have hexact : (luDet 1 0 s).1 = (matrixOf 1 (s.heap 0)).det := by
      rw [← hs]
      exact h _ (List.mem_append_right _ (List.mem_singleton_self _))
    have hcell : s.heap 0 0 = 1 := by rw [← hs]; rfl
    rw [luDet_of_failedAt hfailed, Matrix.det_fin_one] at hexact
    exact zero_ne_one (hexact.trans hcell)

end AMath

end Gtoaes
