import Mathlib.Algebra.Order.Archimedean.Basic
import Mathlib.Algebra.Order.Floor.Ring
import Mathlib.Data.Set.Function
import Mathlib.Order.Monotone.Defs
import Mathlib.Tactic.FieldSimp
import Mathlib.Tactic.Linarith
import Mathlib.Tactic.LinearCombination

/-!
Values at the integers joined by straight lines. Where every value is more than the one
before by some fixed amount, the line rises, and takes each value from its first on once.
-/

namespace Gtoaes.Lib

variable {K : Type*} [Field K] [LinearOrder K] [FloorRing K]

/-- The line through the values of `f`. -/
def polyline (f : ℤ → K) (x : K) : K := f ⌊x⌋ + Int.fract x * (f (⌊x⌋ + 1) - f ⌊x⌋)

variable [IsStrictOrderedRing K] {f : ℤ → K} {n₀ : ℤ} {δ : K}

theorem polyline_add (f : ℤ → K) (n : ℤ) {t : K} (h : 0 ≤ t ∧ t < 1) :
    polyline f (n + t) = f n + t * (f (n + 1) - f n) := by
  have hfloor : ⌊(n : K) + t⌋ = n := by
    rw [Int.floor_intCast_add, Int.floor_eq_zero_iff.mpr h, add_zero]
  rw [polyline, hfloor, Int.fract_intCast_add, Int.fract_eq_self.mpr h]

theorem polyline_intCast (f : ℤ → K) (n : ℤ) : polyline f n = f n := by
  have h := polyline_add f n (t := 0) ⟨le_rfl, one_pos⟩
  rwa [add_zero, zero_mul, add_zero] at h

/-- Every number is an integer and a fraction. -/
theorem exists_floor_add (x : K) : ∃ (n : ℤ) (t : K), (0 ≤ t ∧ t < 1) ∧ x = n + t :=
  ⟨⌊x⌋, Int.fract x, ⟨Int.fract_nonneg x, Int.fract_lt_one x⟩, (Int.floor_add_fract x).symm⟩

section Rising

variable (hδ : 0 < δ) (hf : ∀ n, n₀ ≤ n → f n + δ ≤ f (n + 1))
include hδ hf

omit [FloorRing K] in
theorem le_of_rising {m n : ℤ} (hm : n₀ ≤ m) (hmn : m ≤ n) : f m ≤ f n := by
  induction n, hmn using Int.leInduction with
  | base => exact le_rfl
  | succ n hn ih => linarith [hf n (hm.trans hn)]

theorem polyline_strictMonoOn : StrictMonoOn (polyline f) (Set.Ici (n₀ : K)) := by
  intro x hx y hy hxy
  obtain ⟨m, s, hs, rfl⟩ := exists_floor_add x
  obtain ⟨n, t, ht, rfl⟩ := exists_floor_add y
  have hm : n₀ ≤ m := by
    have hlt : (n₀ : K) < (m + 1 : ℤ) := by
      push_cast
      exact (Set.mem_Ici.mp hx).trans_lt (add_lt_add_right hs.2 _)
    exact Int.lt_add_one_iff.mp (Int.cast_lt.mp hlt)
  have hmn : m ≤ n := by
    have hlt : (m : K) < (n + 1 : ℤ) := by
      push_cast
      linarith [hs.1, ht.2]
    exact Int.lt_add_one_iff.mp (Int.cast_lt.mp hlt)
  rw [polyline_add f m hs, polyline_add f n ht]
  have hrise := hf m hm
  rcases hmn.eq_or_lt with rfl | hlt
  · -- on one piece the fraction decides
    have hst : s < t := by linarith
    have hslope : 0 < f (m + 1) - f m := by linarith
    linarith [mul_lt_mul_of_pos_right hst hslope]
  · -- the end of the one piece is not above the start of the other
    have hend : s * (f (m + 1) - f m) < f (m + 1) - f m :=
      mul_lt_of_lt_one_left (by linarith) hs.2
    have hbetween : f (m + 1) ≤ f n := le_of_rising hδ hf (by omega) hlt
    have hstart : 0 ≤ t * (f (n + 1) - f n) :=
      mul_nonneg ht.1 (by linarith [hf n (hm.trans hmn)])
    linarith

omit [FloorRing K] hδ in
theorem add_mul_le_of_rising (k : ℕ) : f n₀ + k * δ ≤ f (n₀ + k) := by
  induction k with
  | zero => simp
  | succ k ih =>
      have hrise := hf (n₀ + k) (by omega)
      rw [add_assoc] at hrise
      push_cast
      linarith

/-- A value lies on some piece. -/
theorem exists_rise {y : K} (hy : f n₀ ≤ y) :
    ∃ n, n₀ ≤ n ∧ f n ≤ y ∧ y < f (n + 1) := by
  obtain ⟨k, hk⟩ := exists_lt_nsmul hδ (y - f n₀)
  rw [nsmul_eq_mul] at hk
  have hover : ∃ k : ℕ, y < f (n₀ + k) := ⟨k, by linarith [add_mul_le_of_rising hf k]⟩
  -- the first integer whose value is above
  classical
  obtain ⟨j, hj⟩ : ∃ j, Nat.find hover = j := ⟨_, rfl⟩
  have hspec := Nat.find_spec hover
  rw [hj] at hspec
  cases j with
  | zero =>
      rw [Nat.cast_zero, add_zero] at hspec
      exact absurd hspec hy.not_gt
  | succ j =>
      refine ⟨n₀ + j, by omega, not_lt.mp (Nat.find_min hover (by omega)), ?_⟩
      rw [add_assoc]
      exact_mod_cast hspec

theorem polyline_bijOn :
    Set.BijOn (polyline f) (Set.Ici (n₀ : K)) (Set.Ici (f n₀)) := by
  have hmono := polyline_strictMonoOn hδ hf
  refine ⟨fun x hx => ?_, hmono.injOn, fun y hy => ?_⟩
  · rw [Set.mem_Ici, ← polyline_intCast f n₀]
    exact hmono.monotoneOn Set.self_mem_Ici hx hx
  · obtain ⟨n, hn, hlow, hhigh⟩ := exists_rise hδ hf hy
    have hslope : 0 < f (n + 1) - f n := by linarith
    have ht : 0 ≤ (y - f n) / (f (n + 1) - f n) ∧ (y - f n) / (f (n + 1) - f n) < 1 :=
      ⟨div_nonneg (by linarith) hslope.le, (div_lt_one hslope).mpr (by linarith)⟩
    refine ⟨n + (y - f n) / (f (n + 1) - f n), ?_, ?_⟩
    · have hcast : (n₀ : K) ≤ n := Int.cast_le.mpr hn
      exact hcast.trans (le_add_of_nonneg_right ht.1)
    · rw [polyline_add f n ht, div_mul_cancel₀ _ hslope.ne']
      ring

end Rising

end Gtoaes.Lib
