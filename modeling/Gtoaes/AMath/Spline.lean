import Gtoaes.Astro.Calendar
import Gtoaes.Lib.Cubic
import Gtoaes.Lib.Sweep
import Mathlib.Algebra.Polynomial.Roots
import Mathlib.Order.Interval.Set.Infinite
import Mathlib.Tactic.Linarith

/-!
`spline` and `splint` of `AMath.cpp`. The numbers are exact, and the output is not among
the inputs. A division by zero has no value.

The row of a given first slope divides by the slope where it should take it off.
-/

namespace Gtoaes.AMath

open Lib Polynomial

variable {K : Type} [Field K] [LinearOrder K]

def auMax : K := 1e30

/-- `c[0]` and `u[0]`; none where the one quotient that need not have a value has none. -/
def splineFirst (x y : ℕ → K) (c1 : K) : Option (K × K) :=
  if c1 > 0.99 * auMax then some (0, 0)
  else if y 1 - y 0 - c1 = 0 then none
  else some (-0.5, 3.0 * (y 1 - y 0) / (y 1 - y 0 - c1) / (x 1 - x 0))

/-- The arrays of the forward pass. -/
structure SplineRows (K : Type) where
  c : ℕ → K
  u : ℕ → K

/-- One pass of the first loop. -/
def splineRow (x y : ℕ → K) (i : ℕ) (s : SplineRows K) : SplineRows K :=
  let sig := (x i - x (i - 1)) / (x (i + 1) - x (i - 1))
  let p := sig * s.c (i - 1) + 2.0
  { c := Function.update s.c i ((sig - 1) / p)
    u := Function.update s.u i
      ((6.0 * ((y (i + 1) - y i) / (x (i + 1) - x i) - (y i - y (i - 1)) / (x i - x (i - 1))) /
        (x (i + 1) - x (i - 1)) - sig * s.u (i - 1)) / p) }

/-- `qn` and `un` -/
def splineLast (n : ℕ) (x y : ℕ → K) (cn : K) : K × K :=
  if cn > 0.99 * auMax then (0, 0)
  else (0.5, 3.0 / (x (n - 1) - x (n - 2)) * (cn - (y (n - 1) - y (n - 2)) / (x (n - 1) - x (n - 2))))

/-- `spline`; `c` is the output, as it was before. -/
def spline (n : ℕ) (x y : ℕ → K) (c1 cn : K) (c : ℕ → K) : Option (ℕ → K) :=
  (splineFirst x y c1).map fun (c0, u0) =>
    let s := sweep 1 (n - 1) (splineRow x y)
      { c := Function.update c 0 c0, u := Function.update (fun _ => 0) 0 u0 }
    let (qn, un) := splineLast n x y cn
    let c := Function.update s.c (n - 1) ((un - qn * s.u (n - 2)) / (qn * s.c (n - 2) + 1))
    sweepDown (fun i c => Function.update c i (c i * c (i + 1) + s.u i)) (n - 1) c

/-- The bisection: `klo` and `khi`. -/
def splintSearch (x : ℕ → K) (xo : K) (klo khi : ℕ) : ℕ × ℕ :=
  if khi - klo > 1 then
    let k := (khi + klo) / 2
    if x k > xo then splintSearch x xo klo k else splintSearch x xo k khi
  else (klo, khi)
termination_by khi - klo

/-- `splint`; none where it returns false. -/
def splint (n : ℕ) (x y c : ℕ → K) (xo : K) : Option K :=
  let (klo, khi) := splintSearch x xo 0 (n - 1)
  let h := x khi - x klo
  if |h| < auEps then none
  else
    let a := (x khi - xo) / h
    let b := (xo - x klo) / h
    some (a * y klo + b * y khi +
      ((a * a - 1) * a * c klo + (b * b - 1) * b * c khi) * h * h / 6.0)

/-! ### The rows -/

/-- What the rows in front of `m` keep when they are done. -/
structure Forward (x y : ℕ → K) (c0 u0 : K) (m : ℕ) (s : SplineRows K) : Prop where
  first : s.c 0 = c0 ∧ s.u 0 = u0
  row : ∀ i, i + 1 < m →
    s.c (i + 1) = ((x (i + 1) - x i) / (x (i + 2) - x i) - 1) /
      ((x (i + 1) - x i) / (x (i + 2) - x i) * s.c i + 2) ∧
    s.u (i + 1) = (6 * ((y (i + 2) - y (i + 1)) / (x (i + 2) - x (i + 1)) -
      (y (i + 1) - y i) / (x (i + 1) - x i)) / (x (i + 2) - x i) -
        (x (i + 1) - x i) / (x (i + 2) - x i) * s.u i) /
      ((x (i + 1) - x i) / (x (i + 2) - x i) * s.c i + 2)
  bound : ∀ i < m, -1 ≤ s.c i ∧ s.c i ≤ 0

/-- The share of a range in a longer one lies between nothing and all, and the pivot of the
row is not zero. -/
theorem pivot_mem [IsStrictOrderedRing K] {x₀ x₁ x₂ c : K} (h₀ : x₀ < x₁) (h₁ : x₁ < x₂)
    (hc : -1 ≤ c ∧ c ≤ 0) :
    0 < (x₁ - x₀) / (x₂ - x₀) * c + 2 ∧
      -1 ≤ ((x₁ - x₀) / (x₂ - x₀) - 1) / ((x₁ - x₀) / (x₂ - x₀) * c + 2) ∧
      ((x₁ - x₀) / (x₂ - x₀) - 1) / ((x₁ - x₀) / (x₂ - x₀) * c + 2) ≤ 0 := by
  have hwhole : 0 < x₂ - x₀ := by linarith
  obtain ⟨sig, hsig⟩ : ∃ sig, (x₁ - x₀) / (x₂ - x₀) = sig := ⟨_, rfl⟩
  rw [hsig]
  have hpos : 0 < sig := by
    rw [← hsig]
    exact div_pos (by linarith) hwhole
  have hlt : sig < 1 := by
    rw [← hsig, div_lt_one hwhole]
    linarith
  have hprod : -1 ≤ sig * c := by nlinarith
  have hpivot : 1 ≤ sig * c + 2 := by linarith
  refine ⟨by linarith, ?_, ?_⟩
  · rw [le_div_iff₀ (by linarith)]
    linarith
  · exact div_nonpos_of_nonpos_of_nonneg (by linarith) (by linarith)

theorem splineRow_self [IsStrictOrderedRing K] (x y : ℕ → K) (i : ℕ) (s : SplineRows K) :
    (splineRow x y (i + 1) s).c (i + 1) = ((x (i + 1) - x i) / (x (i + 2) - x i) - 1) /
        ((x (i + 1) - x i) / (x (i + 2) - x i) * s.c i + 2) ∧
      (splineRow x y (i + 1) s).u (i + 1) = (6 * ((y (i + 2) - y (i + 1)) / (x (i + 2) - x (i + 1)) -
          (y (i + 1) - y i) / (x (i + 1) - x i)) / (x (i + 2) - x i) -
            (x (i + 1) - x i) / (x (i + 2) - x i) * s.u i) /
          ((x (i + 1) - x i) / (x (i + 2) - x i) * s.c i + 2) := by
  have htwo : (2.0 : K) = 2 := by norm_num
  have hsix : (6.0 : K) = 6 := by norm_num
  rw [← htwo, ← hsix]
  exact ⟨Function.update_self .., Function.update_self ..⟩

/-- A pass finishes its row. -/
theorem Forward.step [IsStrictOrderedRing K] {x y : ℕ → K} {c0 u0 : K} {i : ℕ} {s : SplineRows K}
    (h : Forward x y c0 u0 (i + 1) s) (h₀ : x i < x (i + 1)) (h₁ : x (i + 1) < x (i + 2)) :
    Forward x y c0 u0 (i + 2) (splineRow x y (i + 1) s) := by
  have hc : ∀ j, j < i + 1 → (splineRow x y (i + 1) s).c j = s.c j := fun j hj =>
    Function.update_of_ne hj.ne _ _
  have hu : ∀ j, j < i + 1 → (splineRow x y (i + 1) s).u j = s.u j := fun j hj =>
    Function.update_of_ne hj.ne _ _
  obtain ⟨hc', hu'⟩ := splineRow_self x y i s
  constructor
  · rw [hc 0 (by omega), hu 0 (by omega)]
    exact h.first
  · intro j hj
    rcases eq_or_lt_of_le (show j ≤ i by omega) with rfl | hlt
    · rw [hc j (by omega), hu j (by omega)]
      exact ⟨hc', hu'⟩
    · rw [hc (j + 1) (by omega), hu (j + 1) (by omega), hc j (by omega), hu j (by omega)]
      exact h.row j (by omega)
  · intro j hj
    rcases eq_or_lt_of_le (show j ≤ i + 1 by omega) with rfl | hlt
    · rw [hc']
      exact (pivot_mem h₀ h₁ (h.bound i (by omega))).2
    · rw [hc j hlt]
      exact h.bound j hlt

theorem splineFirst_mem [IsStrictOrderedRing K] {x y : ℕ → K} {c1 c0 u0 : K}
    (h : splineFirst x y c1 = some (c0, u0)) : -1 ≤ c0 ∧ c0 ≤ 0 := by
  rw [splineFirst] at h
  split_ifs at h
  · obtain ⟨rfl, -⟩ := Prod.mk.inj (Option.some.inj h)
    norm_num
  · obtain ⟨rfl, -⟩ := Prod.mk.inj (Option.some.inj h)
    norm_num

/-- The pivot of the last row is not zero. -/
theorem splineLast_pivot [IsStrictOrderedRing K] (n : ℕ) (x y : ℕ → K) (cn : K) {c : K}
    (hc : -1 ≤ c ∧ c ≤ 0) : (splineLast n x y cn).1 * c + 1 ≠ 0 := by
  have hpos : 0 < (splineLast n x y cn).1 * c + 1 := by
    rw [splineLast]
    split_ifs
    · norm_num
    · norm_num
      linarith [hc.1]
  exact hpos.ne'

theorem forward_sweep [IsStrictOrderedRing K] {n : ℕ} (hn : 2 ≤ n) {x : ℕ → K}
    (hx : ∀ i, i + 1 < n → x i < x (i + 1)) (y : ℕ → K) {c0 u0 : K} (hc0 : -1 ≤ c0 ∧ c0 ≤ 0)
    (c : ℕ → K) :
    Forward x y c0 u0 (n - 1) (sweep 1 (n - 1) (splineRow x y)
      { c := Function.update c 0 c0, u := Function.update (fun _ => 0) 0 u0 }) := by
  refine sweep_induction (motive := Forward x y c0 u0) (by omega) ?_ fun m s hlow hhigh h => ?_
  · have hfirst : Function.update c 0 c0 0 = c0 := Function.update_self ..
    have hfirst' : Function.update (fun _ => (0 : K)) 0 u0 0 = u0 := Function.update_self ..
    refine ⟨⟨hfirst, hfirst'⟩, fun i hi => by omega, fun i hi => ?_⟩
    obtain rfl : i = 0 := by omega
    exact hfirst.symm ▸ hc0
  · obtain ⟨i, rfl⟩ : ∃ i, m = i + 1 := ⟨m - 1, by omega⟩
    exact h.step (hx i (by omega)) (hx (i + 1) (by omega))

/-- The coefficients satisfy the equation of every node between two others, and the two
rows at the ends. -/
theorem spline_spec [IsStrictOrderedRing K] {n : ℕ} (hn : 2 ≤ n) {x : ℕ → K}
    (hx : ∀ i, i + 1 < n → x i < x (i + 1)) (y : ℕ → K) {c1 c0 u0 : K}
    (hfirst : splineFirst x y c1 = some (c0, u0)) (cn : K) (c : ℕ → K) :
    ∃ z, spline n x y c1 cn c = some z ∧
      (∀ i, i + 2 < n → (x (i + 1) - x i) / (x (i + 2) - x i) * z i + 2 * z (i + 1) +
          (1 - (x (i + 1) - x i) / (x (i + 2) - x i)) * z (i + 2) =
        6 * ((y (i + 2) - y (i + 1)) / (x (i + 2) - x (i + 1)) -
          (y (i + 1) - y i) / (x (i + 1) - x i)) / (x (i + 2) - x i)) ∧
      z 0 = c0 * z 1 + u0 ∧
      (splineLast n x y cn).1 * z (n - 2) + z (n - 1) = (splineLast n x y cn).2 := by
  obtain ⟨s, hs⟩ : ∃ s, sweep 1 (n - 1) (splineRow x y)
      { c := Function.update c 0 c0, u := Function.update (fun _ => 0) 0 u0 } = s := ⟨_, rfl⟩
  have hforward : Forward x y c0 u0 (n - 1) s := hs ▸
    forward_sweep hn hx y (splineFirst_mem hfirst) c
  obtain ⟨last, hlast⟩ : ∃ last, splineLast n x y cn = last := ⟨_, rfl⟩
  obtain ⟨z, hz⟩ : ∃ z, sweepDown (fun i c => Function.update c i (c i * c (i + 1) + s.u i)) (n - 1)
      (Function.update s.c (n - 1)
        ((last.2 - last.1 * s.u (n - 2)) / (last.1 * s.c (n - 2) + 1))) = z := ⟨_, rfl⟩
  obtain ⟨hbelow, habove⟩ := sweepDown_update (fun i c c' => c * c' + s.u i) hz
  have hback : ∀ i, i < n - 1 → z i = s.c i * z (i + 1) + s.u i := by
    intro i hi
    rw [hbelow i hi, Function.update_of_ne hi.ne]
  have hend : z (n - 1) = (last.2 - last.1 * s.u (n - 2)) / (last.1 * s.c (n - 2) + 1) := by
    rw [habove (n - 1) le_rfl, Function.update_self]
  refine ⟨z, ?_, fun i hi => ?_, ?_, ?_⟩
  · simp only [spline, hfirst, Option.map_some, hs, hlast, hz]
  · have hpivot := (pivot_mem (hx i (by omega)) (hx (i + 1) (by omega))
      (hforward.bound i (by omega))).1
    obtain ⟨hc, hu⟩ := hforward.row i (by omega)
    rw [row_iff (hback i (by omega)) hpivot.ne', hback (i + 1) (by omega), hc, hu, neg_sub]
  · rw [hback 0 (by omega), hforward.first.1, hforward.first.2]
  · have hpivot := splineLast_pivot n x y cn (hforward.bound (n - 2) (by omega))
    rw [hlast] at hpivot
    have hprev := hback (n - 2) (by omega)
    rw [show n - 2 + 1 = n - 1 by omega] at hprev
    rw [hlast, hprev, hend]
    field_simp
    ring

/-! ### The search -/

omit [Field K] in
theorem splintSearch_spec (x : ℕ → K) (xo : K) (klo khi : ℕ) (hlt : klo < khi) :
    ∃ k, splintSearch x xo klo khi = (k, k + 1) ∧ k + 1 ≤ khi ∧
      (x klo ≤ xo → x k ≤ xo) ∧ (xo ≤ x khi → xo ≤ x (k + 1)) := by
  fun_induction splintSearch x xo klo khi with
  | case1 klo khi hwide k habove ih =>
      obtain ⟨i, hsearch, hle, hlow, hhigh⟩ := ih (by omega)
      exact ⟨i, hsearch, by omega, hlow, fun _ => hhigh habove.le⟩
  | case2 klo khi hwide k hbelow ih =>
      obtain ⟨i, hsearch, hle, hlow, hhigh⟩ := ih (by omega)
      exact ⟨i, hsearch, hle, fun _ => hlow (not_lt.mp hbelow), hhigh⟩
  | case3 klo khi hnarrow =>
      obtain rfl : khi = klo + 1 := by omega
      exact ⟨klo, rfl, le_rfl, id, id⟩

/-- The nodes rise where neighbours lie apart. -/
theorem strictMonoOn_of_apart [IsStrictOrderedRing K] {n : ℕ} {x : ℕ → K}
    (hx : ∀ i, i + 1 < n → auEps ≤ x (i + 1) - x i) : StrictMonoOn x (Set.Iio n) := by
  have heps : (0 : K) < auEps := by norm_num [auEps]
  refine strictMonoOn_of_lt_add_one Set.ordConnected_Iio fun k _ _ hk => ?_
  exact sub_pos.mp (heps.trans_le (hx k hk))

/-- Between two neighbours `splint` runs over the cubic of their coefficients. -/
theorem splint_eq [IsStrictOrderedRing K] {n : ℕ} {x : ℕ → K}
    (hx : ∀ i, i + 1 < n → auEps ≤ x (i + 1) - x i) (y c : ℕ → K) {i : ℕ} (hi : i + 1 < n) {xo : K}
    (hlow : x i ≤ xo) (hhigh : xo ≤ x (i + 1)) :
    splint n x y c xo = some
      ((cubicPiece (x i) (x (i + 1)) (y i) (y (i + 1)) (c i) (c (i + 1))).eval xo) := by
  have heps : (0 : K) < auEps := by norm_num [auEps]
  have hgap : ∀ k, k + 1 < n → x (k + 1) - x k ≠ 0 := fun k hk => (heps.trans_le (hx k hk)).ne'
  have hlt : ∀ i j, i < j → j < n → x i < x j := fun i j hij hj =>
    strictMonoOn_of_apart hx (hij.trans hj) hj hij
  have hle : ∀ i j, i ≤ j → j < n → x i ≤ x j := fun i j hij hj =>
    (strictMonoOn_of_apart hx).monotoneOn (hij.trans_lt hj) hj hij
  have hstart : x 0 ≤ xo := (hle 0 i (Nat.zero_le i) (by omega)).trans hlow
  have hstop : xo ≤ x (n - 1) := hhigh.trans (hle (i + 1) (n - 1) (by omega) (by omega))
  obtain ⟨k, hsearch, hk, hbelow, habove⟩ := splintSearch_spec x xo 0 (n - 1) (by omega)
  have hvalue : splint n x y c xo = some
      ((cubicPiece (x k) (x (k + 1)) (y k) (y (k + 1)) (c k) (c (k + 1))).eval xo) := by
    have hwide : ¬ |x (k + 1) - x k| < auEps := by
      have hgapK := hx k (by omega)
      rw [abs_of_pos (heps.trans_le hgapK)]
      exact hgapK.not_gt
    have hsix : (6.0 : K) = 6 := by norm_num
    simp only [splint, hsearch, if_neg hwide, eval_cubicPiece, hsix]
  rw [hvalue]
  rcases lt_trichotomy k i with hki | rfl | hik
  · -- the search stops below the node that the two pieces share
    have hnode : xo = x i := le_antisymm ((habove hstop).trans (hle (k + 1) i hki (by omega))) hlow
    have hnext : k + 1 = i := by
      by_contra hne
      exact (habove hstop).not_gt (hnode ▸ hlt (k + 1) i (by omega) (by omega))
    subst hnext
    rw [hnode, eval_cubicPiece_right _ _ _ _ (hgap k (by omega)),
      eval_cubicPiece_left _ _ _ _ (hgap (k + 1) hi)]
  · rfl
  · have hnode : xo = x (i + 1) :=
      le_antisymm hhigh ((hle (i + 1) k hik (by omega)).trans (hbelow hstart))
    have hnext : k = i + 1 := by
      by_contra hne
      exact (hbelow hstart).not_gt (hnode ▸ hlt (i + 1) k (by omega) (by omega))
    subst hnext
    rw [hnode, eval_cubicPiece_left _ _ _ _ (hgap (i + 1) (by omega)),
      eval_cubicPiece_right _ _ _ _ (hgap i hi)]

/-! ### The interpolation -/

/-- A given slope is the slope of the cubic at its end; a cubic with none has no second
derivative there. -/
def EndCondition (slope : K) (p : K[X]) (x : K) : Prop :=
  if slope > 0.99 * auMax then p.derivative.derivative.eval x = 0 else p.derivative.eval x = slope

/-- `splint` runs over cubics through the samples, which have one slope where two meet and
end as they should. -/
def Interpolates (n : ℕ) (x y : ℕ → K) (c1 cn : K) (c : ℕ → K) : Prop :=
  ∃ S : PiecewiseCubic n x,
    (∀ i, i + 1 < n → ∀ xo, x i ≤ xo → xo ≤ x (i + 1) →
      splint n x y c xo = some ((S.piece i).eval xo)) ∧
    (∀ i < n, splint n x y c (x i) = some (y i)) ∧
    EndCondition c1 (S.piece 0) (x 0) ∧ EndCondition cn (S.piece (n - 2)) (x (n - 1))

section Ends

variable [IsStrictOrderedRing K] {n : ℕ} {x y : ℕ → K} {c1 cn : K} {z : ℕ → K}

/-- The last row is that of the end. -/
theorem endCondition_last (hn : 2 ≤ n) (hgap : x (n - 1) - x (n - 2) ≠ 0)
    (hrow : (splineLast n x y cn).1 * z (n - 2) + z (n - 1) = (splineLast n x y cn).2) :
    EndCondition cn
      (cubicPiece (x (n - 2)) (x (n - 2 + 1)) (y (n - 2)) (y (n - 2 + 1)) (z (n - 2)) (z (n - 2 + 1)))
      (x (n - 1)) := by
  rw [show n - 2 + 1 = n - 1 by omega, EndCondition]
  rw [splineLast] at hrow
  split_ifs with hcn
  · rw [second_cubicPiece_right _ _ _ _ hgap]
    simpa [hcn] using hrow
  · rw [if_neg hcn] at hrow
    rw [slope_cubicPiece_right _ _ _ _ hgap]
    have hsum : z (n - 2) + 2 * z (n - 1) = 2 * (3 / (x (n - 1) - x (n - 2)) *
        (cn - (y (n - 1) - y (n - 2)) / (x (n - 1) - x (n - 2)))) := by
      have hthree : (3.0 : K) = 3 := by norm_num
      simp only [hthree] at hrow
      rw [← hrow]
      norm_num
      ring
    rw [hsum]
    field_simp
    ring

/-- The first row is that of a free end. For a given slope it is so where the quotient of
the rise and what the slope leaves of it happens to be the difference of the two slopes. -/
theorem endCondition_first_iff (hgap : x 1 - x 0 ≠ 0) {c0 u0 : K}
    (hfirst : splineFirst x y c1 = some (c0, u0)) (hrow : z 0 = c0 * z 1 + u0) :
    EndCondition c1 (cubicPiece (x 0) (x 1) (y 0) (y 1) (z 0) (z 1)) (x 0) ↔
      c1 > 0.99 * auMax ∨ (y 1 - y 0) / (y 1 - y 0 - c1) = (y 1 - y 0) / (x 1 - x 0) - c1 := by
  rw [EndCondition]
  rw [splineFirst] at hfirst
  by_cases hc1 : c1 > 0.99 * auMax
  · rw [if_pos hc1] at hfirst
    obtain ⟨rfl, rfl⟩ := Prod.mk.inj (Option.some.inj hfirst)
    rw [if_pos hc1, second_cubicPiece_left _ _ _ _ hgap, hrow]
    simp [hc1]
  · rw [if_neg hc1] at hfirst ⊢
    split_ifs at hfirst with hzero
    obtain ⟨rfl, rfl⟩ := Prod.mk.inj (Option.some.inj hfirst)
    have hslope : (y 1 - y 0) / (x 1 - x 0) - (x 1 - x 0) / 6 * (2 * z 0 + z 1) =
        (y 1 - y 0) / (x 1 - x 0) - (y 1 - y 0) / (y 1 - y 0 - c1) := by
      have hthree : (3.0 : K) = 3 := by norm_num
      rw [hrow, hthree]
      field_simp
      ring
    rw [slope_cubicPiece_left _ _ _ _ hgap, hslope, or_iff_right hc1]
    constructor <;> intro h <;> linear_combination -h

end Ends

section Interpolation

variable [IsStrictOrderedRing K]

/-- `spline` has an output that `splint` can use. -/
def SplineExact (n : ℕ) (x y : ℕ → K) (c1 cn : K) (c : ℕ → K) : Prop :=
  ∃ z, spline n x y c1 cn c = some z ∧ Interpolates n x y c1 cn z

/-- Apart from the start, the coefficients are right wherever there are any. -/
theorem splineExact_iff_of_first {n : ℕ} (hn : 2 ≤ n) {x : ℕ → K}
    (hx : ∀ i, i + 1 < n → auEps ≤ x (i + 1) - x i) (y : ℕ → K) {c1 c0 u0 : K} (cn : K)
    (hfirst : splineFirst x y c1 = some (c0, u0)) (c : ℕ → K) :
    SplineExact n x y c1 cn c ↔
      c1 > 0.99 * auMax ∨ (y 1 - y 0) / (y 1 - y 0 - c1) = (y 1 - y 0) / (x 1 - x 0) - c1 := by
  have hlt : ∀ i, i + 1 < n → x i < x (i + 1) := fun i hi =>
    strictMonoOn_of_apart hx (Nat.lt_of_succ_lt hi) hi i.lt_succ_self
  have hgap : ∀ i, i + 1 < n → x (i + 1) - x i ≠ 0 := fun i hi => (sub_pos.mpr (hlt i hi)).ne'
  have hgap' : ∀ i, i + 2 < n → x (i + 2) - x i ≠ 0 := fun i hi =>
    (sub_pos.mpr ((hlt i (by omega)).trans (hlt (i + 1) hi))).ne'
  obtain ⟨z, hz, hrows, hstart, hend⟩ := spline_spec hn hlt y hfirst cn c
  have hpiece : ∀ i, i + 1 < n → ∀ xo, x i ≤ xo → xo ≤ x (i + 1) → splint n x y z xo = some
      ((cubicPiece (x i) (x (i + 1)) (y i) (y (i + 1)) (z i) (z (i + 1))).eval xo) :=
    fun i hi xo => splint_eq hx y z hi
  rw [← endCondition_first_iff (hgap 0 (by omega)) hfirst hstart]
  constructor
  · rintro ⟨z', hz', S, hS, -, hS₀, -⟩
    obtain rfl : z = z' := Option.some.inj (hz.symm.trans hz')
    -- two polynomials that agree between two nodes are one
    have hsame : S.piece 0 = cubicPiece (x 0) (x 1) (y 0) (y 1) (z 0) (z 1) := by
      apply eq_of_infinite_eval_eq
      refine (Set.Icc_infinite (hlt 0 (by omega))).mono fun xo hxo => ?_
      exact Option.some.inj ((hS 0 (by omega) xo hxo.1 hxo.2).symm.trans
        (hpiece 0 (by omega) xo hxo.1 hxo.2))
    rwa [← hsame]
  · intro hfirstEnd
    obtain ⟨S, hS⟩ := PiecewiseCubic.exists_of_moments y z hgap hgap' hrows
    refine ⟨z, hz, S, ?_, fun i hi => ?_, ?_, ?_⟩
    · rw [hS]
      exact hpiece
    · rcases eq_or_lt_of_le (show i + 1 ≤ n by omega) with hlast | hlt'
      · obtain ⟨k, rfl⟩ : ∃ k, i = k + 1 := ⟨i - 1, by omega⟩
        rw [hpiece k hi _ (hlt k hi).le le_rfl, eval_cubicPiece_right _ _ _ _ (hgap k hi)]
      · rw [hpiece i hlt' _ le_rfl (hlt i hlt').le, eval_cubicPiece_left _ _ _ _ (hgap i hlt')]
    · rw [hS]
      exact hfirstEnd
    · have hlast := hgap (n - 2) (by omega)
      rw [show n - 2 + 1 = n - 1 by omega] at hlast
      rw [hS]
      exact endCondition_last hn hlast hend

/-- With a slope that is given at the start, the coefficients are right just where the row
of the start happens to be. -/
theorem splineExact_iff {n : ℕ} (hn : 2 ≤ n) {x : ℕ → K}
    (hx : ∀ i, i + 1 < n → auEps ≤ x (i + 1) - x i) (y : ℕ → K) (c1 cn : K) (c : ℕ → K) :
    SplineExact n x y c1 cn c ↔ c1 > 0.99 * auMax ∨ (y 1 - y 0 ≠ c1 ∧
      (y 1 - y 0) / (y 1 - y 0 - c1) = (y 1 - y 0) / (x 1 - x 0) - c1) := by
  cases hfirst : splineFirst x y c1 with
  | some row =>
      rw [splineExact_iff_of_first hn hx y cn hfirst c]
      rw [splineFirst] at hfirst
      split_ifs at hfirst with hc1 hzero
      · simp [hc1]
      · rw [sub_eq_zero] at hzero
        simp [hzero]
  | none =>
      have hnone : ¬ SplineExact n x y c1 cn c := by
        rintro ⟨z, hz, -⟩
        simp [spline, hfirst] at hz
      rw [splineFirst] at hfirst
      split_ifs at hfirst with hc1 hzero
      rw [sub_eq_zero] at hzero
      simp [hnone, hc1, hzero]

end Interpolation

/-- A parabola with a free start. -/
theorem splineExact_iff_free :
    SplineExact 3 (fun i => (i : ℚ)) (fun i => (i : ℚ) ^ 2) auMax 4 (fun _ => 0) := by
  refine (splineExact_iff (by decide) (fun i _ => ?_) _ auMax 4 _).mpr (.inl ?_)
  · push_cast
    norm_num [auEps]
  · norm_num [auMax]

/-- Three points of a parabola, whose slopes at the ends are given. -/
theorem not_splineExact_parabola :
    (∀ i, i + 1 < 3 → (auEps : ℚ) ≤ ((i + 1 : ℕ) + 1) - (i + 1)) ∧
      ¬ SplineExact 3 (fun i => (i + 1 : ℚ)) (fun i => (i + 1 : ℚ) ^ 2) 2 6 (fun _ => 0) := by
  have hx : ∀ i, i + 1 < 3 → (auEps : ℚ) ≤ ((i + 1 : ℕ) + 1) - (i + 1) := by
    intro i _
    push_cast
    norm_num [auEps]
  have hfirst : splineFirst (fun i => (i + 1 : ℚ)) (fun i => (i + 1 : ℚ) ^ 2) 2 =
      some (-0.5, 9) := by
    norm_num [splineFirst, auMax]
  refine ⟨hx, ?_⟩
  rw [splineExact_iff_of_first (by decide) hx _ 6 hfirst]
  norm_num [auMax]

end Gtoaes.AMath
