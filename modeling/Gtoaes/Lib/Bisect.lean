import Gtoaes.Lib.Loop
import Mathlib.Topology.UniformSpace.HeineCantor
import Mathlib.Topology.MetricSpace.Pseudo.Lemmas
import Mathlib.Topology.Instances.Real.Lemmas
import Mathlib.Tactic.Linarith

/-!
Bisection. The loop halves an interval, to the side on which the value is looked for, until
the function is close to the value in the middle. It ends where the function is continuous
and the ends of the interval enclose the value, if only nearly: less than what counts as
close. Where the function is never close to the value it does not.
-/

namespace Gtoaes.Lib.Bisect

/-- One iteration; the loop leaves with the middle. -/
def body {K : Type*} [Field K] [LinearOrder K] (f : K → K) (z tol : K) (_ : ℕ) (s : K × K) :
    K × K ⊕ K :=
  let me := (s.1 + s.2) * 0.5
  if |f me - z| > tol then .inl (if f me < z then (me, s.2) else (s.1, me)) else .inr me

variable {f g : ℝ → ℝ} {a b z tol δ : ℝ} {s : ℝ × ℝ}

theorem middle_mem (h : s.1 < s.2) :
    s.1 < (s.1 + s.2) * 0.5 ∧ (s.1 + s.2) * 0.5 < s.2 := by
  constructor
  · linarith
  · linarith

/-- The loop has the middle it leaves with within the interval, and close. -/
theorem close_of_run {fuel k : ℕ} {r : ℝ} (h : Loop.run (body f z tol) fuel k s = some r) :
    |f r - z| ≤ tol := by
  induction fuel generalizing k s with
  | zero => cases h
  | succ fuel ih =>
      rw [Loop.run] at h
      by_cases hfar : |f ((s.1 + s.2) * 0.5) - z| > tol
      · have hbody : body f z tol k s = .inl _ := if_pos hfar
        rw [hbody] at h
        exact ih h
      · have hbody : body f z tol k s = .inr _ := if_neg hfar
        rw [hbody] at h
        cases h
        exact not_lt.mp hfar

/-- The value is looked for between two points whose values enclose it up to `δ`. -/
structure Encloses (g : ℝ → ℝ) (a b z δ : ℝ) (s : ℝ × ℝ) : Prop where
  low : a ≤ s.1
  lt : s.1 < s.2
  high : s.2 ≤ b
  left : g s.1 ≤ z + δ
  right : z - δ ≤ g s.2

/-- A half of the interval encloses the value as well. -/
theorem Encloses.step (h : Encloses g a b z δ s) (hδ : 0 ≤ δ)
    (hfg : ∀ x, a < x → x < b → f x = g x) {k : ℕ} {t : ℝ × ℝ}
    (ht : body f z tol k s = .inl t) :
    Encloses g a b z δ t ∧ t.2 - t.1 = (s.2 - s.1) * 0.5 := by
  obtain ⟨hleft, hright⟩ := middle_mem h.lt
  have hmiddle := hfg _ (h.low.trans_lt hleft) (hright.trans_le h.high)
  rw [body] at ht
  split at ht
  · cases ht
    split
    · next hlt =>
      rw [hmiddle] at hlt
      exact ⟨⟨h.low.trans hleft.le, hright, h.high, by linarith, h.right⟩, by ring⟩
    · next hge =>
      rw [hmiddle] at hge
      exact ⟨⟨h.low, hleft, hright.le.trans h.high, h.left, by linarith⟩, by ring⟩
  · cases ht

/-- Where the interval is short, the loop leaves. -/
theorem Encloses.leaves (h : Encloses g a b z δ s) (hfg : ∀ x, a < x → x < b → f x = g x) {η : ℝ}
    (hη : ∀ x ∈ Set.Icc a b, ∀ y ∈ Set.Icc a b, dist x y < η → dist (g x) (g y) < tol - δ)
    (hshort : s.2 - s.1 < η) (k : ℕ) : body f z tol k s = .inr ((s.1 + s.2) * 0.5) := by
  obtain ⟨hleft, hright⟩ := middle_mem h.lt
  have hlow : a < (s.1 + s.2) * 0.5 := h.low.trans_lt hleft
  have hhigh : (s.1 + s.2) * 0.5 < b := hright.trans_le h.high
  have hfirst := hη _ ⟨hlow.le, hhigh.le⟩ s.1 ⟨h.low, (h.lt.le).trans h.high⟩ (by
    rw [Real.dist_eq, abs_of_pos (by linarith)]
    linarith)
  have hlast := hη _ ⟨hlow.le, hhigh.le⟩ s.2 ⟨h.low.trans h.lt.le, h.high⟩ (by
    rw [Real.dist_eq, abs_of_neg (by linarith)]
    linarith)
  rw [Real.dist_eq, abs_lt] at hfirst hlast
  refine if_neg (not_lt.mpr (abs_le.mpr ?_))
  rw [hfg _ hlow hhigh]
  have hl := h.left
  have hr := h.right
  constructor
  · linarith [hlast.1]
  · linarith [hfirst.2]

/-- The loop ends if the function is continuous. -/
theorem Encloses.terminates (h : Encloses g a b z δ s) (hδ : 0 ≤ δ) (htol : δ < tol)
    (hg : ContinuousOn g (Set.Icc a b)) (hfg : ∀ x, a < x → x < b → f x = g x) (k : ℕ) :
    Loop.Terminates (body f z tol) k s := by
  obtain ⟨η, hpos, hη⟩ := Metric.uniformContinuousOn_iff.mp
    (isCompact_Icc.uniformContinuousOn_of_continuous hg) (tol - δ) (sub_pos.mpr htol)
  obtain ⟨n, hn⟩ : ∃ n : ℕ, s.2 - s.1 < η * 2 ^ n := by
    obtain ⟨n, hn⟩ := pow_unbounded_of_one_lt ((s.2 - s.1) / η) (one_lt_two (α := ℝ))
    exact ⟨n, by rwa [div_lt_iff₀' hpos] at hn⟩
  -- the interval is short after `n` halvings
  induction n generalizing s k with
  | zero =>
      rw [pow_zero, mul_one] at hn
      exact Loop.terminates_of_leaves (h.leaves hfg hη hn k)
  | succ n ih =>
      cases hbody : body f z tol k s with
      | inr r => exact Loop.terminates_of_leaves hbody
      | inl t =>
          obtain ⟨hencl, hhalf⟩ := h.step hδ hfg hbody
          rw [Loop.terminates_iff_of_goes_on hbody]
          refine ih hencl (k + 1) ?_
          rw [hhalf]
          rw [pow_succ] at hn
          linarith

/-- Where the function is nowhere close to the value, it does not. -/
theorem not_terminates (hfar : ∀ x, a < x → x < b → tol < |f x - z|) (hlow : a ≤ s.1)
    (hlt : s.1 < s.2) (hhigh : s.2 ≤ b) (k : ℕ) : ¬ Loop.Terminates (body f z tol) k s := by
  refine Loop.not_terminates_of_trap (S := fun s => a ≤ s.1 ∧ s.1 < s.2 ∧ s.2 ≤ b) ?_
    ⟨hlow, hlt, hhigh⟩
  rintro k s ⟨hlow, hlt, hhigh⟩
  obtain ⟨hleft, hright⟩ := middle_mem hlt
  refine ⟨_, if_pos (hfar _ (hlow.trans_lt hleft) (hright.trans_le hhigh)), ?_⟩
  split
  · exact ⟨hlow.trans hleft.le, hright, hhigh⟩
  · exact ⟨hlow, hleft, hright.le.trans hhigh⟩

end Gtoaes.Lib.Bisect
