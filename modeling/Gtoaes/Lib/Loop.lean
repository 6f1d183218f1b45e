import Mathlib.Order.Basic
import Mathlib.Order.Nat

/-!
While loops. One iteration goes on with a new state or leaves with a result; it
is told its own number, for what differs from one iteration to the next without
being part of the state.

A loop in which every iteration uses something up terminates; one that can keep
to a set of states in which it never leaves does not.
-/

namespace Gtoaes.Lib.Loop

variable {σ ρ : Type*}

/-- At most `fuel` iterations, from the `k`-th on. -/
def run (body : ℕ → σ → σ ⊕ ρ) : (fuel k : ℕ) → σ → Option ρ
  | 0, _, _ => none
  | fuel + 1, k, x =>
      match body k x with
      | .inl y => run body fuel (k + 1) y
      | .inr r => some r

/-- Some number of iterations is enough. -/
def Terminates (body : ℕ → σ → σ ⊕ ρ) (k : ℕ) (x : σ) : Prop :=
  ∃ fuel r, run body fuel k x = some r

/-- Each of the next `n` iterations that goes on makes `μ` smaller. -/
def ProgressesFor (μ : σ → ℕ) (body : ℕ → σ → σ ⊕ ρ) : (n k : ℕ) → σ → Prop
  | 0, _, _ => True
  | n + 1, k, x => ∀ y, body k x = .inl y → μ y < μ x ∧ ProgressesFor μ body n (k + 1) y

/-- Every iteration of the loop makes `μ` smaller or leaves. -/
def Progresses (μ : σ → ℕ) (body : ℕ → σ → σ ⊕ ρ) (k : ℕ) (x : σ) : Prop :=
  ∀ n, ProgressesFor μ body n k x

variable {body : ℕ → σ → σ ⊕ ρ} {μ : σ → ℕ} {k : ℕ} {x y : σ}

theorem terminates_of_leaves {r : ρ} (h : body k x = .inr r) : Terminates body k x :=
  ⟨1, r, by simp [run, h]⟩

theorem terminates_iff_of_goes_on (h : body k x = .inl y) :
    Terminates body k x ↔ Terminates body (k + 1) y := by
  constructor
  · rintro ⟨fuel, r, hrun⟩
    cases fuel with
    | zero => cases hrun
    | succ fuel => exact ⟨fuel, r, by simpa [run, h] using hrun⟩
  · rintro ⟨fuel, r, hrun⟩
    exact ⟨fuel + 1, r, by simpa [run, h] using hrun⟩

theorem progresses_of_leaves {r : ρ} (h : body k x = .inr r) : Progresses μ body k x := by
  intro n
  cases n with
  | zero => trivial
  | succ n => intro y hy; rw [h] at hy; cases hy

theorem progresses_iff_of_goes_on (h : body k x = .inl y) :
    Progresses μ body k x ↔ μ y < μ x ∧ Progresses μ body (k + 1) y := by
  constructor
  · intro hp
    exact ⟨(hp 1 y h).1, fun n => (hp (n + 1) y h).2⟩
  · rintro ⟨hlt, hp⟩ n
    cases n with
    | zero => trivial
    | succ n =>
        intro z hz
        obtain rfl : y = z := Sum.inl.inj (h.symm.trans hz)
        exact ⟨hlt, hp n⟩

/-- More fuel than enough makes no difference. -/
theorem run_of_le {fuel more : ℕ} {r : ρ} (h : run body fuel k x = some r) (hle : fuel ≤ more) :
    run body more k x = some r := by
  induction fuel generalizing more k x with
  | zero => cases h
  | succ fuel ih =>
      obtain ⟨more, rfl⟩ : ∃ m, more = m + 1 := ⟨more - 1, by omega⟩
      rw [run] at h ⊢
      cases hb : body k x with
      | inr r' => rwa [hb] at h
      | inl y =>
          rw [hb] at h
          exact ih h (by omega)

/-- A loop cannot make a natural number smaller for ever. -/
theorem Progresses.terminates (h : Progresses μ body k x) : Terminates body k x := by
  induction hm : μ x using Nat.strong_induction_on generalizing k x with
  | _ m ih =>
      cases hb : body k x with
      | inr r => exact terminates_of_leaves hb
      | inl y =>
          obtain ⟨hlt, hp⟩ := (progresses_iff_of_goes_on hb).mp h
          exact (terminates_iff_of_goes_on hb).mpr (ih (μ y) (hm ▸ hlt) hp rfl)

/-- A measure that every iteration lowers. -/
theorem progresses_of_lowers (h : ∀ k x y, body k x = .inl y → μ y < μ x) (k : ℕ) (x : σ) :
    Progresses μ body k x := by
  intro n
  induction n generalizing k x with
  | zero => trivial
  | succ n ih => exact fun y hy => ⟨h k x y hy, ih (k + 1) y⟩

/-- From a set of states that no iteration leaves the loop does not return. -/
theorem not_terminates_of_trap {S : σ → Prop} (h : ∀ k x, S x → ∃ y, body k x = .inl y ∧ S y)
    (hx : S x) : ¬ Terminates body k x := by
  rintro ⟨fuel, r, hrun⟩
  induction fuel generalizing k x with
  | zero => cases hrun
  | succ fuel ih =>
      obtain ⟨y, hy, hS⟩ := h k x hx
      exact ih hS (by simpa [run, hy] using hrun)

end Gtoaes.Lib.Loop
