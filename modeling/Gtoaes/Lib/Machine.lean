import Mathlib.Data.List.Basic

/-!
Deterministic machines with outputs, and what holds along their runs.

A machine answers an input with a new state and the outputs it emits on the
way. Properties of a run are almost never about states alone: they compare an
output with the outputs before it. So a run is followed over *configurations*,
which keep the whole history of outputs next to the state, and a property of a
run is a property of every configuration it visits (`Always`) or of every
input it consumes (`Each`).

The rules below turn a fact about one step into a fact about runs. Besides the
plain invariant rule there is an exact one, `always_iff_each`: where one step
keeps the property if and only if the step meets a condition, a run keeps it
if and only if each of its steps does.
-/

namespace Gtoaes.Lib

/-- A machine over states `σ`, inputs `ι` and outputs `ω`. -/
structure Machine (σ ι ω : Type*) where
  step : σ → ι → σ × List ω

/-- A state with every output emitted before it was reached, oldest first. -/
structure Config (σ ω : Type*) where
  state : σ
  hist : List ω

namespace Machine

variable {σ ι ω : Type*} (M : Machine σ ι ω)

def next (c : Config σ ω) (i : ι) : Config σ ω :=
  { state := (M.step c.state i).1, hist := c.hist ++ (M.step c.state i).2 }

@[simp] theorem next_state (c : Config σ ω) (i : ι) :
    (M.next c i).state = (M.step c.state i).1 := rfl

@[simp] theorem next_hist (c : Config σ ω) (i : ι) :
    (M.next c i).hist = c.hist ++ (M.step c.state i).2 := rfl

/-- The configuration after a list of inputs. -/
def exec (c : Config σ ω) (is : List ι) : Config σ ω := is.foldl M.next c

/-- `P` holds of every configuration visited on the inputs `is`. -/
def Always (P : Config σ ω → Prop) (c : Config σ ω) : List ι → Prop
  | [] => P c
  | i :: is => P c ∧ Always P (M.next c i) is

/-- `P` holds of every configuration together with the input it consumes. -/
def Each (P : Config σ ω → ι → Prop) (c : Config σ ω) : List ι → Prop
  | [] => True
  | i :: is => P c i ∧ Each P (M.next c i) is

/-- `P` holds of every configuration visited from the first input on that meets
`a`. -/
def After (a : ι → Bool) (P : Config σ ω → Prop) (c : Config σ ω) : List ι → Prop
  | [] => True
  | i :: is => if a i then M.Always P (M.next c i) is else After a P (M.next c i) is

/-- The first input that meets `a`, if there is one, meets `A` with the
configuration it comes to. -/
def First (a : ι → Bool) (A : Config σ ω → ι → Prop) (c : Config σ ω) : List ι → Prop
  | [] => True
  | i :: is => if a i then A c i else First a A (M.next c i) is

instance decidableEach {A : Config σ ω → ι → Prop} [∀ c i, Decidable (A c i)] :
    (c : Config σ ω) → (is : List ι) → Decidable (M.Each A c is)
  | _, [] => isTrue trivial
  | c, i :: is =>
      haveI : Decidable (M.Each A (M.next c i) is) := decidableEach (M.next c i) is
      inferInstanceAs (Decidable (A c i ∧ M.Each A (M.next c i) is))

variable {M} {P Q : Config σ ω → Prop} {A B E : Config σ ω → ι → Prop} {c : Config σ ω}
  {is : List ι}

theorem Each.mono (h : M.Each A c is) (hAB : ∀ c i, A c i → B c i) : M.Each B c is := by
  induction is generalizing c with
  | nil => trivial
  | cons i is ih => exact ⟨hAB c i h.1, ih h.2⟩

theorem Always.mono (h : M.Always P c is) (hPQ : ∀ c, P c → Q c) : M.Always Q c is := by
  induction is generalizing c with
  | nil => exact hPQ c h
  | cons i is ih => exact ⟨hPQ c h.1, ih h.2⟩

theorem each_and : M.Each (fun c i => A c i ∧ B c i) c is ↔ M.Each A c is ∧ M.Each B c is := by
  induction is generalizing c with
  | nil => simp [Each]
  | cons i is ih => simp only [Each, ih]; tauto

/-- The last configuration of a run is one of those visited. -/
theorem Always.exec (h : M.Always P c is) : P (M.exec c is) := by
  induction is generalizing c with
  | nil => exact h
  | cons i is ih => exact ih h.2

/-- The invariant rule, for steps that may assume `E` of their input. -/
theorem always_of_each (h : P c) (hE : M.Each E c is)
    (hstep : ∀ c i, P c → E c i → P (M.next c i)) : M.Always P c is := by
  induction is generalizing c with
  | nil => exact h
  | cons i is ih => exact ⟨h, ih (hstep c i h hE.1) hE.2⟩

/-- An invariant of all configurations may be assumed at each step. -/
theorem Always.each (h : M.Always P c is) : M.Each (fun c _ => P c) c is := by
  induction is generalizing c with
  | nil => trivial
  | cons i is ih => exact ⟨h.1, ih h.2⟩

/-- What is known of each step carries an invariant with it. -/
theorem Each.with_invariant (hE : M.Each E c is) (h : P c)
    (hstep : ∀ c i, P c → E c i → P (M.next c i)) :
    M.Each (fun c i => P c ∧ E c i) c is :=
  each_and.mpr ⟨(always_of_each h hE hstep).each, hE⟩

/-- The unconditional invariant rule. -/
theorem always_of_invariant (h : P c) (hstep : ∀ c i, P c → P (M.next c i)) :
    M.Always P c is := by
  induction is generalizing c with
  | nil => exact h
  | cons i is ih => exact ⟨h, ih (hstep c i h)⟩

theorem each_of_invariant (h : P c) (hstep : ∀ c i, P c → P (M.next c i)) :
    M.Each (fun c _ => P c) c is :=
  (always_of_invariant h hstep).each

theorem each_true : M.Each (fun _ _ => True) c is :=
  each_of_invariant trivial fun _ _ h => h

/-- Two properties that agree wherever `R` holds agree on the run. -/
theorem always_congr {R : Config σ ω → Prop} (hR : M.Always R c is)
    (hPQ : ∀ c, R c → (P c ↔ Q c)) : M.Always P c is ↔ M.Always Q c is := by
  induction is generalizing c with
  | nil => exact hPQ c hR
  | cons i is ih => simp only [Always, hPQ c hR.1, ih hR.2]

/-- Two step conditions that agree wherever `E` holds agree on the run. -/
theorem each_congr (hE : M.Each E c is) (hAB : ∀ c i, E c i → (A c i ↔ B c i)) :
    M.Each A c is ↔ M.Each B c is := by
  induction is generalizing c with
  | nil => simp [Each]
  | cons i is ih => simp only [Each, hAB c i hE.1, ih hE.2]

/-- The exact rule: if a step keeps `P` precisely when it meets `A`, then a run
keeps `P` precisely when all its steps meet `A`. -/
theorem always_iff_each (hE : M.Each E c is) (h : P c)
    (hstep : ∀ c i, E c i → P c → (P (M.next c i) ↔ A c i)) :
    M.Always P c is ↔ M.Each A c is := by
  induction is generalizing c with
  | nil => simp [Always, Each, h]
  | cons i is ih =>
      simp only [Always, Each, h, true_and]
      constructor
      · intro hrun
        have hnext : P (M.next c i) := by
          cases is with
          | nil => exact hrun
          | cons j js => exact hrun.1
        exact ⟨(hstep c i hE.1 h).mp hnext, (ih hE.2 hnext).mp hrun⟩
      · rintro ⟨hA, hrest⟩
        exact (ih hE.2 ((hstep c i hE.1 h).mpr hA)).mpr hrest

/-- The exact rule for a property `P` of configurations and one, `B`, of steps.
The invariant `L` is kept by the steps that meet `A`. -/
theorem always_and_each_iff {L : Config σ ω → Prop} (h : L c) (hP : ∀ c, L c → P c)
    (hstep : ∀ c i, L c → ((P (M.next c i) ∧ B c i) ↔ A c i))
    (hkeep : ∀ c i, L c → A c i → L (M.next c i)) :
    (M.Always P c is ∧ M.Each B c is) ↔ M.Each A c is := by
  induction is generalizing c with
  | nil => simp [Always, Each, hP c h]
  | cons i is ih =>
      constructor
      · rintro ⟨⟨-, hrun⟩, hB, hrest⟩
        have hnext : P (M.next c i) := by
          cases is with
          | nil => exact hrun
          | cons j js => exact hrun.1
        have hA : A c i := (hstep c i h).mp ⟨hnext, hB⟩
        exact ⟨hA, (ih (hkeep c i h hA)).mp ⟨hrun, hrest⟩⟩
      · rintro ⟨hA, hrest⟩
        obtain ⟨-, hB⟩ := (hstep c i h).mpr hA
        obtain ⟨hrun, hrest⟩ := (ih (hkeep c i h hA)).mpr hrest
        exact ⟨⟨hP c h, hrun⟩, hB, hrest⟩

/-- A property of all configurations holds in particular from some input on. -/
theorem Always.after (h : M.Always P c is) (a : ι → Bool) : M.After a P c is := by
  induction is generalizing c with
  | nil => trivial
  | cons i is ih =>
      rw [After]
      split
      · exact h.2
      · exact ih h.2

/-- The exact rule for `After`: everything hangs on the first input that meets
`a`, before which `L` holds and is kept, and after which `K` does if the input
meets `A`. -/
theorem after_iff_first {L K : Config σ ω → Prop} {a : ι → Bool} (h : L c)
    (hL : ∀ c i, L c → a i = false → L (M.next c i))
    (hgood : ∀ c i, L c → a i = true → A c i → K (M.next c i))
    (hbad : ∀ c i, L c → a i = true → ¬ A c i → ¬ P (M.next c i))
    (hK : ∀ c i, K c → K (M.next c i)) (hP : ∀ c, K c → P c) :
    M.After a P c is ↔ M.First a A c is := by
  induction is generalizing c with
  | nil => exact Iff.rfl
  | cons i is ih =>
      rw [After, First]
      cases ha : a i with
      | false => exact ih (hL c i h ha)
      | true =>
          simp only [if_true]
          constructor
          · intro hrun
            have hnext : P (M.next c i) := by
              cases is with
              | nil => exact hrun
              | cons j js => exact hrun.1
            by_contra hA
            exact hbad c i h ha hA hnext
          · intro hA
            exact (always_of_invariant (hgood c i h ha hA) hK).mono hP

theorem exec_append (c : Config σ ω) (is js : List ι) :
    M.exec c (is ++ js) = M.exec (M.exec c is) js := List.foldl_append

theorem each_append {js : List ι} :
    M.Each A c (is ++ js) ↔ M.Each A c is ∧ M.Each A (M.exec c is) js := by
  induction is generalizing c with
  | nil => simp [Each, exec]
  | cons i is ih =>
      simp only [List.cons_append, Each, ih, and_assoc]
      rfl

/-- What no step can mend holds along a run if it holds at its end. -/
theorem always_iff_exec (hP : ∀ c i, P (M.next c i) → P c) :
    M.Always P c is ↔ P (M.exec c is) := by
  refine ⟨Always.exec, ?_⟩
  induction is generalizing c with
  | nil => exact id
  | cons i is ih =>
      intro h
      have hrest : M.Always P (M.next c i) is := ih h
      have hnext : P (M.next c i) := by
        cases is with
        | nil => exact hrest
        | cons j js => exact hrest.1
      exact ⟨hP c i hnext, hrest⟩

/-- A condition of steps holds of every step there is. -/
theorem each_iff_split :
    M.Each A c is ↔ ∀ pre i post, is = pre ++ i :: post → A (M.exec c pre) i := by
  constructor
  · rintro h pre i post rfl
    exact (each_append.mp h).2.1
  · intro h
    induction is generalizing c with
    | nil => trivial
    | cons i is ih =>
        refine ⟨h [] i is rfl, ih fun pre j post heq => ?_⟩
        exact h (i :: pre) j post (congrArg (i :: ·) heq)

section Simulation

variable {σ' ω' : Type*} {N : Machine σ' ι ω'} {S : Config σ ω → Config σ' ω' → Prop}
  {d : Config σ' ω'}

/-- Two machines in step stay related. -/
theorem sim_exec (hS : S c d) (hkeep : ∀ c d i, S c d → S (M.next c i) (N.next d i))
    (is : List ι) : S (M.exec c is) (N.exec d is) := by
  induction is generalizing c d with
  | nil => exact hS
  | cons i is ih => exact ih (hkeep c d i hS)

/-- A condition on the steps of one machine carries over to another in step with
it. -/
theorem each_of_sim {B : Config σ' ω' → ι → Prop} (hS : S c d)
    (hkeep : ∀ c d i, S c d → S (M.next c i) (N.next d i))
    (hAB : ∀ c d i, S c d → B d i → A c i) (h : N.Each B d is) : M.Each A c is := by
  induction is generalizing c d with
  | nil => trivial
  | cons i is ih => exact ⟨hAB c d i hS h.1, ih (hkeep c d i hS) h.2⟩

end Simulation

/-! ### Steps written down -/

/-- The machine that writes down the state and the input of every step, instead
of what it emits. -/
def journal (M : Machine σ ι ω) : Machine σ ι (σ × ι) where
  step s i := ((M.step s i).1, [(s, i)])

@[simp] theorem journal_next_state (c : Config σ (σ × ι)) (i : ι) :
    (M.journal.next c i).state = (M.step c.state i).1 := rfl

@[simp] theorem journal_next_hist (c : Config σ (σ × ι)) (i : ι) :
    (M.journal.next c i).hist = c.hist ++ [(c.state, i)] := rfl

/-! ### Inputs that are several steps -/

section Expand

variable {κ : Type*} (M) (turns : σ → κ → List ι)

/-- The machine whose inputs stand for lists of inputs of `M`, as the state
decides. -/
def expand : Machine σ κ ω where
  step s k :=
    let c := M.exec { state := s, hist := [] } (turns s k)
    (c.state, c.hist)

/-- All inputs of `M` in a run of the expanded machine. -/
def allTurns (c : Config σ ω) : List κ → List ι
  | [] => []
  | k :: ks => turns c.state k ++ allTurns (M.exec c (turns c.state k)) ks

theorem exec_hist (s : σ) (hist : List ω) (is : List ι) :
    M.exec { state := s, hist := hist } is =
      { state := (M.exec { state := s, hist := [] } is).state
        hist := hist ++ (M.exec { state := s, hist := [] } is).hist } := by
  induction is generalizing s hist with
  | nil => simp [exec]
  | cons i is ih =>
      have hcons : ∀ hist, M.exec { state := s, hist := hist } (i :: is) =
          M.exec { state := (M.step s i).1, hist := hist ++ (M.step s i).2 } is := fun _ => rfl
      rw [hcons, hcons, ih, ih _ ([] ++ _)]
      simp

theorem expand_next (c : Config σ ω) (k : κ) :
    (M.expand turns).next c k = M.exec c (turns c.state k) := by
  rw [show c = { state := c.state, hist := c.hist } from rfl, exec_hist]
  rfl

theorem expand_exec (c : Config σ ω) (ks : List κ) :
    (M.expand turns).exec c ks = M.exec c (M.allTurns turns c ks) := by
  induction ks generalizing c with
  | nil => rfl
  | cons k ks ih =>
      rw [allTurns, exec_append, ← ih, ← expand_next]
      rfl

theorem expand_each_iff {A : Config σ ω → ι → Prop} {c : Config σ ω} {ks : List κ} :
    (M.expand turns).Each (fun c k => M.Each A c (turns c.state k)) c ks ↔
      M.Each A c (M.allTurns turns c ks) := by
  induction ks generalizing c with
  | nil => exact Iff.rfl
  | cons k ks ih => rw [allTurns, each_append, ← ih, Each, expand_next]

theorem expand_always_iff {P : Config σ ω → Prop} {c : Config σ ω} {ks : List κ}
    (hP : ∀ c i, P (M.next c i) → P c) :
    (M.expand turns).Always P c ks ↔ M.Always P c (M.allTurns turns c ks) := by
  have hexec : ∀ (c : Config σ ω) (is : List ι), P (M.exec c is) → P c := by
    intro c is h
    have hall := (always_iff_exec hP).mpr h
    cases is with
    | nil => exact hall
    | cons i is => exact hall.1
  rw [always_iff_exec hP, ← expand_exec, always_iff_exec]
  intro c k h
  rw [expand_next] at h
  exact hexec c _ h

end Expand

end Machine

end Gtoaes.Lib
