import Mathlib.Logic.Function.Basic

/-!
Quantities that are computed on demand and kept. A memo has data the quantities
derive from, a cell for each value and a flag for each quantity that says that
its cells are filled.

What the cells should hold is a `Meaning`. An action on a memo *computes* a value
over given data if it returns that value from every memo whose flags tell the
truth, and leaves such a memo; the rules follow the text of the action. Keeping a
quantity then never shows.
-/

namespace Gtoaes.Lib

structure Memo (σ ι V : Type) where
  base : σ
  value : ι → V
  valid : ι → Bool

namespace Memo

variable {σ ι V α β : Type}

/-- The cells that a flag vouches for, and what each of them is to hold. -/
structure Meaning (σ ι V : Type) where
  cells : ι → List ι
  val : σ → ι → Option V

/-- The flags tell the truth. -/
def Coherent (D : Meaning σ ι V) (m : Memo σ ι V) : Prop :=
  ∀ q, m.valid q = true → ∀ p ∈ D.cells q, D.val m.base p = some (m.value p)

/-- No quantity is kept. -/
def invalidate (m : Memo σ ι V) : Memo σ ι V := { m with valid := fun _ => false }

/-- Flags survive a change of the data that their cells do not depend on. -/
theorem Coherent.rebase_iff {D : Meaning σ ι V} {m : Memo σ ι V} (h : Coherent D m) (b : σ) :
    Coherent D { m with base := b } ↔
      ∀ q, m.valid q = true → ∀ p ∈ D.cells q, D.val b p = D.val m.base p := by
  refine forall_congr' fun q => forall_congr' fun hq => forall_congr' fun p =>
    forall_congr' fun hp => ?_
  rw [h q hq p hp]

section Fill

variable [DecidableEq ι]

def setValues (vs : List (ι × V)) (m : Memo σ ι V) : Memo σ ι V :=
  { m with value := vs.foldl (fun f x => Function.update f x.1 x.2) m.value }

def setValid (q : ι) (m : Memo σ ι V) : Memo σ ι V :=
  { m with valid := Function.update m.valid q true }

/-- A cell holds what it held, or something it was given. -/
theorem setValues_cases (vs : List (ι × V)) (f : ι → V) (p : ι) :
    (p, vs.foldl (fun f x => Function.update f x.1 x.2) f p) ∈ vs ∨
      p ∉ vs.map Prod.fst ∧ vs.foldl (fun f x => Function.update f x.1 x.2) f p = f p := by
  induction vs generalizing f with
  | nil => exact .inr ⟨List.not_mem_nil, rfl⟩
  | cons x vs ih =>
      rw [List.foldl_cons]
      rcases ih (Function.update f x.1 x.2) with hmem | ⟨hnot, hkept⟩
      · exact .inl (List.mem_cons_of_mem x hmem)
      · rw [hkept]
        by_cases hp : p = x.1
        · subst hp
          rw [Function.update_self]
          exact .inl List.mem_cons_self
        · rw [Function.update_of_ne hp]
          refine .inr ⟨?_, rfl⟩
          rw [List.map_cons, List.mem_cons, not_or]
          exact ⟨hp, hnot⟩

theorem Coherent.setValues {D : Meaning σ ι V} {m : Memo σ ι V} (h : Coherent D m)
    {vs : List (ι × V)} (hvs : ∀ x ∈ vs, D.val m.base x.1 = some x.2) :
    Coherent D (m.setValues vs) := by
  intro q hq p hp
  rcases setValues_cases vs m.value p with hmem | ⟨-, hkept⟩
  · exact hvs _ hmem
  · exact (h q hq p hp).trans (congrArg some hkept.symm)

/-- A flag may be set where its cells have just been filled. -/
theorem Coherent.setValid {D : Meaning σ ι V} {m : Memo σ ι V} (h : Coherent D m) {q : ι}
    (hq : ∀ p ∈ D.cells q, D.val m.base p = some (m.value p)) : Coherent D (m.setValid q) := by
  intro q' hq' p hp
  by_cases heq : q' = q
  · subst heq
    exact hq p hp
  · have hkept : (m.setValid q).valid q' = m.valid q' := by
      show Function.update m.valid q true q' = m.valid q'
      exact Function.update_of_ne heq true m.valid
    exact h q' (hkept.symm.trans hq') p hp

end Fill

/-! ### Actions -/

abbrev Action (σ ι V α : Type) := StateM (Memo σ ι V) α

/-- Over the data `b` the action returns `a`, if the flags tell the truth, and
they go on to do so. -/
def Computes (D : Meaning σ ι V) (b : σ) (g : Action σ ι V α) (a : α) : Prop :=
  ∀ m : Memo σ ι V, Coherent D m → m.base = b →
    (g.run m).1 = a ∧ Coherent D (g.run m).2 ∧ (g.run m).2.base = b

/-- Over the data `b` the action has the flags go on to tell the truth, whatever it
returns. -/
def Keeps (D : Meaning σ ι V) (b : σ) (g : Action σ ι V α) : Prop :=
  ∀ m : Memo σ ι V, Coherent D m → m.base = b →
    Coherent D (g.run m).2 ∧ (g.run m).2.base = b

/-- The action leaves the data and the flags of `W` alone. -/
def Leaves (W : ι → Prop) (g : Action σ ι V α) : Prop :=
  ∀ m : Memo σ ι V, (g.run m).2.base = m.base ∧ ∀ q, W q → (g.run m).2.valid q = m.valid q

variable {D : Meaning σ ι V} {b : σ} {W : ι → Prop}

theorem computes_pure (a : α) : Computes D b (pure a) a := fun _ hm hb => ⟨rfl, hm, hb⟩

theorem Computes.bind {g : Action σ ι V α} {a : α} {k : α → Action σ ι V β} {c : β}
    (hg : Computes D b g a) (hk : Computes D b (k a) c) : Computes D b (g >>= k) c := by
  intro m hm hb
  obtain ⟨ha, hm', hb'⟩ := hg m hm hb
  have hk' := hk (g.run m).2 hm' hb'
  rw [← ha] at hk'
  exact hk'

theorem Computes.map {g : Action σ ι V α} {a : α} (hg : Computes D b g a) (f : α → β) :
    Computes D b (f <$> g) (f a) := by
  intro m hm hb
  obtain ⟨ha, hrest⟩ := hg m hm hb
  exact ⟨congrArg f ha, hrest⟩

theorem Computes.keeps {g : Action σ ι V α} {a : α} (hg : Computes D b g a) : Keeps D b g :=
  fun m hm hb => (hg m hm hb).2

theorem Keeps.bind {g : Action σ ι V α} {k : α → Action σ ι V β} (hg : Keeps D b g)
    (hk : ∀ a, Keeps D b (k a)) : Keeps D b (g >>= k) := by
  intro m hm hb
  obtain ⟨hm', hb'⟩ := hg m hm hb
  exact hk (g.run m).1 (g.run m).2 hm' hb'

theorem Keeps.map {g : Action σ ι V α} (hg : Keeps D b g) (f : α → β) : Keeps D b (f <$> g) :=
  fun m hm hb => hg m hm hb

theorem run_bind (g : Action σ ι V α) (k : α → Action σ ι V β) (m : Memo σ ι V) :
    (g >>= k).run m = (k (g.run m).1).run (g.run m).2 := rfl

theorem leaves_pure (a : α) : Leaves W (pure a : Action σ ι V α) :=
  fun _ => ⟨rfl, fun _ _ => rfl⟩

theorem Leaves.bind {g : Action σ ι V α} {k : α → Action σ ι V β} (hg : Leaves W g)
    (hk : ∀ a, Leaves W (k a)) : Leaves W (g >>= k) := by
  intro m
  obtain ⟨hbase, hflags⟩ := hg m
  obtain ⟨hbase', hflags'⟩ := hk (g.run m).1 (g.run m).2
  exact ⟨hbase'.trans hbase, fun q hq => (hflags' q hq).trans (hflags q hq)⟩

theorem Leaves.map {g : Action σ ι V α} (hg : Leaves W g) (f : α → β) : Leaves W (f <$> g) :=
  fun m => hg m

/-- Data the quantities derive from. -/
def ask (f : σ → α) : Action σ ι V α := do return f (← get).base

theorem computes_ask (f : σ → α) : Computes D b (ask f) (f b) := by
  intro m hm hb
  exact ⟨congrArg f hb, hm, hb⟩

theorem leaves_ask (f : σ → α) : Leaves W (ask f : Action σ ι V α) :=
  fun _ => ⟨rfl, fun _ _ => rfl⟩

/-- What is kept under a flag: computed first where the flag is not set. -/
def keptOr (q : ι) (kept : (ι → V) → α) (compute : Action σ ι V α) : Action σ ι V α := do
  if !(← get).valid q then compute else return kept (← get).value

theorem run_keptOr (q : ι) (kept : (ι → V) → α) (compute : Action σ ι V α) (m : Memo σ ι V) :
    (keptOr q kept compute).run m =
      if m.valid q = true then (kept m.value, m) else compute.run m := by
  cases hq : m.valid q with
  | false => simp [keptOr, hq]
  | true =>
      simp [keptOr, hq]
      rfl

theorem computes_keptOr {q : ι} {kept : (ι → V) → α} {compute : Action σ ι V α} {a : α}
    (hcompute : Computes D b compute a)
    (hkept : ∀ f : ι → V, (∀ p ∈ D.cells q, D.val b p = some (f p)) → kept f = a) :
    Computes D b (keptOr q kept compute) a := by
  rintro m hm rfl
  rw [run_keptOr]
  split
  · next hq => exact ⟨hkept m.value (hm q hq), hm, rfl⟩
  · exact hcompute m hm rfl

theorem keeps_keptOr {q : ι} {kept : (ι → V) → α} {compute : Action σ ι V α}
    (h : Keeps D b compute) : Keeps D b (keptOr q kept compute) := by
  intro m hm hb
  rw [run_keptOr]
  split
  · exact ⟨hm, hb⟩
  · exact h m hm hb

theorem leaves_keptOr {q : ι} {kept : (ι → V) → α} {compute : Action σ ι V α}
    (h : Leaves W compute) : Leaves W (keptOr q kept compute) := by
  intro m
  rw [run_keptOr]
  split
  · exact ⟨rfl, fun _ _ => rfl⟩
  · exact h m

section Keep

variable [DecidableEq ι]

/-- Fill cells and set their flag. -/
def fill (q : ι) (vs : List (ι × V)) : Action σ ι V Unit :=
  modify fun m => (m.setValues vs).setValid q

/-- Fill cells under no flag. -/
def store (vs : List (ι × V)) : Action σ ι V Unit := modify fun m => m.setValues vs

/-- A quantity with one cell. -/
def keep (q : ι) (compute : Action σ ι V V) : Action σ ι V V :=
  keptOr q (· q) do
    let v ← compute
    fill q [(q, v)]
    return v

theorem computes_store {vs : List (ι × V)} (hvs : ∀ x ∈ vs, D.val b x.1 = some x.2) :
    Computes D b (store vs) () := by
  rintro m hm rfl
  exact ⟨rfl, hm.setValues hvs, rfl⟩

theorem computes_fill {q : ι} {vs : List (ι × V)} (hvs : ∀ x ∈ vs, D.val b x.1 = some x.2)
    (hcells : ∀ p ∈ D.cells q, p ∈ vs.map Prod.fst) : Computes D b (fill q vs) () := by
  rintro m hm rfl
  refine ⟨rfl, (hm.setValues hvs).setValid fun p hp => ?_, rfl⟩
  rcases setValues_cases vs m.value p with hmem | ⟨hnot, -⟩
  · exact hvs _ hmem
  · exact absurd (hcells p hp) hnot

/-- A flag that says nothing may be set, over cells that nothing is said about. -/
theorem keeps_fill_free {q : ι} {vs : List (ι × V)} (hq : D.cells q = [])
    (hfree : ∀ p ∈ vs.map Prod.fst, ∀ q, p ∉ D.cells q) : Keeps D b (fill q vs) := by
  rintro m hm rfl
  refine ⟨Coherent.setValid ?_ fun p hp => absurd (hq ▸ hp) List.not_mem_nil, rfl⟩
  intro q' hq' p hp
  rcases setValues_cases vs m.value p with hmem | ⟨-, hkept⟩
  · exact absurd hp (hfree p (List.mem_map_of_mem hmem) q')
  · exact (hm q' hq' p hp).trans (congrArg some hkept.symm)

theorem computes_keep {q : ι} {compute : Action σ ι V V} {v : V}
    (hcompute : Computes D b compute v) (hcells : D.cells q = [q]) (hval : D.val b q = some v) :
    Computes D b (keep q compute) v := by
  refine computes_keptOr (hcompute.bind (.bind (computes_fill ?_ ?_) (computes_pure v))) ?_
  · intro x hx
    obtain rfl := List.mem_singleton.mp hx
    exact hval
  · rw [hcells]
    exact fun p hp => hp
  · intro f hf
    rw [hcells, List.forall_mem_singleton, hval] at hf
    exact (Option.some.inj hf).symm

theorem leaves_store (vs : List (ι × V)) : Leaves W (store vs : Action σ ι V Unit) :=
  fun _ => ⟨rfl, fun _ _ => rfl⟩

theorem leaves_fill {q : ι} (hq : ¬ W q) (vs : List (ι × V)) :
    Leaves W (fill q vs : Action σ ι V Unit) := by
  intro m
  refine ⟨rfl, fun q' hq' => ?_⟩
  have hne : q' ≠ q := fun heq => hq (heq ▸ hq')
  show Function.update m.valid q true q' = m.valid q'
  exact Function.update_of_ne hne true m.valid

theorem valid_fill (q : ι) (vs : List (ι × V)) (m : Memo σ ι V) :
    ((fill q vs).run m).2.valid q = true := by
  show Function.update m.valid q true q = true
  exact Function.update_self ..

/-- A quantity that has been asked for is kept. -/
theorem valid_keep {q : ι} (compute : Action σ ι V V) (m : Memo σ ι V) :
    ((keep q compute).run m).2.valid q = true := by
  rw [keep, run_keptOr]
  split
  · next hq => exact hq
  · rw [run_bind]
    exact valid_fill q _ _

theorem leaves_keep {q : ι} (hq : ¬ W q) {compute : Action σ ι V V} (h : Leaves W compute) :
    Leaves W (keep q compute) :=
  leaves_keptOr (h.bind fun v => (leaves_fill hq _).bind fun _ => leaves_pure v)

end Keep

end Memo

end Gtoaes.Lib
