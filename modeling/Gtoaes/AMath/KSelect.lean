import Gtoaes.Lib.CString
import Gtoaes.Lib.Selection
import Mathlib.Tactic.SplitIfs

/-!
`k_select` of `AMath.h`, over any linear order. Every access is checked against the
length of the array; the scans of a partition are not, in the source. The positions are
of the type `int`, and the sum of two of them is reduced to that type.
-/

namespace Gtoaes

open Lib

variable {α : Type} [LinearOrder α]

/-! ### The array -/

/-- `array[i]` -/
def readCell (n : ℕ) (a : ℤ → α) (i : ℤ) : Option α := if 0 ≤ i ∧ i < n then some (a i) else none

/-- `array[i] = x` -/
def writeCell (n : ℕ) (a : ℤ → α) (i : ℤ) (x : α) : Option (ℤ → α) :=
  if 0 ≤ i ∧ i < n then some (Function.update a i x) else none

/-- `t = array[i]; array[i] = array[j]; array[j] = t` -/
def swapCells (n : ℕ) (a : ℤ → α) (i j : ℤ) : Option (ℤ → α) := do
  let t ← readCell n a i
  let x ← readCell n a j
  let a ← writeCell n a i x
  writeCell n a j t

/-- `if (array[i] > array[j])`, the two change places. -/
def orderCells (n : ℕ) (a : ℤ → α) (i j : ℤ) : Option (ℤ → α) := do
  let x ← readCell n a i
  let y ← readCell n a j
  if x > y then swapCells n a i j else some a

omit [LinearOrder α] in
theorem lt_length_of_readCell {n : ℕ} {a : ℤ → α} {i : ℤ} {x : α} (h : readCell n a i = some x) :
    0 ≤ i ∧ i < n := by
  rw [readCell] at h
  split_ifs at h with hi
  exact hi

/-- `while (array[++i] < x);` -/
def scanUp (n : ℕ) (a : ℤ → α) (x : α) (i : ℤ) : Option ℤ :=
  match h : readCell n a (i + 1) with
  | none => none
  | some y => if y < x then scanUp n a x (i + 1) else some (i + 1)
termination_by (n - i).toNat
decreasing_by
  have := lt_length_of_readCell h
  omega

/-- `while (array[--j] > x);` -/
def scanDown (n : ℕ) (a : ℤ → α) (x : α) (j : ℤ) : Option ℤ :=
  match h : readCell n a (j - 1) with
  | none => none
  | some y => if y > x then scanDown n a x (j - 1) else some (j - 1)
termination_by j.toNat
decreasing_by
  have := lt_length_of_readCell h
  omega

theorem lt_of_scanUp {n : ℕ} {a : ℤ → α} {x : α} {i i' : ℤ} (h : scanUp n a x i = some i') :
    i < i' := by
  fun_induction scanUp n a x i with
  | case1 i hread => cases h
  | case2 i y hread hlt ih => exact (lt_add_one i).trans (ih h)
  | case3 i y hread hstop =>
      obtain rfl := Option.some.inj h
      exact lt_add_one i

theorem lt_of_scanDown {n : ℕ} {a : ℤ → α} {x : α} {j j' : ℤ} (h : scanDown n a x j = some j') :
    j' < j := by
  fun_induction scanDown n a x j with
  | case1 j hread => cases h
  | case2 j y hread hlt ih => exact (ih h).trans (sub_one_lt j)
  | case3 j y hread hstop =>
      obtain rfl := Option.some.inj h
      exact sub_one_lt j

/-- The inner loop, about the pivot `x`: the array, and where the scans have met. -/
def partitionLoop (n : ℕ) (x : α) (a : ℤ → α) (i j : ℤ) : Option ((ℤ → α) × ℤ × ℤ) :=
  match hi : scanUp n a x i with
  | none => none
  | some i' =>
      match hj : scanDown n a x j with
      | none => none
      | some j' =>
          if j' ≤ i' then some (a, i', j')
          else
            match swapCells n a i' j' with
            | none => none
            | some b => partitionLoop n x b i' j'
termination_by (j - i).toNat
decreasing_by
  have := lt_of_scanUp hi
  have := lt_of_scanDown hj
  omega

/-- The pivot goes to `l + 1`, between elements that stop the scans. -/
def placePivot (n : ℕ) (a : ℤ → α) (l ir : ℤ) : Option (ℤ → α) := do
  let mid := (toInt32 (l + ir)).tdiv 2
  let a ← swapCells n a mid (l + 1)
  let a ← orderCells n a l ir
  let a ← orderCells n a (l + 1) ir
  orderCells n a l (l + 1)

/-- One round over a range of three or more. -/
def selectRound (n : ℕ) (a : ℤ → α) (l ir : ℤ) : Option ((ℤ → α) × ℤ × ℤ) := do
  let a ← placePivot n a l ir
  let x ← readCell n a (l + 1)
  let (a, i, j) ← partitionLoop n x a (l + 1) ir
  let y ← readCell n a j
  let a ← writeCell n a (l + 1) y
  let a ← writeCell n a j x
  some (a, i, j)

theorem lt_of_partitionLoop {n : ℕ} {x : α} {a b : ℤ → α} {i j i' j' : ℤ}
    (h : partitionLoop n x a i j = some (b, i', j')) : i < i' ∧ j' < j := by
  fun_induction partitionLoop n x a i j with
  | case1 a i j hup => cases h
  | case2 a i j i₁ hup hdown => cases h
  | case3 a i j i₁ hup j₁ hdown hmet =>
      cases h
      exact ⟨lt_of_scanUp hup, lt_of_scanDown hdown⟩
  | case4 a i j i₁ hup j₁ hdown hmet hswap => cases h
  | case5 a i j i₁ hup j₁ hdown hmet c hswap ih =>
      exact ⟨(lt_of_scanUp hup).trans (ih h).1, (ih h).2.trans (lt_of_scanDown hdown)⟩

theorem lt_of_selectRound {n : ℕ} {a b : ℤ → α} {l ir i j : ℤ}
    (h : selectRound n a l ir = some (b, i, j)) : l + 1 < i ∧ j < ir := by
  simp only [selectRound, Option.bind_eq_bind, Option.bind_eq_some_iff, Option.some.injEq] at h
  obtain ⟨c, -, x, -, ⟨d, i', j'⟩, hpartition, y, -, e, -, f, -, hresult⟩ := h
  cases hresult
  exact lt_of_partitionLoop hpartition

/-- A range of one or two. -/
def orderLast (n : ℕ) (a : ℤ → α) (l ir : ℤ) : Option (ℤ → α) :=
  if ir - l = 1 then orderCells n a l ir else some a

/-- The outer loop: the array, and its element at `k`. -/
def selectLoop (n : ℕ) (k : ℤ) (a : ℤ → α) (l ir : ℤ) : Option ((ℤ → α) × α) :=
  if ir - l ≤ 1 then do
    let a ← orderLast n a l ir
    let x ← readCell n a k
    some (a, x)
  else
    match h : selectRound n a l ir with
    | none => none
    | some (b, i, j) =>
        selectLoop n k b (if j ≤ k then i else l) (if j ≥ k then j - 1 else ir)
termination_by (ir - l).toNat
decreasing_by
  have := lt_of_selectRound h
  split_ifs <;> omega

/-- `k_select`; `invalid` is what -1 is in the type of the elements. -/
def kSelect (invalid : α) (n : ℕ) (a : ℤ → α) (k : ℤ) : Option ((ℤ → α) × α) :=
  if k < 0 ∨ k ≥ n then some (a, invalid) else selectLoop n k a 0 (n - 1)

/-! ### Accesses within the array -/

section Cells

variable {n : ℕ} {a : ℤ → α} {i j : ℤ}

omit [LinearOrder α] in
theorem readCell_of_mem (hi : 0 ≤ i ∧ i < n) : readCell n a i = some (a i) := if_pos hi

omit [LinearOrder α] in
theorem eq_of_readCell {x : α} (h : readCell n a i = some x) : a i = x := by
  rw [readCell_of_mem (lt_length_of_readCell h)] at h
  exact Option.some.inj h

omit [LinearOrder α] in
theorem swapCells_of_mem (hi : 0 ≤ i ∧ i < n) (hj : 0 ≤ j ∧ j < n) :
    swapCells n a i j = some (a ∘ Equiv.swap i j) := by
  rw [Equiv.swap_comm, Equiv.comp_swap_eq_update]
  simp only [swapCells, readCell, writeCell, if_pos hi, if_pos hj, Option.bind_eq_bind,
    Option.bind_some]

omit [LinearOrder α] in
theorem swapCells_of_not_mem (hi : ¬ (0 ≤ i ∧ i < n)) : swapCells n a i j = none := by
  simp only [swapCells, readCell, if_neg hi, Option.bind_eq_bind, Option.bind_none]

/-- Two cells in order, and the others as they were. -/
theorem orderCells_spec {lo hi : ℤ} (hrange : 0 ≤ lo ∧ hi ≤ n) (hmem : lo ≤ i ∧ i < hi)
    (hmem' : lo ≤ j ∧ j < hi) :
    ∃ σ, MovesWithin lo hi σ ∧ orderCells n a i j = some (a ∘ σ) ∧
      a (σ i) = min (a i) (a j) ∧ a (σ j) = max (a i) (a j) ∧ ∀ t, t ≠ i → t ≠ j → σ t = t := by
  have hi' : 0 ≤ i ∧ i < n := by omega
  have hj' : 0 ≤ j ∧ j < n := by omega
  simp only [orderCells, readCell_of_mem hi', readCell_of_mem hj', Option.bind_eq_bind,
    Option.bind_some]
  by_cases h : a i > a j
  · refine ⟨Equiv.swap i j, .swap hmem hmem', ?_, ?_, ?_, ?_⟩
    · rw [if_pos h, swapCells_of_mem hi' hj']
    · rw [Equiv.swap_apply_left, min_eq_right h.le]
    · rw [Equiv.swap_apply_right, max_eq_left h.le]
    · exact fun t => Equiv.swap_apply_of_ne_of_ne
  · refine ⟨1, .one, ?_, ?_, ?_, fun _ _ _ => rfl⟩
    · rw [if_neg h]
      rfl
    · rw [Equiv.Perm.one_apply, min_eq_left (not_lt.mp h)]
    · rw [Equiv.Perm.one_apply, max_eq_right (not_lt.mp h)]

end Cells

/-! ### A round -/

section Round

variable {n : ℕ} {a : ℤ → α} {x : α}

/-- An element that is not smaller than the pivot stops the scan. -/
theorem scanUp_spec {i m : ℤ} (hi : -1 ≤ i) (him : i < m) (hm : m < n) (hx : x ≤ a m) :
    ∃ i', scanUp n a x i = some i' ∧ i < i' ∧ i' ≤ m ∧ x ≤ a i' ∧ ∀ t, i < t → t < i' → a t < x := by
  fun_induction scanUp n a x i with
  | case1 i hread =>
      rw [readCell_of_mem (by omega)] at hread
      cases hread
  | case2 i y hread hlt ih =>
      obtain rfl := eq_of_readCell hread
      have hne : i + 1 ≠ m := by
        rintro rfl
        exact absurd hx hlt.not_ge
      obtain ⟨i', hscan, hlow, hhigh, hstop, hpassed⟩ := ih (by omega) (by omega)
      refine ⟨i', hscan, by omega, hhigh, hstop, fun t hit hti => ?_⟩
      rcases eq_or_lt_of_le (show i + 1 ≤ t by omega) with rfl | hlt'
      · exact hlt
      · exact hpassed t hlt' hti
  | case3 i y hread hstop =>
      obtain rfl := eq_of_readCell hread
      exact ⟨i + 1, rfl, by omega, by omega, not_lt.mp hstop, fun t hit hti => by omega⟩

/-- An element that is not greater than the pivot stops the scan. -/
theorem scanDown_spec {j m : ℤ} (hj : j ≤ n) (hmj : m < j) (hm : 0 ≤ m) (hx : a m ≤ x) :
    ∃ j', scanDown n a x j = some j' ∧ j' < j ∧ m ≤ j' ∧ a j' ≤ x ∧
      ∀ t, j' < t → t < j → x < a t := by
  fun_induction scanDown n a x j with
  | case1 j hread =>
      rw [readCell_of_mem (by omega)] at hread
      cases hread
  | case2 j y hread hlt ih =>
      obtain rfl := eq_of_readCell hread
      have hne : j - 1 ≠ m := by
        rintro rfl
        exact absurd hx hlt.not_ge
      obtain ⟨j', hscan, hhigh, hlow, hstop, hpassed⟩ := ih (by omega) (by omega)
      refine ⟨j', hscan, by omega, hlow, hstop, fun t hjt htj => ?_⟩
      rcases eq_or_lt_of_le (show t ≤ j - 1 by omega) with rfl | hlt'
      · exact hlt
      · exact hpassed t hjt hlt'
  | case3 j y hread hstop =>
      obtain rfl := eq_of_readCell hread
      exact ⟨j - 1, rfl, by omega, by omega, not_lt.mp hstop, fun t hjt htj => by omega⟩

/-- What the scans have passed is not greater than the pivot from `p` up to `i`, and not
smaller from `j` up to `r`. -/
structure Passed (x : α) (a : ℤ → α) (p i j r : ℤ) : Prop where
  low : ∀ t, p ≤ t → t ≤ i → a t ≤ x
  high : ∀ t, j ≤ t → t ≤ r → x ≤ a t

/-- Both scans have stopped, at `i'` and at `j'`. -/
structure Scans (x : α) (a : ℤ → α) (i j i' j' : ℤ) : Prop where
  up : i < i' ∧ i' ≤ j
  down : i ≤ j' ∧ j' < j
  stopUp : x ≤ a i'
  stopDown : a j' ≤ x
  small : ∀ t, i < t → t < i' → a t < x
  great : ∀ t, j' < t → t < j → x < a t

variable {p i j r i' j' : ℤ}

/-- The positions that the scans came from are where they stop at the latest. -/
theorem Passed.scans (h : Passed x a p i j r) (hrange : 0 ≤ p ∧ r < n) (hpi : p ≤ i) (hij : i < j)
    (hjr : j ≤ r) :
    ∃ i' j', scanUp n a x i = some i' ∧ scanDown n a x j = some j' ∧ Scans x a i j i' j' := by
  obtain ⟨i', hup, hi, hij', hstop, hsmall⟩ :=
    scanUp_spec (n := n) (a := a) (by omega) hij (by omega) (h.high j le_rfl hjr)
  obtain ⟨j', hdown, hj, hij'', hstop', hgreat⟩ :=
    scanDown_spec (n := n) (a := a) (by omega) hij (by omega) (h.low i hpi le_rfl)
  exact ⟨i', j', hup, hdown, ⟨⟨hi, hij'⟩, ⟨hij'', hj⟩, hstop, hstop', hsmall, hgreat⟩⟩

theorem Passed.scans_of_eq (h : Passed x a p i j r) (hrange : 0 ≤ p ∧ r < n) (hpi : p ≤ i)
    (hij : i < j) (hjr : j ≤ r) (hup : scanUp n a x i = some i')
    (hdown : scanDown n a x j = some j') : Scans x a i j i' j' := by
  obtain ⟨i₁, j₁, hscan, hscan', hscans⟩ := h.scans hrange hpi hij hjr
  obtain rfl := Option.some.inj (hup.symm.trans hscan)
  obtain rfl := Option.some.inj (hdown.symm.trans hscan')
  exact hscans

namespace Scans

/-- An element between scans that have passed each other would be smaller and greater
than the pivot. -/
theorem close (h : Scans x a i j i' j') : i' ≤ j' + 1 := by
  obtain ⟨⟨hi, hi'⟩, ⟨hj, hj'⟩, -, -, hsmall, hgreat⟩ := h
  by_contra hfar
  have hlt := hsmall (j' + 1) (by omega) (by omega)
  have hgt := hgreat (j' + 1) (by omega) (by omega)
  exact lt_asymm hlt hgt

theorem passed_of_met (h : Scans x a i j i' j') (hpassed : Passed x a p i j r) (hmet : j' ≤ i') :
    Passed x a p j' (j' + 1) r := by
  constructor
  · intro t hpt htj
    by_cases hti : t ≤ i
    · exact hpassed.low t hpt hti
    · rcases eq_or_lt_of_le htj with rfl | hlt
      · exact h.stopDown
      · exact (h.small t (by omega) (by omega)).le
  · intro t hjt htr
    by_cases htj : j ≤ t
    · exact hpassed.high t htj htr
    · exact (h.great t (by omega) (by omega)).le

/-- The two elements that stopped the scans change places. -/
theorem passed_swap (h : Scans x a i j i' j') (hpassed : Passed x a p i j r) (hapart : i' < j') :
    Passed x (a ∘ Equiv.swap i' j') p i' j' r := by
  constructor
  · intro t hpt hti
    rcases eq_or_lt_of_le hti with rfl | hlt
    · rw [Function.comp_apply, Equiv.swap_apply_left]
      exact h.stopDown
    · rw [Function.comp_apply, Equiv.swap_apply_of_ne_of_ne (by omega) (by omega)]
      by_cases htold : t ≤ i
      · exact hpassed.low t hpt htold
      · exact (h.small t (by omega) hlt).le
  · intro t hjt htr
    rcases eq_or_lt_of_le hjt with rfl | hlt
    · rw [Function.comp_apply, Equiv.swap_apply_right]
      exact h.stopUp
    · rw [Function.comp_apply, Equiv.swap_apply_of_ne_of_ne (by omega) (by omega)]
      by_cases htold : j ≤ t
      · exact hpassed.high t htold htr
      · exact (h.great t hlt (by omega)).le

end Scans

/-- The scans meet, and only cells between their first positions have changed places. -/
theorem partitionLoop_spec (hrange : 0 ≤ p ∧ r < n) (hpi : p ≤ i) (hij : i < j) (hjr : j ≤ r)
    (hpassed : Passed x a p i j r) :
    ∃ σ i' j', MovesWithin (p + 1) r σ ∧ partitionLoop n x a i j = some (a ∘ σ, i', j') ∧
      (i < i' ∧ i' ≤ j) ∧ (i ≤ j' ∧ j' < j) ∧ j' ≤ i' ∧ i' ≤ j' + 1 ∧
      Passed x (a ∘ σ) p j' (j' + 1) r := by
  fun_induction partitionLoop n x a i j with
  | case1 a i j hup =>
      obtain ⟨i₁, j₁, hscan, -⟩ := hpassed.scans hrange hpi hij hjr
      rw [hscan] at hup
      cases hup
  | case2 a i j i' hup hdown =>
      obtain ⟨i₁, j₁, -, hscan', -⟩ := hpassed.scans hrange hpi hij hjr
      rw [hscan'] at hdown
      cases hdown
  | case3 a i j i' hup j' hdown hmet =>
      have hscans := hpassed.scans_of_eq hrange hpi hij hjr hup hdown
      exact ⟨1, i', j', .one, rfl, hscans.up, hscans.down, hmet, hscans.close,
        hscans.passed_of_met hpassed hmet⟩
  | case4 a i j i' hup j' hdown hmet hswap =>
      have := lt_of_scanUp hup
      have := lt_of_scanDown hdown
      rw [swapCells_of_mem (by omega) (by omega)] at hswap
      cases hswap
  | case5 a i j i' hup j' hdown hmet b hswap ih =>
      have hscans := hpassed.scans_of_eq hrange hpi hij hjr hup hdown
      obtain ⟨hi, hi'⟩ := hscans.up
      obtain ⟨hj, hj'⟩ := hscans.down
      have hapart := not_le.mp hmet
      rw [swapCells_of_mem (by omega) (by omega)] at hswap
      obtain rfl := Option.some.inj hswap
      obtain ⟨σ, i₂, j₂, hσ, hloop, hup₂, hdown₂, hmet₂, hclose, hpassed₂⟩ :=
        ih (by omega) hapart (by omega) (hscans.passed_swap hpassed hapart)
      exact ⟨Equiv.swap i' j' * σ, i₂, j₂,
        .mul (.swap ⟨by omega, by omega⟩ ⟨by omega, by omega⟩) hσ, hloop,
        by omega, by omega, hmet₂, hclose, hpassed₂⟩

/-- The middle of a range whose ends add up to an `int`. -/
theorem mid_mem {l ir : ℤ} (hl : 0 ≤ l) (hlong : l + 2 ≤ ir) (hsum : l + ir < 2 ^ 31) :
    l ≤ (toInt32 (l + ir)).tdiv 2 ∧ (toInt32 (l + ir)).tdiv 2 < ir + 1 := by
  rw [toInt32_of_isInt ⟨by omega, hsum⟩, Int.tdiv_eq_ediv_of_nonneg (by omega)]
  omega

theorem placePivot_spec {l ir : ℤ} (hrange : 0 ≤ l ∧ ir < n) (hlong : l + 2 ≤ ir)
    (hsum : l + ir < 2 ^ 31) :
    ∃ σ, MovesWithin l (ir + 1) σ ∧ placePivot n a l ir = some (a ∘ σ) ∧
      a (σ l) ≤ a (σ (l + 1)) ∧ a (σ (l + 1)) ≤ a (σ ir) := by
  have hmid := mid_mem hrange.1 hlong hsum
  obtain ⟨mid, hm⟩ : ∃ mid, (toInt32 (l + ir)).tdiv 2 = mid := ⟨_, rfl⟩
  rw [hm] at hmid
  have hinside : 0 ≤ l ∧ ir + 1 ≤ (n : ℤ) := by omega
  have hl : l ≤ l ∧ l < ir + 1 := by omega
  have hl' : l ≤ l + 1 ∧ l + 1 < ir + 1 := by omega
  have hir : l ≤ ir ∧ ir < ir + 1 := by omega
  have hswap : swapCells n a mid (l + 1) = some (a ∘ Equiv.swap mid (l + 1)) :=
    swapCells_of_mem (by omega) (by omega)
  obtain ⟨σ₁, hσ₁, horder₁, hmin₁, hmax₁, -⟩ :=
    orderCells_spec (a := a ∘ Equiv.swap mid (l + 1)) hinside hl hir
  obtain ⟨σ₂, hσ₂, horder₂, hmin₂, hmax₂, hrest₂⟩ :=
    orderCells_spec (a := (a ∘ Equiv.swap mid (l + 1)) ∘ σ₁) hinside hl' hir
  obtain ⟨σ₃, hσ₃, horder₃, hmin₃, hmax₃, hrest₃⟩ :=
    orderCells_spec (a := ((a ∘ Equiv.swap mid (l + 1)) ∘ σ₁) ∘ σ₂) hinside hl hl'
  refine ⟨Equiv.swap mid (l + 1) * σ₁ * σ₂ * σ₃,
    (((MovesWithin.swap hmid hl').mul hσ₁).mul hσ₂).mul hσ₃, ?_, ?_⟩
  · simp only [placePivot, hm, hswap, horder₁, horder₂, horder₃, Option.bind_eq_bind,
      Option.bind_some]
    rfl
  · have hlast : σ₃ ir = ir := hrest₃ ir (by omega) (by omega)
    have hfirst : σ₂ l = l := hrest₂ l (by omega) (by omega)
    simp only [Function.comp_apply, Equiv.Perm.mul_apply] at *
    rw [hmin₃, hmax₃, hlast, hmin₂, hmax₂, hfirst, hmin₁, hmax₁]
    exact ⟨min_le_max, max_le (min_le_max.trans (le_max_right _ _)) min_le_max⟩

/-- The pivot, which has waited at `p`, goes to where the scans have met. -/
theorem Passed.exchange (h : Passed x a p j (j + 1) r) (hp : a p = x) (hpj : p ≤ j) :
    Passed x (a ∘ Equiv.swap p j) p j j r := by
  constructor
  · intro t hpt htj
    rcases eq_or_lt_of_le htj with rfl | htj
    · rw [Function.comp_apply, Equiv.swap_apply_right, hp]
    · rcases eq_or_lt_of_le hpt with rfl | hpt
      · rw [Function.comp_apply, Equiv.swap_apply_left]
        exact h.low j hpj le_rfl
      · rw [Function.comp_apply, Equiv.swap_apply_of_ne_of_ne (by omega) (by omega)]
        exact h.low t hpt.le htj.le
  · intro t hjt htr
    rcases eq_or_lt_of_le hjt with rfl | hjt
    · rw [Function.comp_apply, Equiv.swap_apply_right, hp]
    · rw [Function.comp_apply, Equiv.swap_apply_of_ne_of_ne (by omega) (by omega)]
      exact h.high t (by omega) htr

/-- The element at the lower cut is not greater than the pivot either. -/
theorem Passed.cons {l : ℤ} (h : Passed x a (l + 1) i j r) (hl : a l ≤ x) : Passed x a l i j r := by
  refine ⟨fun t hlt hti => ?_, h.high⟩
  rcases eq_or_lt_of_le hlt with rfl | hlt
  · exact hl
  · exact h.low t (by omega) hti

/-- Between two cuts, the place of the pivot lies between two. -/
theorem Passed.cuts (h : Passed x a p j j r) (hp : Cut n a p) (hr : Cut n a (r + 1))
    (hpj : p ≤ j ∧ j ≤ r) : Cut n a j ∧ Cut n a (j + 1) := by
  constructor
  · refine hp.of_range hr (by omega) (by omega) fun s t hps hsj hjt htr => ?_
    exact (h.low s hps hsj.le).trans (h.high t hjt (by omega))
  · refine hp.of_range hr (by omega) (by omega) fun s t hps hsj hjt htr => ?_
    exact (h.low s hps (by omega)).trans (h.high t (by omega) (by omega))

omit [LinearOrder α] in
/-- The last two stores of a round are an exchange. -/
theorem update_update_eq_swap (hi : a i = x) :
    Function.update (Function.update a i (a j)) j x = a ∘ Equiv.swap i j := by
  rw [Equiv.swap_comm, Equiv.comp_swap_eq_update, hi]

/-- A round between two cuts makes a cut where the scans have met, and one behind it. -/
theorem selectRound_spec {l ir : ℤ} (hrange : 0 ≤ l ∧ ir < n) (hlong : l + 2 ≤ ir)
    (hsum : l + ir < 2 ^ 31) (hl : Cut n a l) (hr : Cut n a (ir + 1)) :
    ∃ σ i j, MovesWithin l (ir + 1) σ ∧ selectRound n a l ir = some (a ∘ σ, i, j) ∧
      (l + 1 < i ∧ i ≤ ir) ∧ (l + 1 ≤ j ∧ j < ir) ∧ (i = j ∨ i = j + 1) ∧
      Cut n (a ∘ σ) j ∧ Cut n (a ∘ σ) (j + 1) := by
  obtain ⟨σ₁, hσ₁, hpivot, hlow, hhigh⟩ := placePivot_spec (a := a) hrange hlong hsum
  obtain ⟨x, hx⟩ : ∃ x, a (σ₁ (l + 1)) = x := ⟨_, rfl⟩
  rw [hx] at hlow hhigh
  have hpassed : Passed x (a ∘ σ₁) (l + 1) (l + 1) ir ir := by
    constructor
    · intro t ht ht'
      rw [show t = l + 1 by omega, Function.comp_apply, hx]
    · intro t ht ht'
      rw [show t = ir by omega]
      exact hhigh
  obtain ⟨σ₂, i, j, hσ₂, hloop, hi, hj, hmet, hclose, hpassed₂⟩ :=
    partitionLoop_spec (n := n) (by omega) le_rfl (by omega) le_rfl hpassed
  have hwaits : ((a ∘ σ₁) ∘ σ₂) (l + 1) = x := by
    rw [Function.comp_apply, hσ₂ (l + 1) (by omega), Function.comp_apply, hx]
  have hpassed₃ := hpassed₂.exchange hwaits hj.1
  obtain ⟨σ, hσ⟩ : ∃ σ, σ₁ * σ₂ * Equiv.swap (l + 1) j = σ := ⟨_, rfl⟩
  have hcomp : ((a ∘ σ₁) ∘ σ₂) ∘ Equiv.swap (l + 1) j = a ∘ σ := by
    rw [← hσ]
    rfl
  rw [hcomp] at hpassed₃
  have hmoves : MovesWithin l (ir + 1) σ := by
    rw [← hσ]
    exact (hσ₁.mul (hσ₂.mono (by omega) (by omega))).mul (.swap (by omega) (by omega))
  refine ⟨σ, i, j, hmoves, ?_, ⟨hi.1, hi.2⟩, hj, by omega, ?_⟩
  · have hl₁ : 0 ≤ l + 1 ∧ l + 1 < (n : ℤ) := by omega
    have hjn : 0 ≤ j ∧ j < (n : ℤ) := by omega
    have hread : readCell n (a ∘ σ₁) (l + 1) = some x := by
      rw [readCell_of_mem hl₁, Function.comp_apply, hx]
    simp only [selectRound, hpivot, hread, hloop, readCell_of_mem hjn, writeCell, if_pos hl₁,
      if_pos hjn, update_update_eq_swap hwaits, hcomp, Option.bind_eq_bind, Option.bind_some]
  · have hbelow : a (σ l) ≤ x := by
      rw [← hσ, Equiv.Perm.mul_apply, Equiv.Perm.mul_apply,
        Equiv.swap_apply_of_ne_of_ne (by omega) (by omega), hσ₂ l (by omega)]
      exact hlow
    have hl' : Cut n (a ∘ σ) l := hl.comp_perm hmoves (by omega) (.inl le_rfl)
    have hr' : Cut n (a ∘ σ) (ir + 1) := hr.comp_perm hmoves (by omega) (.inr le_rfl)
    exact (hpassed₃.cons hbelow).cuts hl' hr' (by omega)

end Round

/-! ### All rounds -/

section Rounds

variable {n : ℕ} {a : ℤ → α} {k l ir : ℤ}

/-- The range from `l` to `ir` lies between two cuts and has the place `k` in it; or it is
empty, and the element has its place. -/
structure Selecting (n : ℕ) (k : ℤ) (a : ℤ → α) (l ir : ℤ) : Prop where
  low : 0 ≤ l
  high : ir < n
  cutLow : Cut n a l
  cutHigh : Cut n a (ir + 1)
  place : (l ≤ k ∧ k ≤ ir) ∨ (ir < l ∧ Cut n a k ∧ Cut n a (k + 1))

theorem selecting_start (hk : 0 ≤ k ∧ k < n) : Selecting n k a 0 (n - 1) where
  low := le_rfl
  high := by omega
  cutLow := cut_zero
  cutHigh := by
    rw [sub_add_cancel]
    exact cut_length
  place := .inl (by omega)

/-- A range of three or more has the place in it, and starts at or in front of it. -/
theorem Selecting.place_of_long (h : Selecting n k a l ir) (hlong : ¬ ir - l ≤ 1) :
    l ≤ k ∧ k ≤ ir := by
  rcases h.place with hplace | ⟨hempty, -⟩
  · exact hplace
  · omega

/-- The ends of such a range add up to an `int` where the last position and the place do. -/
theorem Selecting.sum_lt (h : Selecting n k a l ir) (hlong : ¬ ir - l ≤ 1)
    (hfit : min k (n - 3) + (n - 1) < 2 ^ 31) : l + ir < 2 ^ 31 := by
  have := h.place_of_long hlong
  have := h.high
  omega

/-- The range goes on at the side of the place. -/
theorem Selecting.next (h : Selecting n k a l ir) {b : ℤ → α} {i j : ℤ}
    (hplace : l ≤ k ∧ k ≤ ir) (hi : l + 1 < i ∧ i ≤ ir) (hj : l + 1 ≤ j ∧ j < ir)
    (hij : i = j ∨ i = j + 1) (hl : Cut n b l) (hr : Cut n b (ir + 1)) (hcut : Cut n b j)
    (hcut' : Cut n b (j + 1)) :
    Selecting n k b (if j ≤ k then i else l) (if j ≥ k then j - 1 else ir) := by
  have hlow := h.low
  have hhigh := h.high
  have hcuti : Cut n b i := by
    rcases hij with rfl | rfl
    · exact hcut
    · exact hcut'
  rcases lt_trichotomy j k with hlt | rfl | hgt
  · rw [if_pos hlt.le, if_neg (by omega)]
    exact ⟨by omega, hhigh, hcuti, hr, .inl (by omega)⟩
  · rw [if_pos le_rfl, if_pos le_rfl]
    refine ⟨by omega, by omega, hcuti, ?_, .inr ⟨by omega, hcut, hcut'⟩⟩
    rwa [sub_add_cancel]
  · rw [if_neg (by omega), if_pos hgt.le]
    refine ⟨hlow, by omega, hl, ?_, .inl (by omega)⟩
    rwa [sub_add_cancel]

/-- A range of at most two is put in order, and the element has its place. -/
theorem Selecting.last (h : Selecting n k a l ir) (hk : 0 ≤ k ∧ k < n) (hshort : ir - l ≤ 1) :
    ∃ σ, MovesWithin 0 n σ ∧ orderLast n a l ir = some (a ∘ σ) ∧
      Cut n (a ∘ σ) k ∧ Cut n (a ∘ σ) (k + 1) := by
  have hlow := h.low
  have hhigh := h.high
  rcases h.place with ⟨hlk, hki⟩ | ⟨hempty, hcut, hcut'⟩
  · by_cases htwo : ir - l = 1
    · have hrange : 0 ≤ l ∧ ir + 1 ≤ n := by omega
      have hmem : l ≤ l ∧ l < ir + 1 := by omega
      have hmem' : l ≤ ir ∧ ir < ir + 1 := by omega
      obtain ⟨σ, hσ, horder, hmin, hmax, -⟩ := orderCells_spec (a := a) hrange hmem hmem'
      have hl : Cut n (a ∘ σ) l := h.cutLow.comp_perm hσ (by omega) (.inl le_rfl)
      have hr : Cut n (a ∘ σ) (ir + 1) := h.cutHigh.comp_perm hσ (by omega) (.inr le_rfl)
      have hbetween : Cut n (a ∘ σ) (l + 1) := by
        refine hl.of_range hr (by omega) (by omega) fun s t hls hsl hlt htr => ?_
        rw [show s = l by omega, show t = ir by omega, Function.comp_apply, Function.comp_apply,
          hmin, hmax]
        exact min_le_max
      refine ⟨σ, hσ.mono hlow (by omega), by rw [orderLast, if_pos htwo, horder], ?_⟩
      rcases eq_or_lt_of_le hlk with rfl | hlt
      · exact ⟨hl, hbetween⟩
      · obtain rfl : k = ir := by omega
        rw [show k = l + 1 by omega] at hr ⊢
        exact ⟨hbetween, hr⟩
    · refine ⟨1, .one, if_neg htwo, ?_⟩
      obtain rfl : l = k := by omega
      obtain rfl : ir = l := by omega
      exact ⟨h.cutLow, h.cutHigh⟩
  · exact ⟨1, .one, if_neg (by omega), hcut, hcut'⟩

/-- A round goes on with the cuts and the place. -/
theorem Selecting.round (h : Selecting n k a l ir) (hlong : ¬ ir - l ≤ 1)
    (hsum : l + ir < 2 ^ 31) :
    ∃ σ i j, MovesWithin 0 n σ ∧ selectRound n a l ir = some (a ∘ σ, i, j) ∧
      Selecting n k (a ∘ σ) (if j ≤ k then i else l) (if j ≥ k then j - 1 else ir) := by
  obtain ⟨σ, i, j, hσ, hround, hi, hj, hij, hcut, hcut'⟩ :=
    selectRound_spec ⟨h.low, h.high⟩ (by omega) hsum h.cutLow h.cutHigh
  have hrange : 0 ≤ l ∧ ir + 1 ≤ (n : ℤ) := ⟨h.low, h.high⟩
  refine ⟨σ, i, j, hσ.mono hrange.1 hrange.2, hround, ?_⟩
  exact h.next (h.place_of_long hlong) hi hj hij (h.cutLow.comp_perm hσ hrange (.inl le_rfl))
    (h.cutHigh.comp_perm hσ hrange (.inr le_rfl)) hcut hcut'

/-- The rounds that the loop enters, the one it stands before among them. -/
inductive Enters (n : ℕ) (k : ℤ) : (ℤ → α) → ℤ → ℤ → (ℤ → α) → ℤ → ℤ → Prop
  | here {a : ℤ → α} {l ir : ℤ} : Enters n k a l ir a l ir
  | next {a b c : ℤ → α} {l ir i j l' ir' : ℤ} (hlong : ¬ ir - l ≤ 1)
      (hround : selectRound n a l ir = some (b, i, j))
      (h : Enters n k b (if j ≤ k then i else l) (if j ≥ k then j - 1 else ir) c l' ir') :
      Enters n k a l ir c l' ir'

/-- In every round over three or more, the ends of the range add up to an `int`. -/
def SumsFit (n : ℕ) (k : ℤ) (a : ℤ → α) (l ir : ℤ) : Prop :=
  ∀ b l' ir', Enters n k a l ir b l' ir' → l' + 2 ≤ ir' → l' + ir' < 2 ^ 31

theorem selectLoop_spec (hk : 0 ≤ k ∧ k < n) (hfits : SumsFit n k a l ir)
    (h : Selecting n k a l ir) :
    ∃ σ, MovesWithin 0 n σ ∧ selectLoop n k a l ir = some (a ∘ σ, a (σ k)) ∧
      Cut n (a ∘ σ) k ∧ Cut n (a ∘ σ) (k + 1) := by
  fun_induction selectLoop n k a l ir with
  | case1 a l ir hshort =>
      obtain ⟨σ, hσ, horder, hcut, hcut'⟩ := h.last hk hshort
      refine ⟨σ, hσ, ?_, hcut, hcut'⟩
      simp only [horder, readCell_of_mem hk, Option.bind_eq_bind, Option.bind_some]
      rfl
  | case2 a l ir hlong hround =>
      obtain ⟨σ, i, j, -, hround', -⟩ := h.round hlong (hfits a l ir .here (by omega))
      rw [hround'] at hround
      cases hround
  | case3 a l ir hlong b i j hround ih =>
      obtain ⟨σ, i', j', hσ, hround', hnext⟩ := h.round hlong (hfits a l ir .here (by omega))
      obtain ⟨rfl, rfl, rfl⟩ : b = a ∘ σ ∧ i = i' ∧ j = j' := by
        simpa using hround.symm.trans hround'
      obtain ⟨τ, hτ, hloop, hcut, hcut'⟩ :=
        ih (fun c l' ir' henters => hfits c l' ir' (.next hlong hround henters)) hnext
      exact ⟨σ * τ, hσ.mul hτ, hloop, hcut, hcut'⟩

/-- Where the last position and the place add up to an `int`, all sums do. -/
theorem Selecting.sumsFit (h : Selecting n k a l ir) (hfit : min k (n - 3) + (n - 1) < 2 ^ 31) :
    SumsFit n k a l ir := by
  intro b l' ir' henters hlong
  induction henters with
  | here => exact h.sum_lt (by omega) hfit
  | next hlong' hround _ ih =>
      obtain ⟨σ, i, j, -, hround', hnext⟩ := h.round hlong' (h.sum_lt hlong' hfit)
      rw [hround'] at hround
      cases hround
      exact ih hnext hlong

end Rounds

/-! ### Arrays that are too long -/

section Overflow

variable {n : ℕ} {a : ℤ → α}

theorem orderCells_of_le {i j : ℤ} (hi : 0 ≤ i ∧ i < n) (hj : 0 ≤ j ∧ j < n) (h : a i ≤ a j) :
    orderCells n a i j = some a := by
  simp only [orderCells, readCell_of_mem hi, readCell_of_mem hj, Option.bind_eq_bind,
    Option.bind_some, if_neg h.not_gt]

theorem partitionLoop_of_met {x : α} {i j i' j' : ℤ} (hup : scanUp n a x i = some i')
    (hdown : scanDown n a x j = some j') (hmet : j' ≤ i') :
    partitionLoop n x a i j = some (a, i', j') := by
  fun_cases partitionLoop n x a i j with
  | case1 hup' => rw [hup] at hup'; cases hup'
  | case2 i₁ hup' hdown' => rw [hdown] at hdown'; cases hdown'
  | case3 i₁ hup' j₁ hdown' hmet' =>
      rw [hup] at hup'
      rw [hdown] at hdown'
      cases hup'
      cases hdown'
      rfl
  | case4 i₁ hup' j₁ hdown' hapart hswap =>
      rw [hup] at hup'
      rw [hdown] at hdown'
      cases hup'
      cases hdown'
      exact absurd hmet hapart
  | case5 i₁ hup' j₁ hdown' hapart b hswap =>
      rw [hup] at hup'
      rw [hdown] at hdown'
      cases hup'
      cases hdown'
      exact absurd hmet hapart

section Loop

variable {k l ir : ℤ} (hlong : ¬ ir - l ≤ 1)

include hlong

theorem selectLoop_of_round {b : ℤ → α} {i j : ℤ} (hround : selectRound n a l ir = some (b, i, j)) :
    selectLoop n k a l ir =
      selectLoop n k b (if j ≤ k then i else l) (if j ≥ k then j - 1 else ir) := by
  rw [selectLoop, if_neg hlong]
  split
  · next hround' =>
      rw [hround] at hround'
      cases hround'
  · next hround' =>
      rw [hround] at hround'
      cases hround'
      rfl

theorem selectLoop_of_stuck (hround : selectRound n a l ir = none) :
    selectLoop n k a l ir = none := by
  rw [selectLoop, if_neg hlong]
  split
  · rfl
  · next hround' =>
      rw [hround] at hround'
      cases hround'

end Loop

theorem Enters.le {k l ir l' ir' : ℤ} {b : ℤ → α} (h : Enters n k a l ir b l' ir') : ir' ≤ ir := by
  induction h with
  | here => exact le_rfl
  | next hlong hround h ih =>
      have := lt_of_selectRound hround
      refine ih.trans ?_
      split_ifs <;> omega

/-- A sum that an `int` does not hold becomes negative, and the middle with it. -/
theorem placePivot_of_overflow {l ir : ℤ} (hsum : 2 ^ 31 ≤ l + ir) (hsum' : l + ir < 2 ^ 32 - 1) :
    placePivot n a l ir = none := by
  have hwraps : toInt32 (l + ir) = -(2 ^ 32 - (l + ir)) := by
    rw [toInt32, Int.bmod_def]
    split_ifs <;> omega
  have hneg : (toInt32 (l + ir)).tdiv 2 < 0 := by
    rw [hwraps, Int.neg_tdiv, Int.tdiv_eq_ediv_of_nonneg (by omega)]
    omega
  simp only [placePivot, swapCells_of_not_mem (fun h => absurd h.1 hneg.not_ge),
    Option.bind_eq_bind, Option.bind_none]

/-- The loop does not come out of a round whose sum is no `int`. -/
theorem Enters.stuck {k l ir l' ir' : ℤ} {b : ℤ → α} (h : Enters n k a l ir b l' ir')
    (hir : ir < 2 ^ 31) (hlong : l' + 2 ≤ ir') (hsum : 2 ^ 31 ≤ l' + ir') :
    selectLoop n k a l ir = none := by
  have hle := h.le
  induction h with
  | @here a l ir =>
      have hround : selectRound n a l ir = none := by
        rw [selectRound, placePivot_of_overflow hsum (by omega)]
        rfl
      exact selectLoop_of_stuck (by omega) hround
  | next hlong' hround h ih =>
      have := lt_of_selectRound hround
      rw [selectLoop_of_round hlong' hround]
      refine ih ?_ hlong hsum h.le
      split_ifs <;> omega

/-- Zeros in front of `p` and twos behind, with a one in the second cell. -/
def stage (p t : ℤ) : ℕ := if t = 1 then 1 else if t < p then 0 else 2

/-- The one stands in the middle, from where it is taken for the pivot. -/
def staged (n : ℕ) (p : ℤ) : ℤ → ℕ := stage p ∘ Equiv.swap ((toInt32 (0 + ((n : ℤ) - 1))).tdiv 2) 1

section Staged

variable {p : ℤ} (hn : n < 2 ^ 31) (hp : 2 ≤ p ∧ p + 3 ≤ n)

theorem stage_of_lt {t : ℤ} (ht : t < p) : stage p t ≤ 1 := by
  rw [stage]
  split_ifs <;> omega

include hp

theorem stage_of_le {t : ℤ} (ht : p ≤ t) : stage p t = 2 := by
  rw [stage, if_neg (by omega), if_neg (by omega)]

include hn

theorem placePivot_staged : placePivot n (staged n p) 0 (n - 1) = some (stage p) := by
  have hfirst : 0 ≤ (0 : ℤ) ∧ 0 < (n : ℤ) := by omega
  have hsecond : 0 ≤ (0 : ℤ) + 1 ∧ 0 + 1 < (n : ℤ) := by omega
  have hlast : 0 ≤ (n : ℤ) - 1 ∧ (n : ℤ) - 1 < n := by omega
  have hlong : (0 : ℤ) + 2 ≤ (n : ℤ) - 1 := by omega
  have hmid := mid_mem le_rfl hlong (by omega)
  have hzero : stage p 0 = 0 := by rw [stage, if_neg (by decide), if_pos (by omega)]
  have hone : stage p (0 + 1) = 1 := if_pos (by decide)
  have htwo : stage p (n - 1) = 2 := stage_of_le hp (by omega)
  have hswap : swapCells n (staged n p) ((toInt32 (0 + ((n : ℤ) - 1))).tdiv 2) (0 + 1) =
      some (stage p) := by
    rw [swapCells_of_mem (by omega) hsecond, staged, Function.comp_assoc]
    have hback : ∀ i : ℤ, Equiv.swap i 1 ∘ Equiv.swap i (0 + 1) = id := by
      intro i
      exact congrArg DFunLike.coe (Equiv.swap_mul_self i 1)
    rw [hback, Function.comp_id]
  simp only [placePivot, hswap, Option.bind_eq_bind, Option.bind_some,
    orderCells_of_le hfirst hlast (show stage p 0 ≤ stage p (n - 1) by rw [hzero]; exact Nat.zero_le _),
    orderCells_of_le hsecond hlast (show stage p (0 + 1) ≤ stage p (n - 1) by rw [hone, htwo]; decide),
    orderCells_of_le hfirst hsecond (show stage p 0 ≤ stage p (0 + 1) by rw [hzero]; exact Nat.zero_le _)]

omit hn in
/-- The scans meet where the twos begin. -/
theorem partitionLoop_stage :
    partitionLoop n 1 (stage p) (0 + 1) (n - 1) = some (stage p, p, p - 1) := by
  have htwo : ∀ t, p ≤ t → stage p t = 2 := fun t => stage_of_le hp
  obtain ⟨i, hup, hi, hip, hstop, -⟩ := scanUp_spec (n := n) (a := stage p) (x := 1) (i := 0 + 1)
    (m := p) (by omega) (by omega) (by omega) (by rw [htwo p le_rfl]; decide)
  obtain ⟨j, hdown, hj, hpj, hstop', -⟩ := scanDown_spec (n := n) (a := stage p) (x := 1) (j := n - 1)
    (m := p - 1) (by omega) (by omega) (by omega) (stage_of_lt (by omega))
  obtain rfl : i = p := by
    by_contra hne
    have hzero : stage p i = 0 := by rw [stage, if_neg (by omega), if_pos (by omega)]
    rw [hzero] at hstop
    exact absurd hstop (by decide)
  obtain rfl : j = i - 1 := by
    by_contra hne
    rw [htwo j (by omega)] at hstop'
    exact absurd hstop' (by decide)
  exact partitionLoop_of_met hup hdown (by omega)

theorem selectRound_staged :
    ∃ b, selectRound n (staged n p) 0 (n - 1) = some (b, p, p - 1) := by
  have hsecond : 0 ≤ (0 : ℤ) + 1 ∧ 0 + 1 < (n : ℤ) := by omega
  have hmet : 0 ≤ p - 1 ∧ p - 1 < (n : ℤ) := by omega
  have hone : stage p (0 + 1) = 1 := if_pos (by decide)
  simp only [selectRound, placePivot_staged hn hp, readCell_of_mem hsecond, hone,
    partitionLoop_stage hp, readCell_of_mem hmet, writeCell, if_pos hsecond, if_pos hmet,
    Option.bind_eq_bind, Option.bind_some]
  exact ⟨_, rfl⟩

end Staged

end Overflow

/-! ### The element of the sorted array -/

/-- `k_select` stays within the array, leaves a rearrangement of it, and returns what
stands at `k` when it is sorted. -/
def Selects (invalid : α) (n : ℕ) (a : ℤ → α) (k : ℕ) : Prop :=
  ∃ b x, kSelect invalid n a k = some (b, x) ∧ (contents n b).Perm (contents n a) ∧
    ((contents n a).insertionSort (· ≤ ·))[k]? = some x

theorem selects_iff_sumsFit (invalid : α) {n : ℕ} (hn : n < 2 ^ 31) (a : ℤ → α) {k : ℕ}
    (hk : k < n) : Selects invalid n a k ↔ SumsFit n k a 0 (n - 1) := by
  have hkn : 0 ≤ (k : ℤ) ∧ (k : ℤ) < n := by omega
  constructor
  · rintro ⟨b, x, hselect, -⟩ c l' ir' henters hlong
    by_contra hsum
    rw [kSelect, if_neg (by omega), henters.stuck (by omega) hlong (not_lt.mp hsum)] at hselect
    cases hselect
  · intro hfits
    obtain ⟨σ, hσ, hloop, hcut, hcut'⟩ := selectLoop_spec hkn hfits (selecting_start hkn)
    have hperm : (contents n (a ∘ σ)).Perm (contents n a) := contents_comp_perm hσ
    refine ⟨a ∘ σ, a (σ k), ?_, hperm, getElem?_insertionSort_of_cut hk hcut hcut' hperm⟩
    rw [kSelect, if_neg (by omega), hloop]

theorem not_sumsFit_staged {n k : ℕ} (hn : n < 2 ^ 31) (hk : k < n)
    (hlong : 2 ^ 31 ≤ min k (n - 3) + (n - 1)) :
    ¬ SumsFit n k (staged n (min k (n - 3) : ℕ)) 0 (n - 1) := by
  intro hfits
  obtain ⟨p, hp⟩ : ∃ p, min k (n - 3) = p := ⟨_, rfl⟩
  rw [hp] at hfits hlong
  obtain ⟨b, hround⟩ := selectRound_staged (p := p) hn (by omega)
  have hsum := hfits b p (n - 1) (.next (by omega) hround (by
    rw [if_pos (by omega), if_neg (by omega)]
    exact .here)) (by omega)
  omega

/-- An array is selected from just where every sum of two ends is an `int`; and the arrays
of a length all are where the sum of the last position and the place is one. -/
theorem kSelect_selects_iff {n k : ℕ} (hn : n < 2 ^ 31) (hk : k < n) :
    (∀ (α : Type) [LinearOrder α] (invalid : α) (a : ℤ → α),
      Selects invalid n a k ↔ SumsFit n k a 0 (n - 1)) ∧
    ((∀ (α : Type) [LinearOrder α] (invalid : α) (a : ℤ → α), Selects invalid n a k) ↔
      min k (n - 3) + (n - 1) < 2 ^ 31) := by
  refine ⟨fun α _ invalid a => selects_iff_sumsFit invalid hn a hk, fun h => ?_, ?_⟩
  · by_contra hlong
    apply not_sumsFit_staged hn hk (not_lt.mp hlong)
    exact (selects_iff_sumsFit 0 hn _ hk).mp (h ℕ 0 _)
  · intro hfit α _ invalid a
    exact (selects_iff_sumsFit invalid hn a hk).mpr
      ((selecting_start (by omega)).sumsFit (by omega))

/-- An array of 2^30 + 2 elements, of which the last is selected. -/
theorem not_selects_long :
    ¬ Selects 0 (2 ^ 30 + 2) (staged (2 ^ 30 + 2) (2 ^ 30 - 1)) (2 ^ 30 + 1) :=
  fun h => not_sumsFit_staged (n := 2 ^ 30 + 2) (k := 2 ^ 30 + 1) (by decide) (by decide)
    (by decide) ((selects_iff_sumsFit 0 (by decide) _ (by decide)).mp h)

/-- The middle one of three. -/
theorem kSelect_selects_iff_three :
    (∀ (α : Type) [LinearOrder α] (invalid : α) (a : ℤ → α),
      Selects invalid 3 a 1 ↔ SumsFit 3 1 a 0 2) ∧
    ((∀ (α : Type) [LinearOrder α] (invalid : α) (a : ℤ → α), Selects invalid 3 a 1) ↔
      min 1 (3 - 3) + (3 - 1) < 2 ^ 31) :=
  kSelect_selects_iff (n := 3) (k := 1) (by decide) (by decide)

end Gtoaes
