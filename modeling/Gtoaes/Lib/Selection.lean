import Mathlib.Algebra.Group.End
import Mathlib.Data.List.Sort

/-!
Selection in an array of a linear order. An array is cut where nothing in front is
greater than anything behind; what stands between two cuts that are one apart is what
stands there when the array is sorted. Elements that change places on one side of a cut
leave it a cut.
-/

namespace Gtoaes.Lib

/-! ### Moves -/

/-- A rearrangement that only moves what stands from `lo` to below `hi`. -/
def MovesWithin (lo hi : ℤ) (σ : Equiv.Perm ℤ) : Prop := ∀ t, ¬ (lo ≤ t ∧ t < hi) → σ t = t

namespace MovesWithin

variable {lo hi lo' hi' i j t : ℤ} {σ τ : Equiv.Perm ℤ}

theorem one : MovesWithin lo hi 1 := fun _ _ => rfl

theorem mul (hσ : MovesWithin lo hi σ) (hτ : MovesWithin lo hi τ) : MovesWithin lo hi (σ * τ) := by
  intro t ht
  rw [Equiv.Perm.mul_apply, hτ t ht, hσ t ht]

theorem swap (hmem : lo ≤ i ∧ i < hi) (hmem' : lo ≤ j ∧ j < hi) :
    MovesWithin lo hi (Equiv.swap i j) := by
  intro t ht
  apply Equiv.swap_apply_of_ne_of_ne
  · rintro rfl
    exact ht hmem
  · rintro rfl
    exact ht hmem'

theorem mono (h : MovesWithin lo hi σ) (hlo : lo' ≤ lo) (hhi : hi ≤ hi') :
    MovesWithin lo' hi' σ := by
  intro t ht
  apply h
  omega

/-- What stands inside stays inside. -/
theorem mem (h : MovesWithin lo hi σ) (ht : lo ≤ t ∧ t < hi) : lo ≤ σ t ∧ σ t < hi := by
  by_contra hout
  have hfixed : σ t = t := σ.injective (h (σ t) hout)
  rw [hfixed] at hout
  exact hout ht

end MovesWithin

/-! ### Contents -/

section Contents

variable {α : Type*}

/-- The first `n` elements of an array. -/
def contents (n : ℕ) (a : ℤ → α) : List α := (List.range n).map fun i : ℕ => a i

variable {n : ℕ} {a : ℤ → α}

theorem length_contents : (contents n a).length = n := by simp [contents]

theorem contents_comp_perm {σ : Equiv.Perm ℤ} (hσ : MovesWithin 0 n σ) :
    (contents n (a ∘ σ)).Perm (contents n a) := by
  have hmoved : ((List.range n).map fun i : ℕ => σ i).Perm ((List.range n).map fun i : ℕ => (i : ℤ)) := by
    refine (List.perm_ext_iff_of_nodup ?_ ?_).mpr fun t => ?_
    · exact List.nodup_range.map (σ.injective.comp fun _ _ => Int.ofNat_inj.mp)
    · exact List.nodup_range.map fun _ _ => Int.ofNat_inj.mp
    · simp only [List.mem_map, List.mem_range]
      constructor
      · rintro ⟨i, hi, rfl⟩
        obtain ⟨hlow, hhigh⟩ := hσ.mem (t := i) (by omega)
        exact ⟨(σ i).toNat, by omega, by omega⟩
      · rintro ⟨i, hi, rfl⟩
        have hback : 0 ≤ σ.symm i ∧ σ.symm i < n := by
          by_contra hout
          have hfixed := hσ _ hout
          rw [Equiv.apply_symm_apply] at hfixed
          omega
        refine ⟨(σ.symm i).toNat, by omega, ?_⟩
        rw [Int.toNat_of_nonneg hback.1, Equiv.apply_symm_apply]
  simpa [contents, Function.comp_def] using hmoved.map a

/-- The array in front of an element, the element, and the array behind it. -/
theorem contents_eq_append {k : ℕ} (hk : k < n) :
    contents n a = contents k a ++ a k :: (List.range' (k + 1) (n - k - 1)).map fun i : ℕ => a i := by
  obtain ⟨m, rfl⟩ : ∃ m, n = k + (m + 1) := ⟨n - k - 1, by omega⟩
  rw [contents, contents, List.range_eq_range', List.range_eq_range', ← List.range'_append_1,
    List.map_append, List.range'_succ, List.map_cons, Nat.zero_add, show k + (m + 1) - k - 1 = m by omega]

end Contents

/-! ### Cuts -/

variable {α : Type*} [LinearOrder α] {n : ℕ} {a : ℤ → α}

/-- Nothing in front of `p` is greater than anything from there on. -/
def Cut (n : ℕ) (a : ℤ → α) (p : ℤ) : Prop :=
  ∀ i j, 0 ≤ i → i < p → p ≤ j → j < n → a i ≤ a j

theorem cut_zero : Cut n a 0 := fun _ _ hi hi' => absurd hi hi'.not_ge

theorem cut_length : Cut n a n := fun _ _ _ _ hj hj' => absurd hj hj'.not_ge

/-- Moves on one side of a cut. -/
theorem Cut.comp_perm {p lo hi : ℤ} {σ : Equiv.Perm ℤ} (h : Cut n a p) (hσ : MovesWithin lo hi σ)
    (hrange : 0 ≤ lo ∧ hi ≤ n) (hside : p ≤ lo ∨ hi ≤ p) : Cut n (a ∘ σ) p := by
  intro i j hnonneg hip hpj hjn
  have hfront : 0 ≤ σ i ∧ σ i < p := by
    by_cases hin : lo ≤ i ∧ i < hi
    · have := hσ.mem hin
      omega
    · rw [hσ i hin]
      exact ⟨hnonneg, hip⟩
  have hback : p ≤ σ j ∧ σ j < n := by
    by_cases hin : lo ≤ j ∧ j < hi
    · have := hσ.mem hin
      omega
    · rw [hσ j hin]
      exact ⟨hpj, hjn⟩
  exact h _ _ hfront.1 hfront.2 hback.1 hback.2

/-- A range between two cuts is cut where its own elements are. -/
theorem Cut.of_range {l p r : ℤ} (hl : Cut n a l) (hr : Cut n a r) (hlp : l ≤ p) (hpr : p ≤ r)
    (h : ∀ i j, l ≤ i → i < p → p ≤ j → j < r → a i ≤ a j) : Cut n a p := by
  intro i j hi hip hpj hj
  by_cases hil : i < l
  · exact hl i j hi hil (by omega) hj
  · by_cases hjr : r ≤ j
    · exact hr i j hi (by omega) hjr hj
    · exact h i j (by omega) hip hpj (by omega)

/-- Between two cuts stands what stands there when the elements are sorted. -/
theorem getElem?_insertionSort_of_cut {k : ℕ} (hk : k < n) (hcut : Cut n a k)
    (hcut' : Cut n a (k + 1)) {xs : List α} (hxs : (contents n a).Perm xs) :
    (xs.insertionSort (· ≤ ·))[k]? = some (a k) := by
  obtain ⟨L, hL⟩ : ∃ L, contents k a = L := ⟨_, rfl⟩
  obtain ⟨R, hR⟩ : ∃ R, (List.range' (k + 1) (n - k - 1)).map (fun i : ℕ => a i) = R := ⟨_, rfl⟩
  have hsplit : contents n a = L ++ a k :: R := by rw [contents_eq_append hk, hL, hR]
  have hlength : L.length = k := by rw [← hL, length_contents]
  have hfront : ∀ x ∈ L, ∃ i : ℕ, i < k ∧ a i = x := by
    intro x hx
    rw [← hL] at hx
    simpa [contents] using hx
  have hback : ∀ x ∈ R, ∃ i : ℕ, k < i ∧ i < n ∧ a i = x := by
    intro x hx
    rw [← hR] at hx
    obtain ⟨i, hi, rfl⟩ := List.mem_map.mp hx
    rw [List.mem_range'_1] at hi
    exact ⟨i, by omega, by omega, rfl⟩
  have hsorted : xs.insertionSort (· ≤ ·) =
      L.insertionSort (· ≤ ·) ++ a k :: R.insertionSort (· ≤ ·) := by
    refine List.Perm.eq_of_pairwise' (List.pairwise_insertionSort (· ≤ ·) _) ?_ ?_
    · refine List.pairwise_append.mpr ⟨List.pairwise_insertionSort (· ≤ ·) L,
        List.pairwise_cons.mpr ⟨fun y hy => ?_, List.pairwise_insertionSort (· ≤ ·) R⟩,
        fun x hx y hy => ?_⟩
      · obtain ⟨j, hkj, hj, rfl⟩ := hback y ((List.mem_insertionSort _).mp hy)
        exact hcut' k j (by omega) (by omega) (by omega) (by omega)
      · obtain ⟨i, hi, rfl⟩ := hfront x ((List.mem_insertionSort _).mp hx)
        rcases List.mem_cons.mp hy with rfl | hy
        · exact hcut i k (by omega) (by omega) le_rfl (by omega)
        · obtain ⟨j, hkj, hj, rfl⟩ := hback y ((List.mem_insertionSort _).mp hy)
          exact hcut i j (by omega) (by omega) (by omega) (by omega)
    · rw [hsplit] at hxs
      exact (List.perm_insertionSort (· ≤ ·) xs).trans (hxs.symm.trans
        ((List.perm_insertionSort (· ≤ ·) L).symm.append
          ((List.perm_insertionSort (· ≤ ·) R).symm.cons _)))
  rw [hsorted, List.getElem?_append_right (by rw [List.length_insertionSort, hlength]),
    List.length_insertionSort, hlength, Nat.sub_self, List.getElem?_cons_zero]

end Gtoaes.Lib
