import Mathlib.Data.List.Basic

/-!
Circular buffers: lists of a bounded length to which elements are added at the
end and from which they are taken at the beginning. Adding to a full buffer
drops its first element.
-/

namespace Gtoaes.Lib.Circular

variable {α : Type*} {cap : ℕ}

/-- `push_back` of a buffer with room for `cap` elements. -/
def pushBack (cap : ℕ) (buf : List α) (a : α) : List α :=
  (buf ++ [a]).drop (buf.length + 1 - cap)

/-- `push_back` of one element after the other. -/
def pushAll (cap : ℕ) (buf l : List α) : List α := l.foldl (pushBack cap) buf

@[simp] theorem pushAll_nil (buf : List α) : pushAll cap buf [] = buf := rfl

theorem length_pushBack_le (buf : List α) (a : α) : (pushBack cap buf a).length ≤ cap := by
  simp only [pushBack, List.length_drop, List.length_append, List.length_singleton]
  omega

theorem length_pushAll_le {buf : List α} (h : buf.length ≤ cap) (l : List α) :
    (pushAll cap buf l).length ≤ cap := by
  induction l generalizing buf with
  | nil => exact h
  | cons a l ih => exact ih (length_pushBack_le buf a)

/-- As long as the elements fit, none is dropped. -/
theorem pushAll_of_fits {buf l : List α} (h : buf.length + l.length ≤ cap) :
    pushAll cap buf l = buf ++ l := by
  induction l generalizing buf with
  | nil => exact (List.append_nil buf).symm
  | cons a l ih =>
      rw [List.length_cons] at h
      have hroom : pushBack cap buf a = buf ++ [a] := by
        rw [pushBack, show buf.length + 1 - cap = 0 by omega, List.drop_zero]
      have hlen : (buf ++ [a]).length + l.length ≤ cap := by
        rw [List.length_append, List.length_singleton]
        omega
      calc pushAll cap buf (a :: l) = pushAll cap (buf ++ [a]) l := by rw [← hroom]; rfl
        _ = buf ++ [a] ++ l := ih hlen
        _ = buf ++ a :: l := by rw [List.append_assoc, List.singleton_append]

/-- Behind an element that has been added the length is within the bound. -/
theorem length_pushAll_of_ne_nil (buf : List α) {l : List α} (h : l ≠ []) :
    (pushAll cap buf l).length ≤ cap := by
  obtain ⟨a, l, rfl⟩ := List.exists_cons_of_ne_nil h
  exact length_pushAll_le (length_pushBack_le buf a) l

theorem pushAll_eq_append_iff {buf l : List α} (h : l ≠ []) :
    pushAll cap buf l = buf ++ l ↔ buf.length + l.length ≤ cap := by
  refine ⟨fun heq => ?_, pushAll_of_fits⟩
  have hle : (pushAll cap buf l).length ≤ cap := length_pushAll_of_ne_nil buf h
  rwa [heq, List.length_append] at hle

end Gtoaes.Lib.Circular
