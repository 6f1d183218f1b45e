import Mathlib.Data.List.Basic

/-!
Steps that may fail. `Meets P E` says what a step ends in, a value that meets `P`
or an error that meets `E`; it composes along the steps of a program and along its
loops.
-/

namespace Gtoaes.Lib

variable {ε α β ι : Type}

def Meets (P : α → Prop) (E : ε → Prop) : Except ε α → Prop
  | .ok a => P a
  | .error e => E e

variable {P : α → Prop} {Q : β → Prop} {E : ε → Prop}

theorem Meets.bind {r : Except ε α} {k : α → Except ε β} (hr : Meets P E r)
    (hk : ∀ a, P a → Meets Q E (k a)) : Meets Q E (r >>= k) := by
  cases r with
  | ok a => exact hk a hr
  | error e => exact hr

theorem Meets.mono {P' : α → Prop} {E' : ε → Prop} {r : Except ε α} (hr : Meets P E r)
    (hP : ∀ a, P a → P' a) (hE : ∀ e, E e → E' e) : Meets P' E' r := by
  cases r with
  | ok a => exact hP a hr
  | error e => exact hE e hr

/-- The rule of loops: what each round keeps, the loop keeps. -/
theorem Meets.foldlM_mem {f : α → ι → Except ε α} (is : List ι)
    (hf : ∀ i ∈ is, ∀ a, P a → Meets P E (f a i)) {a : α} (ha : P a) :
    Meets P E (is.foldlM f a) := by
  induction is generalizing a with
  | nil => exact ha
  | cons i is ih =>
      rw [List.foldlM_cons]
      refine (hf i List.mem_cons_self a ha).bind fun a' ha' => ?_
      exact ih (fun j hj => hf j (List.mem_cons_of_mem _ hj)) ha'

theorem Meets.foldlM {f : α → ι → Except ε α} (hf : ∀ a i, P a → Meets P E (f a i)) (is : List ι)
    {a : α} (ha : P a) : Meets P E (is.foldlM f a) :=
  .foldlM_mem is (fun i _ a ha => hf a i ha) ha

/-- The same for loops that cannot fail. -/
theorem foldl_keeps {f : α → ι → α} (hf : ∀ a i, P a → P (f a i)) (is : List ι) {a : α}
    (ha : P a) : P (is.foldl f a) := by
  induction is generalizing a with
  | nil => exact ha
  | cons i is ih => exact ih (hf a i ha)

end Gtoaes.Lib
