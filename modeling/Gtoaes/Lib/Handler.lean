import Mathlib.Data.List.Basic
import Mathlib.Order.Basic
import Mathlib.Order.Nat

/-!
Event handlers as functions, and the frame rule for them.

A handler reads a state, moves it and emits outputs in order. The handlers of a
program are put together from short ones that each touch one part of the state,
with the combinators below, so that what a handler leaves alone can be read off
its text: `Inert v obs h` says that `h` keeps the view `v` of the state and
emits nothing that `obs` looks at, and every combinator carries it.
-/

namespace Gtoaes.Lib

abbrev Handler (σ ω : Type*) := σ → σ × List ω

namespace Handler

variable {σ ω α β : Type*}

def skip : Handler σ ω := fun s => (s, [])

def update (f : σ → σ) : Handler σ ω := fun s => (f s, [])

def emit (f : σ → List ω) : Handler σ ω := fun s => (s, f s)

def andThen (h k : Handler σ ω) : Handler σ ω := fun s =>
  ((k (h s).1).1, (h s).2 ++ (k (h s).1).2)

/-- One handler after the other, as statements follow each other. -/
def all : List (Handler σ ω) → Handler σ ω
  | [] => skip
  | h :: hs => h.andThen (all hs)

/-- The handler `h` where `b` holds of the state it starts in. -/
def when (b : σ → Bool) (h : Handler σ ω) : Handler σ ω := fun s => if b s then h s else (s, [])

@[simp] theorem skip_apply (s : σ) : (skip : Handler σ ω) s = (s, []) := rfl

@[simp] theorem update_apply (f : σ → σ) (s : σ) : (update f : Handler σ ω) s = (f s, []) := rfl

@[simp] theorem emit_apply (f : σ → List ω) (s : σ) : emit f s = (s, f s) := rfl

@[simp] theorem all_nil : (all [] : Handler σ ω) = skip := rfl

theorem andThen_apply (h k : Handler σ ω) (s : σ) :
    h.andThen k s = ((k (h s).1).1, (h s).2 ++ (k (h s).1).2) := rfl

theorem all_cons (h : Handler σ ω) (hs : List (Handler σ ω)) (s : σ) :
    all (h :: hs) s = ((all hs (h s).1).1, (h s).2 ++ (all hs (h s).1).2) := rfl

theorem all_append_singleton (hs : List (Handler σ ω)) (k : Handler σ ω) (s : σ) :
    all (hs ++ [k]) s = (all hs).andThen k s := by
  induction hs generalizing s with
  | nil => simp [all_cons, andThen_apply]
  | cons h hs ih => simp [all_cons, andThen_apply, ih, List.append_assoc]

theorem all_pair (h k : Handler σ ω) (s : σ) : all [h, k] s = h.andThen k s := by
  simp [all_cons, andThen_apply]

theorem when_true {b : σ → Bool} {s : σ} (hb : b s = true) (h : Handler σ ω) :
    when b h s = h s := if_pos hb

theorem when_false {b : σ → Bool} {s : σ} (hb : b s = false) (h : Handler σ ω) :
    when b h s = (s, []) := by simp [when, hb]

theorem when_cases (b : σ → Bool) (h : Handler σ ω) (s : σ) :
    (b s = true ∧ when b h s = h s) ∨ (b s = false ∧ when b h s = (s, [])) := by
  cases hb : b s
  · exact .inr ⟨rfl, when_false hb h⟩
  · exact .inl ⟨rfl, when_true hb h⟩

theorem when_and_left {a b : σ → Bool} {s : σ} (ha : a s = true) (h : Handler σ ω) :
    when (fun s => a s && b s) h s = when b h s := by simp [when, ha]

/-- `h` keeps the view `v` and emits nothing `obs` sees. -/
def Inert (v : σ → α) (obs : ω → Option β) (h : Handler σ ω) : Prop :=
  ∀ s, v (h s).1 = v s ∧ (h s).2.filterMap obs = []

variable {v : σ → α} {obs : ω → Option β} {h k : Handler σ ω}

theorem Inert.skip : Inert v obs (skip : Handler σ ω) := fun _ => ⟨rfl, rfl⟩

theorem Inert.update {f : σ → σ} (hf : ∀ s, v (f s) = v s) :
    Inert v obs (update f : Handler σ ω) := fun s => ⟨hf s, rfl⟩

theorem Inert.emit {f : σ → List ω} (hf : ∀ s, (f s).filterMap obs = []) :
    Inert v obs (emit f) := fun s => ⟨rfl, hf s⟩

theorem Inert.andThen (hh : Inert v obs h) (hk : Inert v obs k) : Inert v obs (h.andThen k) := by
  intro s
  obtain ⟨hv, ho⟩ := hh s
  obtain ⟨kv, ko⟩ := hk (h s).1
  exact ⟨kv.trans hv, by rw [andThen_apply, List.filterMap_append, ho, ko]; rfl⟩

theorem Inert.nil : Inert v obs (all [] : Handler σ ω) := .skip

theorem Inert.cons {hs : List (Handler σ ω)} (hh : Inert v obs h) (hhs : Inert v obs (all hs)) :
    Inert v obs (all (h :: hs)) := hh.andThen hhs

theorem Inert.when {b : σ → Bool} (hh : Inert v obs h) : Inert v obs (when b h) := by
  intro s
  cases hb : b s
  · rw [when_false hb]; exact ⟨rfl, rfl⟩
  · rw [when_true hb]; exact hh s

/-- A handler inert for a view is inert for what that view determines. -/
theorem Inert.mono {α' β' : Type*} {v' : σ → α'} {obs' : ω → Option β'} {g : α → α'}
    {k : β → Option β'} (hh : Inert v obs h) (hv : ∀ s, v' s = g (v s))
    (ho : ∀ o, obs' o = (obs o).bind k) : Inert v' obs' h := by
  intro s
  obtain ⟨hs, hnil⟩ := hh s
  refine ⟨by rw [hv, hv, hs], ?_⟩
  rw [show obs' = fun o => (obs o).bind k from funext ho, ← List.filterMap_filterMap, hnil]
  rfl

/-- Inert handlers at the front only choose the state, of the same view, that
the last one starts in. -/
theorem Inert.all_append_singleton {hs : List (Handler σ ω)} (hhs : Inert v obs (all hs))
    (k : Handler σ ω) (s : σ) :
    ∃ s', v s' = v s ∧ (all (hs ++ [k]) s).1 = (k s').1 ∧
      (all (hs ++ [k]) s).2.filterMap obs = (k s').2.filterMap obs := by
  obtain ⟨hv, ho⟩ := hhs s
  rw [Handler.all_append_singleton]
  refine ⟨(all hs s).1, hv, rfl, ?_⟩
  rw [andThen_apply, List.filterMap_append, ho, List.nil_append]

/-- Two results are the same to the view `v` and to `obs`. -/
def Agree (v : σ → α) (obs : ω → Option β) (r r' : σ × List ω) : Prop :=
  v r.1 = v r'.1 ∧ r.2.filterMap obs = r'.2.filterMap obs

section Agree

variable {r r' r'' : σ × List ω}

theorem Agree.refl (r : σ × List ω) : Agree v obs r r := ⟨rfl, rfl⟩

theorem Agree.trans (h : Agree v obs r r') (h' : Agree v obs r' r'') : Agree v obs r r'' :=
  ⟨h.1.trans h'.1, h.2.trans h'.2⟩

theorem Inert.agree (hh : Inert v obs h) (s : σ) : Agree v obs (h s) (s, []) := hh s

/-- What becomes of the view, and what `obs` sees, depends on the view alone. -/
def Factors (v : σ → α) (obs : ω → Option β) (h : Handler σ ω) : Prop :=
  ∀ s s', v s = v s' → Agree v obs (h s) (h s')

theorem Factors.when {b : σ → Bool} (hb : ∀ s s', v s = v s' → b s = b s')
    (hh : Factors v obs h) : Factors v obs (when b h) := by
  intro s s' hs
  cases hbs : b s with
  | false =>
      rw [when_false hbs, when_false ((hb s s' hs).symm.trans hbs)]
      exact ⟨hs, rfl⟩
  | true =>
      rw [when_true hbs, when_true ((hb s s' hs).symm.trans hbs)]
      exact hh s s' hs

/-- Agreeing results go on to agreeing results. -/
theorem Agree.andThen {s s' : σ} {h' : Handler σ ω} (hr : Agree v obs (h s) (h' s'))
    (hk : Factors v obs k) : Agree v obs (h.andThen k s) (h'.andThen k s') := by
  obtain ⟨hv, ho⟩ := hr
  obtain ⟨kv, ko⟩ := hk _ _ hv
  exact ⟨kv, by rw [andThen_apply, andThen_apply, List.filterMap_append, List.filterMap_append,
    ho, ko]⟩

/-- Behind inert handlers a handler does what it does on its own. -/
theorem Inert.agree_last {hs : List (Handler σ ω)} (hhs : Inert v obs (all hs))
    (hk : Factors v obs k) (s : σ) : Agree v obs (all (hs ++ [k]) s) (k s) := by
  obtain ⟨s', hv, hstate, hacts⟩ := hhs.all_append_singleton k s
  obtain ⟨kv, ko⟩ := hk _ _ hv
  exact ⟨by rw [hstate, kv], by rw [hacts, ko]⟩

/-- In front of an inert handler too. -/
theorem Inert.agree_first (hk : Inert v obs k) (h : Handler σ ω) (s : σ) :
    Agree v obs (h.andThen k s) (h s) := by
  obtain ⟨kv, ko⟩ := hk (h s).1
  exact ⟨kv, by rw [andThen_apply, List.filterMap_append, ko, List.append_nil]⟩

end Agree

/-- The property `P` of states is kept. -/
def Keeps (P : σ → Prop) (h : Handler σ ω) : Prop := ∀ s, P s → P (h s).1

section Keeps

variable {P : σ → Prop}

theorem Keeps.when {b : σ → Bool} (hh : Keeps P h) : Keeps P (when b h) := by
  intro s hs
  obtain ⟨-, heq⟩ | ⟨-, heq⟩ := when_cases b h s
  · rw [heq]
    exact hh s hs
  · rwa [heq]

end Keeps

/-- The state behind the handler stands in a relation to the one before. -/
def Relates (R : σ → σ → Prop) (h : Handler σ ω) : Prop := ∀ s, R s (h s).1

section Relates

variable {R : σ → σ → Prop} [IsPreorder σ R]

theorem Relates.andThen (hh : Relates R h) (hk : Relates R k) : Relates R (h.andThen k) :=
  fun s => IsTrans.trans _ _ _ (hh s) (hk (h s).1)

theorem Relates.nil : Relates R (all [] : Handler σ ω) := fun s => refl s

theorem Relates.cons {hs : List (Handler σ ω)} (hh : Relates R h) (hhs : Relates R (all hs)) :
    Relates R (all (h :: hs)) := hh.andThen hhs

theorem Relates.when {b : σ → Bool} (hh : Relates R h) : Relates R (when b h) := by
  intro s
  obtain ⟨-, heq⟩ | ⟨-, heq⟩ := when_cases b h s
  · rw [heq]
    exact hh s
  · rw [heq]
    exact refl s

end Relates

/-- The view `v` is kept. -/
def Fixes (v : σ → α) (h : Handler σ ω) : Prop := ∀ s, v (h s).1 = v s

section Fixes

variable {v : σ → α}

theorem Inert.fixes {obs : ω → Option β} (hh : Inert v obs h) : Fixes v h := fun s => (hh s).1

theorem Fixes.mono {w : σ → β} {g : α → β} (hh : Fixes v h) (hw : ∀ s, w s = g (v s)) :
    Fixes w h := by
  intro s
  rw [hw, hw, hh s]

theorem Fixes.andThen (hh : Fixes v h) (hk : Fixes v k) : Fixes v (h.andThen k) :=
  fun s => (hk (h s).1).trans (hh s)

theorem Fixes.nil : Fixes v (all [] : Handler σ ω) := fun _ => rfl

theorem Fixes.cons {hs : List (Handler σ ω)} (hh : Fixes v h) (hhs : Fixes v (all hs)) :
    Fixes v (all (h :: hs)) := hh.andThen hhs

theorem Fixes.when {b : σ → Bool} (hh : Fixes v h) : Fixes v (when b h) := by
  intro s
  obtain ⟨-, heq⟩ | ⟨-, heq⟩ := when_cases b h s
  · rw [heq]
    exact hh s
  · rw [heq]

end Fixes

/-- The last output that `obs` sees is the view `v` of the state behind it; where
it sees none the view is as before. -/
def Mirrors (v : σ → α) (obs : ω → Option α) (h : Handler σ ω) : Prop :=
  ∀ s, v (h s).1 = ((h s).2.filterMap obs).getLastD (v s)

section Mirrors

variable {v : σ → α} {obs : ω → Option α}

theorem getLastD_append (l l' : List α) (a : α) :
    (l ++ l').getLastD a = l'.getLastD (l.getLastD a) := by
  induction l generalizing a with
  | nil => rfl
  | cons b l ih => rw [List.cons_append, List.getLastD_cons, ih, List.getLastD_cons]

theorem Inert.mirrors (hh : Inert v obs h) : Mirrors v obs h := by
  intro s
  obtain ⟨hv, ho⟩ := hh s
  rw [ho, hv]
  rfl

theorem Mirrors.andThen (hh : Mirrors v obs h) (hk : Mirrors v obs k) :
    Mirrors v obs (h.andThen k) := by
  intro s
  rw [andThen_apply, List.filterMap_append, getLastD_append, ← hh s]
  exact hk (h s).1

theorem Mirrors.nil : Mirrors v obs (all [] : Handler σ ω) := Inert.nil.mirrors

theorem Mirrors.cons {hs : List (Handler σ ω)} (hh : Mirrors v obs h)
    (hhs : Mirrors v obs (all hs)) : Mirrors v obs (all (h :: hs)) := hh.andThen hhs

theorem Mirrors.when {b : σ → Bool} (hh : Mirrors v obs h) : Mirrors v obs (when b h) := by
  intro s
  obtain ⟨-, heq⟩ | ⟨-, heq⟩ := when_cases b h s
  · rw [heq]
    exact hh s
  · rw [heq]
    rfl

end Mirrors

/-- Every output is of one kind. -/
def Emits (P : ω → Prop) (h : Handler σ ω) : Prop := ∀ s, ∀ o ∈ (h s).2, P o

section Emits

variable {P : ω → Prop}

theorem Emits.update (f : σ → σ) : Emits P (update f : Handler σ ω) := by
  intro s o ho
  cases ho

theorem Emits.emit {f : σ → List ω} (hf : ∀ s, ∀ o ∈ f s, P o) : Emits P (emit f) := hf

theorem Emits.andThen (hh : Emits P h) (hk : Emits P k) : Emits P (h.andThen k) := by
  intro s o ho
  rcases List.mem_append.mp ho with ho | ho
  · exact hh s o ho
  · exact hk _ o ho

theorem Emits.nil : Emits P (all [] : Handler σ ω) := .update id

theorem Emits.cons {hs : List (Handler σ ω)} (hh : Emits P h) (hhs : Emits P (all hs)) :
    Emits P (all (h :: hs)) := hh.andThen hhs

theorem Emits.when {b : σ → Bool} (hh : Emits P h) : Emits P (when b h) := by
  intro s
  rcases when_cases b h s with ⟨-, heq⟩ | ⟨-, heq⟩
  · rw [heq]
    exact hh s
  · rw [heq]
    simp

end Emits

/-- The outputs that carry a number are numbered upward from the counter, which
ends beyond them. -/
def Numbers (count : σ → ℕ) (num : ω → Option ℕ) (h : Handler σ ω) : Prop :=
  ∀ s, count s ≤ count (h s).1 ∧ ((h s).2.filterMap num).Pairwise (· < ·) ∧
    ∀ n ∈ (h s).2.filterMap num, count s ≤ n ∧ n < count (h s).1

section Numbers

variable {count : σ → ℕ} {num : ω → Option ℕ}

/-- A step that carries no number may still use some up. -/
theorem numbers_of_none {s : σ} {r : σ × List ω} (hc : count s ≤ count r.1)
    (hr : r.2.filterMap num = []) : count s ≤ count r.1 ∧ (r.2.filterMap num).Pairwise (· < ·) ∧
      ∀ n ∈ r.2.filterMap num, count s ≤ n ∧ n < count r.1 := by
  rw [hr]
  exact ⟨hc, .nil, by simp⟩

theorem Inert.numbers (hh : Inert count num h) : Numbers count num h :=
  fun s => numbers_of_none (hh s).1.ge (hh s).2

theorem Numbers.update {f : σ → σ} (hf : ∀ s, count s ≤ count (f s)) :
    Numbers count num (update f : Handler σ ω) := fun s => numbers_of_none (hf s) rfl

theorem Numbers.andThen (hh : Numbers count num h) (hk : Numbers count num k) :
    Numbers count num (h.andThen k) := by
  intro s
  obtain ⟨hle, hsorted, hbound⟩ := hh s
  obtain ⟨kle, ksorted, kbound⟩ := hk (h s).1
  simp only [andThen_apply, List.filterMap_append]
  refine ⟨hle.trans kle, List.pairwise_append.mpr ⟨hsorted, ksorted, fun m hm n hn => ?_⟩, ?_⟩
  · exact (hbound m hm).2.trans_le (kbound n hn).1
  · intro n hn
    rcases List.mem_append.mp hn with hn | hn
    · exact ⟨(hbound n hn).1, (hbound n hn).2.trans_le kle⟩
    · exact ⟨hle.trans (kbound n hn).1, (kbound n hn).2⟩

theorem Numbers.nil : Numbers count num (all [] : Handler σ ω) := Inert.skip.numbers

theorem Numbers.cons {hs : List (Handler σ ω)} (hh : Numbers count num h)
    (hhs : Numbers count num (all hs)) : Numbers count num (all (h :: hs)) := hh.andThen hhs

theorem Numbers.when {b : σ → Bool} (hh : Numbers count num h) :
    Numbers count num (when b h) := by
  intro s
  rcases when_cases b h s with ⟨-, heq⟩ | ⟨-, heq⟩
  · rw [heq]; exact hh s
  · rw [heq]; exact numbers_of_none le_rfl rfl

end Numbers

end Handler

end Gtoaes.Lib
