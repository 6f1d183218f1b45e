import Mathlib.Data.List.Induction

/-!
The lives of jobs that one holder takes on one at a time.

A job is opened, may be started, and ends: it finishes or it is dropped. The
automaton below reads the marks a holder leaves and is in a state as long as
they make sense. It comes in two strengths. The strict one lets only a started
job finish; the other, *lax*, lets an opened job finish that was never started.

What a trace that is accepted looks like is proved once here: `ends_once` for
both strengths, `started_of_finished` for the strict one, and, for a lax trace
that opens no job twice, that it is strict exactly if every job that finishes
was started (`strict_iff_finishedStarted`).
-/

namespace Gtoaes.Lib

inductive Mark
  | opened | started | finished | dropped
  deriving DecidableEq

/-- The marks that end a job. -/
def Mark.ends : Mark → Bool
  | .finished | .dropped => true
  | .opened | .started => false

/-- What a holder has in hand. -/
inductive Life (α : Type*)
  | idle
  | waiting (a : α)
  | running (a : α)
  deriving DecidableEq

namespace Life

variable {α : Type*} [DecidableEq α]

/-- One mark; `lax` says whether a job that waits may finish. -/
def step (lax : Bool) : Life α → α × Mark → Option (Life α)
  | idle, (a, .opened) => some (waiting a)
  | waiting a, (b, .started) => if a = b then some (running a) else none
  | waiting a, (b, .finished) => if lax = true ∧ a = b then some idle else none
  | waiting a, (b, .dropped) => if a = b then some idle else none
  | running a, (b, .finished) => if a = b then some idle else none
  | running a, (b, .dropped) => if a = b then some idle else none
  | _, _ => none

def runs (lax : Bool) (l : Life α) : List (α × Mark) → Option (Life α)
  | [] => some l
  | m :: ms => (step lax l m).bind fun l' => runs lax l' ms

@[simp] theorem runs_nil (lax : Bool) (l : Life α) : runs lax l [] = some l := rfl

theorem runs_cons (lax : Bool) (l : Life α) (m : α × Mark) (ms : List (α × Mark)) :
    runs lax l (m :: ms) = (step lax l m).bind fun l' => runs lax l' ms := rfl

@[simp] theorem runs_singleton (lax : Bool) (l : Life α) (m : α × Mark) :
    runs lax l [m] = step lax l m := by
  rw [runs_cons]
  cases step lax l m <;> rfl

@[simp] theorem step_opened (lax : Bool) (a : α) :
    step lax idle (a, .opened) = some (waiting a) := rfl

@[simp] theorem step_started (lax : Bool) (a : α) :
    step lax (waiting a) (a, .started) = some (running a) := if_pos rfl

@[simp] theorem step_waiting_finished (lax : Bool) (a : α) :
    step lax (waiting a) (a, .finished) = if lax then some idle else none := by simp [step]

@[simp] theorem step_running_finished (lax : Bool) (a : α) :
    step lax (running a) (a, .finished) = some idle := if_pos rfl

@[simp] theorem step_waiting_dropped (lax : Bool) (a : α) :
    step lax (waiting a) (a, .dropped) = some idle := if_pos rfl

@[simp] theorem step_running_dropped (lax : Bool) (a : α) :
    step lax (running a) (a, .dropped) = some idle := if_pos rfl

theorem runs_append (lax : Bool) (l : Life α) (ms ns : List (α × Mark)) :
    runs lax l (ms ++ ns) = (runs lax l ms).bind fun l' => runs lax l' ns := by
  induction ms generalizing l with
  | nil => rfl
  | cons m ms ih =>
      rw [List.cons_append, runs_cons, runs_cons]
      cases step lax l m with
      | none => rfl
      | some l' => exact ih l'

/-- A trace in two parts, with the state between them. -/
theorem runs_append_some {lax : Bool} {l l' : Life α} {ms ns : List (α × Mark)}
    (h : runs lax l (ms ++ ns) = some l') :
    ∃ k, runs lax l ms = some k ∧ runs lax k ns = some l' := by
  rw [runs_append] at h
  exact Option.bind_eq_some_iff.mp h

theorem runs_cons_some {lax : Bool} {l l' : Life α} {m : α × Mark} {ms : List (α × Mark)}
    (h : runs lax l (m :: ms) = some l') :
    ∃ k, step lax l m = some k ∧ runs lax k ms = some l' :=
  Option.bind_eq_some_iff.mp h

/-- Everything one mark can do. -/
theorem step_cases {lax : Bool} {l l' : Life α} {a : α} {m : Mark}
    (h : step lax l (a, m) = some l') :
    (m = .opened ∧ l = idle ∧ l' = waiting a) ∨
    (m = .started ∧ l = waiting a ∧ l' = running a) ∨
    (m = .finished ∧ lax = true ∧ l = waiting a ∧ l' = idle) ∨
    (m = .finished ∧ l = running a ∧ l' = idle) ∨
    (m = .dropped ∧ (l = waiting a ∨ l = running a) ∧ l' = idle) := by
  cases l <;> cases m <;> simp_all [step]

/-- In a strict trace a job that finishes was started before, in the trace or
ahead of it. -/
theorem started_of_finished {l l' : Life α} {ms ns : List (α × Mark)} {a : α}
    (h : runs false l (ms ++ (a, .finished) :: ns) = some l') :
    l = running a ∨ (a, Mark.started) ∈ ms := by
  induction ms generalizing l with
  | nil =>
      obtain ⟨k, hk, -⟩ := runs_cons_some h
      rcases step_cases hk with ⟨h, -⟩ | ⟨h, -⟩ | ⟨-, h, -⟩ | ⟨-, rfl, -⟩ | ⟨h, -⟩
      · cases h
      · cases h
      · cases h
      · exact .inl rfl
      · cases h
  | cons m ms ih =>
      obtain ⟨b, m⟩ := m
      obtain ⟨k, hk, hrest⟩ := runs_cons_some h
      rcases ih hrest with rfl | hmem
      · rcases step_cases hk with ⟨-, -, h⟩ | ⟨rfl, -, h⟩ | ⟨-, -, -, h⟩ | ⟨-, -, h⟩ | ⟨-, -, h⟩
        · cases h
        · obtain rfl : a = b := by simpa using h
          exact .inr (by simp)
        · cases h
        · cases h
        · cases h
      · exact .inr (List.mem_cons_of_mem _ hmem)

/-- What is left of a held job until the next opening: it may be started, and it
ends once. -/
theorem ends_between {lax : Bool} {l : Life α} {a b : α} {ms ns : List (α × Mark)} {l' : Life α}
    (hl : l = waiting a ∨ l = running a) (hms : ∀ c, (c, Mark.opened) ∉ ms)
    (h : runs lax l (ms ++ (b, .opened) :: ns) = some l') :
    ms.countP (fun m => m.2.ends) = 1 ∧ ∀ m ∈ ms, m.1 = a := by
  -- After the end the state is idle, where no mark but an opening is read.
  have hidle : ∀ {ms : List (α × Mark)}, (∀ c, (c, Mark.opened) ∉ ms) →
      runs lax idle (ms ++ (b, .opened) :: ns) = some l' → ms = [] := by
    intro ms hms h
    cases ms with
    | nil => rfl
    | cons m ms =>
        obtain ⟨c, m⟩ := m
        obtain ⟨k, hk, -⟩ := runs_cons_some h
        rcases step_cases hk with ⟨rfl, -⟩ | ⟨-, h, -⟩ | ⟨-, -, h, -⟩ | ⟨-, h, -⟩ | ⟨-, h | h, -⟩
        · exact absurd (List.mem_cons_self ..) (hms c)
        all_goals cases h
  induction ms generalizing l with
  | nil =>
      obtain ⟨k, hk, -⟩ := runs_cons_some h
      rcases hl with rfl | rfl <;> cases hk
  | cons m ms ih =>
      obtain ⟨c, m⟩ := m
      obtain ⟨k, hk, hrest⟩ := runs_cons_some h
      have htail : ∀ d, (d, Mark.opened) ∉ ms := fun d hd => hms d (List.mem_cons_of_mem _ hd)
      rcases step_cases hk with ⟨rfl, -⟩ | ⟨rfl, h, rfl⟩ | ⟨rfl, -, h, rfl⟩ | ⟨rfl, h, rfl⟩ |
        ⟨rfl, h, rfl⟩
      · exact absurd (List.mem_cons_self ..) (hms c)
      · obtain rfl : c = a := by
          rcases hl with hl | hl <;> rw [hl] at h <;> cases h
          rfl
        obtain ⟨hone, hall⟩ := ih (.inr rfl) htail hrest
        exact ⟨by simpa [Mark.ends] using hone, by simpa using fun d m hm => hall (d, m) hm⟩
      · obtain rfl : c = a := by
          rcases hl with hl | hl <;> rw [hl] at h <;> cases h
          rfl
        obtain rfl := hidle htail hrest
        exact ⟨rfl, by simp⟩
      · obtain rfl : c = a := by
          rcases hl with hl | hl <;> rw [hl] at h <;> cases h
          rfl
        obtain rfl := hidle htail hrest
        exact ⟨rfl, by simp⟩
      · obtain rfl : c = a := by
          rcases hl with hl | hl <;> rw [hl] at h <;> rcases h with h | h <;> cases h <;> rfl
        obtain rfl := hidle htail hrest
        exact ⟨rfl, by simp⟩

/-- Between two openings exactly one job ends, and it is the first of the two. -/
theorem ends_once {lax : Bool} {l l' : Life α} {a b : α} {ks ms ns : List (α × Mark)}
    (hms : ∀ c, (c, Mark.opened) ∉ ms)
    (h : runs lax l (ks ++ (a, .opened) :: ms ++ (b, .opened) :: ns) = some l') :
    ms.countP (fun m => m.2.ends) = 1 ∧ ∀ m ∈ ms, m.1 = a := by
  rw [List.append_assoc] at h
  obtain ⟨k, -, h⟩ := runs_append_some h
  rw [List.cons_append] at h
  obtain ⟨k', hk, h⟩ := runs_cons_some h
  rcases step_cases hk with ⟨-, -, rfl⟩ | ⟨h, -⟩ | ⟨h, -⟩ | ⟨h, -⟩ | ⟨h, -⟩
  · exact ends_between (.inl rfl) hms h
  all_goals cases h

/-- A job in hand was opened, and since then nothing was opened or ended. -/
theorem held_since {lax : Bool} {l : Life α} {a : α} {ms : List (α × Mark)}
    (h : runs lax idle ms = some l) (hl : l = waiting a ∨ l = running a) :
    ∃ ks ns, ms = ks ++ (a, .opened) :: ns ∧ ∀ m ∈ ns, m.2 ≠ .opened ∧ m.2.ends = false := by
  induction ms using List.reverseRecOn generalizing l with
  | nil =>
      obtain rfl : idle = l := by simpa using h
      rcases hl with hl | hl <;> cases hl
  | append_singleton ms m ih =>
      obtain ⟨b, m⟩ := m
      obtain ⟨k, hk, hm⟩ := runs_append_some h
      rw [runs_singleton] at hm
      rcases step_cases hm with ⟨rfl, rfl, rfl⟩ | ⟨rfl, rfl, rfl⟩ | ⟨-, -, -, rfl⟩ | ⟨-, -, rfl⟩ |
        ⟨-, -, rfl⟩
      · obtain rfl : a = b := by rcases hl with hl | hl <;> cases hl; rfl
        exact ⟨ms, [], rfl, by simp⟩
      · obtain rfl : a = b := by rcases hl with hl | hl <;> cases hl; rfl
        obtain ⟨ks, ns, rfl, hns⟩ := ih hk (.inl rfl)
        refine ⟨ks, ns ++ [(a, .started)], by simp, fun m hm => ?_⟩
        rcases List.mem_append.mp hm with hm | hm
        · exact hns m hm
        · obtain rfl := List.mem_singleton.mp hm
          exact ⟨by simp, rfl⟩
      all_goals rcases hl with hl | hl <;> cases hl

/-- Every job that finishes was started before. -/
def FinishedStarted (ms : List (α × Mark)) : Prop :=
  ∀ ks ns a, ms = ks ++ (a, Mark.finished) :: ns → (a, Mark.started) ∈ ks

/-- A job that is opened has left no mark before. -/
def OpensFresh (ms : List (α × Mark)) : Prop :=
  ∀ ks ns a, ms = ks ++ (a, Mark.opened) :: ns → ∀ m, (a, m) ∉ ks

omit [DecidableEq α] in
theorem FinishedStarted.of_append {ms ns : List (α × Mark)} (h : FinishedStarted (ms ++ ns)) :
    FinishedStarted ms := by
  rintro ks ls a rfl
  exact h ks (ls ++ ns) a (by simp)

omit [DecidableEq α] in
theorem OpensFresh.of_append {ms ns : List (α × Mark)} (h : OpensFresh (ms ++ ns)) :
    OpensFresh ms := by
  rintro ks ls a rfl
  exact h ks (ls ++ ns) a (by simp)

omit [DecidableEq α] in
/-- Any mark may follow, but the opening of a job that has left one. -/
theorem OpensFresh.append_singleton {ms : List (α × Mark)} (h : OpensFresh ms) {a : α} {m : Mark}
    (hm : m = .opened → ∀ m', (a, m') ∉ ms) : OpensFresh (ms ++ [(a, m)]) := by
  intro ks ls b hsplit
  rcases List.append_eq_append_iff.mp hsplit with ⟨as, rfl, has⟩ | ⟨bs, rfl, hbs⟩
  · cases as with
    | nil =>
        obtain ⟨rfl, rfl⟩ := Prod.mk.inj (List.cons.inj has).1
        simpa using hm rfl
    | cons a' as => simp at has
  · cases bs with
    | nil =>
        obtain ⟨rfl, rfl⟩ := Prod.mk.inj (List.cons.inj hbs).1
        simpa using hm rfl
    | cons b' bs =>
        obtain ⟨rfl, -⟩ := List.cons.inj hbs
        exact h ks bs b rfl

/-- While a job waits it has not been started, if it had left no mark when it
was opened. -/
theorem not_started_of_waiting {ms : List (α × Mark)} {a : α} (hfresh : OpensFresh ms)
    (h : runs true idle ms = some (waiting a)) : (a, Mark.started) ∉ ms := by
  induction ms using List.reverseRecOn with
  | nil => simp
  | append_singleton ms m _ =>
      obtain ⟨b, m⟩ := m
      obtain ⟨k, -, hm⟩ := runs_append_some h
      obtain ⟨k', hk', hnil⟩ := runs_cons_some hm
      obtain rfl : k' = waiting a := by simpa using hnil
      rcases step_cases hk' with ⟨rfl, -, h⟩ | ⟨-, -, h⟩ | ⟨-, -, -, h⟩ | ⟨-, -, h⟩ | ⟨-, -, h⟩
      · obtain rfl : a = b := by simpa using h
        have hold := hfresh ms [] a rfl Mark.started
        simp [hold]
      all_goals cases h

theorem strict_iff_finishedStarted {ms : List (α × Mark)} {l : Life α} (hfresh : OpensFresh ms)
    (h : runs true idle ms = some l) :
    runs false idle ms = some l ↔ FinishedStarted ms := by
  constructor
  · rintro hs ks ns a rfl
    rcases started_of_finished hs with h | h
    · cases h
    · exact h
  · intro hfin
    induction ms using List.reverseRecOn generalizing l with
    | nil => exact h
    | append_singleton ms m ih =>
        obtain ⟨a, m⟩ := m
        obtain ⟨k, hk, hm⟩ := runs_append_some h
        obtain ⟨l', hl', hnil⟩ := runs_cons_some hm
        obtain rfl : l' = l := by simpa using hnil
        have hinit := ih hfresh.of_append hk hfin.of_append
        rw [runs_append, hinit, Option.bind_some, runs_singleton]
        -- only the lax finish of a waiting job is no strict step
        rcases step_cases hl' with ⟨rfl, rfl, rfl⟩ | ⟨rfl, rfl, rfl⟩ | ⟨rfl, -, rfl, -⟩ |
          ⟨rfl, rfl, rfl⟩ | ⟨rfl, rfl | rfl, rfl⟩
        · simp
        · simp
        · exact absurd (hfin ms [] a rfl) (not_started_of_waiting hfresh.of_append hk)
        · simp
        · simp
        · simp

end Life

end Gtoaes.Lib
