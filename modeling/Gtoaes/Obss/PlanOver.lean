import Gtoaes.Obss.PlanLife

/-!
Whether a plan that is reported over had been reported running. The statuses
follow the lax automaton in every run, and each plan is a new object, so the
answer is that of `Life.strict_iff_finishedStarted`: in a run that never ends a
waiting plan by a camera report, and in no other.
-/

namespace Gtoaes

open Lib

/-- Every status `OBSPLAN_OVER` among the outputs comes after a status
`OBSPLAN_RUNNING` of the same plan. -/
def OverAfterRunning (acts : List Act) : Prop :=
  ∀ before after addr st, acts = before ++ Act.plan addr st :: after →
    st.state = some obsplanOver →
      ∃ st', Act.plan addr st' ∈ before ∧ st'.state = some obsplanRunning

theorem statusMark_eq_finished {a b : ℕ} {state : Option ℤ} :
    statusMark (a, state) = some (b, .finished) ↔ a = b ∧ state = some obsplanOver := by
  unfold statusMark
  constructor
  · intro h
    split at h
    · cases h
    · split at h
      · cases h
      · split at h
        · cases h
          exact ⟨rfl, by assumption⟩
        · split at h <;> cases h
  · rintro ⟨rfl, rfl⟩
    rfl

theorem statusMark_eq_started {a b : ℕ} {state : Option ℤ} :
    statusMark (a, state) = some (b, .started) ↔ a = b ∧ state = some obsplanRunning := by
  unfold statusMark
  constructor
  · intro h
    split at h
    · cases h
    · split at h
      · cases h
        exact ⟨rfl, by assumption⟩
      · split at h
        · cases h
        · split at h <;> cases h
  · rintro ⟨rfl, rfl⟩
    rfl

theorem planStatus_eq_some {act : Act} {addr : ℕ} {state : Option ℤ} :
    planStatus act = some (addr, state) ↔ ∃ st, act = .plan addr st ∧ st.state = state := by
  cases act with
  | plan a st =>
      simp only [planStatus, Option.some.injEq, Prod.mk.injEq, Act.plan.injEq]
      constructor
      · rintro ⟨rfl, rfl⟩
        exact ⟨st, ⟨rfl, rfl⟩, rfl⟩
      · rintro ⟨_, ⟨rfl, rfl⟩, rfl⟩
        exact ⟨rfl, rfl⟩
  | _ => simp [planStatus]

/-- A mark as one of the outputs themselves. -/
def planMark (act : Act) : Option (ℕ × Mark) := (planStatus act).bind statusMark

theorem planMarks_eq (acts : List Act) : planMarks acts = acts.filterMap planMark :=
  List.filterMap_filterMap ..

theorem planMark_eq_finished {act : Act} {addr : ℕ} :
    planMark act = some (addr, .finished) ↔
      ∃ st, act = .plan addr st ∧ st.state = some obsplanOver := by
  constructor
  · intro h
    obtain ⟨⟨a, state⟩, hact, hm⟩ := Option.bind_eq_some_iff.mp h
    obtain ⟨st, rfl, rfl⟩ := planStatus_eq_some.mp hact
    obtain ⟨rfl, hst⟩ := statusMark_eq_finished.mp hm
    exact ⟨st, rfl, hst⟩
  · rintro ⟨st, rfl, hst⟩
    exact statusMark_eq_finished.mpr ⟨rfl, hst⟩

theorem mem_planMarks_started {acts : List Act} {addr : ℕ} :
    (addr, Mark.started) ∈ planMarks acts ↔
      ∃ st, Act.plan addr st ∈ acts ∧ st.state = some obsplanRunning := by
  rw [planMarks_eq, List.mem_filterMap]
  constructor
  · rintro ⟨act, hmem, h⟩
    obtain ⟨⟨a, state⟩, hact, hm⟩ := Option.bind_eq_some_iff.mp h
    obtain ⟨st, rfl, rfl⟩ := planStatus_eq_some.mp hact
    obtain ⟨rfl, hst⟩ := statusMark_eq_started.mp hm
    exact ⟨st, hmem, hst⟩
  · rintro ⟨st, hmem, hst⟩
    exact ⟨_, hmem, statusMark_eq_started.mpr ⟨rfl, hst⟩⟩

/-- The same said of the marks. -/
theorem overAfterRunning_iff {acts : List Act} :
    OverAfterRunning acts ↔ Life.FinishedStarted (planMarks acts) := by
  constructor
  · intro h ks ns addr hsplit
    rw [planMarks_eq] at hsplit
    obtain ⟨before, rest, rfl, hbefore, hrest⟩ := List.filterMap_eq_append_iff.mp hsplit
    obtain ⟨skipped, act, after, rfl, hskipped, hact, -⟩ := List.filterMap_eq_cons_iff.mp hrest
    obtain ⟨st, rfl, hst⟩ := planMark_eq_finished.mp hact
    have hsaid := h (before ++ skipped) after addr st (by simp) hst
    have hnone : planMarks skipped = [] :=
      (planMarks_eq _).trans (List.filterMap_eq_nil_iff.mpr hskipped)
    have hstarted := mem_planMarks_started.mpr hsaid
    rwa [planMarks_append, hnone, List.append_nil, planMarks_eq, hbefore] at hstarted
  · rintro h before after addr st rfl hst
    have hmark : planMark (.plan addr st) = some (addr, .finished) :=
      planMark_eq_finished.mpr ⟨st, rfl, hst⟩
    have hstarted := h (planMarks before) (planMarks after) addr (by
      rw [planMarks_append, planMarks_eq (_ :: _), List.filterMap_cons, hmark, planMarks_eq after])
    exact mem_planMarks_started.mp hstarted

namespace Solo

open Obss

/-- What the history of a system on its own says about its plan. -/
structure PlanInv (c : Config Solo Act) : Prop where
  runs : Life.runs true .idle (planMarks c.hist) = some c.state.obss.life
  old_mark : ∀ m ∈ planMarks c.hist, m.1 < c.state.fresh
  old_plan : ∀ p, c.state.obss.plan = some p → p.addr < c.state.fresh
  opens : Life.OpensFresh (planMarks c.hist)

theorem owns (posix : PosixTime) (s : Solo) (i : Input) : s.obss.Owns (s.ctx posix i) :=
  fun _ _ => rfl

theorem planInv_start (gid uid : Text) (type : ObssType) (now : Time) :
    PlanInv (Solo.start gid uid type now) where
  runs := rfl
  old_mark := by simp [start]
  old_plan := by simp [start, Obss.create]
  opens := by
    intro ks ns a h
    simp [start] at h

/-- Every mark of a step is about the plan held or opens the new one. -/
theorem step_mark {ctx : Ctx} {s : Obss} (h : s.Owns ctx) {ev : Event} {a : ℕ} {m : Mark}
    (hm : (a, m) ∈ planMarks (step ctx ev s).2) :
    (a = ctx.fresh ∧ m = .opened) ∨ ∃ p, s.plan = some p ∧ a = p.addr ∧ m ≠ .opened := by
  have hend : ∀ {k}, k ≠ Mark.opened → (a, m) ∈ s.endMarks k →
      ∃ p, s.plan = some p ∧ a = p.addr ∧ m ≠ .opened := by
    rintro k hk hmem
    obtain ⟨p, hp, hx⟩ := List.mem_map.mp hmem
    obtain ⟨rfl, rfl⟩ := Prod.mk.inj hx
    exact ⟨p, by simpa using hp, rfl, hk⟩
  rcases step_marks h ev with ⟨-, -, hnew⟩ | ⟨plan, -, -, -, hnew⟩ | ⟨p, -, hp, -, -, -, hnew⟩ |
    ⟨-, -, hnew⟩ | ⟨_, _, -, -, -, hnew⟩
  all_goals rw [hnew] at hm
  · cases hm
  · rcases List.mem_append.mp hm with hm | hm
    · exact .inr (hend (by decide) hm)
    · obtain ⟨rfl, rfl⟩ := Prod.mk.inj (List.mem_singleton.mp hm)
      exact .inl ⟨rfl, rfl⟩
  · obtain ⟨rfl, rfl⟩ := Prod.mk.inj (List.mem_singleton.mp hm)
    exact .inr ⟨p, hp, rfl, by decide⟩
  · exact .inr (hend (by decide) hm)
  · exact .inr (hend (by decide) hm)

/-- The plan held after a step is the one held before or the new one. -/
theorem step_held {ctx : Ctx} {s : Obss} (h : s.Owns ctx) {ev : Event} {p : PlanPtr}
    (hp : (step ctx ev s).1.plan = some p) : s.plan = some p ∨ p.addr = ctx.fresh := by
  rcases step_marks h ev with ⟨-, hv, -⟩ | ⟨plan, -, hnew, -⟩ | ⟨q, -, hq, -, hq', -⟩ |
    ⟨-, hnone, -⟩ | ⟨_, _, -, -, hnone, -⟩
  · obtain ⟨hplan, -⟩ := Prod.mk.inj hv
    exact .inl (hplan ▸ hp)
  · obtain rfl : ⟨ctx.fresh, plan⟩ = p := Option.some.inj (hnew.symm.trans hp)
    exact .inr rfl
  · exact .inl (hq.trans (hq'.symm.trans hp))
  · rw [hnone] at hp; cases hp
  · rw [hnone] at hp; cases hp

theorem opensFresh_endMarks {ms : List (ℕ × Mark)} (h : Life.OpensFresh ms) (s : Obss) {m : Mark}
    (hm : m ≠ .opened) : Life.OpensFresh (ms ++ s.endMarks m) := by
  unfold endMarks
  cases s.plan with
  | none => simpa using h
  | some p => exact h.append_singleton fun he => absurd he hm

theorem planInv_next {posix : PosixTime} {c : Config Solo Act} (h : PlanInv c) (i : Input) :
    PlanInv ((solo posix).next c i) := by
  have hown := owns posix c.state i
  refine ⟨?_, ?_, ?_, ?_⟩
  · rw [solo_next_hist, planMarks_append, Life.runs_append, h.runs]
    exact step_life hown i.ev
  · intro m hm
    rw [solo_next_hist, planMarks_append, List.mem_append] at hm
    rw [solo_next_fresh]
    rcases hm with hm | hm
    · exact Nat.lt_succ_of_lt (h.old_mark m hm)
    · rcases step_mark hown hm with ⟨hm, -⟩ | ⟨p, hp, hm, -⟩
      · exact hm ▸ Nat.lt_succ_self _
      · exact hm ▸ Nat.lt_succ_of_lt (h.old_plan p hp)
  · intro p hp
    rw [solo_next_fresh]
    rcases step_held hown hp with hp | hp
    · exact Nat.lt_succ_of_lt (h.old_plan p hp)
    · exact hp ▸ Nat.lt_succ_self _
  · rw [solo_next_hist, planMarks_append]
    rcases step_marks hown i.ev with ⟨-, -, hm⟩ | ⟨plan, -, -, -, hm⟩ | ⟨p, -, -, -, -, -, hm⟩ |
      ⟨-, -, hm⟩ | ⟨_, _, -, -, -, hm⟩
    · rw [hm, List.append_nil]
      exact h.opens
    · rw [hm, ← List.append_assoc]
      refine (opensFresh_endMarks h.opens _ (by decide)).append_singleton ?_
      -- the address of the new plan is larger than any seen
      intro _ m hmem
      rcases List.mem_append.mp hmem with hmem | hmem
      · exact absurd (h.old_mark _ hmem) (Nat.lt_irrefl _)
      · obtain ⟨p, hp, hx⟩ := List.mem_map.mp hmem
        have hlt := h.old_plan p (by simpa using hp)
        rw [(Prod.mk.inj hx).1] at hlt
        exact absurd hlt (Nat.lt_irrefl _)
    · rw [hm]
      exact h.opens.append_singleton fun he => by cases he
    · rw [hm]
      exact opensFresh_endMarks h.opens _ (by decide)
    · rw [hm]
      exact opensFresh_endMarks h.opens _ (by decide)

/-- The strict automaton has read the history. -/
def StrictLife (c : Config Solo Act) : Prop :=
  Life.runs false .idle (planMarks c.hist) = some c.state.obss.life

theorem strictLife_next_iff {posix : PosixTime} {c : Config Solo Act} (h : StrictLife c)
    (i : Input) : StrictLife ((solo posix).next c i) ↔
      ¬ EarlyOver (c.state.ctx posix i) c.state.obss i.ev := by
  unfold StrictLife
  rw [solo_next_hist, planMarks_append, Life.runs_append, h, Option.bind_some]
  exact step_life_strict (owns posix c.state i) i.ev

/-- In a run of a system with its plans to itself a plan is reported over only
after it has been reported running, if and only if no camera report ends a plan
that still waits. -/
theorem overAfterRunning_iff_no_early_over (posix : PosixTime) (gid uid : Text) (type : ObssType)
    (now : Time) (is : List Input) :
    (solo posix).Always (fun c => OverAfterRunning c.hist) (start gid uid type now) is ↔
      (solo posix).Each (fun c i => ¬ EarlyOver (c.state.ctx posix i) c.state.obss i.ev)
        (start gid uid type now) is := by
  have hinv : (solo posix).Always PlanInv (start gid uid type now) is :=
    Machine.always_of_invariant (planInv_start gid uid type now) fun _ i h => planInv_next h i
  calc (solo posix).Always (fun c => OverAfterRunning c.hist) (start gid uid type now) is
    _ ↔ (solo posix).Always StrictLife (start gid uid type now) is :=
        Machine.always_congr hinv fun c h => overAfterRunning_iff.trans
          (Life.strict_iff_finishedStarted h.opens h.runs).symm
    _ ↔ _ := Machine.always_iff_each hinv.each rfl fun c i _ h => strictLife_next_iff h i

/-- The cameras of one plan are exposing when the next plan arrives. The first
report that they have stopped ends the second plan, which was never started. -/
def overtakenPlan : List Input :=
  [Event.coupleMount 1, .coupleCamera 2 "001".toList, .notifyPlan {}, .obsplanTick,
    .deviceLine 2 (.camera { cid := "001".toList, state := some camctlExposing }),
    .notifyPlan {},
    .deviceLine 2 (.camera { cid := "001".toList, state := some camctlIdle })].map Event.plain

theorem not_overAfterRunning : ¬ ∀ (posix : PosixTime) (gid uid : Text) (type : ObssType)
    (now : Time) (is : List Input),
    (solo posix).Always (fun c => OverAfterRunning c.hist) (start gid uid type now) is := by
  intro h
  have hrun := (h .blank "001".toList "001".toList .gwac 0 overtakenPlan).exec
  have hmarks : planMarks ((solo .blank).exec (start "001".toList "001".toList .gwac 0)
      overtakenPlan).hist =
      [(2, .opened), (2, .started), (2, .dropped), (5, .opened)] ++ (5, .finished) :: [] := by
    decide +kernel
  have hstarted := overAfterRunning_iff.mp hrun _ _ _ hmarks
  exact absurd hstarted (by decide)

end Solo

end Gtoaes
