import Gtoaes.Obss.PlanLife

/-!
The plan a system holds against the status record it keeps and publishes. Every
handler that writes the record publishes it, so the record is always the one
published last. That it speaks of the plan held is an invariant from the first
accepted plan on; before that the record's state is whatever memory
`new KVPlan` was given.
-/

namespace Gtoaes

open Lib Lib.Handler

/-- A status record as it is published. -/
def planRecord : Act → Option KVPlan
  | .plan _ st => some st
  | _ => none

theorem states_published (acts : List Act) :
    (acts.filterMap planRecord).map (·.state) = (planStatuses acts).map Prod.snd := by
  rw [planStatuses, List.map_filterMap, List.map_filterMap]
  congr 1
  ext act : 1
  cases act <;> rfl

namespace Obss

/-- Publishes the status record as often as it writes it. -/
abbrev Announces (h : Handler Obss Act) : Prop := Mirrors planState planRecord h

/-- Where no status is published there is no record either. -/
theorem records_eq_nil {acts : List Act} (h : planStatuses acts = []) :
    acts.filterMap planRecord = [] := by
  apply List.filterMap_eq_nil_iff.mpr
  intro act hact
  have hnone := List.filterMap_eq_nil_iff.mp h act hact
  cases act with
  | plan addr st => cases hnone
  | _ => rfl

theorem PlanInert.silent {h : Handler Obss Act} (hh : PlanInert h) :
    Inert planView planRecord h := fun s => ⟨(hh s).1, records_eq_nil (hh s).2⟩

theorem PlanInert.announces {h : Handler Obss Act} (hh : PlanInert h) : Announces h :=
  Inert.mirrors fun s => ⟨congrArg Prod.snd (hh s).1, (hh.silent s).2⟩

theorem announces_camera (proto : KVMsg) (cid : Text) : Announces (write2camera proto cid) :=
  (Quiet.planInert (quiet_camera proto cid)).announces

theorem announces_pointing (ctx : Ctx) (req : Request)
    (encode : NonKVProtocol → Time → NonKVFrame × NonKVProtocol) (line : Option KVMsg)
    (ra dec : Double) : Announces (all [mountCommand ctx req encode line, setTarget ra dec]) :=
  (Quiet.planInert (quiet_pointing mute_core ctx req encode line ra dec)).announces

theorem announces_closePlan (ctx : Ctx) (code : ℤ) : Announces (closePlan ctx code) := by
  intro s
  unfold closePlan
  split <;> rfl

theorem announces_abort (ctx : Ctx) : Announces (abort ctx) :=
  .cons (.when (announces_pointing _ _ _ _ _ _))
    (.cons (.when (announces_camera _ _)) (.cons (.when (announces_closePlan _ _)) .nil))

theorem announces_park (ctx : Ctx) : Announces (park ctx) :=
  .cons (.when (announces_pointing _ _ _ _ _ _))
    (.cons (.when (announces_camera _ _)) (.cons (.when (announces_closePlan _ _)) .nil))

theorem announces_notifyPlan (ctx : Ctx) (p : PlanPtr) : Announces (notifyPlan ctx p) := by
  intro s
  unfold notifyPlan
  split
  · rfl
  · have hstore : Announces (storePlan ctx p) := fun _ => rfl
    exact Mirrors.cons (.when (announces_abort ctx)) (.cons hstore .nil) s

theorem announces_checkCameraState (ctx : Ctx) (new old : ℤ) :
    Announces (checkCameraState ctx new old) := by
  have hcount : ∀ f, Announces (setSysState f) := fun f => (planInert_setSysState f).announces
  have hreslew : Announces (emit fun _ => [.flatReslew]) := fun _ => rfl
  unfold checkCameraState
  split
  · exact .nil
  · split
    · exact .cons (hcount _) (.cons (.when (announces_closePlan _ _)) .nil)
    · split
      · exact hcount _
      · split
        · exact .cons (hcount _) (.cons (.when hreslew) .nil)
        · split
          · exact hcount _
          · exact .nil

theorem announces_processNewPlan (ctx : Ctx) (p : PlanPtr) : Announces (processNewPlan ctx p) := by
  intro s
  have hpublish : Announces (publishRunning ctx p) := fun _ => rfl
  exact Mirrors.cons (.when (announces_pointing _ _ _ _ _ _)) (.cons (announces_camera _ _)
    (.cons (.when (announces_camera _ _)) (.cons hpublish .nil))) s

theorem announces_threadObsplan (ctx : Ctx) : Announces (threadObsplan ctx) := by
  intro s
  unfold threadObsplan
  split
  · rfl
  · rename_i p _
    split
    · rfl
    · split
      · have htmend : Announces (setTmend ctx p.plan) := fun _ => rfl
        exact Mirrors.when (.cons (announces_processNewPlan ctx p) (.cons htmend .nil)) s
      · split
        · exact Mirrors.when (announces_abort ctx) s
        · rfl

/-- Whatever happens, the record is the one published last. -/
theorem announces_step (ctx : Ctx) (ev : Event) : Announces (step ctx ev) := by
  cases ev with
  | notifyPlan plan => exact announces_notifyPlan ctx _
  | abort => exact announces_abort ctx
  | park => exact announces_park ctx
  | obsplanTick => exact announces_threadObsplan ctx
  | deviceLine conn proto =>
      intro s
      cases proto with
      | camera m =>
          have hstore : Announces (storeReport conn (camReport ctx m)) :=
            (planInert_updateCamera _ _).announces
          exact Mirrors.cons hstore (.cons (announces_checkCameraState ctx _ _) .nil) s
      | _ => rfl
  | coupleCamera conn cid => exact (planInert_coupleCamera ctx conn cid).announces
  | onTcpClose conn peer => exact (planInert_onTcpClose ctx conn peer).announces
  | _ => exact (Quiet.planInert (quiet_step_core ctx rfl)).announces

/-! ### What a step does to the record and the plan -/

theorem getLastD_map {α β : Type} (f : α → β) (l : List α) (a : α) :
    (l.map f).getLastD (f a) = f (l.getLastD a) := by
  induction l generalizing a with
  | nil => rfl
  | cons b l ih => rw [List.map_cons, List.getLastD_cons, List.getLastD_cons, ih]

theorem step_state (ctx : Ctx) (ev : Event) (s : Obss) :
    (step ctx ev s).1.planState.state =
      ((planStatuses (step ctx ev s).2).map Prod.snd).getLastD s.planState.state := by
  rw [← states_published, getLastD_map (fun st : KVPlan => st.state), ← announces_step ctx ev s]

/-- Everything a step can do to the plan and its state: nothing, take in a new
plan, start the plan, have none to end, or end it. -/
theorem step_status {ctx : Ctx} {s : Obss} (h : s.Owns ctx) (ev : Event) :
    (step ctx ev s).1.planView = s.planView ∨
    (∃ plan, ev = .notifyPlan plan ∧ (step ctx ev s).1.plan.isSome = true ∧
      (step ctx ev s).1.planState.state = some obsplanCataloged) ∨
    (ev = .obsplanTick ∧ s.plan.isSome = true ∧ (step ctx ev s).1.plan.isSome = true ∧
      (step ctx ev s).1.planState.state = some obsplanRunning) ∨
    (s.plan = none ∧ (step ctx ev s).1.plan = none ∧
      (step ctx ev s).1.planState.state = s.planState.state) ∨
    (s.plan.isSome = true ∧ (step ctx ev s).1.plan = none ∧
      ∃ code, (code = obsplanInterrupted ∨ code = obsplanOver) ∧
        (step ctx ev s).1.planState.state = some code) := by
  -- the statuses of a plan that ends tell its state
  have hend : ∀ code, (step ctx ev s).1.plan = none →
      planStatuses (step ctx ev s).2 = s.lastWords code →
      (s.plan = none ∧ (step ctx ev s).1.plan = none ∧
        (step ctx ev s).1.planState.state = s.planState.state) ∨
      (s.plan.isSome = true ∧ (step ctx ev s).1.plan = none ∧
        (step ctx ev s).1.planState.state = some code) := by
    intro code hnone hwords
    have hstate := step_state ctx ev s
    rw [hwords, lastWords] at hstate
    cases hp : s.plan with
    | none =>
        rw [hp] at hstate
        exact .inl ⟨rfl, hnone, hstate⟩
    | some p =>
        rw [hp] at hstate
        exact .inr ⟨rfl, hnone, hstate⟩
  obtain ⟨-, hv, -⟩ | ⟨plan, rfl, hp, hst, -⟩ | ⟨p, rfl, hp, -, hp', hst, -⟩ | ⟨-, hnone, hwords⟩ |
    ⟨conn, m, rfl, -, hnone, hwords⟩ := step_plan h ev
  · exact .inl hv
  · exact .inr (.inl ⟨plan, rfl, by rw [hp]; rfl, hst⟩)
  · exact .inr (.inr (.inl ⟨rfl, by rw [hp]; rfl, by rw [hp']; rfl, hst⟩))
  · obtain hidle | ⟨hsome, hnone, hst⟩ := hend _ hnone hwords
    · exact .inr (.inr (.inr (.inl hidle)))
    · exact .inr (.inr (.inr (.inr ⟨hsome, hnone, _, .inl rfl, hst⟩)))
  · obtain hidle | ⟨hsome, hnone, hst⟩ := hend _ hnone hwords
    · exact .inr (.inr (.inr (.inl hidle)))
    · exact .inr (.inr (.inr (.inr ⟨hsome, hnone, _, .inr rfl, hst⟩)))

/-- The record has the number of the plan held. -/
def Labelled (s : Obss) : Prop := ∀ p, s.plan = some p → s.planState.planSn = p.plan.planSn

theorem Labelled.congr {s s' : Obss} (hv : s'.planView = s.planView) (hs : s.Labelled) :
    s'.Labelled := by
  obtain ⟨hp, hst⟩ := Prod.mk.inj hv
  intro p hplan
  rw [hst]
  exact hs p (hp ▸ hplan)

theorem labelled_of_none {s : Obss} (h : s.plan = none) : s.Labelled := by
  intro p hp
  rw [h] at hp
  cases hp

theorem labelled_notifyPlan (ctx : Ctx) (p : PlanPtr) : Keeps Labelled (notifyPlan ctx p) := by
  intro s hs
  unfold notifyPlan
  split
  · exact hs
  · intro q hq
    obtain rfl : p = q := Option.some.inj hq
    rfl

theorem labelled_processNewPlan (ctx : Ctx) {p : PlanPtr} {s : Obss} (hp : s.plan = some p) :
    (processNewPlan ctx p s).1.Labelled := by
  obtain ⟨s', hv, hstate, -⟩ := processNewPlan_eq ctx p s
  obtain ⟨hplan, -⟩ := Prod.mk.inj hv
  intro q hq
  rw [hstate] at hq ⊢
  have hsame : some p = some q := by rw [← hp, ← hplan]; exact hq
  obtain rfl : p = q := Option.some.inj hsame
  rfl

theorem labelled_threadObsplan {ctx : Ctx} {s : Obss} (h : s.Owns ctx) (hs : s.Labelled) :
    (threadObsplan ctx s).1.Labelled := by
  unfold threadObsplan
  split
  · exact hs
  · rename_i p hp
    split
    · exact hs
    · split
      · obtain ⟨-, heq⟩ | ⟨-, heq⟩ :=
          when_cases readyToRun (all [processNewPlan ctx p, setTmend ctx p.plan]) s
        · have htmend : PlanInert (setTmend ctx p.plan) := .update fun _ => rfl
          rw [heq, all_cons, all_cons, all_nil, skip_apply]
          exact Labelled.congr (htmend _).1 (labelled_processNewPlan ctx hp)
        · rwa [heq]
      · split
        · obtain ⟨-, heq⟩ | ⟨-, heq⟩ := when_cases (overdue ctx · p.plan) (abort ctx) s
          · rw [heq]
            exact labelled_of_none (abort_spec h).1
          · rwa [heq]
        · exact hs

theorem labelled_step {ctx : Ctx} {s : Obss} (h : s.Owns ctx) (ev : Event) (hs : s.Labelled) :
    (step ctx ev s).1.Labelled := by
  obtain hv | ⟨plan, rfl, -⟩ | ⟨rfl, -⟩ | ⟨-, hnone, -⟩ | ⟨-, hnone, -⟩ := step_status h ev
  · exact hs.congr hv
  · exact labelled_notifyPlan ctx _ s hs
  · exact labelled_threadObsplan h hs
  · exact labelled_of_none hnone
  · exact labelled_of_none hnone

/-- A state of the record that says there is a plan. -/
def InHand (state : ℤ) : Prop := state = obsplanCataloged ∨ state = obsplanRunning

instance (state : ℤ) : Decidable (InHand state) := inferInstanceAs (Decidable (_ ∨ _))

/-- The record is about the plan held, as far as it has been written. -/
structure Settled (s : Obss) : Prop where
  held : s.plan.isSome = true ↔ ∃ state, s.planState.state = some state ∧ InHand state
  labelled : s.Labelled

theorem settled_step {ctx : Ctx} {s : Obss} (h : s.Owns ctx) (ev : Event) (hs : s.Settled) :
    (step ctx ev s).1.Settled := by
  refine ⟨?_, labelled_step h ev hs.labelled⟩
  obtain hv | ⟨plan, -, hp, hst⟩ | ⟨-, -, hp, hst⟩ | ⟨hp, hp', hst⟩ | ⟨-, hp, code, hcode, hst⟩ :=
    step_status h ev
  · obtain ⟨hp, hst⟩ := Prod.mk.inj hv
    rw [hp, hst]
    exact hs.held
  · exact iff_of_true hp ⟨_, hst, .inl rfl⟩
  · exact iff_of_true hp ⟨_, hst, .inr rfl⟩
  · rw [hp', hst, ← hp]
    exact hs.held
  · rw [hp, hst]
    refine iff_of_false (by decide) ?_
    rintro ⟨_, ⟨⟩, hin⟩
    obtain rfl | rfl := hcode <;> exact absurd hin (by decide)

/-- The record, once written, stays so. -/
theorem written_step {ctx : Ctx} {s : Obss} (h : s.Owns ctx) (ev : Event)
    (hs : s.planState.state ≠ none) : (step ctx ev s).1.planState.state ≠ none := by
  obtain hv | ⟨plan, -, -, hst⟩ | ⟨-, -, -, hst⟩ | ⟨-, -, hst⟩ | ⟨-, -, code, -, hst⟩ :=
    step_status h ev
  · rwa [(Prod.mk.inj hv).2]
  · simp [hst]
  · simp [hst]
  · rwa [hst]
  · simp [hst]

/-- Only a new plan has the record written for the first time. -/
theorem unwritten_step {ctx : Ctx} {s : Obss} (h : s.Owns ctx) {ev : Event}
    (hev : ∀ plan, ev ≠ .notifyPlan plan) (hp : s.plan = none) :
    (step ctx ev s).1.planState.state = s.planState.state ∧ (step ctx ev s).1.plan = none := by
  obtain hv | ⟨plan, he, -⟩ | ⟨-, hsome, -⟩ | ⟨-, hp', hst⟩ | ⟨hsome, -⟩ := step_status h ev
  · obtain ⟨hp', hst⟩ := Prod.mk.inj hv
    exact ⟨by rw [hst], hp'.trans hp⟩
  · exact absurd he (hev plan)
  · rw [hp] at hsome
    cases hsome
  · exact ⟨hst, hp'⟩
  · rw [hp] at hsome
    cases hsome

end Obss

/-! ### Runs -/

def Event.isPlan : Event → Bool
  | .notifyPlan _ => true
  | _ => false

theorem Event.exists_of_isPlan {ev : Event} (h : ev.isPlan = true) :
    ∃ plan, ev = .notifyPlan plan := by
  cases ev with
  | notifyPlan plan => exact ⟨plan, rfl⟩
  | _ => cases h

/-- What a client is told about the plan is true. The state of a record that has
not been written is `unwritten`, whatever memory it got. -/
structure PlanAgrees (unwritten : ℤ) (c : Config Solo Act) : Prop where
  held : c.state.obss.plan.isSome = true ↔
    Obss.InHand (c.state.obss.planState.state.getD unwritten)
  labelled : c.state.obss.Labelled
  published : ∀ st, (c.hist.filterMap planRecord).getLast? = some st →
    st.planSn = c.state.obss.planState.planSn ∧ st.state = c.state.obss.planState.state

/-- The record and the plan in a run. -/
structure PlanBooks (c : Config Solo Act) : Prop where
  settled : c.state.obss.Settled
  mirrored : ∃ st, c.state.obss.planState = (c.hist.filterMap planRecord).getLastD st

section Solo

variable {posix : PosixTime}

theorem solo_owns (posix : PosixTime) (s : Solo) (i : Input) : s.obss.Owns (s.ctx posix i) :=
  fun _ _ => rfl

theorem planBooks_next {c : Config Solo Act} (i : Input) (h : PlanBooks c) :
    PlanBooks ((solo posix).next c i) := by
  refine ⟨Obss.settled_step (solo_owns posix _ i) i.ev h.settled, ?_⟩
  obtain ⟨st, hst⟩ := h.mirrored
  refine ⟨st, ?_⟩
  rw [solo_next_obss, solo_next_hist, List.filterMap_append, Handler.getLastD_append, ← hst]
  exact Obss.announces_step _ i.ev c.state.obss

theorem PlanBooks.published {c : Config Solo Act} (h : PlanBooks c) (st : KVPlan)
    (hlast : (c.hist.filterMap planRecord).getLast? = some st) :
    st.planSn = c.state.obss.planState.planSn ∧ st.state = c.state.obss.planState.state := by
  obtain ⟨st₀, hst⟩ := h.mirrored
  rw [List.getLastD_eq_getLast?, hlast] at hst
  rw [hst]
  exact ⟨rfl, rfl⟩

theorem PlanBooks.agrees {c : Config Solo Act} (h : PlanBooks c) {unwritten : ℤ}
    (hwritten : c.state.obss.planState.state ≠ none ∨ ¬ Obss.InHand unwritten) :
    PlanAgrees unwritten c := by
  refine ⟨?_, h.settled.labelled, h.published⟩
  rw [h.settled.held]
  cases hst : c.state.obss.planState.state with
  | none =>
      have hidle : ¬ Obss.InHand unwritten := hwritten.resolve_left fun hne => hne hst
      refine iff_of_false ?_ hidle
      rintro ⟨_, ⟨⟩, -⟩
  | some state =>
      constructor
      · rintro ⟨_, ⟨⟩, hin⟩
        exact hin
      · exact fun hin => ⟨state, rfl, hin⟩

theorem planBooks_start (gid uid : Text) (type : ObssType) (now : Time) :
    PlanBooks (Solo.start gid uid type now) := by
  refine ⟨⟨iff_of_false Bool.false_ne_true ?_, Obss.labelled_of_none rfl⟩, _, rfl⟩
  rintro ⟨_, ⟨⟩, -⟩

end Solo

/-- From the first plan on, what is told about the plan is true in every state of
a run, if and only if the memory of the unwritten record does not look like a
plan in hand, or no camera is counted as exposing when the first plan comes. -/
theorem planAgrees_iff_firstAccepted (posix : PosixTime) (gid uid : Text) (type : ObssType)
    (now : Time) (unwritten : ℤ) (is : List Input) :
    (solo posix).After (·.ev.isPlan) (PlanAgrees unwritten) (Solo.start gid uid type now) is ↔
      ¬ Obss.InHand unwritten ∨ (solo posix).First (·.ev.isPlan)
        (fun c _ => c.state.obss.sysState.exposing = 0) (Solo.start gid uid type now) is := by
  by_cases hin : Obss.InHand unwritten
  · rw [or_iff_right (not_not_intro hin)]
    refine Machine.after_iff_first
      (L := fun c => PlanBooks c ∧ c.state.obss.plan = none ∧ c.state.obss.planState.state = none)
      (K := fun c => PlanBooks c ∧ c.state.obss.planState.state ≠ none)
      ⟨planBooks_start gid uid type now, rfl, rfl⟩ ?_ ?_ ?_ ?_ fun c h => h.1.agrees (.inl h.2)
    · rintro c i ⟨hbooks, hp, hst⟩ hev
      have hother : ∀ plan, i.ev ≠ .notifyPlan plan := by
        rintro plan he
        rw [he] at hev
        cases hev
      obtain ⟨hst', hp'⟩ := Obss.unwritten_step (solo_owns posix c.state i) hother hp
      exact ⟨planBooks_next i hbooks, hp', hst'.trans hst⟩
    · rintro c i ⟨hbooks, hp, -⟩ hev hexp
      refine ⟨planBooks_next i hbooks, ?_⟩
      obtain ⟨plan, he⟩ := Event.exists_of_isPlan hev
      rw [solo_next_obss, he]
      obtain ⟨hreject, -⟩ | ⟨-, -, hst, -⟩ := Obss.notifyPlan_spec
        (solo_owns posix c.state i) ⟨(c.state.ctx posix i).fresh, plan⟩
      · simp [Obss.rejectsPlan, SystemState.anyExposing, hexp] at hreject
      · exact fun hnone => Option.some_ne_none _ (hst.symm.trans hnone)
    · -- a plan turned away leaves the memory as it was, and no plan
      rintro c i ⟨-, hp, hst⟩ hev hexp hagrees
      obtain ⟨plan, he⟩ := Event.exists_of_isPlan hev
      have hreject : c.state.obss.rejectsPlan (c.state.ctx posix i) = true := by
        simp [Obss.rejectsPlan, Obss.unique, hp, SystemState.anyExposing, hexp]
      have hsame : ((solo posix).next c i).state.obss = c.state.obss := by
        rw [solo_next_obss, he]
        show (Obss.notifyPlan _ _ _).1 = _
        rw [Obss.notifyPlan, if_pos hreject]
      have hheld := hagrees.held
      rw [hsame, hp, hst] at hheld
      exact Bool.false_ne_true (hheld.mpr hin)
    · rintro c i ⟨hbooks, hwritten⟩
      exact ⟨planBooks_next i hbooks, Obss.written_step (solo_owns posix c.state i) i.ev hwritten⟩
  · refine iff_of_true (Machine.Always.after ?_ _) (.inl hin)
    exact (Machine.always_of_invariant (planBooks_start gid uid type now)
      fun c i => planBooks_next i).mono fun c h => h.agrees (.inr hin)

/-- A camera exposes for a `take_image` when the first plan comes. -/
def manualExposure : List Input :=
  [Event.plain (.coupleCamera 1 "001".toList),
    Event.plain (.deviceLine 1 (.camera { state := some 2 })),
    Event.plain (.notifyPlan { planSn := "P1".toList })]

/-- The plan is turned away, and a client that asks for the plan number that no
plan has is told of a cataloged plan. -/
theorem not_planAgrees : ¬ (solo .blank).After (·.ev.isPlan) (PlanAgrees obsplanCataloged)
    (Solo.start "001".toList "002".toList .gwac 0) manualExposure := by
  intro h
  have hlast : PlanAgrees obsplanCataloged
      ((solo .blank).exec (Solo.start "001".toList "002".toList .gwac 0) manualExposure) := h
  exact absurd (hlast.held.mpr (by decide)) (by decide)

end Gtoaes
