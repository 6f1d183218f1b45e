import Gtoaes.Obss.PlanStatus

/-!
The times in a plan status. There is one record for all plans: taking in a plan
writes its number and state, starting it the start time, ending it the stop time,
and no handler wipes a time that an earlier plan left. The record is right as
long as it is about the first plan.
-/

namespace Gtoaes

open Lib Lib.Handler

namespace Obss

/-! ### What a step does to the record -/

/-- The same to the plan, its record and what is published of it. -/
abbrev PlanAgree (r r' : Obss × List Act) : Prop := Agree planView planRecord r r'

abbrev PlanFactors (h : Handler Obss Act) : Prop := Factors planView planRecord h

theorem unique_congr {s s' : Obss} (ctx : Ctx) (h : s.planView = s'.planView) :
    s.unique ctx = s'.unique ctx := by
  obtain ⟨hp, -⟩ := Prod.mk.inj h
  rw [unique, unique, hp]

theorem factors_closePlan (ctx : Ctx) (code : ℤ) :
    PlanFactors (when (unique ctx) (closePlan ctx code)) := by
  refine .when (fun s s' => unique_congr ctx) fun s s' h => ?_
  obtain ⟨hp, hst⟩ := Prod.mk.inj h
  rw [closePlan, closePlan, hp, hst]
  cases hp' : s'.plan with
  | none => exact ⟨h, rfl⟩
  | some p => exact ⟨rfl, rfl⟩

theorem factors_storePlan (ctx : Ctx) (p : PlanPtr) : PlanFactors (storePlan ctx p) := by
  intro s s' h
  obtain ⟨-, hst⟩ := Prod.mk.inj h
  rw [storePlan, storePlan, hst]
  exact ⟨rfl, rfl⟩

theorem factors_publishRunning (ctx : Ctx) (p : PlanPtr) : PlanFactors (publishRunning ctx p) := by
  intro s s' h
  obtain ⟨hp, hst⟩ := Prod.mk.inj h
  rw [publishRunning, publishRunning, hst]
  exact ⟨congrArg (·, _) hp, rfl⟩

/-- Behind handlers that leave the plan alone, a plan ends as on its own. -/
theorem agree_closing (ctx : Ctx) (code : ℤ) (hs : List (Handler Obss Act))
    (hhs : PlanInert (all hs)) (s : Obss) :
    PlanAgree (all (hs ++ [when (unique ctx) (closePlan ctx code)]) s)
      (when (unique ctx) (closePlan ctx code) s) :=
  hhs.silent.agree_last (factors_closePlan ctx code) s

theorem agree_abort (ctx : Ctx) (s : Obss) :
    PlanAgree (abort ctx s) (when (unique ctx) (closePlan ctx obsplanInterrupted) s) :=
  agree_closing ctx _ [_, _] (planInert_halt ctx _ _ _ _ _ _ _) s

theorem agree_park (ctx : Ctx) (s : Obss) :
    PlanAgree (park ctx s) (when (unique ctx) (closePlan ctx obsplanInterrupted) s) :=
  agree_closing ctx _ [_, _] (planInert_halt ctx _ _ _ _ _ _ _) s

theorem agree_camera {ctx : Ctx} {s : Obss} {conn : Conn} {m : KVCamera}
    (h : LastStop ctx s conn m) : PlanAgree (processProtocolCamera ctx conn (.camera m) s)
      (when (unique ctx) (closePlan ctx obsplanOver) s) := by
  rw [camera_lastStop h]
  exact agree_closing ctx _ [_, _]
    (.cons (planInert_updateCamera _ _) (.cons (planInert_setSysState _) .nil)) s

/-- The plan held is ended where there is one, then the new one is kept. -/
theorem agree_notifyPlan {ctx : Ctx} {s : Obss} (p : PlanPtr) (hr : s.rejectsPlan ctx = false) :
    PlanAgree (notifyPlan ctx p s)
      ((when (unique ctx) (closePlan ctx obsplanInterrupted)).andThen (storePlan ctx p) s) := by
  have habort : PlanAgree (when (unique ctx) (abort ctx) s)
      (when (unique ctx) (closePlan ctx obsplanInterrupted) s) := by
    cases hu : s.unique ctx with
    | true =>
        have hclose := agree_abort ctx s
        rw [when_true hu] at hclose ⊢
        rwa [when_true hu]
    | false =>
        rw [when_false hu, when_false hu]
        exact .refl _
  rw [notifyPlan, if_neg (by simp [hr]), all_pair]
  exact habort.andThen (factors_storePlan ctx p)

theorem agree_processNewPlan (ctx : Ctx) (p : PlanPtr) (s : Obss) :
    PlanAgree (processNewPlan ctx p s) (publishRunning ctx p s) := by
  obtain ⟨hs, hinert, heq⟩ := processNewPlan_split ctx p s
  rw [heq]
  exact hinert.silent.agree_last (factors_publishRunning ctx p) s

/-- A plan that waits is started and nothing else is done, or a plan is ended. -/
theorem agree_threadObsplan {ctx : Ctx} {s : Obss} (h : s.Owns ctx) :
    PlanAgree (threadObsplan ctx s) (s, []) ∨
    (∃ p, s.plan = some p ∧ s.planState.state = some obsplanCataloged ∧
      PlanAgree (threadObsplan ctx s) (publishRunning ctx p s)) ∨
    PlanAgree (threadObsplan ctx s) (when (unique ctx) (closePlan ctx obsplanInterrupted) s) := by
  unfold threadObsplan
  split
  · exact .inl (.refl _)
  · rename_i p hp
    rw [if_neg (by simp [h p hp])]
    split
    · rename_i hcat
      obtain ⟨-, heq⟩ | ⟨-, heq⟩ :=
        when_cases readyToRun (all [processNewPlan ctx p, setTmend ctx p.plan]) s
      · -- the end is noted after the start is published, and is no part of the record
        have htmend : PlanInert (setTmend ctx p.plan) := .update fun _ => rfl
        refine .inr (.inl ⟨p, hp, hcat, ?_⟩)
        rw [heq, all_pair]
        exact (htmend.silent.agree_first _ s).trans (agree_processNewPlan ctx p s)
      · exact .inl (heq ▸ .refl _)
    · split
      · obtain ⟨-, heq⟩ | ⟨-, heq⟩ := when_cases (overdue ctx · p.plan) (abort ctx) s
        · exact .inr (.inr (heq ▸ agree_abort ctx s))
        · exact .inl (heq ▸ .refl _)
      · exact .inl (.refl _)

/-- Everything a step can do to the plan, its record and what is published: nothing,
take in a new plan, start the plan that waits, or end the plan. -/
inductive PlanMove (ctx : Ctx) (s : Obss) (r : Obss × List Act) : Event → Prop
  | stays {ev : Event} (hev : ∀ plan, ev = .notifyPlan plan → s.rejectsPlan ctx = true)
      (h : PlanAgree r (s, [])) : PlanMove ctx s r ev
  | stored (plan : KVAppPlan) (hr : s.rejectsPlan ctx = false)
      (h : PlanAgree r ((when (unique ctx) (closePlan ctx obsplanInterrupted)).andThen
        (storePlan ctx ⟨ctx.fresh, plan⟩) s)) : PlanMove ctx s r (.notifyPlan plan)
  | started (p : PlanPtr) (hp : s.plan = some p)
      (hcat : s.planState.state = some obsplanCataloged)
      (h : PlanAgree r (publishRunning ctx p s)) : PlanMove ctx s r .obsplanTick
  | ended {ev : Event} (hev : ∀ plan, ev ≠ .notifyPlan plan) (p : PlanPtr) (code : ℤ)
      (hp : s.plan = some p) (hcode : code = obsplanInterrupted ∨ code = obsplanOver)
      (h : PlanAgree r (closePlan ctx code s)) : PlanMove ctx s r ev

/-- A plan ends, where there is one. -/
theorem PlanMove.of_closing {ctx : Ctx} {s : Obss} (hs : s.Owns ctx) {r : Obss × List Act}
    {ev : Event} {code : ℤ} (hcode : code = obsplanInterrupted ∨ code = obsplanOver)
    (hev : ∀ plan, ev ≠ .notifyPlan plan)
    (h : PlanAgree r (when (unique ctx) (closePlan ctx code) s)) : PlanMove ctx s r ev := by
  cases hp : s.plan with
  | none =>
      rw [when_false (by rw [hs.unique, hp]; rfl)] at h
      exact .stays (fun plan he => absurd he (hev plan)) h
  | some p =>
      rw [when_true (by rw [hs.unique, hp]; rfl)] at h
      exact .ended hev p code hp hcode h

theorem PlanMove.of_inert {ctx : Ctx} {s : Obss} {h : Handler Obss Act} {ev : Event}
    (hev : ∀ plan, ev ≠ .notifyPlan plan) (hh : PlanInert h) : PlanMove ctx s (h s) ev :=
  .stays (fun plan he => absurd he (hev plan)) (hh.silent.agree s)

theorem step_planMove {ctx : Ctx} {s : Obss} (h : s.Owns ctx) (ev : Event) :
    PlanMove ctx s (step ctx ev s) ev := by
  -- six events may move the plan; the round of the thread both starts and ends one
  cases ev with
  | notifyPlan plan =>
      cases hr : s.rejectsPlan ctx with
      | true =>
          refine .stays (fun _ _ => hr) ?_
          rw [step, notifyPlan, if_pos hr]
          exact .refl _
      | false => exact .stored plan hr (agree_notifyPlan _ hr)
  | abort => exact .of_closing h (.inl rfl) (by simp) (agree_abort ctx s)
  | park => exact .of_closing h (.inl rfl) (by simp) (agree_park ctx s)
  | obsplanTick =>
      obtain hnone | ⟨p, hp, hcat, hstart⟩ | hend := agree_threadObsplan h
      · exact .stays (by simp) hnone
      · exact .started p hp hcat hstart
      · exact .of_closing h (.inl rfl) (by simp) hend
  | deviceLine conn proto =>
      cases proto with
      | camera m =>
          obtain ⟨hstop, -⟩ | ⟨-, hv, hnone⟩ := camera_spec h conn m
          · exact .of_closing h (.inr rfl) (by simp) (agree_camera hstop)
          · exact .stays (by simp) ⟨hv, records_eq_nil hnone⟩
      | _ => exact .stays (by simp) (.refl _)
  | coupleCamera conn cid => exact .of_inert (by simp) (planInert_coupleCamera ctx conn cid)
  | onTcpClose conn peer => exact .of_inert (by simp) (planInert_onTcpClose ctx conn peer)
  | _ => exact .of_inert (by simp) (Quiet.planInert (quiet_step_core ctx rfl))

end Obss

/-! ### Runs -/

/-- A step of a run: the state it starts in, and its input. -/
abbrev SoloStep := Solo × Input

namespace SoloStep

def after (posix : PosixTime) (e : SoloStep) : Obss := ((solo posix).step e.1 e.2).1.obss

/-- The plan statuses that a step publishes. -/
def records (posix : PosixTime) (e : SoloStep) : List KVPlan :=
  ((solo posix).step e.1 e.2).2.filterMap planRecord

/-- The plan of number `sn` is started: it has been held, and now it runs. -/
def Starts (posix : PosixTime) (sn : Text) (e : SoloStep) : Prop :=
  ∃ p, p.plan.planSn = sn ∧ e.1.obss.plan = some p ∧
    e.1.obss.planState.state ≠ some obsplanRunning ∧ (e.after posix).plan = some p ∧
    (e.after posix).planState.state = some obsplanRunning

/-- The plan of number `sn` ends: it has been held, and now it is not. -/
def Ends (posix : PosixTime) (sn : Text) (e : SoloStep) : Prop :=
  ∃ p, p.plan.planSn = sn ∧ e.1.obss.plan = some p ∧ (e.after posix).plan ≠ some p

end SoloStep

/-- The times in a status are those of the plan it names, and none comes too early. -/
structure TrueTimes (posix : PosixTime) (hist : List SoloStep) (st : KVPlan) : Prop where
  start : st.tmStart ≠ [] → ∃ e ∈ hist, e.Starts posix st.planSn ∧
    st.tmStart = posix.toIsoExtendedString e.2.now
  stop : st.tmStop ≠ [] → ∃ e ∈ hist, e.Ends posix st.planSn ∧
    st.tmStop = posix.toIsoExtendedString e.2.now
  cataloged : st.state = some obsplanCataloged → st.tmStart = [] ∧ st.tmStop = []
  running : st.state = some obsplanRunning → st.tmStop = []

/-- So it is in every status published so far. -/
def TimesTrue (posix : PosixTime) (c : Config Solo SoloStep) : Prop :=
  ∀ e ∈ c.hist, ∀ st ∈ e.records posix, TrueTimes posix c.hist st

/-- A plan is taken in only while the record has never been written. -/
def FirstPlan (posix : PosixTime) (c : Config Solo SoloStep) (i : Input) : Prop :=
  i.ev.isPlan = true → c.state.obss.rejectsPlan (c.state.ctx posix i) = false →
    c.state.obss.planState.state = none

/-- The record as long as it is about the first plan. -/
structure RecordTrue (posix : PosixTime) (c : Config Solo SoloStep) : Prop where
  told : TimesTrue posix c
  settled : c.state.obss.Settled
  record : TrueTimes posix c.hist c.state.obss.planState
  unwritten : c.state.obss.planState.state = none →
    c.state.obss.planState.tmStart = [] ∧ c.state.obss.planState.tmStop = []
  ended : c.state.obss.plan = none → c.state.obss.planState.state ≠ none →
    c.state.obss.planState.tmStop ≠ []

section Solo

variable {posix : PosixTime}

theorem TrueTimes.mono {hist hist' : List SoloStep} {st : KVPlan} (h : TrueTimes posix hist st)
    (hsub : hist ⊆ hist') : TrueTimes posix hist' st := by
  refine ⟨fun hst => ?_, fun hst => ?_, h.cataloged, h.running⟩
  · obtain ⟨e, he, hstarts⟩ := h.start hst
    exact ⟨e, hsub he, hstarts⟩
  · obtain ⟨e, he, hends⟩ := h.stop hst
    exact ⟨e, hsub he, hends⟩

variable {c : Config Solo SoloStep} {i : Input}

/-- A step whose record, written and published as `r` has it, is true. -/
theorem RecordTrue.next_of_agree {r : Obss × List Act} (h : RecordTrue posix c)
    (hr : Obss.PlanAgree (Obss.step (c.state.ctx posix i) i.ev c.state.obss) r)
    (hrecords : ∀ st ∈ r.2.filterMap planRecord, st = r.1.planState)
    (htrue : TrueTimes posix (c.hist ++ [(c.state, i)]) r.1.planState)
    (hunwritten : r.1.planState.state = none →
      r.1.planState.tmStart = [] ∧ r.1.planState.tmStop = [])
    (hended : r.1.plan = none → r.1.planState.state ≠ none → r.1.planState.tmStop ≠ []) :
    RecordTrue posix ((solo posix).journal.next c i) := by
  obtain ⟨hv, hacts⟩ := hr
  obtain ⟨hplan, hst⟩ := Prod.mk.inj hv
  refine ⟨?_, Obss.settled_step (solo_owns posix c.state i) i.ev h.settled, ?_, ?_, ?_⟩
  · intro e he st hmem
    obtain he | he := List.mem_append.mp he
    · exact (h.told e he st hmem).mono (List.subset_append_left _ _)
    · obtain rfl := List.mem_singleton.mp he
      have hmem : st ∈ r.2.filterMap planRecord := by
        rw [← hacts]
        exact hmem
      rw [hrecords st hmem]
      exact htrue
  · exact hst ▸ htrue
  · exact hst ▸ hunwritten
  · exact hst ▸ hplan ▸ hended

/-- The first plan finds a record without times. -/
theorem recordTrue_stored (h : RecordTrue posix c) {p : PlanPtr}
    (hnone : c.state.obss.planState.state = none)
    (hr : Obss.PlanAgree (Obss.step (c.state.ctx posix i) i.ev c.state.obss)
      ((when (Obss.unique (c.state.ctx posix i))
        (Obss.closePlan (c.state.ctx posix i) obsplanInterrupted)).andThen
        (Obss.storePlan (c.state.ctx posix i) p) c.state.obss)) :
    RecordTrue posix ((solo posix).journal.next c i) := by
  -- the first plan: nothing is held, and both times are still empty
  have hplan : c.state.obss.plan = none := by
    cases hp : c.state.obss.plan with
    | none => rfl
    | some p =>
        obtain ⟨state, hst, -⟩ := h.settled.held.mp (by rw [hp]; rfl)
        rw [hnone] at hst
        cases hst
  obtain ⟨htmStart, htmStop⟩ := h.unwritten hnone
  rw [andThen_apply, when_false (by rw [(solo_owns posix _ i).unique, hplan]; rfl)] at hr
  apply h.next_of_agree hr
  · exact fun st hmem => List.mem_singleton.mp hmem
  · refine ⟨absurd htmStart, absurd htmStop, fun _ => ⟨htmStart, htmStop⟩, fun hrun => ?_⟩
    exact absurd (Option.some.inj hrun) (by decide)
  · intro hst
    cases hst
  · intro hplan'
    cases hplan'

/-- The start time is that of the plan held, and there is no stop time yet. -/
theorem recordTrue_started (h : RecordTrue posix c) {p : PlanPtr}
    (hp : c.state.obss.plan = some p)
    (hcat : c.state.obss.planState.state = some obsplanCataloged)
    (hr : Obss.PlanAgree (Obss.step (c.state.ctx posix i) i.ev c.state.obss)
      (Obss.publishRunning (c.state.ctx posix i) p c.state.obss)) :
    RecordTrue posix ((solo posix).journal.next c i) := by
  obtain ⟨-, htmStop⟩ := h.record.cataloged hcat
  have hstarts : SoloStep.Starts posix p.plan.planSn (c.state, i) := by
    obtain ⟨hplan', hst⟩ := Prod.mk.inj hr.1
    refine ⟨p, rfl, hp, ?_, hplan'.trans hp, congrArg KVPlan.state hst⟩
    rw [hcat]
    decide
  apply h.next_of_agree hr
  · exact fun st hmem => List.mem_singleton.mp hmem
  · refine ⟨fun _ => ⟨_, by simp, hstarts, rfl⟩, absurd htmStop, fun hcat => ?_, fun _ => htmStop⟩
    exact absurd (Option.some.inj hcat) (by decide)
  · intro hst
    cases hst
  · intro hplan
    exact absurd (hp.symm.trans hplan) (Option.some_ne_none p)

/-- The stop time is that of the plan held, whose start time stands. -/
theorem recordTrue_ended (hiso : ∀ t, posix.toIsoExtendedString t ≠ []) (h : RecordTrue posix c)
    {p : PlanPtr} {code : ℤ} (hp : c.state.obss.plan = some p)
    (hcode : code = obsplanInterrupted ∨ code = obsplanOver)
    (hr : Obss.PlanAgree (Obss.step (c.state.ctx posix i) i.ev c.state.obss)
      (Obss.closePlan (c.state.ctx posix i) code c.state.obss)) :
    RecordTrue posix ((solo posix).journal.next c i) := by
  rw [Obss.closePlan, hp] at hr
  -- this very step takes the plan away
  have hends : SoloStep.Ends posix c.state.obss.planState.planSn (c.state, i) := by
    obtain ⟨hplan', -⟩ := Prod.mk.inj hr.1
    refine ⟨p, (h.settled.labelled p hp).symm, hp, fun hsome => ?_⟩
    exact Option.some_ne_none p (hsome.symm.trans hplan')
  have hover : code ≠ obsplanCataloged ∧ code ≠ obsplanRunning := by
    obtain rfl | rfl := hcode <;> decide
  apply h.next_of_agree hr
  · exact fun st hmem => List.mem_singleton.mp hmem
  · refine ⟨(h.record.mono (List.subset_append_left _ _)).start, fun _ => ⟨_, by simp, hends, rfl⟩,
      fun hcat => ?_, fun hrun => ?_⟩
    · exact absurd (Option.some.inj hcat) hover.1
    · exact absurd (Option.some.inj hrun) hover.2
  · intro hst
    cases hst
  · exact fun _ _ => hiso _

theorem recordTrue_next (hiso : ∀ t, posix.toIsoExtendedString t ≠ []) (h : RecordTrue posix c)
    (hi : FirstPlan posix c i) : RecordTrue posix ((solo posix).journal.next c i) := by
  have hmove := Obss.step_planMove (solo_owns posix c.state i) i.ev
  generalize hev : i.ev = ev at hmove
  cases hmove with
  | stays _ hr =>
      refine h.next_of_agree (hev ▸ hr) (fun _ hmem => ?_)
        (h.record.mono (List.subset_append_left _ _)) h.unwritten h.ended
      cases hmem
  | stored plan hreject hr => exact recordTrue_stored h (hi (by rw [hev]; rfl) hreject) (hev ▸ hr)
  | started p hp hcat hr => exact recordTrue_started h hp hcat (hev ▸ hr)
  | ended _ p code hp hcode hr => exact recordTrue_ended hiso h hp hcode (hev ▸ hr)

/-- The record of a plan that has ended, or ends now, has a stop time. -/
theorem tmStop_closing (hiso : ∀ t, posix.toIsoExtendedString t ≠ []) (h : RecordTrue posix c)
    (hwritten : c.state.obss.planState.state ≠ none) (code : ℤ) :
    (when (Obss.unique (c.state.ctx posix i)) (Obss.closePlan (c.state.ctx posix i) code)
      c.state.obss).1.planState.tmStop ≠ [] := by
  have hu := (solo_owns posix c.state i).unique
  cases hp : c.state.obss.plan with
  | none =>
      rw [when_false (by rw [hu, hp]; rfl)]
      exact h.ended hp hwritten
  | some p =>
      rw [when_true (by rw [hu, hp]; rfl), Obss.closePlan, hp]
      exact hiso _

/-- A second plan is cataloged with the stop time of the one before it. -/
theorem not_timesTrue_next (hiso : ∀ t, posix.toIsoExtendedString t ≠ []) (h : RecordTrue posix c)
    (hi : ¬ FirstPlan posix c i) : ¬ TimesTrue posix ((solo posix).journal.next c i) := by
  intro htrue
  simp only [FirstPlan, not_forall] at hi
  obtain ⟨hplan, hreject, hwritten⟩ := hi
  obtain ⟨plan, hev⟩ := Event.exists_of_isPlan hplan
  set ctx := c.state.ctx posix i with hctx
  let close := when (Obss.unique ctx) (Obss.closePlan ctx obsplanInterrupted)
  have hr : Obss.PlanAgree (Obss.step ctx i.ev c.state.obss)
      (close.andThen (Obss.storePlan ctx ⟨ctx.fresh, plan⟩) c.state.obss) := by
    rw [hev]
    exact Obss.agree_notifyPlan _ hreject
  -- the last record of the step is the new plan's, over what the old one has left
  have hlast : (Obss.storePlan ctx ⟨ctx.fresh, plan⟩ (close c.state.obss).1).1.planState ∈
      SoloStep.records posix (c.state, i) := by
    rw [SoloStep.records, show ((solo posix).step c.state i).2.filterMap planRecord = _ from hr.2,
      andThen_apply, List.filterMap_append]
    exact List.mem_append_right _ (List.mem_singleton_self _)
  have hcataloged := (htrue (c.state, i) (List.mem_append_right _ (List.mem_singleton_self _)) _
    hlast).cataloged rfl
  exact tmStop_closing hiso h hwritten obsplanInterrupted hcataloged.2

end Solo

/-- A system before anything has happened, with no step written down. -/
def Solo.unwritten (gid uid : Text) (type : ObssType) (now : Time) : Config Solo SoloStep where
  state := (Solo.start gid uid type now).state
  hist := []

/-- The times in the plan statuses of a run are true if and only if at most one
plan is taken in. -/
theorem timesTrue_iff_firstPlan (posix : PosixTime) (hiso : ∀ t, posix.toIsoExtendedString t ≠ [])
    (gid uid : Text) (type : ObssType) (now : Time) (is : List Input) :
    (solo posix).journal.Always (TimesTrue posix) (Solo.unwritten gid uid type now) is ↔
      (solo posix).journal.Each (FirstPlan posix) (Solo.unwritten gid uid type now) is := by
  have hstart : RecordTrue posix (Solo.unwritten gid uid type now) := by
    refine ⟨by simp [TimesTrue, Solo.unwritten], (planBooks_start gid uid type now).settled,
      ⟨absurd rfl, absurd rfl, fun _ => ⟨rfl, rfl⟩, fun _ => rfl⟩, fun _ => ⟨rfl, rfl⟩,
      fun _ => absurd rfl⟩
  have hexact : ((solo posix).journal.Always (TimesTrue posix) _ is ∧
      (solo posix).journal.Each (fun _ _ => True) _ is) ↔ _ :=
    Machine.always_and_each_iff hstart (fun c h => h.told) (fun c i h => ?_)
      fun c i => recordTrue_next hiso
  · rwa [and_iff_left Machine.each_true] at hexact
  · rw [and_true]
    refine ⟨fun htrue => ?_, fun hi => (recordTrue_next hiso h hi).told⟩
    by_contra hi
    exact not_timesTrue_next hiso h hi htrue

/-- A clock whose time 0 is 1970. -/
def PosixTime.epoch : PosixTime where
  toIsoExtendedString _ := "1970-01-01T00:00:00".toList
  fromIsoExtendedString _ := none
  date _ := (1970, 1, 1)

/-- A plan is aborted. -/
def planAborted : List Input :=
  [Event.plain (.notifyPlan { planSn := "P1".toList }), Event.plain .abort]

theorem timesTrue_planAborted : (solo .epoch).journal.Always (TimesTrue .epoch)
    (Solo.unwritten "001".toList "002".toList .gwac 0) planAborted :=
  (timesTrue_iff_firstPlan .epoch (fun _ => (by decide : "1970-01-01T00:00:00".toList ≠ []))
    _ _ _ _ _).mpr ⟨fun _ _ => rfl, fun hplan => absurd hplan (by decide), trivial⟩

/-- A plan is aborted, and another one is taken in. -/
def planAfterPlan : List Input :=
  planAborted ++ [Event.plain (.notifyPlan { planSn := "P2".toList })]

/-- The second plan has stopped before it is started. -/
theorem not_timesTrue : planAfterPlan.Pairwise (·.now ≤ ·.now) ∧
    ¬ (solo .epoch).journal.Always (TimesTrue .epoch)
      (Solo.unwritten "001".toList "002".toList .gwac 0) planAfterPlan := by
  refine ⟨by decide, fun h => ?_⟩
  have hstop : ∀ st ∈ ((solo .epoch).journal.exec
      (Solo.unwritten "001".toList "002".toList .gwac 0) planAfterPlan).hist.flatMap
      (SoloStep.records .epoch), st.state = some obsplanCataloged → st.tmStop = [] := by
    intro st hmem hcat
    obtain ⟨e, he, hst⟩ := List.mem_flatMap.mp hmem
    exact ((h.exec e he st hst).cataloged hcat).2
  exact absurd hstop (by decide)

end Gtoaes
