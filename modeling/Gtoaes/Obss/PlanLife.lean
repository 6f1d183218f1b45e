import Gtoaes.Obss.Frame
import Gtoaes.Lib.Life

/-!
The life of a plan in a system that has its plans to itself. What a step can do
to the plan is said once (`step_plan`); it follows that the statuses a system
publishes are the marks of the lax automaton of `Lib.Life`, plan by plan, and
that they are those of the strict one where no camera report ends a plan that
waits.
-/

namespace Gtoaes

open Lib Lib.Handler

/-- A published status: the plan and its state. -/
def planStatus : Act → Option (ℕ × Option ℤ)
  | .plan addr st => some (addr, st.state)
  | _ => none

/-- The plan statuses published among some outputs. -/
def planStatuses (acts : List Act) : List (ℕ × Option ℤ) := acts.filterMap planStatus

/-- A status as a mark on the plan. -/
def statusMark (status : ℕ × Option ℤ) : Option (ℕ × Mark) :=
  if status.2 = some obsplanCataloged then some (status.1, .opened)
  else if status.2 = some obsplanRunning then some (status.1, .started)
  else if status.2 = some obsplanOver then some (status.1, .finished)
  else if status.2 = some obsplanInterrupted then some (status.1, .dropped)
  else none

def planMarks (acts : List Act) : List (ℕ × Mark) := (planStatuses acts).filterMap statusMark

@[simp] theorem planMarks_nil : planMarks [] = [] := rfl

theorem planStatuses_append (l l' : List Act) :
    planStatuses (l ++ l') = planStatuses l ++ planStatuses l' :=
  List.filterMap_append

theorem planMarks_append (l l' : List Act) : planMarks (l ++ l') = planMarks l ++ planMarks l' := by
  rw [planMarks, planStatuses_append, List.filterMap_append]
  rfl

namespace Obss

/-- The plan and its status. -/
def planView (s : Obss) : Option PlanPtr × KVPlan := (s.plan, s.planState)

/-- What the marks say the system has in hand. -/
def life (s : Obss) : Life ℕ :=
  match s.plan with
  | none => .idle
  | some p => if s.planState.state = some obsplanRunning then .running p.addr else .waiting p.addr

theorem life_congr {s s' : Obss} (h : s'.planView = s.planView) : s'.life = s.life := by
  obtain ⟨hp, hst⟩ := Prod.mk.inj h
  simp only [life, hp, hst]

/-- Inert in the plan, and silent about it. -/
abbrev PlanInert (h : Handler Obss Act) : Prop := Inert planView planStatus h

theorem Quiet.planInert {h : Handler Obss Act} (hh : Quiet Act.core h) : PlanInert h := by
  refine Inert.mono (g := fun k => (k.plan, k.planState)) (k := planStatus) hh (fun _ => rfl) ?_
  intro act
  cases act <;> rfl

/-- Nobody else holds the plan of the system. -/
def Owns (ctx : Ctx) (s : Obss) : Prop := ∀ p, s.plan = some p → ctx.shared p.addr = false

theorem Owns.unique {ctx : Ctx} {s : Obss} (h : s.Owns ctx) : s.unique ctx = s.plan.isSome := by
  unfold Obss.unique
  cases hp : s.plan with
  | none => rfl
  | some p => simp [h p hp]

theorem Owns.congr {ctx : Ctx} {s s' : Obss} (h : s.Owns ctx) (hv : s'.planView = s.planView) :
    s'.Owns ctx := by
  obtain ⟨hp, -⟩ := Prod.mk.inj hv
  intro p hs
  exact h p (hp ▸ hs)

/-- The report with which the last camera still exposing stops. -/
def LastStop (ctx : Ctx) (s : Obss) (conn : Conn) (m : KVCamera) : Prop :=
  (camReport ctx m).state ≤ camctlIdle ∧ camctlIdle < s.oldState conn ∧ s.sysState.exposing ≤ 1

instance (ctx : Ctx) (s : Obss) (conn : Conn) (m : KVCamera) : Decidable (LastStop ctx s conn m) :=
  inferInstanceAs (Decidable (_ ∧ _ ∧ _))

/-- What is published of a plan that is held, if any, when it ends. -/
def lastWords (s : Obss) (code : ℤ) : List (ℕ × Option ℤ) :=
  s.plan.toList.map fun p => (p.addr, some code)

theorem lastWords_congr {s s' : Obss} (h : s'.planView = s.planView) (code : ℤ) :
    s'.lastWords code = s.lastWords code := by
  obtain ⟨hp, -⟩ := Prod.mk.inj h
  simp only [lastWords, hp]

/-- `Abort`, `Park` and the camera handler end the plan in the same way. -/
theorem closePlan_spec {ctx : Ctx} {s : Obss} (h : s.Owns ctx) (code : ℤ) :
    (when (unique ctx) (closePlan ctx code) s).1.plan = none ∧
      planStatuses (when (unique ctx) (closePlan ctx code) s).2 = s.lastWords code := by
  cases hp : s.plan with
  | none =>
      have hu : s.unique ctx = false := by rw [h.unique, hp]; rfl
      rw [when_false hu]
      exact ⟨hp, by simp [lastWords, hp, planStatuses]⟩
  | some p =>
      have hu : s.unique ctx = true := by rw [h.unique, hp]; rfl
      rw [when_true hu]
      simp [closePlan, hp, lastWords, planStatuses, planStatus]

/-- Behind handlers that leave the plan alone. -/
theorem closing_spec {ctx : Ctx} {s : Obss} (h : s.Owns ctx) (hs : List (Handler Obss Act))
    (hhs : PlanInert (all hs)) (code : ℤ) :
    (all (hs ++ [when (unique ctx) (closePlan ctx code)]) s).1.plan = none ∧
      planStatuses (all (hs ++ [when (unique ctx) (closePlan ctx code)]) s).2 =
        s.lastWords code := by
  obtain ⟨s', hv, hstate, hacts⟩ := hhs.all_append_singleton
    (when (unique ctx) (closePlan ctx code)) s
  obtain ⟨hplan, hmarks⟩ := closePlan_spec (h.congr hv) code
  rw [lastWords_congr hv] at hmarks
  exact ⟨hstate ▸ hplan, hacts.trans hmarks⟩

/-- What `Abort` and `Park` do before they come to the plan. -/
theorem planInert_halt {a b : Obss → Bool} (ctx : Ctx) (req : Request)
    (encode : NonKVProtocol → Time → NonKVFrame × NonKVProtocol) (line : Option KVMsg)
    (ra dec : Double) (proto : KVMsg) (cid : Text) :
    PlanInert (all [when a (all [mountCommand ctx req encode line, setTarget ra dec]),
      when b (write2camera proto cid)]) :=
  Quiet.planInert (.cons (.when (quiet_pointing mute_core _ _ _ _ _ _))
    (.cons (.when (quiet_camera _ _)) .nil))

theorem abort_spec {ctx : Ctx} {s : Obss} (h : s.Owns ctx) :
    (abort ctx s).1.plan = none ∧ planStatuses (abort ctx s).2 = s.lastWords obsplanInterrupted :=
  closing_spec h [_, _] (planInert_halt ctx _ _ _ _ _ _ _) _

theorem park_spec {ctx : Ctx} {s : Obss} (h : s.Owns ctx) :
    (park ctx s).1.plan = none ∧ planStatuses (park ctx s).2 = s.lastWords obsplanInterrupted :=
  closing_spec h [_, _] (planInert_halt ctx _ _ _ _ _ _ _) _

/-- A plan is turned away, or it takes the place of the one held. -/
theorem notifyPlan_spec {ctx : Ctx} {s : Obss} (h : s.Owns ctx) (p : PlanPtr) :
    (s.rejectsPlan ctx = true ∧ notifyPlan ctx p s = (s, [])) ∨
    (s.rejectsPlan ctx = false ∧ (notifyPlan ctx p s).1.plan = some p ∧
      (notifyPlan ctx p s).1.planState.state = some obsplanCataloged ∧
      planStatuses (notifyPlan ctx p s).2 =
        s.lastWords obsplanInterrupted ++ [(p.addr, some obsplanCataloged)]) := by
  cases hr : s.rejectsPlan ctx with
  | true => exact .inl ⟨rfl, by simp [notifyPlan, hr]⟩
  | false =>
      refine .inr ⟨rfl, ?_⟩
      have hstore : planStatuses (when (unique ctx) (abort ctx) s).2 =
          s.lastWords obsplanInterrupted := by
        cases hp : s.plan with
        | none => simp [when_false, h.unique, hp, lastWords, planStatuses]
        | some q => rw [when_true (by simp [h.unique, hp])]; exact (abort_spec h).2
      simp only [notifyPlan, hr, Bool.false_eq_true, if_false, all_cons, all_nil, skip_apply,
        planStatuses_append, hstore]
      exact ⟨rfl, rfl, rfl⟩

theorem planInert_setSysState (f : SystemState → SystemState) : PlanInert (setSysState f) :=
  .update fun _ => rfl

theorem planInert_updateCamera (p : CameraInfo → Bool) (f : CameraInfo → CameraInfo) :
    PlanInert (updateCamera p f) := .update fun _ => rfl

/-- The chain of a camera report, where it is not the last stop. -/
theorem planInert_checkCameraState (ctx : Ctx) {new old : ℤ} {s : Obss}
    (h : ¬ (new ≤ camctlIdle ∧ camctlIdle < old ∧ s.sysState.exposing ≤ 1)) :
    (checkCameraState ctx new old s).1.planView = s.planView ∧
      planStatuses (checkCameraState ctx new old s).2 = [] := by
  unfold checkCameraState
  split
  · exact ⟨rfl, rfl⟩
  · split
    · rename_i hstop
      have hmany : (setSysState (·.leaveExpose) s).1.sysState.anyExposing = true := by
        have hexp : 1 < s.sysState.exposing := by omega
        simp only [setSysState, update_apply, SystemState.leaveExpose, SystemState.anyExposing,
          bne_iff_ne]
        omega
      rw [all_cons, all_cons, when_false (by simp [hmany])]
      exact ⟨rfl, rfl⟩
    · split
      · exact planInert_setSysState _ s
      · split
        · refine Inert.cons (planInert_setSysState _) (.cons (.when (.emit ?_)) .nil) s
          exact fun _ => rfl
        · split
          · exact planInert_setSysState _ s
          · exact ⟨rfl, rfl⟩

theorem checkCameraState_lastStop (ctx : Ctx) {new old : ℤ} {s : Obss} (hnew : new ≤ camctlIdle)
    (hold : camctlIdle < old) (hexp : s.sysState.exposing ≤ 1) :
    checkCameraState ctx new old s =
      all [setSysState (·.leaveExpose), when (unique ctx) (closePlan ctx obsplanOver)] s := by
  have hnone : (setSysState (·.leaveExpose) s).1.sysState.anyExposing = false := by
    simp only [setSysState, update_apply, SystemState.leaveExpose, SystemState.anyExposing,
      bne_eq_false_iff_eq]
    omega
  unfold checkCameraState
  rw [if_neg (by omega), if_pos ⟨hnew, hold⟩, all_cons, all_cons, all_cons, all_cons,
    when_and_left (by simp [hnone])]

/-- With the last stop the plan is closed, and nothing else is done to it. -/
theorem camera_lastStop {ctx : Ctx} {s : Obss} {conn : Conn} {m : KVCamera}
    (h : LastStop ctx s conn m) : processProtocolCamera ctx conn (.camera m) s =
      all [storeReport conn (camReport ctx m), setSysState (·.leaveExpose),
        when (unique ctx) (closePlan ctx obsplanOver)] s := by
  obtain ⟨hnew, hold, hexp⟩ := h
  have hcheck := checkCameraState_lastStop ctx
    (s := (storeReport conn (camReport ctx m) s).1) hnew hold hexp
  simp only [processProtocolCamera]
  rw [all_cons, all_cons, hcheck]
  simp only [all_nil, skip_apply, List.append_nil]
  rfl

/-- What a camera report does to the plan. -/
theorem camera_spec {ctx : Ctx} {s : Obss} (h : s.Owns ctx) (conn : Conn) (m : KVCamera) :
    (LastStop ctx s conn m ∧ (processProtocolCamera ctx conn (.camera m) s).1.plan = none ∧
      planStatuses (processProtocolCamera ctx conn (.camera m) s).2 = s.lastWords obsplanOver) ∨
    (¬ LastStop ctx s conn m ∧
      (processProtocolCamera ctx conn (.camera m) s).1.planView = s.planView ∧
      planStatuses (processProtocolCamera ctx conn (.camera m) s).2 = []) := by
  by_cases hstop : LastStop ctx s conn m
  · refine .inl ⟨hstop, ?_⟩
    rw [camera_lastStop hstop]
    exact closing_spec h [storeReport conn (camReport ctx m), setSysState (·.leaveExpose)]
      (.cons (planInert_updateCamera _ _) (.cons (planInert_setSysState _) .nil)) obsplanOver
  · refine .inr ⟨hstop, ?_⟩
    have hstore := planInert_updateCamera (hasConn conn) (stored (camReport ctx m)) s
    have hcheck := planInert_checkCameraState ctx
      (s := (storeReport conn (camReport ctx m) s).1) hstop
    simp only [processProtocolCamera, all_cons, all_nil, skip_apply, List.append_nil,
      planStatuses_append]
    exact ⟨hcheck.1.trans hstore.1, by rw [hcheck.2]; rfl⟩

/-- What `process_new_plan` does before it publishes leaves the plan alone. -/
theorem processNewPlan_split (ctx : Ctx) (p : PlanPtr) (s : Obss) :
    ∃ hs, PlanInert (all hs) ∧
      processNewPlan ctx p s = all (hs ++ [publishRunning ctx p]) s := by
  refine ⟨[when (slewReq · p.plan) (all
      [mountCommand ctx (.plan p.plan) (NonKVProtocol.slew p.plan.ra p.plan.dec)
        (some (.slewto (planSlewto ctx p.plan))),
       setTarget p.plan.ra p.plan.dec]),
     write2camera (.appPlan p.plan) [],
     when (fun _ => !s.slewReq p.plan) (expose2camera expStart 0 [])], Quiet.planInert ?_, rfl⟩
  exact .cons (.when (quiet_pointing mute_core _ _ _ _ _ _)) (.cons (quiet_camera _ _)
    (.cons (.when (quiet_camera _ _)) .nil))

theorem processNewPlan_eq (ctx : Ctx) (p : PlanPtr) (s : Obss) :
    ∃ s', s'.planView = s.planView ∧
      (processNewPlan ctx p s).1 = (publishRunning ctx p s').1 ∧
      planStatuses (processNewPlan ctx p s).2 = [(p.addr, some obsplanRunning)] := by
  obtain ⟨hs, hinert, heq⟩ := processNewPlan_split ctx p s
  rw [heq]
  exact hinert.all_append_singleton (publishRunning ctx p) s

theorem processNewPlan_spec (ctx : Ctx) (p : PlanPtr) (s : Obss) :
    (processNewPlan ctx p s).1.plan = s.plan ∧
      (processNewPlan ctx p s).1.planState.state = some obsplanRunning ∧
      planStatuses (processNewPlan ctx p s).2 = [(p.addr, some obsplanRunning)] := by
  obtain ⟨s', hv, hstate, hacts⟩ := processNewPlan_eq ctx p s
  obtain ⟨hplan, -⟩ := Prod.mk.inj hv
  refine ⟨?_, ?_, hacts⟩
  · exact (congrArg Obss.plan hstate).trans hplan
  · exact congrArg (fun s => s.planState.state) hstate

/-- A plan that waits is started, one that runs may be aborted. -/
theorem threadObsplan_spec {ctx : Ctx} {s : Obss} (h : s.Owns ctx) :
    threadObsplan ctx s = (s, []) ∨
    (∃ p, s.plan = some p ∧ s.planState.state = some obsplanCataloged ∧
      (threadObsplan ctx s).1.plan = some p ∧
      (threadObsplan ctx s).1.planState.state = some obsplanRunning ∧
      planStatuses (threadObsplan ctx s).2 = [(p.addr, some obsplanRunning)]) ∨
    threadObsplan ctx s = abort ctx s := by
  unfold threadObsplan
  split
  · exact .inl rfl
  · rename_i p hp
    rw [if_neg (by simp [h p hp])]
    split
    · rename_i hcat
      rcases when_cases readyToRun (all [processNewPlan ctx p, setTmend ctx p.plan]) s with
        ⟨-, heq⟩ | ⟨-, heq⟩
      · obtain ⟨hplan, hstate, hmarks⟩ := processNewPlan_spec ctx p s
        rw [heq]
        refine .inr (.inl ⟨p, hp, hcat, hplan.trans hp, hstate, ?_⟩)
        simpa [all_cons, planStatuses_append, setTmend, planStatuses] using hmarks
      · exact .inl heq
    · split
      · rcases when_cases (overdue ctx · p.plan) (abort ctx) s with ⟨-, heq⟩ | ⟨-, heq⟩
        · exact .inr (.inr heq)
        · exact .inl heq
      · exact .inl rfl

theorem planInert_resumePlan (ctx : Ctx) (conn : Conn) (cid : Text) :
    PlanInert (resumePlan ctx conn cid) := by
  intro s
  unfold resumePlan
  split
  · exact ⟨rfl, rfl⟩
  · split
    · exact ⟨rfl, rfl⟩
    · exact Inert.cons (.emit fun _ => rfl)
        (.cons (.when (Quiet.planInert (quiet_camera _ _))) .nil) s

theorem planInert_coupleCamera (ctx : Ctx) (conn : Conn) (cid : Text) :
    PlanInert (coupleCamera ctx conn cid) := by
  intro s
  unfold coupleCamera
  split
  · split
    · exact ⟨rfl, rfl⟩
    · refine Inert.cons (planInert_updateCamera _ _) (.cons (.emit fun s => ?_)
        (.cons (planInert_setSysState _) (.cons (planInert_resumePlan ctx conn cid) .nil))) s
      split <;> rfl
  · refine Inert.cons (planInert_setSysState _) (.cons (.update fun s => ?_) .nil) s
    rfl

theorem planInert_onTcpClose (ctx : Ctx) (conn : Conn) (peer : PeerType) :
    PlanInert (onTcpClose ctx conn peer) := by
  intro s
  unfold onTcpClose
  split
  · split
    · exact ⟨rfl, rfl⟩
    · refine Inert.cons (.when (planInert_setSysState _)) (.cons (planInert_setSysState _)
        (.cons (planInert_updateCamera _ _) (.cons (.update fun s => ?_) .nil))) s
      rfl
  · exact ⟨rfl, rfl⟩

/-- Everything a step can do to the plan: leave it, replace it by a new one,
start it, drop it, or have it finished by the last camera that stops. -/
theorem step_plan {ctx : Ctx} {s : Obss} (h : s.Owns ctx) (ev : Event) :
    ((∀ conn m, ev = .deviceLine conn (.camera m) → ¬ LastStop ctx s conn m) ∧
      (step ctx ev s).1.planView = s.planView ∧ planStatuses (step ctx ev s).2 = []) ∨
    (∃ plan, ev = .notifyPlan plan ∧ (step ctx ev s).1.plan = some ⟨ctx.fresh, plan⟩ ∧
      (step ctx ev s).1.planState.state = some obsplanCataloged ∧
      planStatuses (step ctx ev s).2 =
        s.lastWords obsplanInterrupted ++ [(ctx.fresh, some obsplanCataloged)]) ∨
    (∃ p, ev = .obsplanTick ∧ s.plan = some p ∧ s.planState.state = some obsplanCataloged ∧
      (step ctx ev s).1.plan = some p ∧
      (step ctx ev s).1.planState.state = some obsplanRunning ∧
      planStatuses (step ctx ev s).2 = [(p.addr, some obsplanRunning)]) ∨
    ((∀ conn m, ev ≠ .deviceLine conn m) ∧ (step ctx ev s).1.plan = none ∧
      planStatuses (step ctx ev s).2 = s.lastWords obsplanInterrupted) ∨
    (∃ conn m, ev = .deviceLine conn (.camera m) ∧ LastStop ctx s conn m ∧
      (step ctx ev s).1.plan = none ∧ planStatuses (step ctx ev s).2 = s.lastWords obsplanOver) := by
  -- handlers that are inert in the plan, of events other than camera reports
  have hinert : (∀ conn m, ev ≠ .deviceLine conn m) → PlanInert (step ctx ev) →
      (∀ conn m, ev = .deviceLine conn (.camera m) → ¬ LastStop ctx s conn m) ∧
        (step ctx ev s).1.planView = s.planView ∧ planStatuses (step ctx ev s).2 = [] :=
    fun hev hh => ⟨fun conn m he => absurd he (hev conn _), hh s⟩
  cases ev with
  | notifyPlan plan =>
      rcases notifyPlan_spec h ⟨ctx.fresh, plan⟩ with ⟨-, heq⟩ | ⟨-, hplan, hstate, hmarks⟩
      · rw [show step ctx (.notifyPlan plan) = notifyPlan ctx ⟨ctx.fresh, plan⟩ from rfl, heq]
        exact .inl ⟨by simp, rfl, rfl⟩
      · exact .inr (.inl ⟨plan, rfl, hplan, hstate, hmarks⟩)
  | abort => exact .inr (.inr (.inr (.inl ⟨by simp, abort_spec h⟩)))
  | park => exact .inr (.inr (.inr (.inl ⟨by simp, park_spec h⟩)))
  | obsplanTick =>
      rw [show step ctx .obsplanTick = threadObsplan ctx from rfl]
      rcases threadObsplan_spec h with hstay | ⟨p, hstart⟩ | hdrop
      · rw [hstay]
        exact .inl ⟨by simp, rfl, rfl⟩
      · exact .inr (.inr (.inl ⟨p, rfl, hstart⟩))
      · rw [hdrop]
        exact .inr (.inr (.inr (.inl ⟨by simp, abort_spec h⟩)))
  | deviceLine conn proto =>
      cases proto with
      | camera m =>
          rcases camera_spec h conn m with ⟨hstop, hend⟩ | ⟨hstop, hstay⟩
          · exact .inr (.inr (.inr (.inr ⟨conn, m, rfl, hstop, hend⟩)))
          · refine .inl ⟨?_, hstay⟩
            rintro _ _ ⟨⟩
            exact hstop
      | _ =>
          refine .inl ⟨fun _ _ he => ?_, rfl, rfl⟩
          cases he
  | coupleCamera conn cid => exact .inl (hinert (by simp) (planInert_coupleCamera ctx conn cid))
  | onTcpClose conn peer => exact .inl (hinert (by simp) (planInert_onTcpClose ctx conn peer))
  | _ => exact .inl (hinert (by simp) (Quiet.planInert (quiet_step_core ctx rfl)))

theorem life_of_none {s : Obss} (h : s.plan = none) : s.life = .idle := by simp [life, h]

theorem life_of_cataloged {s : Obss} {p : PlanPtr} (h : s.plan = some p)
    (hst : s.planState.state = some obsplanCataloged) : s.life = .waiting p.addr := by
  have hne : ¬ some obsplanCataloged = some obsplanRunning := by decide
  simp [life, h, hst, hne]

theorem life_of_running {s : Obss} {p : PlanPtr} (h : s.plan = some p)
    (hst : s.planState.state = some obsplanRunning) : s.life = .running p.addr := by
  simp [life, h, hst]

/-- The marks left when the plan in hand ends. -/
def endMarks (s : Obss) (m : Mark) : List (ℕ × Mark) := s.plan.toList.map fun p => (p.addr, m)

theorem filterMap_lastWords {code : ℤ} {m : Mark}
    (hm : ∀ a, statusMark (a, some code) = some (a, m)) (s : Obss) :
    (s.lastWords code).filterMap statusMark = s.endMarks m := by
  unfold lastWords endMarks
  cases s.plan with
  | none => rfl
  | some p => simp [hm]

theorem lastWords_interrupted (s : Obss) :
    (s.lastWords obsplanInterrupted).filterMap statusMark = s.endMarks .dropped :=
  filterMap_lastWords (fun _ => rfl) s

theorem lastWords_over (s : Obss) :
    (s.lastWords obsplanOver).filterMap statusMark = s.endMarks .finished :=
  filterMap_lastWords (fun _ => rfl) s

theorem runs_endMarks_dropped (lax : Bool) (s : Obss) :
    Life.runs lax s.life (s.endMarks .dropped) = some .idle := by
  unfold life endMarks
  cases s.plan with
  | none => rfl
  | some p => by_cases hrun : s.planState.state = some obsplanRunning <;> simp [hrun]

theorem runs_endMarks_finished (s : Obss) :
    Life.runs true s.life (s.endMarks .finished) = some .idle := by
  unfold life endMarks
  cases s.plan with
  | none => rfl
  | some p => by_cases hrun : s.planState.state = some obsplanRunning <;> simp [hrun]

/-- A plan that waits cannot finish in the strict automaton. -/
theorem strict_endMarks_finished (s : Obss) :
    Life.runs false s.life (s.endMarks .finished) = some .idle ↔
      (s.plan.isSome → s.planState.state = some obsplanRunning) := by
  unfold life endMarks
  cases s.plan with
  | none => simp
  | some p =>
      by_cases hrun : s.planState.state = some obsplanRunning <;> simp [hrun]

/-- The marks of a step, case by case. -/
theorem step_marks {ctx : Ctx} {s : Obss} (h : s.Owns ctx) (ev : Event) :
    ((∀ conn m, ev = .deviceLine conn (.camera m) → ¬ LastStop ctx s conn m) ∧
      (step ctx ev s).1.planView = s.planView ∧ planMarks (step ctx ev s).2 = []) ∨
    (∃ plan, ev = .notifyPlan plan ∧ (step ctx ev s).1.plan = some ⟨ctx.fresh, plan⟩ ∧
      (step ctx ev s).1.planState.state = some obsplanCataloged ∧
      planMarks (step ctx ev s).2 = s.endMarks .dropped ++ [(ctx.fresh, .opened)]) ∨
    (∃ p, ev = .obsplanTick ∧ s.plan = some p ∧ s.planState.state = some obsplanCataloged ∧
      (step ctx ev s).1.plan = some p ∧
      (step ctx ev s).1.planState.state = some obsplanRunning ∧
      planMarks (step ctx ev s).2 = [(p.addr, .started)]) ∨
    ((∀ conn m, ev ≠ .deviceLine conn m) ∧ (step ctx ev s).1.plan = none ∧
      planMarks (step ctx ev s).2 = s.endMarks .dropped) ∨
    (∃ conn m, ev = .deviceLine conn (.camera m) ∧ LastStop ctx s conn m ∧
      (step ctx ev s).1.plan = none ∧ planMarks (step ctx ev s).2 = s.endMarks .finished) := by
  unfold planMarks
  rcases step_plan h ev with ⟨hev, hv, hm⟩ | ⟨plan, hev, hp, hst, hm⟩ |
    ⟨p, hev, hp, hst, hp', hst', hm⟩ | ⟨hev, hp, hm⟩ | ⟨conn, m, hev, hstop, hp, hm⟩
  all_goals rw [hm]
  · exact .inl ⟨hev, hv, rfl⟩
  · rw [List.filterMap_append, lastWords_interrupted]
    exact .inr (.inl ⟨plan, hev, hp, hst, rfl⟩)
  · exact .inr (.inr (.inl ⟨p, hev, hp, hst, hp', hst', rfl⟩))
  · exact .inr (.inr (.inr (.inl ⟨hev, hp, lastWords_interrupted s⟩)))
  · exact .inr (.inr (.inr (.inr ⟨conn, m, hev, hstop, hp, lastWords_over s⟩)))

/-- A camera report that ends a plan which has not been started. -/
def EarlyOver (ctx : Ctx) (s : Obss) (ev : Event) : Prop :=
  ∃ conn m, ev = .deviceLine conn (.camera m) ∧ LastStop ctx s conn m ∧
    s.plan.isSome ∧ s.planState.state ≠ some obsplanRunning

/-- The published statuses follow the lax automaton. -/
theorem step_life {ctx : Ctx} {s : Obss} (h : s.Owns ctx) (ev : Event) :
    Life.runs true s.life (planMarks (step ctx ev s).2) = some (step ctx ev s).1.life := by
  rcases step_marks h ev with ⟨-, hv, hm⟩ | ⟨plan, -, hp, hst, hm⟩ | ⟨p, -, hp, hst, hp', hst', hm⟩ |
    ⟨-, hp, hm⟩ | ⟨conn, m, -, -, hp, hm⟩
  · rw [hm, life_congr hv]; rfl
  · rw [hm, Life.runs_append, runs_endMarks_dropped, life_of_cataloged hp hst]
    simp
  · rw [hm, life_of_cataloged hp hst, life_of_running hp' hst']
    simp
  · rw [hm, runs_endMarks_dropped, life_of_none hp]
  · rw [hm, runs_endMarks_finished, life_of_none hp]

/-- They follow the strict one exactly in the steps that end no waiting plan. -/
theorem step_life_strict {ctx : Ctx} {s : Obss} (h : s.Owns ctx) (ev : Event) :
    Life.runs false s.life (planMarks (step ctx ev s).2) = some (step ctx ev s).1.life ↔
      ¬ EarlyOver ctx s ev := by
  rcases step_marks h ev with ⟨hev, hv, hm⟩ | ⟨plan, rfl, hp, hst, hm⟩ |
    ⟨p, rfl, hp, hst, hp', hst', hm⟩ | ⟨hev, hp, hm⟩ | ⟨conn, m, rfl, hstop, hp, hm⟩
  · rw [hm, life_congr hv]
    refine iff_of_true rfl ?_
    rintro ⟨conn, m, he, hstop, -⟩
    exact hev conn m he hstop
  · rw [hm, Life.runs_append, runs_endMarks_dropped, life_of_cataloged hp hst]
    refine iff_of_true (by simp) ?_
    rintro ⟨conn, m, he, -⟩
    cases he
  · rw [hm, life_of_cataloged hp hst, life_of_running hp' hst']
    refine iff_of_true (by simp) ?_
    rintro ⟨conn, m, he, -⟩
    cases he
  · rw [hm, life_of_none hp]
    refine iff_of_true (runs_endMarks_dropped _ _) ?_
    rintro ⟨conn, m, he, -⟩
    exact hev conn _ he
  · rw [hm, life_of_none hp, strict_endMarks_finished]
    constructor
    · rintro hrun ⟨_, _, _, -, hsome, hne⟩
      exact hne (hrun hsome)
    · intro hearly hsome
      by_contra hne
      exact hearly ⟨conn, m, rfl, hstop, hsome, hne⟩

end Obss

end Gtoaes
