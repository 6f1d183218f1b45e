import Gtoaes.Obss.PlanLife

/-!
Which events have the system start an exposure while it holds a plan. Apart
from the round of `thread_obsplan` that starts the plan, these are a mount that
arrives while some camera is on-line, and the return of a known camera while
the mount tracks. Neither handler looks at the status of the plan.
-/

namespace Gtoaes

open Lib Lib.Handler

def Act.startsExposure : Act → Bool
  | .camera _ proto => proto.startsExposure
  | _ => false

/-- The last status published for the plan at `addr`, after one of `last`. -/
def statusAfter (addr : ℕ) (last : Option ℤ) (statuses : List (ℕ × Option ℤ)) : Option ℤ :=
  statuses.foldl (fun last status => if status.1 = addr then status.2 else last) last

/-- The last status published for the plan at `addr`. -/
def publishedStatus (addr : ℕ) (acts : List Act) : Option ℤ :=
  statusAfter addr none (planStatuses acts)

theorem publishedStatus_append (addr : ℕ) (l l' : List Act) :
    publishedStatus addr (l ++ l') =
      statusAfter addr (publishedStatus addr l) (planStatuses l') := by
  simp only [publishedStatus, statusAfter, planStatuses_append, List.foldl_append]

/-- The observer of starts of exposure. -/
def Act.start (act : Act) : Option Unit := if act.startsExposure then some () else none

theorem mute_start : Mute Act.start where
  link _ := rfl
  mount _ _ _ := rfl
  focus _ _ := rfl
  camera _ proto h := by simp [Act.start, Act.startsExposure, h]

namespace Obss

/-- Starts no exposure, whatever else it does. -/
abbrev Silent (h : Handler Obss Act) : Prop := Inert (fun _ => ()) Act.start h

theorem Quiet.silent {h : Handler Obss Act} (hh : Quiet Act.start h) : Silent h :=
  Inert.mono (g := fun _ => ()) (k := some) hh (fun _ => rfl) fun act => by
    cases Act.start act <;> rfl

theorem Silent.not_starts {h : Handler Obss Act} (hh : Silent h) (s : Obss) :
    ∀ act ∈ (h s).2, act.startsExposure = false := by
  intro act hact
  have hnone := List.filterMap_eq_nil_iff.mp (hh s).2 act hact
  cases hs : act.startsExposure with
  | false => rfl
  | true => simp [Act.start, hs] at hnone

theorem silent_update (f : Obss → Obss) : Silent (update f) := fun _ => ⟨rfl, rfl⟩

theorem silent_write2camera (proto : KVMsg) (h : proto.startsExposure = false) (cid : Text) :
    Silent (write2camera proto cid) :=
  Quiet.silent (quiet_write2camera (fun conn => mute_start.camera conn proto h) cid)

theorem silent_expose2camera {cmd : ℤ} (h : cmd ≠ expStart) (frmno : ℤ) (cid : Text) :
    Silent (expose2camera cmd frmno cid) :=
  silent_write2camera _ (by simpa [KVMsg.startsExposure] using h) cid

theorem silent_closePlan (ctx : Ctx) (code : ℤ) : Silent (closePlan ctx code) := by
  intro s
  unfold closePlan
  split <;> exact ⟨rfl, rfl⟩

theorem silent_abort (ctx : Ctx) : Silent (abort ctx) :=
  .cons (.when (Quiet.silent (quiet_pointing mute_start _ _ _ _ _ _)))
    (.cons (.when (silent_expose2camera (by decide) _ _)) (.cons (.when (silent_closePlan ctx _)) .nil))

theorem silent_park (ctx : Ctx) : Silent (park ctx) :=
  .cons (.when (Quiet.silent (quiet_pointing mute_start _ _ _ _ _ _)))
    (.cons (.when (silent_expose2camera (by decide) _ _)) (.cons (.when (silent_closePlan ctx _)) .nil))

theorem silent_notifyPlan (ctx : Ctx) (p : PlanPtr) : Silent (notifyPlan ctx p) := by
  intro s
  unfold notifyPlan
  split
  · exact ⟨rfl, rfl⟩
  · exact Inert.cons (.when (silent_abort ctx)) (.cons (fun _ => ⟨rfl, rfl⟩) .nil) s

theorem silent_checkCameraState (ctx : Ctx) (new old : ℤ) :
    Silent (checkCameraState ctx new old) := by
  unfold checkCameraState
  split
  · exact .skip
  · split
    · exact .cons (silent_update _) (.cons (.when (silent_closePlan ctx _)) .nil)
    · split
      · exact silent_update _
      · split
        · exact .cons (silent_update _) (.cons (.when (.emit fun _ => rfl)) .nil)
        · split
          · exact silent_update _
          · exact .skip

theorem silent_processProtocolCamera (ctx : Ctx) (conn : Conn) (proto : KVMsg) :
    Silent (processProtocolCamera ctx conn proto) := by
  intro s
  unfold processProtocolCamera
  split
  · exact Inert.cons (silent_update _) (.cons (silent_checkCameraState ctx _ _) .nil) s
  · exact ⟨rfl, rfl⟩

theorem silent_onTcpClose (ctx : Ctx) (conn : Conn) (peer : PeerType) :
    Silent (onTcpClose ctx conn peer) := by
  intro s
  unfold onTcpClose
  split
  · split
    · exact ⟨rfl, rfl⟩
    · exact Inert.cons (.when (silent_update _)) (.cons (silent_update _)
        (.cons (silent_update _) (.cons (silent_update _) .nil))) s
  · exact ⟨rfl, rfl⟩

/-- Only four kinds of event can start an exposure. -/
theorem silent_step (ctx : Ctx) {ev : Event} (h : ev.mayStart = false) : Silent (step ctx ev) := by
  cases hq : ev.quiet with
  | true => exact Quiet.silent (quiet_step mute_start ctx hq h)
  | false =>
      cases ev with
      | notifyPlan plan => exact silent_notifyPlan ctx _
      | abort => exact silent_abort ctx
      | park => exact silent_park ctx
      | deviceLine conn proto => exact silent_processProtocolCamera ctx conn proto
      | onTcpClose conn peer => exact silent_onTcpClose ctx conn peer
      | coupleCamera | obsplanTick => cases h
      | _ => cases hq

/-- Some camera is on-line. -/
def anyCameraOnline (s : Obss) : Prop := ∃ it ∈ s.camInfoVec, it.ptrTcp.isSome

/-- The two events that start an exposure under whatever plan there is: the
mount arrives, or a camera comes back to a mount that tracks. -/
def Resumes (s : Obss) : Event → Prop
  | .notifyMountState state =>
      state = mountTracking ∧ s.mountInfo.state = mountSlewing ∧ s.anyCameraOnline
  | .coupleCamera _ cid =>
      s.mountInfo.state = mountTracking ∧
        ∃ it, s.camInfoVec.find? (hasCid cid) = some it ∧ it.ptrTcp = none
  | _ => False

/-- A start of exposure is written where it finds a camera. -/
theorem expose2camera_starts {s : Obss} {it : CameraInfo} (hit : it ∈ s.camInfoVec)
    (honline : it.ptrTcp.isSome) {cid : Text} (hcid : cid = [] ∨ hasCid cid it = true) (frmno : ℤ) :
    ∃ act ∈ (expose2camera expStart frmno cid s).2, act.startsExposure = true := by
  unfold expose2camera write2camera
  by_cases hempty : cid = []
  · obtain ⟨conn, hconn⟩ := Option.isSome_iff_exists.mp honline
    refine ⟨.camera conn (.expose { command := some expStart, frmno := frmno }), ?_, rfl⟩
    simp only [emit_apply, hempty, if_true, List.mem_map, List.mem_filterMap]
    exact ⟨conn, ⟨it, hit, hconn⟩, rfl⟩
  · have hmatch : iequals it.info.cid cid = true := hcid.resolve_left hempty
    have hsome : (s.camInfoVec.find?
        fun it => it.ptrTcp.isSome && iequals it.info.cid cid).isSome :=
      List.find?_isSome.mpr ⟨it, hit, by simp [honline, hmatch]⟩
    obtain ⟨found, hfound⟩ := Option.isSome_iff_exists.mp hsome
    have hprop := List.find?_some hfound
    simp only [Bool.and_eq_true] at hprop
    obtain ⟨conn, hconn⟩ := Option.isSome_iff_exists.mp hprop.1
    refine ⟨.camera conn (.expose { command := some expStart, frmno := frmno }), ?_, rfl⟩
    simp [emit_apply, hempty, hfound, hconn]

theorem write2camera_offline {s : Obss} (h : ¬ s.anyCameraOnline) (proto : KVMsg) :
    (write2camera proto [] s).2 = [] := by
  simp only [write2camera, emit_apply, if_true, List.map_eq_nil_iff, List.filterMap_eq_nil_iff]
  intro it hit
  cases hconn : it.ptrTcp with
  | none => rfl
  | some conn => exact absurd ⟨it, hit, by simp [hconn]⟩ h

/-- The mount's report of its state starts an exposure, with a plan there,
exactly when the mount arrives. -/
theorem notifyMountState_starts {ctx : Ctx} {s : Obss} (hplan : s.plan.isSome) (state : ℤ) :
    (∃ act ∈ (notifyMountState ctx state s).2, act.startsExposure = true) ↔
      s.Resumes (.notifyMountState state) := by
  constructor
  · rintro ⟨act, hact, hstart⟩
    unfold notifyMountState at hact
    split at hact
    · cases hact
    · split at hact
      · simp only [all_cons, all_nil, skip_apply, update_apply, List.append_nil] at hact
        unfold mountArrived at hact
        split at hact
        · rename_i harrived
          obtain ⟨rfl, -, -⟩ := harrived
          split at hact
          · have hmute := (silent_write2camera (.guide {}) rfl []).not_starts s act hact
            simp [hmute] at hstart
          · split at hact
            · rename_i hslewing
              refine ⟨rfl, hslewing, ?_⟩
              by_contra hoff
              rw [expose2camera, write2camera_offline hoff] at hact
              cases hact
            · cases hact
        · cases hact
      · cases hact
  · rintro ⟨rfl, hslewing, it, hit, honline⟩
    obtain ⟨act, hact, hstart⟩ := expose2camera_starts hit honline (.inl rfl) 0
    refine ⟨act, ?_, hstart⟩
    have harrived : mountArrived mountTracking s = expose2camera expStart 0 [] s := by
      have hguiding : ¬ s.mountInfo.state = mountGuiding := by rw [hslewing]; decide
      have hmin : s.mountInfo.state ≠ mountMin := by rw [hslewing]; decide
      rw [mountArrived, if_pos ⟨rfl, hmin, hplan⟩, if_neg hguiding, if_pos hslewing]
    have hmoved : ¬ mountTracking = s.mountInfo.state := by rw [hslewing]; decide
    rw [notifyMountState, if_neg hmoved, if_pos (by decide), all_cons, harrived]
    exact List.mem_append_left _ hact

theorem resumePlan_starts {ctx : Ctx} {s : Obss} {p : PlanPtr} (hp : s.plan = some p)
    (hown : ctx.shared p.addr = false) (conn : Conn) (cid : Text) :
    (∃ act ∈ (resumePlan ctx conn cid s).2, act.startsExposure = true) ↔
      s.mountInfo.state = mountTracking ∧
        ∃ act ∈ (expose2camera expStart (topFrmno s.camInfoVec) cid s).2,
          act.startsExposure = true := by
  have hplan : (Act.camera conn (.appPlan p.plan)).startsExposure = false := rfl
  simp only [resumePlan, hp, hown, Bool.false_eq_true, if_false, all_cons, all_nil, skip_apply,
    emit_apply, List.append_nil]
  by_cases htrack : s.mountInfo.state = mountTracking
  · rw [when_true (by simpa using htrack)]
    simp [htrack, hplan]
  · rw [when_false (by simpa using htrack)]
    simp [htrack, hplan]

/-- Behind silent handlers, an exposure is started by the last one. -/
theorem starts_append_singleton {hs : List (Handler Obss Act)} (hhs : Silent (all hs))
    (k : Handler Obss Act) (s : Obss) :
    (∃ act ∈ (all (hs ++ [k]) s).2, act.startsExposure = true) ↔
      ∃ act ∈ (k (all hs s).1).2, act.startsExposure = true := by
  rw [all_append_singleton, andThen_apply]
  constructor
  · rintro ⟨act, hact, hstart⟩
    rcases List.mem_append.mp hact with hact | hact
    · simp [hhs.not_starts s act hact] at hstart
    · exact ⟨act, hact, hstart⟩
  · rintro ⟨act, hact, hstart⟩
    exact ⟨act, List.mem_append_right _ hact, hstart⟩

/-- What `CoupleCamera` does for a known camera before it resumes the plan. -/
def recouple (conn : Conn) (cid : Text) (it : CameraInfo) : List (Handler Obss Act) :=
  [updateCamera (hasCid cid) (recoupled conn),
   emit fun s => if it.focState = 0 then [.camera conn (focusNotice s cid it)] else [],
   setSysState (·.cameraOnline true)]

theorem silent_recouple (conn : Conn) (cid : Text) (it : CameraInfo) :
    Silent (all (recouple conn cid it)) := by
  refine .cons (silent_update _) (.cons (.emit fun s => ?_) (.cons (silent_update _) .nil))
  split <;> rfl

/-- The return of a camera starts an exposure, with a plan there, exactly when
the mount tracks. -/
theorem coupleCamera_starts {ctx : Ctx} {s : Obss} (h : s.Owns ctx) (hplan : s.plan.isSome)
    (conn : Conn) (cid : Text) :
    (∃ act ∈ (coupleCamera ctx conn cid s).2, act.startsExposure = true) ↔
      s.Resumes (.coupleCamera conn cid) := by
  obtain ⟨p, hp⟩ := Option.isSome_iff_exists.mp hplan
  cases hfind : s.camInfoVec.find? (hasCid cid) with
  | none =>
      have hnew : (coupleCamera ctx conn cid s).2 = [] := by simp [coupleCamera, hfind, all_cons,
        setSysState]
      simp [hnew, Resumes, hfind]
  | some it =>
      cases hconn : it.ptrTcp with
      | some old =>
          have hrefused : (coupleCamera ctx conn cid s).2 = [] := by
            simp [coupleCamera, hfind, hconn]
          simp [hrefused, Resumes, hfind, hconn]
      | none =>
          have heq : coupleCamera ctx conn cid s =
              all (recouple conn cid it ++ [resumePlan ctx conn cid]) s := by
            simp only [coupleCamera, hfind, hconn]
            rfl
          have hback : recoupled conn it ∈ (all (recouple conn cid it) s).1.camInfoVec :=
            mem_updateFirst_of_find? hfind (recoupled conn)
          have hcid : hasCid cid it = true := List.find?_some hfind
          have hheld : (all (recouple conn cid it) s).1.plan = some p := hp
          rw [heq, starts_append_singleton (silent_recouple conn cid it),
            resumePlan_starts hheld (h p hp)]
          constructor
          · rintro ⟨htrack, -⟩
            exact ⟨htrack, it, hfind, hconn⟩
          · rintro ⟨htrack, -⟩
            exact ⟨htrack, expose2camera_starts hback rfl (.inr hcid) _⟩

/-- A step that starts an exposure under a plan resumes it or has just
published that it runs. -/
theorem step_starts {ctx : Ctx} {s : Obss} (h : s.Owns ctx) {p : PlanPtr} (hp : s.plan = some p)
    {ev : Event} (hstart : ∃ act ∈ (step ctx ev s).2, act.startsExposure = true) :
    s.Resumes ev ∨ planStatuses (step ctx ev s).2 = [(p.addr, some obsplanRunning)] := by
  have hplan : s.plan.isSome := by simp [hp]
  cases hmay : ev.mayStart with
  | false =>
      obtain ⟨act, hact, hs⟩ := hstart
      simp [(silent_step ctx hmay).not_starts s act hact] at hs
  | true =>
      cases ev with
      | takeImage proto =>
          have hrefused : step ctx (.takeImage proto) s = (s, []) := by
            simp [step, takeImage, h.unique, hp]
          simp [hrefused] at hstart
      | notifyMountState state => exact .inl ((notifyMountState_starts hplan state).mp hstart)
      | coupleCamera conn cid => exact .inl ((coupleCamera_starts h hplan conn cid).mp hstart)
      | obsplanTick =>
          right
          simp only [step] at hstart ⊢
          rcases threadObsplan_spec h with hstay | ⟨q, hq, -, -, -, hm⟩ | habort
          · simp [hstay] at hstart
          · obtain rfl : q = p := Option.some.inj (hq.symm.trans hp)
            exact hm
          · obtain ⟨act, hact, hs⟩ := hstart
            rw [habort] at hact
            simp [(silent_abort ctx).not_starts s act hact] at hs
      | _ => cases hmay

/-- A resumption does start an exposure, and publishes nothing. -/
theorem resumes_starts {ctx : Ctx} {s : Obss} (h : s.Owns ctx) (hplan : s.plan.isSome) {ev : Event}
    (hev : s.Resumes ev) : (∃ act ∈ (step ctx ev s).2, act.startsExposure = true) ∧
      planStatuses (step ctx ev s).2 = [] := by
  cases ev with
  | notifyMountState state =>
      exact ⟨(notifyMountState_starts hplan state).mpr hev,
        ((quiet_notifyMountState ctx state).planInert s).2⟩
  | coupleCamera conn cid =>
      exact ⟨(coupleCamera_starts h hplan conn cid).mpr hev, (planInert_coupleCamera ctx conn cid s).2⟩
  | _ => cases hev

/-- The status of the plan in hand is the last one published for it. -/
theorem step_publishedStatus {ctx : Ctx} {s : Obss} (h : s.Owns ctx) {hist : List Act}
    (hs : ∀ p, s.plan = some p → publishedStatus p.addr hist = s.planState.state) (ev : Event) :
    ∀ p, (step ctx ev s).1.plan = some p →
      publishedStatus p.addr (hist ++ (step ctx ev s).2) = (step ctx ev s).1.planState.state := by
  intro p hp
  rw [publishedStatus_append]
  rcases step_plan h ev with ⟨-, hv, hm⟩ | ⟨plan, -, hnew, hst, hm⟩ | ⟨q, -, hq, -, hq', hst, hm⟩ |
    ⟨-, hnone, -⟩ | ⟨_, _, -, -, hnone, -⟩
  · obtain ⟨hplan, hstate⟩ := Prod.mk.inj hv
    rw [hm, hstate]
    exact hs p (hplan ▸ hp)
  · obtain rfl : ⟨ctx.fresh, plan⟩ = p := Option.some.inj (hnew.symm.trans hp)
    rw [hm, hst]
    simp [statusAfter]
  · obtain rfl : q = p := Option.some.inj (hq'.symm.trans hp)
    rw [hm, hst]
    simp [statusAfter]
  · rw [hnone] at hp; cases hp
  · rw [hnone] at hp; cases hp

end Obss

namespace Solo

open Obss

/-- Every exposure that a step starts under a plan is started in the step that
publishes the plan running, or while it is published to run. -/
def StartsInTime (posix : PosixTime) (c : Config Solo Act) (i : Input) : Prop :=
  ∀ p, c.state.obss.plan = some p →
    ∀ act ∈ (Obss.step (c.state.ctx posix i) i.ev c.state.obss).2, act.startsExposure = true →
      publishedStatus p.addr c.hist = some obsplanRunning ∨
        (p.addr, some obsplanRunning) ∈
          planStatuses (Obss.step (c.state.ctx posix i) i.ev c.state.obss).2

/-- A plan that has not been started is resumed. -/
def ResumesWaiting (s : Obss) (ev : Event) : Prop :=
  s.plan.isSome ∧ s.planState.state ≠ some obsplanRunning ∧ s.Resumes ev

def StatusInv (c : Config Solo Act) : Prop :=
  ∀ p, c.state.obss.plan = some p → publishedStatus p.addr c.hist = c.state.obss.planState.state

theorem startsInTime_iff {posix : PosixTime} {c : Config Solo Act} (hinv : StatusInv c)
    (i : Input) : StartsInTime posix c i ↔ ¬ ResumesWaiting c.state.obss i.ev := by
  have hown : c.state.obss.Owns (c.state.ctx posix i) := fun _ _ => rfl
  constructor
  · rintro h ⟨hplan, hwaits, hev⟩
    obtain ⟨p, hp⟩ := Option.isSome_iff_exists.mp hplan
    obtain ⟨⟨act, hact, hstart⟩, hm⟩ := resumes_starts hown hplan hev
    rcases h p hp act hact hstart with hrun | hrun
    · exact hwaits ((hinv p hp).symm.trans hrun)
    · rw [hm] at hrun
      cases hrun
  · intro h p hp act hact hstart
    rcases step_starts hown hp ⟨act, hact, hstart⟩ with hev | hm
    · refine .inl ((hinv p hp).trans ?_)
      by_contra hwaits
      exact h ⟨by simp [hp], hwaits, hev⟩
    · exact .inr (by simp [hm])

/-- A system never starts an exposure under a plan that only waits, if and only
if no waiting plan sees the mount arrive or a camera come back. -/
theorem startsInTime_iff_no_resumesWaiting (posix : PosixTime) (gid uid : Text) (type : ObssType)
    (now : Time) (is : List Input) :
    (solo posix).Each (StartsInTime posix) (start gid uid type now) is ↔
      (solo posix).Each (fun c i => ¬ ResumesWaiting c.state.obss i.ev)
        (start gid uid type now) is := by
  have hinv : (solo posix).Always StatusInv (start gid uid type now) is := by
    refine Machine.always_of_invariant (fun p hp => ?_) fun c i h => ?_
    · simp [start, Obss.create] at hp
    · exact step_publishedStatus (fun _ _ => rfl) h i.ev
  exact Machine.each_congr hinv.each fun c i h => startsInTime_iff h i

/-- A plan is taken over while the mount still slews for a command; no round of
`thread_obsplan` comes in between. -/
def slewingTakeover : List Input :=
  [Event.coupleMount 1, .coupleCamera 2 "001".toList, .notifyMountState mountSlewing,
    .notifyPlan {}, .notifyMountState mountTracking].map Event.plain

theorem not_startsInTime : ¬ ∀ (posix : PosixTime) (gid uid : Text) (type : ObssType)
    (now : Time) (is : List Input),
    (solo posix).Each (StartsInTime posix) (start gid uid type now) is := by
  intro h
  obtain ⟨-, -, -, -, hlast, -⟩ := h .blank "001".toList "001".toList .gwac 0 slewingTakeover
  have hstart := hlast { addr := 3, plan := {} } (by decide +kernel)
    (.camera 2 (.expose { command := some expStart })) (by decide +kernel) rfl
  revert hstart
  decide +kernel

end Solo

end Gtoaes
