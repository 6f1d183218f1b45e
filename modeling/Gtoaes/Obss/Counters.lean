import Gtoaes.Obss.Cameras

/-!
Whether the counters of cameras on-line and of cameras exposing are right. The
first always is. The second counts by stored states, and an entry has a stored
state before the first report: whatever its unset field held. It also counts
reports on connections that no camera is coupled to.
-/

namespace Gtoaes

open Lib

namespace Obss

/-- `camonline` and `exposing` count what they stand for. -/
structure CountersExact (s : Obss) : Prop where
  camonline : s.sysState.camonline = s.countCameras CameraCore.live
  exposing : s.sysState.exposing = s.countCameras CameraCore.exposing

theorem CountersExact.congr {s s' : Obss} (h : s'.camView = s.camView) :
    s'.CountersExact ↔ s.CountersExact := by
  obtain ⟨hcams, hsys⟩ := Prod.mk.inj h
  constructor
  · rintro ⟨hon, hexp⟩
    rw [countCameras, hcams, hsys] at hon hexp
    exact ⟨hon, hexp⟩
  · rintro ⟨hon, hexp⟩
    refine ⟨?_, ?_⟩
    · rw [countCameras, hcams, hsys]; exact hon
    · rw [countCameras, hcams, hsys]; exact hexp

/-- The steps that miscount: a report from a connection without a camera, and
the first report or the close of an entry whose unset state is above
`CAMCTL_IDLE`, unless the counter happens to be zero. -/
def Miscounts (ctx : Ctx) (s : Obss) : Event → Prop
  | .deviceLine conn (.camera m) =>
      (s.camInfoVec.find? (hasConn conn) = none ∧ camctlIdle < (camReport ctx m).state) ∨
      ∃ it, s.camInfoVec.find? (hasConn conn) = some it ∧ it.reported = false ∧
        camctlIdle < it.info.state ∧
        (camctlIdle < (camReport ctx m).state ∨ s.sysState.exposing ≠ 0)
  | .onTcpClose conn peer =>
      (peer = .cameraGFT ∨ peer = .cameraGWAC) ∧
      ∃ it, s.camInfoVec.find? (hasConn conn) = some it ∧ it.reported = false ∧
        camctlIdle < it.info.state ∧ s.sysState.exposing ≠ 0
  | _ => False

theorem countersExact_of_view {s' : Obss} {cams : List CameraInfo} {t : SystemState}
    (h : s'.camView = (cams.map CameraInfo.core, t)) :
    s'.CountersExact ↔ t.camonline = cams.countP (fun it => it.core.live) ∧
      t.exposing = cams.countP (fun it => it.core.exposing) := by
  obtain ⟨hcams, hsys⟩ := Prod.mk.inj h
  constructor
  · rintro ⟨hon, hexp⟩
    rw [countCameras, hcams, hsys, List.countP_map] at hon hexp
    exact ⟨hon, hexp⟩
  · rintro ⟨hon, hexp⟩
    refine ⟨?_, ?_⟩
    · rw [countCameras, hcams, hsys, List.countP_map]; exact hon
    · rw [countCameras, hcams, hsys, List.countP_map]; exact hexp

/-- A camera that is found by its connection is on-line. -/
theorem live_of_hasConn {conn : Conn} {l : List CameraInfo} {it : CameraInfo}
    (h : l.find? (hasConn conn) = some it) : it.ptrTcp = some conn := by
  simpa [hasConn] using List.find?_some h

theorem miscounts_unknown {ctx : Ctx} {s : Obss} {conn : Conn} (m : KVCamera)
    (h : s.camInfoVec.find? (hasConn conn) = none) :
    Miscounts ctx s (.deviceLine conn (.camera m)) ↔ camctlIdle < (camReport ctx m).state := by
  simp [Miscounts, h]

theorem miscounts_report {ctx : Ctx} {s : Obss} {conn : Conn} {it : CameraInfo} (m : KVCamera)
    (h : s.camInfoVec.find? (hasConn conn) = some it) :
    Miscounts ctx s (.deviceLine conn (.camera m)) ↔
      it.reported = false ∧ camctlIdle < it.info.state ∧
        (camctlIdle < (camReport ctx m).state ∨ s.sysState.exposing ≠ 0) := by
  simp [Miscounts, h]

theorem miscounts_close {ctx : Ctx} {s : Obss} {conn : Conn} {it : CameraInfo} {peer : PeerType}
    (hpeer : peer = .cameraGFT ∨ peer = .cameraGWAC)
    (h : s.camInfoVec.find? (hasConn conn) = some it) :
    Miscounts ctx s (.onTcpClose conn peer) ↔
      it.reported = false ∧ camctlIdle < it.info.state ∧ s.sysState.exposing ≠ 0 := by
  simp [Miscounts, h, hpeer]

theorem exposing_core (it : CameraInfo) : it.core.exposing = true ↔
    it.ptrTcp.isSome = true ∧ it.reported = true ∧ camctlIdle < it.info.state := by
  change (it.ptrTcp.isSome && it.reported && decide (camctlIdle < it.info.state)) = true ↔ _
  rw [Bool.and_eq_true, Bool.and_eq_true, decide_eq_true_iff, and_assoc]

/-- A report keeps the counters right unless it is among the bad steps. -/
theorem report_counts {ctx : Ctx} {s : Obss} (h : s.CountersExact) (conn : Conn) (m : KVCamera) :
    (processProtocolCamera ctx conn (.camera m) s).1.CountersExact ↔
      ¬ Miscounts ctx s (.deviceLine conn (.camera m)) := by
  obtain ⟨hon, hexp⟩ := h
  rw [countCameras_eq] at hon hexp
  rw [countersExact_of_view (report_cameras ctx s conn m).1, SystemState.report_camonline,
    SystemState.report_exposing]
  -- a report on a connection without an entry counts against the error state
  cases hfind : s.camInfoVec.find? (hasConn conn) with
  | none =>
      have hold : s.oldState conn = camctlError := by simp [oldState, hfind]
      have herror : camctlError ≤ camctlIdle := by decide
      rw [updateFirst_of_find?_none hfind, hold, miscounts_unknown m hfind, if_neg (by omega)]
      by_cases hnew : camctlIdle < (camReport ctx m).state
      · rw [if_pos ⟨hnew, herror⟩]
        omega
      · rw [if_neg (by omega)]
        omega
  | some it =>
      have hconn : it.ptrTcp.isSome = true := by simp [live_of_hasConn hfind]
      have hold : s.oldState conn = it.info.state := by simp [oldState, hfind]
      have hlive := countP_updateFirst hfind (stored (camReport ctx m)) fun it => it.core.live
      have hcount := countP_updateFirst hfind (stored (camReport ctx m)) fun it => it.core.exposing
      have hwas : it.core.live = true := hconn
      have hstill : (stored (camReport ctx m) it).core.live = true := hconn
      have hconn' : (stored (camReport ctx m) it).ptrTcp.isSome = true := hconn
      have hrep' : (stored (camReport ctx m) it).reported = true := rfl
      have hinfo' : (stored (camReport ctx m) it).info = camReport ctx m := rfl
      rw [if_pos hwas, if_pos hstill] at hlive
      simp only [exposing_core, hconn, hconn', hrep', hinfo', true_and] at hcount
      replace hon := hon.trans (Nat.add_right_cancel hlive).symm
      rw [hold, miscounts_report m hfind]
      cases hrep : it.reported with
      | true =>
          simp only [hrep, true_and, reduceCtorEq, false_and, not_false_eq_true, iff_true] at hcount ⊢
          refine ⟨hon, ?_⟩
          split_ifs at hcount ⊢ <;> omega
      | false =>
          simp only [hrep, reduceCtorEq, false_and, if_false, true_and] at hcount ⊢
          constructor
          · rintro ⟨-, hright⟩
            split_ifs at hcount hright <;> omega
          · intro hok
            refine ⟨hon, ?_⟩
            split_ifs at hcount ⊢ <;> omega

/-- So does a close. -/
theorem close_counts {ctx : Ctx} {s : Obss} (h : s.CountersExact) (conn : Conn) (peer : PeerType) :
    (onTcpClose ctx conn peer s).1.CountersExact ↔ ¬ Miscounts ctx s (.onTcpClose conn peer) := by
  rcases onTcpClose_cameras ctx s conn peer with ⟨hnone, hv⟩ | ⟨it, hpeer, hfind, hv⟩
  · rw [CountersExact.congr hv]
    refine iff_of_true h ?_
    rintro ⟨hpeer, it, hfind, -⟩
    exact hnone it hpeer hfind
  · obtain ⟨hon, hexp⟩ := h
    rw [countCameras_eq] at hon hexp
    rw [countersExact_of_view hv, miscounts_close hpeer hfind]
    have hconn : it.ptrTcp.isSome = true := by simp [live_of_hasConn hfind]
    have hsame : it.core.live = true := hconn
    have hlive := countP_updateFirst hfind closed fun it => it.core.live
    have hcount := countP_updateFirst hfind closed fun it => it.core.exposing
    have hgone : (closed it).core.live = false := rfl
    have hgone' : (closed it).ptrTcp.isSome = false := rfl
    rw [if_pos hsame, if_neg (by simp [hgone])] at hlive
    simp only [exposing_core, hconn, hgone', true_and, Bool.false_eq_true, false_and, if_false,
      add_zero] at hcount
    have hcam : ((if camctlIdle < it.info.state then s.sysState.leaveExpose else s.sysState).cameraOnline
        false).camonline = s.sysState.camonline - 1 := by split <;> rfl
    have hexpose : ((if camctlIdle < it.info.state then s.sysState.leaveExpose else
        s.sysState).cameraOnline false).exposing =
          if camctlIdle < it.info.state then s.sysState.exposing - 1 else s.sysState.exposing := by
      split <;> rfl
    rw [hcam, hexpose]
    -- an entry that has not reported was not counted, whatever state it holds
    cases hrep : it.reported with
    | true =>
        simp only [hrep, true_and, reduceCtorEq, false_and, not_false_eq_true, iff_true] at hcount ⊢
        refine ⟨by omega, ?_⟩
        split_ifs at hcount ⊢ <;> omega
    | false =>
        simp only [hrep, reduceCtorEq, false_and, if_false, true_and] at hcount ⊢
        constructor
        · rintro ⟨-, hright⟩
          split_ifs at hright <;> omega
        · intro hok
          refine ⟨by omega, ?_⟩
          split_ifs <;> omega

/-- A coupling always keeps them right. -/
theorem couple_counts {ctx : Ctx} {s : Obss} (h : s.CountersExact) (conn : Conn) (cid : Text) :
    (coupleCamera ctx conn cid s).1.CountersExact := by
  rcases coupleCamera_cameras ctx s conn cid with ⟨-, -, -, hv⟩ | ⟨it, hfind, hconn, hv⟩ | ⟨-, hv⟩
  · exact (CountersExact.congr hv).mpr h
  · obtain ⟨hon, hexp⟩ := h
    rw [countCameras_eq] at hon hexp
    rw [countersExact_of_view hv]
    have hlive := countP_updateFirst hfind (recoupled conn) fun it => it.core.live
    have hcount := countP_updateFirst hfind (recoupled conn) fun it => it.core.exposing
    have hdead : it.core.live = false := by simp [CameraCore.live, CameraInfo.core, hconn]
    have hback : (recoupled conn it).core.live = true := rfl
    have hfresh : (recoupled conn it).reported = false := rfl
    rw [if_neg (by simp [hdead]), if_pos hback] at hlive
    simp only [exposing_core, hconn, hfresh, Option.isSome_none, Bool.false_eq_true, false_and,
      and_false, if_false, add_zero] at hcount
    refine ⟨?_, hexp.trans hcount.symm⟩
    rw [show (s.sysState.cameraOnline true).camonline = s.sysState.camonline + 1 from rfl]
    omega
  · have hview : (coupleCamera ctx conn cid s).1.camView =
        ((s.camInfoVec ++ [newCamera ctx conn cid]).map CameraInfo.core,
          s.sysState.cameraOnline true) := by
      rw [hv, List.map_append]
      rfl
    obtain ⟨hon, hexp⟩ := h
    rw [countCameras_eq] at hon hexp
    rw [countersExact_of_view hview, List.countP_append, List.countP_append, ← hon, ← hexp]
    exact ⟨rfl, rfl⟩

/-- One step and the counters. -/
theorem step_counts {ctx : Ctx} {s : Obss} (h : s.CountersExact) (ev : Event) :
    (step ctx ev s).1.CountersExact ↔ ¬ Miscounts ctx s ev := by
  have hinert : CamInert (step ctx ev) → ((step ctx ev s).1.CountersExact ↔ ¬ False) := fun hi =>
    iff_of_true ((CountersExact.congr (hi s).1).mpr h) id
  cases ev with
  | coupleCamera conn cid => exact iff_of_true (couple_counts h conn cid) id
  | onTcpClose conn peer => exact close_counts h conn peer
  | deviceLine conn proto =>
      cases proto with
      | camera m => exact report_counts h conn m
      | _ => exact hinert Handler.Inert.skip
  | _ => exact hinert (camInert_step ctx (by simp) (by simp) (by simp))

theorem not_over_of_lastWords {s : Obss} {addr : ℕ} :
    (addr, some obsplanOver) ∉ s.lastWords obsplanInterrupted := by
  intro h
  obtain ⟨p, -, hx⟩ := List.mem_map.mp h
  exact absurd (Prod.mk.inj hx).2 (by decide)

/-- A plan is published over only as the last camera stops. -/
theorem lastStop_of_over {ctx : Ctx} {s : Obss} (h : s.Owns ctx) {ev : Event} {addr : ℕ}
    (hover : (addr, some obsplanOver) ∈ planStatuses (step ctx ev s).2) :
    ∃ conn m, ev = .deviceLine conn (.camera m) ∧ LastStop ctx s conn m := by
  rcases step_plan h ev with ⟨-, -, hm⟩ | ⟨_, -, -, -, hm⟩ | ⟨_, -, -, -, -, -, hm⟩ | ⟨-, -, hm⟩ |
    ⟨conn, m, hev, hstop, -⟩
  · rw [hm] at hover
    cases hover
  · rw [hm] at hover
    rcases List.mem_append.mp hover with hover | hover
    · exact absurd hover not_over_of_lastWords
    · exact absurd (Prod.mk.inj (List.mem_singleton.mp hover)).2 (by decide)
  · rw [hm] at hover
    exact absurd (Prod.mk.inj (List.mem_singleton.mp hover)).2 (by decide)
  · rw [hm] at hover
    exact absurd hover not_over_of_lastWords
  · exact ⟨conn, m, hev, hstop⟩

/-- With the counters right after it, a step that publishes a plan over leaves
no camera above `CAMCTL_IDLE`. -/
theorem idle_of_over {ctx : Ctx} {s : Obss} (h : s.Owns ctx) {ev : Event}
    (hnext : (step ctx ev s).1.CountersExact) {addr : ℕ}
    (hover : (addr, some obsplanOver) ∈ planStatuses (step ctx ev s).2) :
    ∀ it ∈ (step ctx ev s).1.camInfoVec, it.ptrTcp.isSome → it.reported = true →
      it.info.state ≤ camctlIdle := by
  obtain ⟨conn, m, rfl, hnew, hold, hexp⟩ := lastStop_of_over h hover
  obtain ⟨-, hsys⟩ := Prod.mk.inj (report_cameras ctx s conn m).1
  have hzero : (step ctx (.deviceLine conn (.camera m)) s).1.sysState.exposing = 0 := by
    rw [show (step ctx (.deviceLine conn (.camera m)) s).1.sysState = _ from hsys,
      SystemState.report_exposing, if_pos ⟨hnew, hold⟩]
    omega
  have hnone := hnext.exposing
  rw [hzero, countCameras_eq] at hnone
  intro it hit hlive hrep
  by_contra habove
  have hcounted := List.countP_eq_zero.mp hnone.symm it hit
  exact hcounted ((exposing_core it).mpr ⟨hlive, hrep, by omega⟩)

end Obss

namespace Solo

open Obss

/-- A plan is published over only when no camera on-line has last reported a
state above `CAMCTL_IDLE`. -/
def OverWhenIdle (posix : PosixTime) (c : Config Solo Act) (i : Input) : Prop :=
  (∃ addr, (addr, some obsplanOver) ∈
    planStatuses (Obss.step (c.state.ctx posix i) i.ev c.state.obss).2) →
  ∀ it ∈ ((solo posix).next c i).state.obss.camInfoVec, it.ptrTcp.isSome → it.reported = true →
    it.info.state ≤ camctlIdle

theorem countersExact_create (gid uid : Text) (type : ObssType) (now : Time) :
    (Obss.create gid uid type now).CountersExact := ⟨rfl, rfl⟩

/-- The counters are right in every state of a run, and plans end with all
cameras idle, if and only if no step of it miscounts. -/
theorem countersExact_iff_no_miscounts (posix : PosixTime) (gid uid : Text) (type : ObssType)
    (now : Time) (is : List Input) :
    ((solo posix).Always (fun c => c.state.obss.CountersExact) (start gid uid type now) is ∧
      (solo posix).Each (OverWhenIdle posix) (start gid uid type now) is) ↔
      (solo posix).Each (fun c i => ¬ Miscounts (c.state.ctx posix i) c.state.obss i.ev)
        (start gid uid type now) is := by
  have hiff : (solo posix).Always (fun c => c.state.obss.CountersExact) (start gid uid type now) is ↔
      (solo posix).Each (fun c i => ¬ Miscounts (c.state.ctx posix i) c.state.obss i.ev)
        (start gid uid type now) is :=
    Machine.always_iff_each Machine.each_true
      (countersExact_create gid uid type now) fun c i _ h => step_counts h i.ev
  rw [← hiff]
  refine ⟨And.left, fun hexact => ⟨hexact, ?_⟩⟩
  refine ((hiff.mp hexact).with_invariant (countersExact_create gid uid type now)
    fun c i h hok => (step_counts h i.ev).mpr hok).mono ?_
  rintro c i ⟨h, hok⟩ ⟨addr, hover⟩
  exact idle_of_over (fun _ _ => rfl) ((step_counts h i.ev).mpr hok) hover

/-- A camera is coupled to an entry whose unset state happens to be
`CAMCTL_EXPOSING`, and reports just that. -/
def exposingFromUnset : List Input :=
  [{ Event.plain (.coupleCamera 2 "001".toList) with
      unset := { int := fun _ => camctlExposing, dbl := fun _ => .fin 0 } },
    Event.plain (.deviceLine 2 (.camera { cid := "001".toList, state := some camctlExposing }))]

theorem not_countersExact : ¬ ∀ (posix : PosixTime) (gid uid : Text) (type : ObssType)
    (now : Time) (is : List Input),
    (solo posix).Always (fun c => c.state.obss.CountersExact) (start gid uid type now) is ∧
      (solo posix).Each (OverWhenIdle posix) (start gid uid type now) is := by
  intro h
  have hrun := (h .blank "001".toList "001".toList .gwac 0 exposingFromUnset).1.exec
  exact absurd hrun.exposing (by decide +kernel)

end Solo

end Gtoaes
