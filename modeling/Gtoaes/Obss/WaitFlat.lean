import Gtoaes.Obss.Counters

/-!
Whether the counter of cameras that wait for a flat field is right. A camera is
counted in and out only between states above `CAMCTL_IDLE`: one that goes idle
or off-line while it waits stays counted, and one that waits at once is never
counted.
-/

namespace Gtoaes

open Lib

namespace Obss

/-- `waitflat` counts what it stands for. -/
def WaitFlatExact (s : Obss) : Prop := s.sysState.waitflat = s.countCameras CameraCore.waitsFlat

theorem WaitFlatExact.congr {s s' : Obss} (h : s'.camView = s.camView) :
    s'.WaitFlatExact ↔ s.WaitFlatExact := by
  obtain ⟨hcams, hsys⟩ := Prod.mk.inj h
  rw [WaitFlatExact, WaitFlatExact, countCameras, countCameras, hcams, hsys]

theorem waitFlatExact_of_view {s' : Obss} {cams : List CameraInfo} {t : SystemState}
    (h : s'.camView = (cams.map CameraInfo.core, t)) :
    s'.WaitFlatExact ↔ t.waitflat = cams.countP (fun it => it.core.waitsFlat) := by
  obtain ⟨hcams, hsys⟩ := Prod.mk.inj h
  rw [WaitFlatExact, countCameras, hcams, hsys, List.countP_map]
  rfl

theorem waitsFlat_core (it : CameraInfo) : it.core.waitsFlat = true ↔
    it.ptrTcp.isSome = true ∧ it.reported = true ∧ it.info.state = camctlWaitFlat := by
  change (it.ptrTcp.isSome && it.reported && decide (it.info.state = camctlWaitFlat)) = true ↔ _
  rw [Bool.and_eq_true, Bool.and_eq_true, decide_eq_true_iff, and_assoc]

/-- A report of `new` that miscounts a camera whose entry is `it`. -/
def MiscountsWait (s : Obss) (it : CameraInfo) (new : ℤ) : Prop :=
  if new = camctlWaitFlat then
    it.info.state ≤ camctlIdle ∨ (it.info.state = camctlWaitFlat ∧ it.reported = false)
  else
    it.info.state = camctlWaitFlat ∧
      ((it.reported = true ∧ new ≤ camctlIdle) ∨
        (it.reported = false ∧ camctlIdle < new ∧ s.sysState.waitflat ≠ 0))

/-- The steps that miscount: a camera that waits goes idle or off-line, one that
was idle waits at once, or the unset state of an entry is mistaken for a report. -/
def MiscountsFlat (ctx : Ctx) (s : Obss) : Event → Prop
  | .deviceLine conn (.camera m) =>
      ∃ it, s.camInfoVec.find? (hasConn conn) = some it ∧
        MiscountsWait s it (camReport ctx m).state
  | .onTcpClose conn peer =>
      (peer = .cameraGFT ∨ peer = .cameraGWAC) ∧
      ∃ it, s.camInfoVec.find? (hasConn conn) = some it ∧ it.reported = true ∧
        it.info.state = camctlWaitFlat
  | _ => False

/-- A report keeps the counter right unless it is among the bad steps. -/
theorem report_waits {ctx : Ctx} {s : Obss} (h : s.WaitFlatExact) (conn : Conn) (m : KVCamera) :
    (processProtocolCamera ctx conn (.camera m) s).1.WaitFlatExact ↔
      ¬ MiscountsFlat ctx s (.deviceLine conn (.camera m)) := by
  rw [WaitFlatExact, countCameras_eq] at h
  rw [waitFlatExact_of_view (report_cameras ctx s conn m).1, SystemState.report_waitflat]
  cases hfind : s.camInfoVec.find? (hasConn conn) with
  | none =>
      have hold : s.oldState conn = camctlError := by simp [oldState, hfind]
      have herror : camctlError ≤ camctlIdle := by decide
      rw [updateFirst_of_find?_none hfind, hold]
      refine iff_of_true ?_ (by simp [MiscountsFlat, hfind])
      split
      · exact h
      · rw [if_pos (.inr herror)]
        exact h
  | some it =>
      have hconn : it.ptrTcp.isSome = true := by simp [live_of_hasConn hfind]
      have hconn' : (stored (camReport ctx m) it).ptrTcp.isSome = true := hconn
      have hrep' : (stored (camReport ctx m) it).reported = true := rfl
      have hinfo' : (stored (camReport ctx m) it).info = camReport ctx m := rfl
      have hold : s.oldState conn = it.info.state := by simp [oldState, hfind]
      have hflat : camctlIdle < camctlWaitFlat := by decide
      have hbad : MiscountsFlat ctx s (.deviceLine conn (.camera m)) ↔
          MiscountsWait s it (camReport ctx m).state := by simp [MiscountsFlat, hfind]
      have hcount := countP_updateFirst hfind (stored (camReport ctx m)) fun it => it.core.waitsFlat
      simp only [waitsFlat_core, hconn, hconn', hrep', hinfo', true_and] at hcount
      rw [hold, hbad, MiscountsWait]
      cases hrep : it.reported with
      | true =>
          simp only [hrep, true_and, reduceCtorEq, and_false, false_and, or_false] at hcount ⊢
          split_ifs at hcount ⊢ <;> omega
      | false =>
          simp only [hrep, reduceCtorEq, false_and, if_false, true_and, false_or, and_true]
            at hcount ⊢
          split_ifs at hcount ⊢ <;> omega

/-- A close never counts a camera out. -/
theorem close_waits {ctx : Ctx} {s : Obss} (h : s.WaitFlatExact) (conn : Conn) (peer : PeerType) :
    (onTcpClose ctx conn peer s).1.WaitFlatExact ↔
      ¬ MiscountsFlat ctx s (.onTcpClose conn peer) := by
  rcases onTcpClose_cameras ctx s conn peer with ⟨hnone, hv⟩ | ⟨it, hpeer, hfind, hv⟩
  · rw [WaitFlatExact.congr hv]
    refine iff_of_true h ?_
    rintro ⟨hpeer, it, hfind, -⟩
    exact hnone it hpeer hfind
  · rw [WaitFlatExact, countCameras_eq] at h
    rw [waitFlatExact_of_view hv]
    have hconn : it.ptrTcp.isSome = true := by simp [live_of_hasConn hfind]
    have hgone : (closed it).ptrTcp.isSome = false := rfl
    have hbad : MiscountsFlat ctx s (.onTcpClose conn peer) ↔
        it.reported = true ∧ it.info.state = camctlWaitFlat := by
      simp [MiscountsFlat, hfind, hpeer]
    have hcount := countP_updateFirst hfind closed fun it => it.core.waitsFlat
    have hkept : ((if camctlIdle < it.info.state then s.sysState.leaveExpose else
        s.sysState).cameraOnline false).waitflat = s.sysState.waitflat := by split <;> rfl
    simp only [waitsFlat_core, hconn, hgone, true_and, Bool.false_eq_true, false_and, if_false,
      add_zero] at hcount
    rw [hkept, hbad]
    split_ifs at hcount with hwait
    · simp only [hwait, and_self, not_true_eq_false, iff_false]
      omega
    · simp only [hwait, not_false_eq_true, iff_true]
      omega

theorem couple_waits {ctx : Ctx} {s : Obss} (h : s.WaitFlatExact) (conn : Conn) (cid : Text) :
    (coupleCamera ctx conn cid s).1.WaitFlatExact := by
  rcases coupleCamera_cameras ctx s conn cid with ⟨-, -, -, hv⟩ | ⟨it, hfind, hconn, hv⟩ | ⟨-, hv⟩
  · exact (WaitFlatExact.congr hv).mpr h
  · rw [WaitFlatExact, countCameras_eq] at h
    rw [waitFlatExact_of_view hv]
    have hcount := countP_updateFirst hfind (recoupled conn) fun it => it.core.waitsFlat
    have hfresh : (recoupled conn it).reported = false := rfl
    simp only [waitsFlat_core, hconn, hfresh, Option.isSome_none, Bool.false_eq_true, false_and,
      and_false, if_false, add_zero] at hcount
    exact h.trans hcount.symm
  · have hview : (coupleCamera ctx conn cid s).1.camView =
        ((s.camInfoVec ++ [newCamera ctx conn cid]).map CameraInfo.core,
          s.sysState.cameraOnline true) := by
      rw [hv, List.map_append]
      rfl
    rw [WaitFlatExact, countCameras_eq] at h
    rw [waitFlatExact_of_view hview, List.countP_append, ← h]
    rfl

/-- One step and the counter. -/
theorem step_waits {ctx : Ctx} {s : Obss} (h : s.WaitFlatExact) (ev : Event) :
    (step ctx ev s).1.WaitFlatExact ↔ ¬ MiscountsFlat ctx s ev := by
  have hinert : CamInert (step ctx ev) → ((step ctx ev s).1.WaitFlatExact ↔ ¬ False) := fun hi =>
    iff_of_true ((WaitFlatExact.congr (hi s).1).mpr h) id
  cases ev with
  | coupleCamera conn cid => exact iff_of_true (couple_waits h conn cid) id
  | onTcpClose conn peer => exact close_waits h conn peer
  | deviceLine conn proto =>
      cases proto with
      | camera m => exact report_waits h conn m
      | _ => exact hinert Handler.Inert.skip
  | _ => exact hinert (camInert_step ctx (by simp) (by simp) (by simp))

/-- How many cameras are above `CAMCTL_IDLE` once the entry `it` has reported. -/
def exposingWith (s : Obss) (it : CameraInfo) : ℕ :=
  s.countCameras CameraCore.exposing + if it.reported then 0 else 1

/-- A report for which the flat field is taken up although `exposing` has fallen
behind the cameras. -/
def ReslewsBehind (ctx : Ctx) (s : Obss) : Event → Prop
  | .deviceLine conn (.camera m) =>
      ∃ it, s.camInfoVec.find? (hasConn conn) = some it ∧
        s.sysState.reslews (camReport ctx m).state it.info.state ∧
        s.sysState.exposing < s.exposingWith it
  | _ => False

/-- Only a report posts the message, under the condition of the chain. -/
theorem reslew_iff (ctx : Ctx) (s : Obss) (ev : Event) :
    Act.flatReslew ∈ (step ctx ev s).2 ↔ ∃ conn m, ev = .deviceLine conn (.camera m) ∧
      s.sysState.reslews (camReport ctx m).state (s.oldState conn) := by
  have hmem : ∀ acts : List Act, Act.flatReslew ∈ acts ↔ acts.filterMap Act.reslew ≠ [] := by
    intro acts
    rw [ne_eq, List.filterMap_eq_nil_iff]
    constructor
    · intro h hnone
      cases hnone _ h
    · intro h
      by_contra hnot
      refine h fun act hact => ?_
      cases act with
      | flatReslew => exact absurd hact hnot
      | _ => rfl
  rw [hmem]
  have hinert : CamInert (step ctx ev) → (∀ conn m, ev ≠ .deviceLine conn (.camera m)) →
      ((step ctx ev s).2.filterMap Act.reslew ≠ [] ↔ ∃ conn m, ev = .deviceLine conn (.camera m) ∧
        s.sysState.reslews (camReport ctx m).state (s.oldState conn)) := by
    intro hi hev
    refine iff_of_false (fun h => h (hi s).2) ?_
    rintro ⟨conn, m, he, -⟩
    exact hev conn m he
  cases ev with
  | coupleCamera conn cid =>
      refine iff_of_false (fun h => h (coupleCamera_reslew ctx s conn cid)) ?_
      rintro ⟨_, _, he, -⟩
      cases he
  | onTcpClose conn peer =>
      refine iff_of_false (fun h => h (onTcpClose_reslew ctx s conn peer)) ?_
      rintro ⟨_, _, he, -⟩
      cases he
  | deviceLine conn proto =>
      cases proto with
      | camera m =>
          rw [show (step ctx (.deviceLine conn (.camera m)) s).2.filterMap Act.reslew = _ from
            (report_cameras ctx s conn m).2]
          by_cases hres : s.sysState.reslews (camReport ctx m).state (s.oldState conn)
          · rw [if_pos hres]
            exact iff_of_true (by simp) ⟨conn, m, rfl, hres⟩
          · rw [if_neg hres]
            refine iff_of_false (by simp) ?_
            rintro ⟨_, _, he, h⟩
            cases he
            exact hres h
      | _ =>
          refine hinert Handler.Inert.skip fun _ _ he => ?_
          cases he
  | _ => exact hinert (camInert_step ctx (by simp) (by simp) (by simp)) (by simp)

/-- Every camera above `CAMCTL_IDLE` waits for a flat field. -/
def AllWait (s : Obss) : Prop :=
  ∀ it ∈ s.camInfoVec, it.ptrTcp.isSome → it.reported = true → camctlIdle < it.info.state →
    it.info.state = camctlWaitFlat

/-- A camera that waits is above `CAMCTL_IDLE`. -/
theorem exposing_of_waitsFlat {it : CameraInfo} (h : it.core.waitsFlat = true) :
    it.core.exposing = true := by
  obtain ⟨hlive, hrep, hstate⟩ := (waitsFlat_core it).mp h
  refine (exposing_core it).mpr ⟨hlive, hrep, ?_⟩
  rw [hstate]
  decide

theorem waitsFlat_le_exposing (s : Obss) :
    s.countCameras CameraCore.waitsFlat ≤ s.countCameras CameraCore.exposing := by
  rw [countCameras_eq, countCameras_eq]
  exact List.countP_mono_left fun it _ h => exposing_of_waitsFlat h

/-- All wait when as many wait as are above `CAMCTL_IDLE`. -/
theorem allWait_iff (s : Obss) : s.AllWait ↔
    s.countCameras CameraCore.waitsFlat = s.countCameras CameraCore.exposing := by
  rw [countCameras_eq, countCameras_eq]
  constructor
  · intro h
    refine List.countP_congr fun it hit => ⟨exposing_of_waitsFlat, fun hexp => ?_⟩
    obtain ⟨hlive, hrep, habove⟩ := (exposing_core it).mp hexp
    exact (waitsFlat_core it).mpr ⟨hlive, hrep, h it hit hlive hrep habove⟩
  · intro h it hit hlive hrep habove
    have hwaits := forall_of_countP_eq (fun it _ => exposing_of_waitsFlat) h it hit
      ((exposing_core it).mpr ⟨hlive, hrep, habove⟩)
    exact ((waitsFlat_core it).mp hwaits).2.2

/-- A report from above `CAMCTL_IDLE` to above it leaves the camera counted, or
has it counted for the first time. -/
theorem exposing_after_report {ctx : Ctx} {s : Obss} {conn : Conn} {m : KVCamera}
    {it : CameraInfo} (hfind : s.camInfoVec.find? (hasConn conn) = some it)
    (hnew : camctlIdle < (camReport ctx m).state) (hold : camctlIdle < it.info.state) :
    (step ctx (.deviceLine conn (.camera m)) s).1.countCameras CameraCore.exposing =
      s.exposingWith it := by
  obtain ⟨hcams, -⟩ := Prod.mk.inj (report_cameras ctx s conn m).1
  have hafter : (step ctx (.deviceLine conn (.camera m)) s).1.countCameras CameraCore.exposing =
      (updateFirst (hasConn conn) (stored (camReport ctx m)) s.camInfoVec).countP
        fun it => it.core.exposing := by
    rw [countCameras, show (step ctx (.deviceLine conn (.camera m)) s).1.core.cameras = _ from hcams,
      List.countP_map]
    rfl
  have hconn : it.ptrTcp.isSome = true := by simp [live_of_hasConn hfind]
  have hconn' : (stored (camReport ctx m) it).ptrTcp.isSome = true := hconn
  have hrep' : (stored (camReport ctx m) it).reported = true := rfl
  have hinfo' : (stored (camReport ctx m) it).info = camReport ctx m := rfl
  have hcount := countP_updateFirst hfind (stored (camReport ctx m)) fun it => it.core.exposing
  simp only [exposing_core, hconn, hconn', hrep', hinfo', hnew, hold, and_true, true_and, if_true]
    at hcount
  rw [hafter, exposingWith, countCameras_eq]
  split_ifs at hcount ⊢ <;> omega

/-- The message comes only when all wait, unless `exposing` has fallen behind. -/
theorem step_reslew {ctx : Ctx} {s : Obss} {ev : Event}
    (hnext : (step ctx ev s).1.WaitFlatExact) :
    (Act.flatReslew ∈ (step ctx ev s).2 → (step ctx ev s).1.AllWait) ↔
      ¬ ReslewsBehind ctx s ev := by
  -- where the chain posts the message, the cameras that wait are as many as `exposing` says
  have hpost : ∀ conn m it, ev = .deviceLine conn (.camera m) →
      s.camInfoVec.find? (hasConn conn) = some it →
      s.sysState.reslews (camReport ctx m).state it.info.state →
      ((step ctx ev s).1.AllWait ↔ ¬ s.sysState.exposing < s.exposingWith it) := by
    rintro conn m it rfl hfind ⟨hnew, hold, hne, hexp⟩
    have hflat : camctlIdle < camctlWaitFlat := by decide
    have hit : s.oldState conn = it.info.state := by simp [oldState, hfind]
    obtain ⟨-, hsys⟩ := Prod.mk.inj (report_cameras ctx s conn m).1
    have hwait : (step ctx (.deviceLine conn (.camera m)) s).1.sysState.waitflat =
        s.sysState.exposing := by
      rw [show (step ctx (.deviceLine conn (.camera m)) s).1.sysState = _ from hsys,
        SystemState.report_waitflat, hit, hnew, if_neg (Ne.symm hne), if_neg (by omega), if_pos rfl,
        hexp]
    have hle := waitsFlat_le_exposing (step ctx (.deviceLine conn (.camera m)) s).1
    rw [WaitFlatExact, hwait] at hnext
    rw [allWait_iff]
    rw [← hnext, exposing_after_report hfind (by omega) hold] at hle ⊢
    omega
  rw [reslew_iff]
  constructor
  · intro h hbehind
    cases ev with
    | deviceLine conn proto =>
        cases proto with
        | camera m =>
            obtain ⟨it, hfind, hres, hlt⟩ := hbehind
            have hit : s.oldState conn = it.info.state := by simp [oldState, hfind]
            exact (hpost conn m it rfl hfind hres).mp (h ⟨conn, m, rfl, hit ▸ hres⟩) hlt
        | _ => exact hbehind
    | _ => exact hbehind
  · rintro h ⟨conn, m, rfl, hres⟩
    cases hfind : s.camInfoVec.find? (hasConn conn) with
    | none =>
        have herror : s.oldState conn = camctlError := by simp [oldState, hfind]
        rw [herror] at hres
        exact absurd hres.2.1 (by decide)
    | some it =>
        have hit : s.oldState conn = it.info.state := by simp [oldState, hfind]
        rw [hit] at hres
        exact (hpost conn m it rfl hfind hres).mpr fun hlt => h ⟨it, hfind, hres, hlt⟩

end Obss

namespace Solo

open Obss

/-- The flat field is taken up only when all cameras at work wait for it. -/
def ReslewWhenAllWait (posix : PosixTime) (c : Config Solo Act) (i : Input) : Prop :=
  Act.flatReslew ∈ (Obss.step (c.state.ctx posix i) i.ev c.state.obss).2 →
    ((solo posix).next c i).state.obss.AllWait

/-- The counter of waiting cameras is right in every state of a run, and the
flat field is taken up only when all cameras at work wait, if and only if no
step miscounts or finds `exposing` fallen behind. -/
theorem waitFlatExact_iff_no_miscounts (posix : PosixTime) (gid uid : Text) (type : ObssType)
    (now : Time) (is : List Input) :
    ((solo posix).Always (fun c => c.state.obss.WaitFlatExact) (start gid uid type now) is ∧
      (solo posix).Each (ReslewWhenAllWait posix) (start gid uid type now) is) ↔
      (solo posix).Each (fun c i => ¬ MiscountsFlat (c.state.ctx posix i) c.state.obss i.ev ∧
        ¬ ReslewsBehind (c.state.ctx posix i) c.state.obss i.ev) (start gid uid type now) is := by
  have hstart : (start gid uid type now).state.obss.WaitFlatExact := rfl
  have hcount : (solo posix).Always (fun c => c.state.obss.WaitFlatExact)
      (start gid uid type now) is ↔ (solo posix).Each
        (fun c i => ¬ MiscountsFlat (c.state.ctx posix i) c.state.obss i.ev)
        (start gid uid type now) is :=
    Machine.always_iff_each Machine.each_true hstart fun c i _ h => step_waits h i.ev
  rw [hcount, Machine.each_and]
  refine and_congr_right fun hok => ?_
  exact Machine.each_congr (hok.with_invariant hstart fun c i h hm => (step_waits h i.ev).mpr hm)
    fun c i h => step_reslew ((step_waits h.1 i.ev).mpr h.2)

/-- A camera that waits for a flat field is stopped and goes idle. -/
def idleFromWait : List Input :=
  [Event.coupleCamera 2 "001".toList,
    .deviceLine 2 (.camera { cid := "001".toList, state := some camctlExposing }),
    .deviceLine 2 (.camera { cid := "001".toList, state := some camctlWaitFlat }),
    .deviceLine 2 (.camera { cid := "001".toList, state := some camctlIdle })].map Event.plain

theorem not_waitFlatExact : ¬ ∀ (posix : PosixTime) (gid uid : Text) (type : ObssType)
    (now : Time) (is : List Input),
    (solo posix).Always (fun c => c.state.obss.WaitFlatExact) (start gid uid type now) is ∧
      (solo posix).Each (ReslewWhenAllWait posix) (start gid uid type now) is := by
  intro h
  have hrun := (h .blank "001".toList "001".toList .gwac 0 idleFromWait).1.exec
  exact absurd hrun (by unfold WaitFlatExact; decide +kernel)

end Solo

end Gtoaes
