import Gtoaes.Obss.PlanLife

/-!
The cameras and the counters over them. Three kinds of event reach them: a
camera is coupled, it reports, it closes. What each does to the entries and to
`SystemState` is said here once; everything else is inert.
-/

namespace Gtoaes

open Lib Lib.Handler

namespace CameraCore

def live (it : CameraCore) : Bool := it.ptrTcp.isSome

/-- The last stored report has the camera above `CAMCTL_IDLE`. -/
def exposing (it : CameraCore) : Bool := it.live && it.reported && camctlIdle < it.info.state

/-- The last stored report has the camera waiting in `CAMCTL_WAIT_FLAT`. -/
def waitsFlat (it : CameraCore) : Bool := it.live && it.reported && it.info.state = camctlWaitFlat

end CameraCore

/-- The chain of `process_protocol_camera`, as far as it counts. -/
def SystemState.report (t : SystemState) (new old : ℤ) : SystemState :=
  if new = old then t
  else if new ≤ camctlIdle ∧ camctlIdle < old then t.leaveExpose
  else if camctlIdle < new ∧ old ≤ camctlIdle then t.enterExpose
  else if new = camctlWaitFlat then t.enterWaitFlat
  else if old = camctlWaitFlat then t.leaveWaitFlat
  else t

theorem SystemState.report_camonline (t : SystemState) (new old : ℤ) :
    (t.report new old).camonline = t.camonline := by
  unfold report
  repeat' split
  all_goals rfl

theorem SystemState.report_exposing (t : SystemState) (new old : ℤ) :
    (t.report new old).exposing =
      if new ≤ camctlIdle ∧ camctlIdle < old then t.exposing - 1
      else if camctlIdle < new ∧ old ≤ camctlIdle then t.exposing + 1
      else t.exposing := by
  unfold report
  by_cases hsame : new = old
  · rw [if_pos hsame, if_neg (by omega), if_neg (by omega)]
  · rw [if_neg hsame]
    repeat' split
    all_goals rfl

theorem SystemState.report_waitflat (t : SystemState) (new old : ℤ) :
    (t.report new old).waitflat =
      if new = old then t.waitflat
      else if new ≤ camctlIdle ∨ old ≤ camctlIdle then t.waitflat
      else if new = camctlWaitFlat then t.waitflat + 1
      else if old = camctlWaitFlat then t.waitflat - 1
      else t.waitflat := by
  have hflat : camctlIdle < camctlWaitFlat := by decide
  unfold report
  by_cases hsame : new = old
  · rw [if_pos hsame, if_pos hsame]
  · rw [if_neg hsame, if_neg hsame]
    repeat' split
    all_goals first | rfl | omega

/-- Whether that chain posts `MSG_FLAT_RESLEW`. -/
def SystemState.reslews (t : SystemState) (new old : ℤ) : Prop :=
  new = camctlWaitFlat ∧ camctlIdle < old ∧ old ≠ camctlWaitFlat ∧ t.exposing = t.waitflat + 1

instance (t : SystemState) (new old : ℤ) : Decidable (t.reslews new old) :=
  inferInstanceAs (Decidable (_ ∧ _ ∧ _ ∧ _))

/-- The observer of the reslew message. -/
def Act.reslew : Act → Option Unit
  | .flatReslew => some ()
  | _ => none

namespace Obss

/-- How many entries meet a test. -/
def countCameras (s : Obss) (q : CameraCore → Bool) : ℕ := s.core.cameras.countP q

theorem countCameras_eq (s : Obss) (q : CameraCore → Bool) :
    s.countCameras q = s.camInfoVec.countP fun it => q it.core :=
  List.countP_map ..

def camView (s : Obss) : List CameraCore × SystemState := (s.core.cameras, s.sysState)

/-- Inert in the cameras and their counters. -/
abbrev CamInert (h : Handler Obss Act) : Prop := Inert camView Act.reslew h

theorem Quiet.camInert {h : Handler Obss Act} (hh : Quiet Act.core h) : CamInert h := by
  refine Inert.mono (g := fun k => (k.cameras, k.sysState)) (k := Act.reslew) hh (fun _ => rfl) ?_
  intro act
  cases act <;> rfl

theorem camInert_closePlan (ctx : Ctx) (code : ℤ) : CamInert (closePlan ctx code) := by
  intro s
  unfold closePlan
  split <;> exact ⟨rfl, rfl⟩

theorem camInert_abort (ctx : Ctx) : CamInert (abort ctx) :=
  .cons (Quiet.camInert (.when (quiet_pointing mute_core _ _ _ _ _ _)))
    (.cons (Quiet.camInert (.when (quiet_camera _ _))) (.cons (.when (camInert_closePlan ctx _)) .nil))

theorem camInert_park (ctx : Ctx) : CamInert (park ctx) :=
  .cons (Quiet.camInert (.when (quiet_pointing mute_core _ _ _ _ _ _)))
    (.cons (Quiet.camInert (.when (quiet_camera _ _))) (.cons (.when (camInert_closePlan ctx _)) .nil))

theorem camInert_notifyPlan (ctx : Ctx) (p : PlanPtr) : CamInert (notifyPlan ctx p) := by
  intro s
  unfold notifyPlan
  split
  · exact ⟨rfl, rfl⟩
  · exact Inert.cons (.when (camInert_abort ctx)) (.cons (fun _ => ⟨rfl, rfl⟩) .nil) s

theorem camInert_processNewPlan (ctx : Ctx) (p : PlanPtr) : CamInert (processNewPlan ctx p) := by
  intro s
  exact Inert.cons (Quiet.camInert (.when (quiet_pointing mute_core _ _ _ _ _ _)))
    (.cons (Quiet.camInert (quiet_camera _ _)) (.cons (Quiet.camInert (.when (quiet_camera _ _)))
      (.cons (fun _ => ⟨rfl, rfl⟩) .nil))) s

theorem camInert_threadObsplan (ctx : Ctx) : CamInert (threadObsplan ctx) := by
  intro s
  unfold threadObsplan
  split
  · exact ⟨rfl, rfl⟩
  · split
    · exact ⟨rfl, rfl⟩
    · split
      · exact Inert.when (.cons (camInert_processNewPlan ctx _) (.cons (fun _ => ⟨rfl, rfl⟩) .nil)) s
      · split
        · exact Inert.when (camInert_abort ctx) s
        · exact ⟨rfl, rfl⟩

/-- The frame rule of the cameras. -/
theorem camInert_step (ctx : Ctx) {ev : Event} (hcouple : ∀ conn cid, ev ≠ .coupleCamera conn cid)
    (hclose : ∀ conn peer, ev ≠ .onTcpClose conn peer)
    (hreport : ∀ conn m, ev ≠ .deviceLine conn (.camera m)) : CamInert (step ctx ev) := by
  cases ev with
  | notifyPlan plan => exact camInert_notifyPlan ctx _
  | abort => exact camInert_abort ctx
  | park => exact camInert_park ctx
  | obsplanTick => exact camInert_threadObsplan ctx
  | coupleCamera conn cid => exact absurd rfl (hcouple conn cid)
  | onTcpClose conn peer => exact absurd rfl (hclose conn peer)
  | deviceLine conn proto =>
      cases proto with
      | camera m => exact absurd rfl (hreport conn m)
      | _ => exact Inert.skip
  | _ => exact Quiet.camInert (quiet_step_core ctx rfl)

theorem camInert_resumePlan (ctx : Ctx) (conn : Conn) (cid : Text) :
    CamInert (resumePlan ctx conn cid) := by
  intro s
  unfold resumePlan
  split
  · exact ⟨rfl, rfl⟩
  · split
    · exact ⟨rfl, rfl⟩
    · exact Inert.cons (.emit fun _ => rfl)
        (.cons (.when (Quiet.camInert (quiet_camera _ _))) .nil) s

/-- A camera is refused, comes back, or is new. -/
theorem coupleCamera_cameras (ctx : Ctx) (s : Obss) (conn : Conn) (cid : Text) :
    (∃ it, s.camInfoVec.find? (hasCid cid) = some it ∧ it.ptrTcp.isSome = true ∧
      (coupleCamera ctx conn cid s).1.camView = s.camView) ∨
    (∃ it, s.camInfoVec.find? (hasCid cid) = some it ∧ it.ptrTcp = none ∧
      (coupleCamera ctx conn cid s).1.camView =
        ((updateFirst (hasCid cid) (recoupled conn) s.camInfoVec).map CameraInfo.core,
          s.sysState.cameraOnline true)) ∨
    (s.camInfoVec.find? (hasCid cid) = none ∧ (coupleCamera ctx conn cid s).1.camView =
      (s.core.cameras ++ [(newCamera ctx conn cid).core], s.sysState.cameraOnline true)) := by
  unfold coupleCamera
  cases hfind : s.camInfoVec.find? (hasCid cid) with
  | none =>
      refine .inr (.inr ⟨rfl, ?_⟩)
      simp only [all_cons, all_nil, skip_apply, setSysState, update_apply, camView, core,
        List.map_append, List.map_singleton]
  | some it =>
      cases hconn : it.ptrTcp with
      | some old => exact .inl ⟨it, rfl, by simp [hconn], by simp [hconn]⟩
      | none =>
          refine .inr (.inl ⟨it, rfl, hconn, ?_⟩)
          simp only [hconn, Option.isSome_none, Bool.false_eq_true, if_false, all_cons]
          exact ((camInert_resumePlan ctx conn cid) _).1

theorem coupleCamera_reslew (ctx : Ctx) (s : Obss) (conn : Conn) (cid : Text) :
    (coupleCamera ctx conn cid s).2.filterMap Act.reslew = [] := by
  unfold coupleCamera
  split
  · split
    · rfl
    · simp only [all_cons, all_nil, skip_apply, updateCamera, setSysState, update_apply, emit_apply,
        List.nil_append, List.append_nil, List.filterMap_append,
        ((camInert_resumePlan ctx conn cid) _).2]
      split <;> rfl
  · rfl

/-- The connection of a camera closes, or some other one does. -/
theorem onTcpClose_cameras (ctx : Ctx) (s : Obss) (conn : Conn) (peer : PeerType) :
    ((∀ it, (peer = .cameraGFT ∨ peer = .cameraGWAC) →
        s.camInfoVec.find? (hasConn conn) ≠ some it) ∧
      (onTcpClose ctx conn peer s).1.camView = s.camView) ∨
    (∃ it, (peer = .cameraGFT ∨ peer = .cameraGWAC) ∧
      s.camInfoVec.find? (hasConn conn) = some it ∧
      (onTcpClose ctx conn peer s).1.camView =
        ((updateFirst (hasConn conn) closed s.camInfoVec).map CameraInfo.core,
         (if camctlIdle < it.info.state then s.sysState.leaveExpose else s.sysState).cameraOnline
           false)) := by
  unfold onTcpClose
  split
  · rename_i hpeer
    split
    · rename_i hnone
      exact .inl ⟨fun it _ => by simp [hnone], rfl⟩
    · rename_i it hfind
      refine .inr ⟨it, hpeer, hfind, ?_⟩
      by_cases hexp : camctlIdle < it.info.state
      · simp only [all_cons, all_nil, skip_apply, if_pos hexp]
        rw [when_true (by simpa using hexp)]
        rfl
      · simp only [all_cons, all_nil, skip_apply, if_neg hexp]
        rw [when_false (by simpa using hexp)]
        rfl
  · rename_i hpeer
    exact .inl ⟨fun it hp => absurd hp hpeer, rfl⟩

theorem onTcpClose_reslew (ctx : Ctx) (s : Obss) (conn : Conn) (peer : PeerType) :
    (onTcpClose ctx conn peer s).2.filterMap Act.reslew = [] := by
  unfold onTcpClose
  split
  · split
    · rfl
    · rename_i it _
      simp only [all_cons, all_nil, skip_apply]
      rcases when_cases (fun _ => decide (it.info.state > camctlIdle))
        (setSysState (·.leaveExpose)) s with ⟨-, heq⟩ | ⟨-, heq⟩ <;> rw [heq] <;> rfl
  · rfl

theorem checkCameraState_cameras (ctx : Ctx) (new old : ℤ) (s : Obss) :
    (checkCameraState ctx new old s).1.camView = (s.core.cameras, s.sysState.report new old) ∧
      (checkCameraState ctx new old s).2.filterMap Act.reslew =
        if s.sysState.reslews new old then [()] else [] := by
  unfold checkCameraState SystemState.report
  have hflat : camctlIdle < camctlWaitFlat := by decide
  split
  · rw [if_neg (by rintro ⟨hnew, hold, hne, -⟩; omega)]
    exact ⟨rfl, rfl⟩
  · split
    · -- the plan may end here, the cameras are as they are
      rw [if_neg (by rintro ⟨hnew, hold, hne, -⟩; omega)]
      rcases when_cases (fun s => !s.sysState.anyExposing && s.unique ctx)
        (closePlan ctx obsplanOver) (setSysState (·.leaveExpose) s).1 with ⟨-, heq⟩ | ⟨-, heq⟩
      · obtain ⟨hv, ho⟩ := camInert_closePlan ctx obsplanOver (setSysState (·.leaveExpose) s).1
        simp only [all_cons, all_nil, skip_apply, heq, List.append_nil]
        exact ⟨hv, ho⟩
      · simp only [all_cons, all_nil, skip_apply, heq]
        exact ⟨rfl, rfl⟩
    · split
      · rw [if_neg (by rintro ⟨hnew, hold, hne, -⟩; omega)]
        exact ⟨rfl, rfl⟩
      · split
        · rename_i hsame _ _ hnew
          have hold : camctlIdle < old ∧ old ≠ camctlWaitFlat := by omega
          rcases when_cases (fun s : Obss => s.sysState.exposing == s.sysState.waitflat)
            (emit fun _ => [Act.flatReslew]) (setSysState (·.enterWaitFlat) s).1 with
            ⟨hall, heq⟩ | ⟨hall, heq⟩
          · have hcount : s.sysState.exposing = s.sysState.waitflat + 1 := by
              simpa [setSysState, SystemState.enterWaitFlat] using hall
            rw [if_pos ⟨hnew, hold.1, hold.2, hcount⟩]
            simp only [all_cons, all_nil, skip_apply, heq]
            exact ⟨rfl, rfl⟩
          · have hcount : s.sysState.exposing ≠ s.sysState.waitflat + 1 := by
              simpa [setSysState, SystemState.enterWaitFlat] using hall
            rw [if_neg (by rintro ⟨-, -, -, hall⟩; exact hcount hall)]
            simp only [all_cons, all_nil, skip_apply, heq]
            exact ⟨rfl, rfl⟩
        · split
          · rw [if_neg (by rintro ⟨hnew, -⟩; tauto)]
            exact ⟨rfl, rfl⟩
          · rw [if_neg (by rintro ⟨hnew, -⟩; tauto)]
            exact ⟨rfl, rfl⟩

/-- A camera reports. -/
theorem report_cameras (ctx : Ctx) (s : Obss) (conn : Conn) (m : KVCamera) :
    (processProtocolCamera ctx conn (.camera m) s).1.camView =
        ((updateFirst (hasConn conn) (stored (camReport ctx m)) s.camInfoVec).map CameraInfo.core,
          s.sysState.report (camReport ctx m).state (s.oldState conn)) ∧
      (processProtocolCamera ctx conn (.camera m) s).2.filterMap Act.reslew =
        if s.sysState.reslews (camReport ctx m).state (s.oldState conn) then [()] else [] := by
  have hcheck := checkCameraState_cameras ctx (camReport ctx m).state (s.oldState conn)
    (storeReport conn (camReport ctx m) s).1
  simp only [processProtocolCamera, all_cons, all_nil, skip_apply, List.append_nil]
  exact hcheck

end Obss

end Gtoaes
