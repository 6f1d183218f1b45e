import Gtoaes.Obss.Step

/-!
What most events leave alone. The *core* of a system is its plan, the plan's
status, what it knows of its cameras and the counters over them. Most handlers
write to devices, queue commands and keep book of mount and focuser; none of
that reaches the core, and nothing about the core is sent out.
-/

namespace Gtoaes

open Lib Lib.Handler

/-- A camera entry without its focuser. -/
structure CameraCore where
  ptrTcp : Option Conn
  info : CamReport
  reported : Bool
  deriving DecidableEq

def CameraInfo.core (it : CameraInfo) : CameraCore where
  ptrTcp := it.ptrTcp
  info := it.info
  reported := it.reported

structure Core where
  plan : Option PlanPtr
  planState : KVPlan
  cameras : List CameraCore
  sysState : SystemState
  deriving DecidableEq

def Obss.core (s : Obss) : Core where
  plan := s.plan
  planState := s.planState
  cameras := s.camInfoVec.map CameraInfo.core
  sysState := s.sysState

/-- The outputs that tell of the core. -/
def Act.core : Act → Option Act
  | .plan addr state => some (.plan addr state)
  | .flatReslew => some .flatReslew
  | .link _ | .mount _ _ _ | .focus _ _ | .camera _ _ => none

/-- The message that starts an exposure. -/
def KVMsg.startsExposure : KVMsg → Bool
  | .expose m => m.command == some expStart
  | _ => false

/-- An observer of neither mount nor focuser, nor of what is written to the
cameras unless it starts an exposure. -/
structure Mute {β : Type*} (obs : Act → Option β) : Prop where
  link : ∀ conn, obs (.link conn) = none
  mount : ∀ conn req msg, obs (.mount conn req msg) = none
  focus : ∀ conn cmd, obs (.focus conn cmd) = none
  camera : ∀ conn proto, proto.startsExposure = false → obs (.camera conn proto) = none

theorem mute_core : Mute Act.core :=
  ⟨fun _ => rfl, fun _ _ _ => rfl, fun _ _ => rfl, fun _ _ _ => rfl⟩

/-- Whether an event can reach the core. -/
def Event.quiet : Event → Bool
  | .notifyPlan _ | .abort | .park | .coupleCamera _ _ | .onTcpClose _ _ | .deviceLine _ _
  | .obsplanTick => false
  | _ => true

/-- Whether an event can have the system write a start of exposure. -/
def Event.mayStart : Event → Bool
  | .takeImage _ | .notifyMountState _ | .coupleCamera _ _ | .obsplanTick => true
  | _ => false

namespace Obss

section Quiet

variable {β : Type*} {obs : Act → Option β}

/-- Inert in the core, and silent to an observer. -/
abbrev Quiet (obs : Act → Option β) (h : Handler Obss Act) : Prop := Inert core obs h

theorem quiet_updateCamera {f : CameraInfo → CameraInfo} (hf : ∀ it, (f it).core = it.core)
    (p : CameraInfo → Bool) : Quiet obs (updateCamera p f) := by
  refine .update fun s => ?_
  simp only [core, map_updateFirst hf]

theorem filterMap_map_of_mute {ι : Type*} {f : ι → Act} (hf : ∀ i, obs (f i) = none)
    (l : List ι) : (l.map f).filterMap obs = [] := by
  rw [List.filterMap_map]
  exact List.filterMap_eq_nil_iff.mpr fun i _ => hf i

theorem quiet_write2camera {proto : KVMsg} (hproto : ∀ conn, obs (.camera conn proto) = none)
    (cid : Text) : Quiet obs (write2camera proto cid) := by
  refine .emit fun s => ?_
  split
  · exact filterMap_map_of_mute hproto _
  · split
    · exact filterMap_map_of_mute hproto _
    · rfl

theorem quiet_setTarget (ra dec : Double) : Quiet obs (setTarget ra dec) := .update fun _ => rfl

variable (ho : Mute obs)
include ho

theorem quiet_mountCommand (ctx : Ctx) (req : Request)
    (encode : NonKVProtocol → Time → NonKVFrame × NonKVProtocol) (line : Option KVMsg) :
    Quiet obs (mountCommand ctx req encode line) := by
  intro s
  unfold mountCommand
  split
  · exact ⟨rfl, rfl⟩
  · exact ⟨rfl, by simp [ho.mount]⟩
  · exact ⟨rfl, by simp [ho.mount]⟩
  · exact ⟨rfl, rfl⟩

theorem quiet_focusCommand (ctx : Ctx) (conn : Conn)
    (encode : NonKVProtocol → Time → NonKVFrame × NonKVProtocol) :
    Quiet obs (focusCommand ctx conn encode) :=
  fun _ => ⟨rfl, by simp [focusCommand, ho.focus]⟩

/-- A command and the target it leaves the mount with. -/
theorem quiet_pointing (ctx : Ctx) (req : Request)
    (encode : NonKVProtocol → Time → NonKVFrame × NonKVProtocol) (line : Option KVMsg)
    (ra dec : Double) : Quiet obs (all [mountCommand ctx req encode line, setTarget ra dec]) :=
  .cons (quiet_mountCommand ho _ _ _ _) (.cons (quiet_setTarget _ _) .nil)

theorem quiet_slewto (ctx : Ctx) (proto : KVSlewto) : Quiet obs (slewto ctx proto) := by
  intro s
  unfold slewto
  split
  · exact ⟨rfl, rfl⟩
  · exact (quiet_pointing ho _ _ _ _ _ _).when s

theorem quiet_guide (ctx : Ctx) (proto : KVGuide) : Quiet obs (guide ctx proto) :=
  .cons (.when (quiet_mountCommand ho _ _ _ _))
    (.cons (quiet_write2camera (fun conn => ho.camera conn _ rfl) _) .nil)

theorem quiet_focus (ctx : Ctx) (proto : KVFocus) : Quiet obs (focus ctx proto) := by
  intro s
  unfold focus
  split
  · exact ⟨rfl, rfl⟩
  · split
    · refine Inert.cons (quiet_updateCamera ?_ _) (.cons (quiet_focusCommand ho _ _ _) .nil) s
      exact fun _ => rfl
    · exact ⟨rfl, rfl⟩

theorem quiet_syncLoop (ctx : Ctx) (conn : Conn) (its : List CameraInfo) :
    Quiet obs (syncLoop ctx conn its) := by
  induction its with
  | nil => exact .skip
  | cons it its ih => exact (quiet_focusCommand ho _ _ _).andThen ih

omit ho in
theorem resetFocus_core (proto : KVFocusSync) (it : CameraInfo) :
    (resetFocus proto it).core = it.core := by
  unfold resetFocus
  split <;> rfl

theorem quiet_focusSync (ctx : Ctx) (proto : KVFocusSync) : Quiet obs (focusSync ctx proto) := by
  intro s
  unfold focusSync
  split
  · exact ⟨rfl, rfl⟩
  · refine Inert.cons (.update fun s => ?_) (.cons (quiet_syncLoop ho _ _ _) .nil) s
    simp only [core, List.map_map]
    congr 1
    exact List.map_congr_left fun it _ => resetFocus_core proto it

theorem quiet_notifyFWHM (ctx : Ctx) (proto : KVFWHM) : Quiet obs (notifyFWHM ctx proto) := by
  intro s
  unfold notifyFWHM
  split
  · dsimp only
    split
    · refine Inert.cons (quiet_updateCamera ?_ _) (.cons (quiet_focusCommand ho _ _ _) .nil) s
      exact fun _ => rfl
    · exact ⟨rfl, rfl⟩
  · exact ⟨rfl, rfl⟩

omit ho in
theorem focusReport_core (pos : ℤ) (it : CameraInfo) : (focusReport pos it).1.core = it.core := by
  unfold focusReport
  split
  · rfl
  · split
    · split <;> rfl
    · rfl

theorem quiet_notifyFocus (cid : Text) (pos : ℤ) : Quiet obs (notifyFocus cid pos) := by
  intro s
  unfold notifyFocus
  split
  · exact ⟨rfl, rfl⟩
  · refine Inert.cons (quiet_updateCamera (focusReport_core pos) _)
      (.cons (.emit fun s => ?_) .nil) s
    split
    · exact filterMap_map_of_mute (fun conn => ho.camera conn _ rfl) _
    · rfl

theorem quiet_coupleMount (conn : Conn) : Quiet obs (coupleMount conn) := by
  intro s
  unfold coupleMount
  dsimp only
  split
  all_goals
    split
    · exact ⟨rfl, by simp [ho.link]⟩
    · exact ⟨rfl, rfl⟩

theorem quiet_decoupleMount (ctx : Ctx) (ptr : Option Conn) :
    Quiet obs (decoupleMount ctx ptr) := by
  intro s
  unfold decoupleMount
  split
  · exact ⟨rfl, by simp [ho.link]⟩
  · exact ⟨rfl, rfl⟩

omit ho in
theorem quiet_decoupleFocus (ctx : Ctx) (ptr : Option Conn) :
    Quiet obs (decoupleFocus ctx ptr) := by
  refine .update fun s => ?_
  split <;> rfl

theorem quiet_rewriteItem (it : NonKVProtoItem) : Quiet obs (rewriteItem it) := by
  refine .emit fun s => ?_
  split
  · exact filterMap_map_of_mute (fun _ => ho.mount _ _ _) _
  · split
    · exact filterMap_map_of_mute (fun _ => ho.focus _ _) _
    · rfl

theorem quiet_threadRewrite (stale : NonKVProtoItem) : Quiet obs (threadRewrite stale) := by
  intro s
  unfold threadRewrite
  split
  · exact ⟨rfl, rfl⟩
  · split
    · exact quiet_rewriteItem ho _ _
    · exact quiet_rewriteItem ho _ _

/-- The frame rule of the core, for events that start no exposure. -/
theorem quiet_step (ctx : Ctx) {ev : Event} (h : ev.quiet = true) (hstart : ev.mayStart = false) :
    Quiet obs (step ctx ev) := by
  cases ev with
  | notifyPlan | abort | park | coupleCamera | onTcpClose | deviceLine | obsplanTick => cases h
  | takeImage | notifyMountState => cases hstart
  | slewto proto => exact quiet_slewto ho ctx proto
  | guide proto => exact quiet_guide ho ctx proto
  | track => exact .when (quiet_mountCommand ho _ _ _ _)
  | trackVel proto => exact .when (quiet_mountCommand ho _ _ _ _)
  | findHome => exact .when (quiet_pointing ho _ _ _ _ _ _)
  | homeSync proto => exact .skip
  | focus proto => exact quiet_focus ho ctx proto
  | focusSync proto => exact quiet_focusSync ho ctx proto
  | notifyFWHM proto => exact quiet_notifyFWHM ho ctx proto
  | coupleMount conn => exact quiet_coupleMount ho conn
  | decoupleMount ptr => exact quiet_decoupleMount ho ctx ptr
  | coupleFocus conn => exact .update fun _ => rfl
  | decoupleFocus ptr => exact quiet_decoupleFocus ctx ptr
  | notifyMountPosition pos => exact .update fun _ => rfl
  | notifyFocus cid pos => exact quiet_notifyFocus ho cid pos
  | notifyResponse rsp => exact .update fun _ => rfl
  | onFlatReslew => exact .skip
  | rewriteTick stale => exact .when (quiet_threadRewrite ho stale)

end Quiet

theorem quiet_camera (proto : KVMsg) (cid : Text) :
    Quiet Act.core (write2camera proto cid) := quiet_write2camera (fun _ => rfl) cid

theorem quiet_takeImage (ctx : Ctx) (proto : KVAppPlan) : Quiet Act.core (takeImage ctx proto) := by
  intro s
  unfold takeImage
  split
  · exact ⟨rfl, rfl⟩
  · obtain ⟨hv, ho⟩ := Inert.cons (quiet_camera
        (.appPlan (imagePlan proto (s.customPlanSn ctx).1)) (imagePlan proto _).cid)
      (.cons (quiet_camera (.expose { command := some expStart, frmno := 0 })
        (imagePlan proto (s.customPlanSn ctx).1).cid) .nil)
      (if proto.planSn = [] then (s.customPlanSn ctx).2 else s)
    refine ⟨hv.trans ?_, ho⟩
    split <;> rfl

theorem quiet_mountArrived (state : ℤ) : Quiet Act.core (mountArrived state) := by
  intro s
  unfold mountArrived
  split
  · split
    · exact quiet_camera _ _ s
    · split
      · exact quiet_camera _ _ s
      · exact ⟨rfl, rfl⟩
  · exact ⟨rfl, rfl⟩

theorem quiet_notifyMountState (ctx : Ctx) (state : ℤ) :
    Quiet Act.core (notifyMountState ctx state) := by
  intro s
  unfold notifyMountState
  split
  · exact ⟨rfl, rfl⟩
  · split
    · exact Inert.cons (quiet_mountArrived state) (.cons (.update fun _ => rfl) .nil) s
    · exact ⟨rfl, rfl⟩

/-- The frame rule of the core. -/
theorem quiet_step_core (ctx : Ctx) {ev : Event} (h : ev.quiet = true) :
    Quiet Act.core (step ctx ev) := by
  cases hstart : ev.mayStart with
  | false => exact quiet_step mute_core ctx h hstart
  | true =>
      cases ev with
      | takeImage proto => exact quiet_takeImage ctx proto
      | notifyMountState state => exact quiet_notifyMountState ctx state
      | coupleCamera | obsplanTick => cases h
      | _ => cases hstart

end Obss

end Gtoaes
