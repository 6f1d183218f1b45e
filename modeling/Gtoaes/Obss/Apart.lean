import Gtoaes.Obss.Step

/-!
Views that most handlers leave alone because they have to do with other things. The
handlers are put together from a few short ones: a command to the mount or focuser, a
message to the cameras, a count, a word about the plan. What keeps apart from these is
kept by every event made of them.
-/

namespace Gtoaes

open Lib Lib.Handler

/-- A word to a camera that its focuser has settled. -/
def Act.settles : Act → Bool
  | .camera _ (.focus _) => true
  | _ => false

/-- Whether an event is made of commands, messages, counts and words about the plan
only. -/
def Event.distant : Event → Bool
  | .notifyPlan _ | .abort | .slewto _ | .park | .guide _ | .track | .trackVel _ | .findHome
  | .homeSync _ | .takeImage _ | .notifyResponse _ | .onFlatReslew | .rewriteTick _ => true
  | _ => false

/-- Whether an event is about the cameras and their focusers. -/
def Event.optical : Event → Bool
  | .focus _ | .focusSync _ | .notifyFWHM _ | .coupleCamera _ _ | .notifyFocus _ _
  | .onTcpClose _ _ | .deviceLine _ _ => true
  | _ => false

namespace Obss

variable {α β : Type*}

/-- The view does not read what commands, counts and plans change, and the observer
looks at nothing but words about settled focusers. -/
structure Apart (v : Obss → α) (obs : Act → Option β) : Prop where
  frames : ∀ s p b, v { s with nonkvproto := p, nonkvProtoBuff := b } = v s
  target : ∀ s ra dec,
    v { s with mountInfo := { s.mountInfo with objra := ra, objdec := dec } } = v s
  counters : ∀ s t, v { s with sysState := t } = v s
  plan : ∀ s p st, v { s with plan := p, planState := st } = v s
  numbers : ∀ s d n, v { s with oldDay := d, planSN := n } = v s
  silent : ∀ act : Act, act.settles = false → obs act = none

/-- The view does not read the cameras either, and the observer looks at nothing. -/
structure Away (v : Obss → α) (obs : Act → Option β) : Prop extends Apart v obs where
  cameras : ∀ s l t, v { s with camInfoVec := l, lastClosed := t } = v s
  blind : ∀ act : Act, obs act = none

variable {v : Obss → α} {obs : Act → Option β}

namespace Apart

variable (hv : Apart v obs)
include hv

theorem filterMap_map {ι : Type*} {f : ι → Act} (hf : ∀ i, (f i).settles = false)
    (l : List ι) : (l.map f).filterMap obs = [] := by
  rw [List.filterMap_map]
  exact List.filterMap_eq_nil_iff.mpr fun i _ => hv.silent _ (hf i)

theorem write2camera {proto : KVMsg} (hproto : ∀ conn, (Act.camera conn proto).settles = false)
    (cid : Text) : Inert v obs (write2camera proto cid) := by
  refine .emit fun s => ?_
  split
  · exact hv.filterMap_map hproto _
  · split
    · exact hv.filterMap_map hproto _
    · rfl

theorem expose2camera (cmd frmno : ℤ) (cid : Text) : Inert v obs (expose2camera cmd frmno cid) :=
  hv.write2camera (fun _ => rfl) cid

theorem mountCommand (ctx : Ctx) (req : Request)
    (encode : NonKVProtocol → Time → NonKVFrame × NonKVProtocol) (line : Option KVMsg) :
    Inert v obs (mountCommand ctx req encode line) := by
  intro s
  have hnone : ∀ conn msg, [Act.mount conn req msg].filterMap obs = [] :=
    fun conn msg => hv.filterMap_map (f := fun _ : Unit => Act.mount conn req msg)
      (fun _ => rfl) [()]
  unfold Obss.mountCommand
  split
  · exact ⟨rfl, rfl⟩
  · exact ⟨hv.frames s _ _, hnone _ _⟩
  · exact ⟨rfl, hnone _ _⟩
  · exact ⟨rfl, rfl⟩

theorem focusCommand (ctx : Ctx) (conn : Conn)
    (encode : NonKVProtocol → Time → NonKVFrame × NonKVProtocol) :
    Inert v obs (focusCommand ctx conn encode) :=
  fun s => ⟨hv.frames s _ _,
    hv.filterMap_map (f := Act.focus conn) (fun _ => rfl) [(encode s.nonkvproto ctx.now).1]⟩

theorem syncLoop (ctx : Ctx) (conn : Conn) (its : List CameraInfo) :
    Inert v obs (syncLoop ctx conn its) := by
  induction its with
  | nil => exact .skip
  | cons it its ih => exact (hv.focusCommand ctx conn _).andThen ih

theorem pointing (ctx : Ctx) (req : Request)
    (encode : NonKVProtocol → Time → NonKVFrame × NonKVProtocol) (line : Option KVMsg)
    (ra dec : Double) : Inert v obs (all [Obss.mountCommand ctx req encode line, setTarget ra dec]) :=
  .cons (hv.mountCommand ctx req encode line) (.cons (.update fun s => hv.target s ra dec) .nil)

theorem setSysState (f : SystemState → SystemState) : Inert v obs (setSysState f) :=
  .update fun s => hv.counters s _

theorem closePlan (ctx : Ctx) (code : ℤ) : Inert v obs (closePlan ctx code) := by
  intro s
  rw [Obss.closePlan]
  split
  · exact ⟨rfl, rfl⟩
  · exact ⟨hv.plan s _ _, hv.filterMap_map (f := Act.plan _) (fun _ => rfl) [_]⟩

theorem abort (ctx : Ctx) : Inert v obs (abort ctx) :=
  .cons (.when (hv.pointing _ _ _ _ _ _)) (.cons (.when (hv.expose2camera _ _ _))
    (.cons (.when (hv.closePlan _ _)) .nil))

theorem park (ctx : Ctx) : Inert v obs (park ctx) :=
  .cons (.when (hv.pointing _ _ _ _ _ _)) (.cons (.when (hv.expose2camera _ _ _))
    (.cons (.when (hv.closePlan _ _)) .nil))

theorem notifyPlan (ctx : Ctx) (p : PlanPtr) : Inert v obs (notifyPlan ctx p) := by
  intro s
  have hstore : Inert v obs (storePlan ctx p) := fun s =>
    ⟨hv.plan s _ _, hv.filterMap_map (f := Act.plan p.addr) (fun _ => rfl) [_]⟩
  rw [Obss.notifyPlan]
  split
  · exact ⟨rfl, rfl⟩
  · exact Inert.cons (.when (hv.abort ctx)) (.cons hstore .nil) s

theorem slewto (ctx : Ctx) (proto : KVSlewto) : Inert v obs (slewto ctx proto) := by
  intro s
  rw [Obss.slewto]
  split
  · exact ⟨rfl, rfl⟩
  · exact (hv.pointing _ _ _ _ _ _).when s

theorem takeImage (ctx : Ctx) (proto : KVAppPlan) : Inert v obs (takeImage ctx proto) := by
  intro s
  rw [Obss.takeImage]
  split
  · exact ⟨rfl, rfl⟩
  · have hplan : ∀ (plan : KVAppPlan) conn, (Act.camera conn (.appPlan plan)).settles = false :=
      fun _ _ => rfl
    obtain ⟨hview, hacts⟩ := Inert.cons (hv.write2camera (hplan _) _)
      (.cons (hv.expose2camera expStart 0 _) .nil)
      (if proto.planSn = [] then (s.customPlanSn ctx).2 else s)
    refine ⟨hview.trans ?_, hacts⟩
    split
    · exact hv.numbers s _ _
    · rfl

theorem rewriteItem (it : NonKVProtoItem) : Inert v obs (rewriteItem it) := by
  refine .emit fun s => ?_
  split
  · exact hv.filterMap_map (fun _ => rfl) _
  · split
    · exact hv.filterMap_map (fun _ => rfl) _
    · rfl

theorem threadRewrite (stale : NonKVProtoItem) : Inert v obs (threadRewrite stale) := by
  intro s
  rw [Obss.threadRewrite]
  split
  · exact ⟨rfl, rfl⟩
  · split
    · obtain ⟨hview, hacts⟩ := hv.rewriteItem stale { s with nonkvProtoBuff := _ }
      exact ⟨hview.trans (hv.frames s s.nonkvproto _), hacts⟩
    · obtain ⟨hview, hacts⟩ := hv.rewriteItem _ { s with nonkvProtoBuff := _ }
      exact ⟨hview.trans (hv.frames s s.nonkvproto _), hacts⟩

theorem checkCameraState (ctx : Ctx) (new old : ℤ) : Inert v obs (checkCameraState ctx new old) := by
  have hreslew : Inert v obs (emit fun _ => [.flatReslew]) :=
    .emit fun _ => hv.filterMap_map (f := fun _ : Unit => Act.flatReslew) (fun _ => rfl) [()]
  rw [Obss.checkCameraState]
  split
  · exact .skip
  · split
    · exact .cons (hv.setSysState _) (.cons (.when (hv.closePlan _ _)) .nil)
    · split
      · exact hv.setSysState _
      · split
        · exact .cons (hv.setSysState _) (.cons (.when hreslew) .nil)
        · split
          · exact hv.setSysState _
          · exact .skip

theorem processNewPlan (ctx : Ctx) (p : PlanPtr) : Inert v obs (processNewPlan ctx p) := by
  intro s
  have hpublish : Inert v obs (publishRunning ctx p) := fun s =>
    ⟨hv.plan s s.plan _, hv.filterMap_map (f := Act.plan p.addr) (fun _ => rfl) [_]⟩
  exact Inert.cons (.when (hv.pointing _ _ _ _ _ _)) (.cons (hv.write2camera (fun _ => rfl) _)
    (.cons (.when (hv.expose2camera _ _ _)) (.cons hpublish .nil))) s

/-- A view that does not read the end of the plan either. -/
theorem threadObsplan (htmend : ∀ s t, v { s with tmend := t } = v s) (ctx : Ctx) :
    Inert v obs (threadObsplan ctx) := by
  intro s
  rw [Obss.threadObsplan]
  split
  · exact ⟨rfl, rfl⟩
  · rename_i p _
    have hset : Inert v obs (setTmend ctx p.plan) := .update fun s => htmend s _
    split
    · exact ⟨rfl, rfl⟩
    · split
      · exact Inert.when (.cons (hv.processNewPlan ctx _) (.cons hset .nil)) s
      · split
        · exact Inert.when (hv.abort ctx) s
        · exact ⟨rfl, rfl⟩

theorem resumePlan (ctx : Ctx) (conn : Conn) (cid : Text) :
    Inert v obs (resumePlan ctx conn cid) := by
  intro s
  rw [Obss.resumePlan]
  split
  · exact ⟨rfl, rfl⟩
  · rename_i p _
    split
    · exact ⟨rfl, rfl⟩
    · have hsend : Inert v obs (emit fun _ => [.camera conn (.appPlan p.plan)]) :=
        .emit fun _ => hv.filterMap_map (f := fun _ : Unit => Act.camera conn _) (fun _ => rfl) [()]
      exact Inert.cons hsend (.cons (.when (hv.expose2camera _ _ _)) .nil) s

theorem mountArrived (state : ℤ) : Inert v obs (mountArrived state) := by
  intro s
  rw [Obss.mountArrived]
  split
  · split
    · exact hv.write2camera (fun _ => rfl) _ s
    · split
      · exact hv.expose2camera _ _ _ s
      · exact ⟨rfl, rfl⟩
  · exact ⟨rfl, rfl⟩

/-- The frame rule for such views. -/
theorem step_distant (ctx : Ctx) {ev : Event} (h : ev.distant = true) :
    Inert v obs (step ctx ev) := by
  cases ev with
  | notifyPlan plan => exact hv.notifyPlan ctx _
  | abort => exact hv.abort ctx
  | slewto proto => exact hv.slewto ctx proto
  | park => exact hv.park ctx
  | guide proto =>
      exact .cons (.when (hv.mountCommand _ _ _ _)) (.cons (hv.write2camera (fun _ => rfl) _) .nil)
  | track => exact .when (hv.mountCommand _ _ _ _)
  | trackVel proto => exact .when (hv.mountCommand _ _ _ _)
  | findHome => exact .when (hv.pointing _ _ _ _ _ _)
  | homeSync proto => exact .skip
  | takeImage proto => exact hv.takeImage ctx proto
  | notifyResponse rsp => exact .update fun s => hv.frames s s.nonkvproto _
  | onFlatReslew => exact .skip
  | rewriteTick stale => exact .when (hv.threadRewrite stale)
  | _ => cases h

end Apart

namespace Away

variable (hv : Away v obs)
include hv

theorem emit (f : Obss → List Act) : Inert v obs (emit f) :=
  .emit fun _ => List.filterMap_eq_nil_iff.mpr fun act _ => hv.blind act

theorem setCameras (f : Obss → List CameraInfo) :
    Inert v obs (update fun s => { s with camInfoVec := f s }) :=
  .update fun s => hv.cameras s _ s.lastClosed

/-- The frame rule for events about cameras and focusers. -/
theorem step_optical (ctx : Ctx) {ev : Event} (h : ev.optical = true) :
    Inert v obs (step ctx ev) := by
  intro s
  -- what is left of each is made of handlers that keep apart
  cases ev with
  | focus proto =>
      rw [step, focus]
      split
      · exact ⟨rfl, rfl⟩
      · split
        · exact Inert.cons (hv.setCameras _) (.cons (hv.focusCommand _ _ _) .nil) s
        · exact ⟨rfl, rfl⟩
  | focusSync proto =>
      rw [step, focusSync]
      split
      · exact ⟨rfl, rfl⟩
      · exact Inert.cons (hv.setCameras _) (.cons (hv.syncLoop _ _ _) .nil) s
  | notifyFWHM proto =>
      rw [step, notifyFWHM]
      split
      · dsimp only
        split
        · exact Inert.cons (hv.setCameras _) (.cons (hv.focusCommand _ _ _) .nil) s
        · exact ⟨rfl, rfl⟩
      · exact ⟨rfl, rfl⟩
  | coupleCamera conn cid =>
      rw [step, coupleCamera]
      split
      · split
        · exact ⟨rfl, rfl⟩
        · exact Inert.cons (hv.setCameras _) (.cons (hv.emit _) (.cons (hv.setSysState _)
            (.cons (hv.resumePlan ctx conn cid) .nil))) s
      · exact Inert.cons (hv.setSysState _) (.cons (hv.setCameras _) .nil) s
  | notifyFocus cid pos =>
      rw [step, notifyFocus]
      split
      · exact ⟨rfl, rfl⟩
      · exact Inert.cons (hv.setCameras _) (.cons (hv.emit _) .nil) s
  | onTcpClose conn peer =>
      rw [step, onTcpClose]
      split
      · split
        · exact ⟨rfl, rfl⟩
        · exact Inert.cons (.when (hv.setSysState _)) (.cons (hv.setSysState _)
            (.cons (hv.setCameras _) (.cons (.update fun s => hv.cameras s s.camInfoVec _) .nil))) s
      · exact ⟨rfl, rfl⟩
  | deviceLine conn proto =>
      cases proto with
      | camera m =>
          exact Inert.cons (hv.setCameras _) (.cons (hv.checkCameraState ctx _ _) .nil) s
      | _ => exact ⟨rfl, rfl⟩
  | _ => cases h

end Away

end Obss

end Gtoaes
