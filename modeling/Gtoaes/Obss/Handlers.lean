import Gtoaes.Obss.State
import Gtoaes.Lib.UpdateFirst

/-!
The member functions of `ObservationSystem` that move its state, in the order
of `ObservationSystem.cpp`. Log lines are left out, but for the two that tell
the mount's connection.
-/

namespace Gtoaes.Obss

open Lib Lib.Handler

/-! ### Writing to the devices -/

/-- `write2camera`: to every camera on-line where `cid` is empty, else to the
first one on-line of that name. -/
def write2camera (proto : KVMsg) (cid : Text) : Handler Obss Act := emit fun s =>
  if cid = [] then
    (s.camInfoVec.filterMap fun it => it.ptrTcp).map fun conn => .camera conn proto
  else
    match s.camInfoVec.find? fun it => it.ptrTcp.isSome && iequals it.info.cid cid with
    | some it => it.ptrTcp.toList.map fun conn => .camera conn proto
    | none => []

def expose2camera (cmd frmno : ℤ) (cid : Text) : Handler Obss Act :=
  write2camera (.expose { command := some cmd, frmno := frmno }) cid

/-- A command to the mount: a GWAC mount gets a frame, which is also queued for
retry; another mount gets a line, where the command has one. -/
def mountCommand (ctx : Ctx) (req : Request)
    (encode : NonKVProtocol → Time → NonKVFrame × NonKVProtocol) (line : Option KVMsg) :
    Handler Obss Act := fun s =>
  match s.tcpMount, s.obssType, line with
  | none, _, _ => (s, [])
  | some conn, .gwac, _ =>
      let r := encode s.nonkvproto ctx.now
      ({ s with nonkvproto := r.2, nonkvProtoBuff := s.nonkvProtoBuff.push 0 r.1 },
        [.mount conn req (.frame r.1)])
  | some conn, .gft, some line => (s, [.mount conn req (.line line)])
  | some _, .gft, none => (s, [])

/-- A command to the focuser, queued for retry. -/
def focusCommand (ctx : Ctx) (conn : Conn)
    (encode : NonKVProtocol → Time → NonKVFrame × NonKVProtocol) : Handler Obss Act := fun s =>
  let r := encode s.nonkvproto ctx.now
  ({ s with nonkvproto := r.2, nonkvProtoBuff := s.nonkvProtoBuff.push 1 r.1 },
    [.focus conn r.1])

/-- The remembered target of the mount. -/
def setTarget (ra dec : Double) : Handler Obss Act := update fun s =>
  { s with mountInfo := { s.mountInfo with objra := ra, objdec := dec } }

/-- The coordinates that stand for no target. -/
def noTarget : Double := .fin 1000

def setSysState (f : SystemState → SystemState) : Handler Obss Act := update fun s =>
  { s with sysState := f s.sysState }

/-- A loop over the cameras that changes the first one it looks for. -/
def updateCamera (p : CameraInfo → Bool) (f : CameraInfo → CameraInfo) : Handler Obss Act :=
  update fun s => { s with camInfoVec := updateFirst p f s.camInfoVec }

/-- What `Abort`, `Park` and the camera handler do with a plan of their own that
ends: drop it and publish its last status. -/
def closePlan (ctx : Ctx) (state : ℤ) : Handler Obss Act := fun s =>
  match s.plan with
  | none => (s, [])
  | some p =>
      let utc := ctx.posix.toIsoExtendedString ctx.now
      let st := { s.planState with utc := utc, tmStop := utc, state := some state }
      ({ s with plan := none, planState := st }, [.plan p.addr st])

/-! ### Connections -/

def coupleMount (conn : Conn) : Handler Obss Act := fun s =>
  -- a GFT system keeps the mount it has, a GWAC one takes each that is another
  let coupled := match s.obssType with
    | .gwac => s.tcpMount != some conn
    | .gft => s.tcpMount.isNone
  if coupled then
    ({ s with tcpMount := some conn, countMountPos := 0,
              mountInfo := { s.mountInfo with state := mountMin } }, [.link (some conn)])
  else (s, [])

/-- The pointer handed in is null where the closed connection is no longer in
the pool. -/
def decoupleMount (ctx : Ctx) (ptr : Option Conn) : Handler Obss Act := fun s =>
  if s.tcpMount = ptr then
    ({ s with tcpMount := none, mountInfo := { s.mountInfo with state := mountError },
              nonkvProtoBuff := s.nonkvProtoBuff.clear 0, lastClosed := ctx.now }, [.link none])
  else (s, [])

def coupleFocus (conn : Conn) : Handler Obss Act := update fun s =>
  { s with tcpFocus := some conn }

def decoupleFocus (ctx : Ctx) (ptr : Option Conn) : Handler Obss Act := update fun s =>
  if s.tcpFocus = ptr then
    { s with tcpFocus := none, nonkvProtoBuff := s.nonkvProtoBuff.clear 1, lastClosed := ctx.now }
  else s

/-- The highest frame number any camera has reported, from which an exposure is
taken up again. -/
def topFrmno (cams : List CameraInfo) : ℤ :=
  cams.foldl (fun frmno it => if frmno < it.info.frmno then it.info.frmno else frmno) 0

/-- The end of `CoupleCamera`: a camera that is back is given the plan, and
starts exposing where the mount tracks. -/
def resumePlan (ctx : Ctx) (conn : Conn) (cid : Text) : Handler Obss Act := fun s =>
  match s.plan with
  | none => (s, [])
  | some p =>
      -- `plan_.unique()`
      if ctx.shared p.addr then (s, [])
      else all
        [emit fun _ => [.camera conn (.appPlan p.plan)],
         when (fun s => s.mountInfo.state == mountTracking)
          (expose2camera expStart (topFrmno s.camInfoVec) cid)] s

/-- A new entry's `KVCamera` has no state yet. -/
def newCamera (ctx : Ctx) (conn : Conn) (cid : Text) : CameraInfo where
  ptrTcp := some conn
  info := { cid := cid, state := ctx.unset.int "state".toList,
            errcode := ctx.unset.int "errcode".toList, frmno := ctx.unset.int "frmno".toList }

/-- The message about a settled focuser, to a camera that has come back. -/
def focusNotice (s : Obss) (cid : Text) (it : CameraInfo) : KVMsg :=
  .focus { gid := s.gid, uid := s.uid, cid := cid, pos := it.focPos, posTar := it.focTar }

def hasCid (cid : Text) (it : CameraInfo) : Bool := iequals it.info.cid cid

/-- The entry of a camera that has come back. -/
def recoupled (conn : Conn) (it : CameraInfo) : CameraInfo :=
  { it with ptrTcp := some conn, reported := false }

def coupleCamera (ctx : Ctx) (conn : Conn) (cid : Text) : Handler Obss Act := fun s =>
  match s.camInfoVec.find? (hasCid cid) with
  | some it =>
      -- the entry of a camera that is connected is left to that one
      if it.ptrTcp.isSome then (s, [])
      else all
        [updateCamera (hasCid cid) (recoupled conn),
         emit fun s => if it.focState = 0 then [.camera conn (focusNotice s cid it)] else [],
         setSysState (·.cameraOnline true),
         resumePlan ctx conn cid] s
  | none => all
      [setSysState (·.cameraOnline true),
       update fun s => { s with camInfoVec := s.camInfoVec ++ [newCamera ctx conn cid] }] s

/-! ### Device reports -/

/-- The reaction to a mount that has arrived, before its new state is stored. -/
def mountArrived (state : ℤ) : Handler Obss Act := fun s =>
  -- after guiding the cameras are told, after a slew they begin to expose
  if state = mountTracking ∧ s.mountInfo.state ≠ mountMin ∧ s.plan.isSome = true then
    if s.mountInfo.state = mountGuiding then write2camera (.guide {}) [] s
    else if s.mountInfo.state = mountSlewing then expose2camera expStart 0 [] s
    else (s, [])
  else (s, [])

def notifyMountState (ctx : Ctx) (state : ℤ) : Handler Obss Act := fun s =>
  if state = s.mountInfo.state then (s, [])
  else if mountMin < state ∧ state < mountMax then
    all
      [mountArrived state,
       update fun s => { s with
        mountInfo := { s.mountInfo with
          state := state, utc := ctx.posix.toIsoExtendedString ctx.now } }] s
  else (s, [])

def notifyMountPosition (pos : NonKVPosition) : Handler Obss Act := update fun s =>
  { s with mountInfo := { s.mountInfo with ra := pos.ra, dec := pos.dec },
           countMountPos := s.countMountPos + 1 }

/-- One report of a focus position: the entry after it, and whether the camera
is told that the focuser has settled. -/
def focusReport (pos : ℤ) (it : CameraInfo) : CameraInfo × Bool :=
  if pos ≠ it.focPos then
    ({ it with focPos := pos, rep := 0, focTar := if it.focState < 0 then pos else it.focTar },
      false)
  else if it.focState ≠ 0 then
    -- the third repetition ends a movement
    if it.rep + 1 ≥ 3 then ({ it with rep := it.rep + 1, focState := 0 }, true)
    else ({ it with rep := it.rep + 1 }, false)
  else (it, false)

def notifyFocus (cid : Text) (pos : ℤ) : Handler Obss Act := fun s =>
  match s.camInfoVec.find? (hasCid cid) with
  | none => (s, [])
  | some it =>
      all
        [updateCamera (hasCid cid) fun it => (focusReport pos it).1,
         emit fun s => if (focusReport pos it).2 then
            it.ptrTcp.toList.map fun conn => .camera conn (.focus
              { gid := s.gid, uid := s.uid, cid := cid, pos := pos, posTar := it.focTar })
          else []] s

def notifyResponse (rsp : NonKVResponse) : Handler Obss Act := update fun s =>
  { s with nonkvProtoBuff := s.nonkvProtoBuff.pop rsp.sn }

/-! ### Client commands -/

/-- `Abort` -/
def abort (ctx : Ctx) : Handler Obss Act := all
  [when mountOnline (all
    [mountCommand ctx .abort NonKVProtocol.abortSlew (some (.abort {})),
     setTarget noTarget noTarget]),
   when (·.sysState.anyExposing) (expose2camera expStop 0 []),
   when (unique ctx) (closePlan ctx obsplanInterrupted)]

/-- The new plan is kept and announced. -/
def storePlan (ctx : Ctx) (p : PlanPtr) : Handler Obss Act := fun s =>
  let st := { s.planState with
    utc := ctx.posix.toIsoExtendedString ctx.now
    planSn := p.plan.planSn
    state := some obsplanCataloged }
  ({ s with plan := some p, planState := st }, [.plan p.addr st])

/-- Whether `NotifyPlan` turns a plan away, for a manual exposure. -/
def rejectsPlan (ctx : Ctx) (s : Obss) : Bool := !s.unique ctx && s.sysState.anyExposing

def notifyPlan (ctx : Ctx) (p : PlanPtr) : Handler Obss Act := fun s =>
  if s.rejectsPlan ctx then (s, [])
  -- a shared plan is replaced as it stands
  else all [when (unique ctx) (abort ctx), storePlan ctx p] s

def checkPlan (s : Obss) (planSn : Text) : Option KVPlan :=
  if iequals s.planState.planSn planSn then some s.planState else none

def removePlan (s : Obss) (planSn : Text) : Bool := iequals s.planState.planSn planSn

def slewto (ctx : Ctx) (proto : KVSlewto) : Handler Obss Act := fun s =>
  if s.unique ctx then (s, [])
  else
    let ra := proto.ra.getD (ctx.unset.dbl "ra".toList)
    let dec := proto.dec.getD (ctx.unset.dbl "dec".toList)
    when mountOnline (all
      [mountCommand ctx (.slewto proto) (NonKVProtocol.slew ra dec) (some (.slewto proto)),
       setTarget ra dec]) s

def park (ctx : Ctx) : Handler Obss Act := all
  [when (fun s => s.mountOnline && s.mountInfo.state != mountParked &&
      s.mountInfo.state != mountParking) (all
    [mountCommand ctx .park NonKVProtocol.park (some (.park {})),
     setTarget noTarget noTarget]),
   when (·.sysState.anyExposing) (expose2camera expStop 0 []),
   when (unique ctx) (closePlan ctx obsplanInterrupted)]

def guide (ctx : Ctx) (proto : KVGuide) : Handler Obss Act := all
  [when (fun _ => proto.result == 0)
    (mountCommand ctx .guide (NonKVProtocol.guide proto.ra proto.dec) (some (.guide proto))),
   write2camera (.guide { proto with op := if proto.result = 0 then 1 else 0 }) []]

def track (ctx : Ctx) : Handler Obss Act :=
  when (fun s => s.mountInfo.state == mountFreeze || s.mountInfo.state == mountHomed ||
      s.mountInfo.state == mountParked)
    (mountCommand ctx .track NonKVProtocol.track none)

def trackVel (ctx : Ctx) (proto : KVTrackVel) : Handler Obss Act :=
  when (fun s => s.mountInfo.state == mountTracking)
    (mountCommand ctx .trackVel (NonKVProtocol.trackVelocity
      (proto.ra.getD (ctx.unset.dbl "ra".toList)) (proto.dec.getD (ctx.unset.dbl "dec".toList)))
      none)

def findHome (ctx : Ctx) : Handler Obss Act := when mountOnline (all
  [mountCommand ctx .findHome NonKVProtocol.findHome (some (.home {})),
   setTarget noTarget noTarget])

/-- `HomeSync` only writes a log line. -/
def homeSync (_proto : KVSync) : Handler Obss Act := skip

/-- The plan `TakeImage` makes of its message: missing items filled in, `sn`
standing for a missing number. -/
def imagePlan (proto : KVAppPlan) (sn : Text) : KVAppPlan :=
  let exptime := if (Double.fin 0).gt proto.exptime then .fin 0 else proto.exptime
  let imgtype :=
    if proto.imgtype = [] then (if exptime = .fin 0 then "bias".toList else "object".toList)
    else proto.imgtype
  { proto with
    type := kvtypeAppgwac
    planSn := if proto.planSn = [] then sn else proto.planSn
    exptime := exptime
    imgtype := imgtype
    objid := if proto.objid = [] then imgtype else proto.objid
    frmcnt := if proto.frmcnt ≤ 0 then 1 else proto.frmcnt }

/-- The number of a plan of the system's own: the day and a count within it. -/
def customPlanSn (ctx : Ctx) (s : Obss) : Text × Obss :=
  let (year, month, day) := ctx.posix.date ctx.now
  let count := (if day ≠ s.oldDay then 0 else s.planSN) + 1
  (s.gid ++ s.uid ++ "_".toList ++ zeroPad 2 (year - 2000) ++ zeroPad 2 month ++ zeroPad 2 day ++
    zeroPad 3 count, { s with oldDay := day, planSN := count })

def takeImage (ctx : Ctx) (proto : KVAppPlan) : Handler Obss Act := fun s =>
  if s.unique ctx then (s, [])
  else
    let plan := imagePlan proto (s.customPlanSn ctx).1
    -- a number is used up only where one was missing
    let s := if proto.planSn = [] then (s.customPlanSn ctx).2 else s
    all [write2camera (.appPlan plan) plan.cid, expose2camera expStart 0 plan.cid] s

/-! ### Focusing -/

def focus (ctx : Ctx) (proto : KVFocus) : Handler Obss Act := fun s =>
  match s.tcpFocus with
  | none => (s, [])
  | some conn =>
      if proto.opType = 1 ∧ proto.relPos ≠ 0 ∧
          (s.camInfoVec.find? (hasCid proto.cid)).isSome = true then
        all
          [updateCamera (hasCid proto.cid) fun it => { it with
            focUtc := proto.utc, focTar := it.focPos + proto.relPos, focState := 1, rep := 0 },
           focusCommand ctx conn (NonKVProtocol.focus proto.cid proto.relPos)] s
      else (s, [])

/-- The loop of `FocusSync` over the entries it addresses. -/
def syncLoop (ctx : Ctx) (conn : Conn) : List CameraInfo → Handler Obss Act
  | [] => skip
  | it :: its =>
      (focusCommand ctx conn (NonKVProtocol.focusSync it.info.cid)).andThen (syncLoop ctx conn its)

/-- Whether a `focus_sync` is about a camera. -/
def syncs (proto : KVFocusSync) (it : CameraInfo) : Bool := proto.cid == [] || hasCid proto.cid it

def resetFocus (proto : KVFocusSync) (it : CameraInfo) : CameraInfo :=
  if syncs proto it then { it with focState := -1 } else it

def focusSync (ctx : Ctx) (proto : KVFocusSync) : Handler Obss Act := fun s =>
  match s.tcpFocus with
  | none => (s, [])
  | some conn => all
      [update fun s => { s with camInfoVec := s.camInfoVec.map (resetFocus proto) },
       syncLoop ctx conn (s.camInfoVec.filter (syncs proto))] s

/-- The time of day as `hhmmsssss`, the seconds in milliseconds and cut to whole ones. -/
def tmobs (t : Ticks) : Text :=
  let day := t / ticksPerSecond % 86400
  zeroPad 2 (day / 3600) ++ zeroPad 2 (day / 60 % 60) ++ zeroPad 5 (day % 60 * 1000)

def notifyFWHM (ctx : Ctx) (proto : KVFWHM) : Handler Obss Act := fun s =>
  match s.tcpFocus, ctx.posix.fromIsoExtendedString proto.tmimg,
      s.camInfoVec.find? (hasCid proto.cid) with
  | some conn, some utc, some it =>
      let value := proto.value.getD (ctx.unset.dbl "value".toList)
      if proto.cid ≠ [] ∧ value.neq it.fwhm = true then
        all
          [updateCamera (hasCid proto.cid) fun it => { it with fwhm := value, focState := -1 },
           focusCommand ctx conn (NonKVProtocol.fwhm proto.cid (tmobs utc) value)] s
      else (s, [])
  | _, _, _ => (s, [])

/-! ### Running a plan -/

/-- More than 5 arcseconds apart, as doubles compare. -/
def farOff (a b : Double) : Bool := ((a.sub b).scale 3600).abs.gt (.fin 5)

/-- A bias or dark plan needs no pointing. -/
def needsPointing (p : KVAppPlan) : Bool :=
  !(iequals p.imgtype "bias".toList || iequals p.imgtype "dark".toList)

/-- `slew_req` -/
def slewReq (s : Obss) (p : KVAppPlan) : Bool :=
  needsPointing p && (farOff p.ra s.mountInfo.objra || farOff p.dec s.mountInfo.objdec)

/-- The slew line of a plan, by the plan's own count of coordinate systems. -/
def planSlewto (ctx : Ctx) (p : KVAppPlan) : KVSlewto :=
  let proto : KVSlewto :=
    { utc := ctx.posix.toIsoExtendedString ctx.now, coorsys := p.coorsys }
  if p.coorsys = 0 then { proto with ra := some p.ra, dec := some p.dec, epoch := some p.epoch }
  else if p.coorsys = 1 then { proto with azi := some p.azi, ele := some p.ele }
  else { proto with tle1 := p.tle1, tle2 := p.tle2 }

def publishRunning (ctx : Ctx) (p : PlanPtr) : Handler Obss Act := fun s =>
  let utc := ctx.posix.toIsoExtendedString ctx.now
  let st := { s.planState with
    utc := utc, planSn := p.plan.planSn, tmStart := utc, state := some obsplanRunning }
  ({ s with planState := st }, [.plan p.addr st])

def processNewPlan (ctx : Ctx) (p : PlanPtr) : Handler Obss Act := fun s =>
  all
    [when (slewReq · p.plan) (all
      [mountCommand ctx (.plan p.plan) (NonKVProtocol.slew p.plan.ra p.plan.dec)
        (some (.slewto (planSlewto ctx p.plan))),
       setTarget p.plan.ra p.plan.dec]),
     write2camera (.appPlan p.plan) [],
     when (fun _ => !s.slewReq p.plan) (expose2camera expStart 0 []),
     publishRunning ctx p] s

/-! ### Camera connections -/

def hasConn (conn : Conn) (it : CameraInfo) : Bool := it.ptrTcp == some conn

/-- The entry of a camera whose connection has closed. -/
def closed (it : CameraInfo) : CameraInfo :=
  { it with ptrTcp := none, info := { it.info with state := camctlError, errcode := 1 } }

/-- `on_tcp_close`; for a mount it does nothing. -/
def onTcpClose (ctx : Ctx) (conn : Conn) (peer : PeerType) : Handler Obss Act := fun s =>
  if peer = .cameraGFT ∨ peer = .cameraGWAC then
    match s.camInfoVec.find? (hasConn conn) with
    | none => (s, [])
    | some it => all
        [when (fun _ => decide (it.info.state > camctlIdle)) (setSysState (·.leaveExpose)),
         setSysState (·.cameraOnline false),
         updateCamera (hasConn conn) closed,
         update fun s => { s with lastClosed := ctx.now }] s
  else (s, [])

/-- The counters and the plan after a camera's state has changed from `old` to
`new`. -/
def checkCameraState (ctx : Ctx) (new old : ℤ) : Handler Obss Act :=
  if new = old then skip
  else if new ≤ camctlIdle ∧ old > camctlIdle then all
    -- gone idle: the last camera ends the plan
    [setSysState (·.leaveExpose),
     when (fun s => !s.sysState.anyExposing && s.unique ctx) (closePlan ctx obsplanOver)]
  else if new > camctlIdle ∧ old ≤ camctlIdle then setSysState (·.enterExpose)
  else if new = camctlWaitFlat then all
    -- with the last one that exposes all are waiting
    [setSysState (·.enterWaitFlat),
     when (fun s => s.sysState.exposing == s.sysState.waitflat) (emit fun _ => [.flatReslew])]
  else if old = camctlWaitFlat then setSysState (·.leaveWaitFlat)
  else skip

/-- The report in a camera message, its unset fields as they happen to be. -/
def camReport (ctx : Ctx) (m : KVCamera) : CamReport where
  cid := m.cid
  state := m.state.getD (ctx.unset.int "state".toList)
  errcode := m.errcode.getD (ctx.unset.int "errcode".toList)
  frmno := m.frmno.getD (ctx.unset.int "frmno".toList)

/-- `state_old`: the stored state of the connection's entry. -/
def oldState (s : Obss) (conn : Conn) : ℤ :=
  match s.camInfoVec.find? (hasConn conn) with
  | some it => it.info.state
  | none => camctlError

def stored (r : CamReport) (it : CameraInfo) : CameraInfo := { it with info := r, reported := true }

def storeReport (conn : Conn) (r : CamReport) : Handler Obss Act :=
  updateCamera (hasConn conn) (stored r)

/-- `process_protocol_camera`. Only a camera message moves anything. -/
def processProtocolCamera (ctx : Ctx) (conn : Conn) (proto : KVMsg) : Handler Obss Act := fun s =>
  match proto with
  | .camera m => all
      [storeReport conn (camReport ctx m),
       checkCameraState ctx (camReport ctx m).state (s.oldState conn)] s
  | _ => (s, [])

/-! ### Threads -/

/-- `plan_end` as a time, after a plan has been started. -/
def setTmend (ctx : Ctx) (p : KVAppPlan) : Handler Obss Act := update fun s =>
  { s with tmend := ctx.posix.fromIsoExtendedString p.planEnd }

/-- Whether a cataloged plan is to be started. -/
def readyToRun (s : Obss) : Bool :=
  s.mountOnline && s.sysState.camonline != 0 && !s.sysState.anyExposing

/-- `total_seconds` of a duration: its whole seconds, cut towards 0. -/
def totalSeconds (d : Ticks) : ℤ := d.tdiv ticksPerSecond

/-- Whether a running plan has exceeded its end by more than its exposure. -/
def overdue (ctx : Ctx) (s : Obss) (p : KVAppPlan) : Bool :=
  match s.tmend with
  -- the count of seconds becomes an `int`
  | some t => (Double.ofInt (toInt32 (totalSeconds (ctx.now * ticksPerSecond - t)))).gt p.exptime
  | none => false

/-- One round of `thread_obsplan`. -/
def threadObsplan (ctx : Ctx) : Handler Obss Act := fun s =>
  match s.plan with
  | none => (s, [])
  | some p =>
      -- `plan_.unique()`
      if ctx.shared p.addr then (s, [])
      else if s.planState.state = some obsplanCataloged then
        when readyToRun (all [processNewPlan ctx p, setTmend ctx p.plan]) s
      else if s.planState.state = some obsplanRunning then
        when (overdue ctx · p.plan) (abort ctx) s
      else (s, [])

/-- The re-sending of one queued command. -/
def rewriteItem (it : NonKVProtoItem) : Handler Obss Act := emit fun s =>
  if it.devtype = 0 ∧ s.mountOnline = true then
    s.tcpMount.toList.map fun conn => .mount conn .rewrite (.frame it.cmd)
  else if it.devtype = 1 then s.tcpFocus.toList.map fun conn => .focus conn it.cmd
  else []

/-- The entry that an idle round of `thread_rewrite` sends. After three retries
the front entry is popped first and then read through a reference to the
element just destroyed: that reads `stale`, whatever is left there. -/
def resent (s : Obss) (stale : NonKVProtoItem) : Option NonKVProtoItem :=
  match s.nonkvProtoBuff with
  | [] => none
  | it :: _ => some (if it.retry + 1 > 3 then stale else { it with retry := it.retry + 1 })

/-- One idle round of `thread_rewrite`. -/
def threadRewrite (stale : NonKVProtoItem) : Handler Obss Act := fun s =>
  match s.nonkvProtoBuff with
  | [] => (s, [])
  | it :: rest =>
      if it.retry + 1 > 3 then rewriteItem stale { s with nonkvProtoBuff := rest }
      else rewriteItem { it with retry := it.retry + 1 }
        { s with nonkvProtoBuff := { it with retry := it.retry + 1 } :: rest }

end Gtoaes.Obss
