import Gtoaes.Proto.KVMessage
import Gtoaes.Proto.NonKVProtocol
import Gtoaes.Lib.Handler

/-!
The data of one `ObservationSystem`, what its handlers read besides it, and
what they send out.

Connections are named by numbers, as the source names them by pointers. A plan
object has an address for the same reason: `shared_ptr::unique` asks who else
holds the very object, and two clients may send equal plans.

Fields no constructor sets hold whatever was in memory. Where the code reads
such a field it reads `Unset`, which may be anything.
-/

namespace Gtoaes

open Lib

abbrev Conn := ℕ

/-- A time of `boost::posix_time` in its own microseconds. -/
abbrev Ticks := ℤ

def ticksPerSecond : ℤ := 1000000

/-- `boost::posix_time`, as far as it is used. The clock gives whole seconds, a text
may tell a fraction. One that is no time makes `from_iso_extended_string` throw. -/
structure PosixTime where
  toIsoExtendedString : Time → Text
  fromIsoExtendedString : Text → Option Ticks
  /-- Year, month and day. -/
  date : Time → ℤ × ℤ × ℤ

/-- The values that unset fields happen to hold, by field name. -/
structure Unset where
  int : Text → ℤ
  dbl : Text → Double

/-- What a handler reads besides the system: the clock, unset memory, the
address of the message at hand, and whether anyone else holds the plan object
at an address. -/
structure Ctx where
  posix : PosixTime
  now : Time
  unset : Unset
  fresh : ℕ
  shared : ℕ → Bool

inductive ObssType
  | gwac | gft
  deriving DecidableEq

/-- The fields of a stored `KVCamera` that the system reads back. -/
structure CamReport where
  cid : Text
  state : ℤ
  errcode : ℤ
  frmno : ℤ
  deriving DecidableEq

/-- `reported` is a history variable, read by no handler: whether a report has
been stored since the connection was coupled. -/
structure CameraInfo where
  ptrTcp : Option Conn
  info : CamReport
  focUtc : Text := []
  focState : ℤ := -1
  focPos : ℤ := 999999
  focTar : ℤ := 999999
  rep : ℤ := 0
  fwhm : Double := .fin 0
  reported : Bool := false
  deriving DecidableEq

structure SystemState where
  camonline : ℕ := 0
  exposing : ℕ := 0
  waitflat : ℕ := 0
  deriving DecidableEq

namespace SystemState

def cameraOnline (s : SystemState) (online : Bool) : SystemState :=
  { s with camonline := if online then s.camonline + 1 else s.camonline - 1 }

def enterExpose (s : SystemState) : SystemState := { s with exposing := s.exposing + 1 }

/-- The counter stays at zero where it is zero. The source also returns
whether it has reached zero. -/
def leaveExpose (s : SystemState) : SystemState := { s with exposing := s.exposing - 1 }

def anyExposing (s : SystemState) : Bool := s.exposing != 0

def enterWaitFlat (s : SystemState) : SystemState := { s with waitflat := s.waitflat + 1 }

def leaveWaitFlat (s : SystemState) : SystemState := { s with waitflat := s.waitflat - 1 }

end SystemState

/-- A non-null `KVAppPlanPtr`. -/
structure PlanPtr where
  addr : ℕ
  plan : KVAppPlan
  deriving DecidableEq

structure Obss where
  gid : Text
  uid : Text
  obssType : ObssType
  nonkvproto : NonKVProtocol
  tcpMount : Option Conn := none
  mountInfo : KVMount
  countMountPos : ℕ := 0
  camInfoVec : List CameraInfo := []
  tcpFocus : Option Conn := none
  plan : Option PlanPtr := none
  planState : KVPlan
  sysState : SystemState := {}
  oldDay : ℤ := 0
  planSN : ℤ := 0
  lastClosed : Time
  nonkvProtoBuff : NonKVProtoBuff := []
  /-- The local variable of `thread_obsplan`; `none` is `not_a_date_time`. -/
  tmend : Option Ticks := none
  deriving DecidableEq

/-- A system as `Create` and `Start` leave it. -/
def Obss.create (gid uid : Text) (type : ObssType) (now : Time) : Obss where
  gid := gid
  uid := uid
  obssType := type
  nonkvproto := { gid := gid, uid := uid }
  mountInfo := { gid := gid, uid := uid }
  planState := { gid := gid, uid := uid }
  lastClosed := now

/-- What a write to the mount was for. -/
inductive Request
  | plan (plan : KVAppPlan)
  | slewto (proto : KVSlewto)
  | abort
  | park
  | findHome
  | guide
  | track
  | trackVel
  | rewrite
  deriving DecidableEq

inductive MountMsg
  | frame (cmd : NonKVFrame)
  | line (proto : KVMsg)
  deriving DecidableEq

/-- Everything a handler sends out. A published plan status carries the
address of the plan it is about, a mount write what it was for; `link` is the
log line that the mount goes on-line (on a connection) or off-line. -/
inductive Act
  | plan (addr : ℕ) (state : KVPlan)
  | link (conn : Option Conn)
  | mount (conn : Conn) (req : Request) (msg : MountMsg)
  | focus (conn : Conn) (cmd : NonKVFrame)
  | camera (conn : Conn) (proto : KVMsg)
  | flatReslew
  deriving DecidableEq

namespace Obss

/-- `plan_.unique()` -/
def unique (ctx : Ctx) (s : Obss) : Bool :=
  match s.plan with
  | some p => !ctx.shared p.addr
  | none => false

/-- The reading of a connection pointer as a truth value. -/
def mountOnline (s : Obss) : Bool := s.tcpMount.isSome

/-- `IsMatched` -/
def isMatched (s : Obss) (gid uid : Text) : Bool :=
  (gid == [] && uid == []) || (uid == [] && iequals gid s.gid) ||
    (iequals gid s.gid && iequals uid s.uid)

end Obss

end Gtoaes
