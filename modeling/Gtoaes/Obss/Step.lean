import Gtoaes.Obss.Handlers
import Gtoaes.Lib.Machine

/-!
One observation system as a machine. Every call of a public member function,
every line and close of a camera connection and every round of the two threads
is one step, which reads the clock and unset memory as they are then.
-/

namespace Gtoaes

open Lib Lib.Handler

/-- What can happen to an observation system. A camera line is one message that
has been resolved from the connection's buffer. -/
inductive Event
  | notifyPlan (plan : KVAppPlan)
  | abort
  | slewto (proto : KVSlewto)
  | park
  | guide (proto : KVGuide)
  | track
  | trackVel (proto : KVTrackVel)
  | findHome
  | homeSync (proto : KVSync)
  | takeImage (proto : KVAppPlan)
  | focus (proto : KVFocus)
  | focusSync (proto : KVFocusSync)
  | notifyFWHM (proto : KVFWHM)
  | coupleMount (conn : Conn)
  | decoupleMount (ptr : Option Conn)
  | coupleFocus (conn : Conn)
  | decoupleFocus (ptr : Option Conn)
  | coupleCamera (conn : Conn) (cid : Text)
  | notifyMountState (state : ℤ)
  | notifyMountPosition (pos : NonKVPosition)
  | notifyFocus (cid : Text) (pos : ℤ)
  | notifyResponse (rsp : NonKVResponse)
  | onTcpClose (conn : Conn) (peer : PeerType)
  | deviceLine (conn : Conn) (proto : KVMsg)
  | onFlatReslew
  | obsplanTick
  | rewriteTick (stale : NonKVProtoItem)
  deriving DecidableEq

namespace Obss

/-- The handler of an event. `on_flat_reslew` is empty, and only a GWAC system
has a `thread_rewrite`. -/
def step (ctx : Ctx) : Event → Handler Obss Act
  | .notifyPlan plan => notifyPlan ctx { addr := ctx.fresh, plan := plan }
  | .abort => abort ctx
  | .slewto proto => slewto ctx proto
  | .park => park ctx
  | .guide proto => guide ctx proto
  | .track => track ctx
  | .trackVel proto => trackVel ctx proto
  | .findHome => findHome ctx
  | .homeSync proto => homeSync proto
  | .takeImage proto => takeImage ctx proto
  | .focus proto => focus ctx proto
  | .focusSync proto => focusSync ctx proto
  | .notifyFWHM proto => notifyFWHM ctx proto
  | .coupleMount conn => coupleMount conn
  | .decoupleMount ptr => decoupleMount ctx ptr
  | .coupleFocus conn => coupleFocus conn
  | .decoupleFocus ptr => decoupleFocus ctx ptr
  | .coupleCamera conn cid => coupleCamera ctx conn cid
  | .notifyMountState state => notifyMountState ctx state
  | .notifyMountPosition pos => notifyMountPosition pos
  | .notifyFocus cid pos => notifyFocus cid pos
  | .notifyResponse rsp => notifyResponse rsp
  | .onTcpClose conn peer => onTcpClose ctx conn peer
  | .deviceLine conn proto => processProtocolCamera ctx conn proto
  | .onFlatReslew => skip
  | .obsplanTick => threadObsplan ctx
  | .rewriteTick stale => when (fun s => s.obssType == .gwac) (threadRewrite stale)

end Obss

/-- An event with the clock and the unset memory its handler reads. -/
structure Input where
  now : Time
  unset : Unset
  ev : Event

/-- A system whose plans no other system is given, and the address the next
message is read to: every message is an object of its own. -/
structure Solo where
  obss : Obss
  fresh : ℕ := 0

/-- What the handler of an input reads in a system on its own. -/
def Solo.ctx (posix : PosixTime) (s : Solo) (i : Input) : Ctx where
  posix := posix
  now := i.now
  unset := i.unset
  fresh := s.fresh
  shared := fun _ => false

def solo (posix : PosixTime) : Machine Solo Input Act where
  step s i :=
    ({ obss := (Obss.step (s.ctx posix i) i.ev s.obss).1, fresh := s.fresh + 1 },
      (Obss.step (s.ctx posix i) i.ev s.obss).2)

/-- A system as `Create` and `Start` leave it, before anything has happened. -/
def Solo.start (gid uid : Text) (type : ObssType) (now : Time) : Config Solo Act where
  state := { obss := Obss.create gid uid type now }
  hist := []

/-- An event in a run whose clock stands and whose unset memory is cleared. -/
def Event.plain (ev : Event) : Input where
  now := 0
  unset := { int := fun _ => 0, dbl := fun _ => .fin 0 }
  ev := ev

/-- A clock that prints nothing and reads nothing. -/
def PosixTime.blank : PosixTime where
  toIsoExtendedString _ := []
  fromIsoExtendedString _ := none
  date _ := (2000, 1, 1)

/-- Surroundings with such a clock, cleared memory and no shared plan. -/
def Ctx.blank : Ctx where
  posix := .blank
  now := 0
  unset := { int := fun _ => 0, dbl := fun _ => .fin 0 }
  fresh := 0
  shared := fun _ => false

section Solo

variable (posix : PosixTime) (c : Config Solo Act) (i : Input)

@[simp] theorem solo_next_obss : ((solo posix).next c i).state.obss =
    (Obss.step (c.state.ctx posix i) i.ev c.state.obss).1 := rfl

@[simp] theorem solo_next_fresh :
    ((solo posix).next c i).state.fresh = c.state.fresh + 1 := rfl

@[simp] theorem solo_next_hist : ((solo posix).next c i).hist =
    c.hist ++ (Obss.step (c.state.ctx posix i) i.ev c.state.obss).2 := rfl

@[simp] theorem Solo.ctx_shared (s : Solo) (addr : ℕ) : (s.ctx posix i).shared addr = false := rfl

@[simp] theorem Solo.ctx_fresh (s : Solo) : (s.ctx posix i).fresh = s.fresh := rfl

end Solo

end Gtoaes
