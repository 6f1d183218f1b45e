import Gtoaes.Obss.Links
import Gtoaes.Control.Registry
import Gtoaes.Proto.NonKVResolve

/-!
The connections of `GeneralControl`. A device connection is accepted into a pool
and handed from there to a system by the device's first line: a mount or focuser
of GWAC is shared with the pool, a GFT mount or a camera leaves it. Where a
system registers its own read callback, what arrives on the connection from then
on goes to the message loop of that system, its close included; what has been
posted or buffered before is still handled by `GeneralControl`.

A connection is named by a number that is not used again. A connection that is in
no pool and that no system holds is destroyed, and no more lines of it are read.
-/

namespace Gtoaes

open Lib

/-- What a handler finds in its surroundings: the clock, unset memory, and
whether the message queue of a new system can be made. -/
structure Moment where
  posix : PosixTime
  now : Time
  unset : Unset
  starts : Text → Text → Bool

/-- A moment in surroundings that are blank, where every message queue starts. -/
def Moment.blank : Moment where
  posix := .blank
  now := 0
  unset := { int := fun _ => 0, dbl := fun _ => .fin 0 }
  starts := fun _ _ => true

/-- What ends the program: a member function called on a null pointer, or an
exception that nobody catches. -/
inductive ServerFault
  | nullMount
  | nullCamera
  | nullObss
  | badUid
  deriving DecidableEq

/-- `peer` is the port a connection was accepted on, `readers` are the systems
that have registered to read from it with the peer type they pass on, the last
one first. `closed` is a history variable: the connections whose close has been
handled by the loop it was posted to. -/
structure Server where
  control : GeneralControl := {}
  tcpCliClient : List Conn := []
  tcpCliDevice : List Conn := []
  peer : Conn → Option PeerType := fun _ => none
  readers : Conn → List (ℕ × PeerType) := fun _ => []
  closed : List Conn := []
  alive : Bool := true

/-- The rounds of the threads of a system, and its message about a flat field. -/
inductive Tick
  | obsplan
  | rewrite (stale : NonKVProtoItem)
  | flatReslew

def Tick.event : Tick → Event
  | .obsplan => .obsplanTick
  | .rewrite stale => .rewriteTick stale
  | .flatReslew => .onFlatReslew

/-- What the message loops and threads do, one message at a time. The lines and
the close of a connection are those that the loop of `GeneralControl` handles
(`line`, `report`, `close`), or the loop of a system (`obssLine`, `obssClose`). -/
inductive ServerEvent
  | accept (conn : Conn) (peer : PeerType)
  | line (conn : Conn) (proto : KVMsg)
  | report (conn : Conn) (proto : NonKVMsg)
  | close (conn : Conn)
  | obssLine (id : ℕ) (conn : Conn) (proto : KVMsg)
  | obssClose (id : ℕ) (conn : Conn) (peer : PeerType)
  | tick (id : ℕ) (tick : Tick)
  | dumpObss

namespace Obss

/-- The system holds a connection, in whatever place. -/
def holds (s : Obss) (conn : Conn) : Bool :=
  s.tcpMount == some conn || s.tcpFocus == some conn ||
    s.camInfoVec.any fun it => it.ptrTcp == some conn

/-- What `CoupleMount` makes of a null pointer. -/
def unplugMount (s : Obss) : Obss :=
  { s with tcpMount := none, countMountPos := 0,
           mountInfo := { s.mountInfo with state := mountMin } }

/-- The peer type a system reads its cameras as. -/
def cameraPeer (s : Obss) : PeerType :=
  match s.obssType with
  | .gwac => .cameraGWAC
  | .gft => .cameraGFT

end Obss

namespace Server

/-- Some system holds the connection. -/
def held (v : Server) (conn : Conn) : Bool :=
  v.control.ids.any fun id => (v.control.obssVec id).any fun s => s.holds conn

/-- The loop of `GeneralControl` may find lines on a connection. -/
def receives (v : Server) (conn : Conn) : Bool :=
  v.alive && (v.peer conn).isSome && !v.closed.contains conn &&
    (v.tcpCliClient.contains conn || v.tcpCliDevice.contains conn || v.held conn)

/-- `TcpCVec::Find` -/
def find (pool : List Conn) (conn : Conn) : Option Conn :=
  if conn ∈ pool then some conn else none

/-- `TcpCVec::Pop` of the devices. -/
def popDevice (conn : Conn) (v : Server) : Option Conn × Server :=
  (find v.tcpCliDevice conn, { v with tcpCliDevice := v.tcpCliDevice.erase conn })

def put (id : ℕ) (s : Option Obss) (v : Server) : Server :=
  { v with control := v.control.put id s }

variable (m : Moment)

/-- A call of a member function of a system. -/
def tell (id : ℕ) (ev : Event) (v : Server) : Server :=
  { v with control :=
      (v.control.turn m.posix ⟨m.now, m.unset, .system id v.control.fresh ev⟩).1 }

def tellAll (ids : List ℕ) (ev : Event) (v : Server) : Server :=
  ids.foldl (fun v id => v.tell m id ev) v

/-- What is done with the system that `find_obss` returns, if it returns one. -/
def withObss (gid uid : Text) (type : ObssType) (k : ℕ → Server → Except ServerFault Server)
    (v : Server) : Except ServerFault Server :=
  let r := v.control.findObssPtr gid uid type (m.starts gid uid) m.now
  match r.1 with
  | none => .ok { v with control := r.2 }
  | some id => k id { v with control := r.2 }

/-- `RegisterRead` by a system. -/
def registerRead (conn : Conn) (id : ℕ) (peer : PeerType) (v : Server) : Server :=
  { v with readers := fun c => if c = conn then (id, peer) :: v.readers c else v.readers c }

/-- `CoupleMount`. A GFT system reads from its mount itself. -/
def coupleMount (id : ℕ) (ptr : Option Conn) (v : Server) : Except ServerFault Server :=
  match v.control.obssVec id with
  | none => .ok v
  | some s =>
      if s.takesMount ptr then
        match s.obssType, ptr with
        | .gwac, some conn => .ok (v.tell m id (.coupleMount conn))
        | .gwac, none => .ok (v.put id (some s.unplugMount))
        | .gft, some conn =>
            .ok ((v.registerRead conn id .mountGFT).tell m id (.coupleMount conn))
        -- `RegisterRead` through the null pointer
        | .gft, none => .error .nullMount
      else .ok v

/-- `CoupleFocus` -/
def coupleFocus (id : ℕ) (ptr : Option Conn) (v : Server) : Server :=
  match ptr with
  | some conn => v.tell m id (.coupleFocus conn)
  | none => v.put id ((v.control.obssVec id).map fun s => { s with tcpFocus := none })

/-- `CoupleCamera` -/
def coupleCamera (id : ℕ) (ptr : Option Conn) (cid : Text) (v : Server) :
    Except ServerFault Server :=
  match v.control.obssVec id with
  | none => .ok v
  | some s =>
      if s.takesCamera cid then
        match ptr with
        | some conn => .ok ((v.registerRead conn id s.cameraPeer).tell m id (.coupleCamera conn cid))
        -- here as well
        | none => .error .nullCamera
      else .ok v

/-- The units whose mounts a status message of a group is about. -/
def unitsOf (gid : Text) (n : ℕ) : List ℕ :=
  let imin := if iequals gid "001".toList then 1 else 5
  -- `imin` is 1 or 5, so this is 10
  let imax := if imin = 0 then 4 else 10
  (List.range n).filter fun i => imin ≤ i && i ≤ imax

/-- `process_protocol_mount_gwac` -/
def processProtocolMountGwac (conn : Conn) (proto : NonKVMsg) (v : Server) :
    Except ServerFault Server :=
  let sp := find v.tcpCliDevice conn
  match proto.kind with
  | .status state =>
      (unitsOf proto.gid state.length).foldlM (fun v (i : ℕ) =>
        v.withObss m proto.gid (zeroPad 3 i) .gwac fun id v => do
          let v ← v.coupleMount m id sp
          -- `state[i]`, where the digit of unit `i` is `state[i - 1]`
          return v.tell m id (.notifyMountState (state.getD i 0))) v
  | .position body =>
      v.withObss m proto.gid proto.uid .gwac fun id v =>
        .ok (v.tell m id (.notifyMountPosition body))
  | .response =>
      v.withObss m proto.gid proto.uid .gwac fun id v =>
        .ok (v.tell m id (.notifyResponse { sn := proto.sn }))
  | .focus _ => .ok v

/-- `process_protocol_focus` -/
def processProtocolFocus (conn : Conn) (proto : NonKVMsg) (v : Server) :
    Except ServerFault Server :=
  let sp := find v.tcpCliDevice conn
  v.withObss m proto.gid proto.uid .gwac fun id v =>
    match proto.kind with
    | .focus pos =>
        match stoi proto.uid with
        -- `std::stoi` throws
        | .error _ => .error .badUid
        | .ok unit => .ok ((List.range 5).foldl (fun v (i : ℕ) =>
            v.tell m id (.notifyFocus (zeroPad 3 (unit * 10 + 1 + i)) (pos.getD i 0)))
            (v.coupleFocus m id sp))
    | .response =>
        -- `find_obss` is called once more, and what it returns is not tested
        let r := v.control.findObssPtr proto.gid proto.uid .gwac
          (m.starts proto.gid proto.uid) m.now
        match r.1 with
        | none => .error .nullObss
        | some id => .ok ({ v with control := r.2 }.tell m id (.notifyResponse { sn := proto.sn }))
    | _ => .ok v

/-- `process_protocol_mount_gft` -/
def processProtocolMountGft (conn : Conn) (proto : KVMsg) (v : Server) :
    Except ServerFault Server :=
  match proto with
  | .mount mount =>
      v.withObss m mount.gid mount.uid .gft fun id v =>
        let r := v.popDevice conn
        r.2.coupleMount m id r.1
  | _ => .ok v

/-- The type of the systems whose devices come in on a port. -/
def portType : PeerType → ObssType
  | .cameraGWAC => .gwac
  | _ => .gft

/-- `process_protocol_camera` -/
def processProtocolCamera (conn : Conn) (proto : KVMsg) (peer : PeerType) (v : Server) :
    Except ServerFault Server :=
  match proto with
  | .camera camera =>
      v.withObss m camera.gid camera.uid (portType peer) fun id v =>
        let r := v.popDevice conn
        r.2.coupleCamera m id r.1 camera.cid
  | _ => .ok v

/-- `process_protocol_client`, call by call. -/
def processProtocolClient (proto : KVMsg) (v : Server) : Server :=
  { v with control := ((turns m.posix).exec { state := v.control, hist := [] }
      ((v.control.processProtocolClient proto).map fun call => ⟨m.now, m.unset, call⟩)).state }

/-- `on_tcp_receive`, for one line of the key-value protocol. -/
def onLine (conn : Conn) (proto : KVMsg) (v : Server) : Except ServerFault Server :=
  match v.peer conn with
  | some .client => .ok (v.processProtocolClient m proto)
  | some .mountGFT => v.processProtocolMountGft m conn proto
  | some .cameraGWAC => v.processProtocolCamera m conn proto .cameraGWAC
  | some .cameraGFT => v.processProtocolCamera m conn proto .cameraGFT
  | _ => .ok v

/-- `on_tcp_receive`, for one line of a mount or focuser of GWAC. -/
def onReport (conn : Conn) (proto : NonKVMsg) (v : Server) : Except ServerFault Server :=
  match v.peer conn with
  | some .mountGWAC => v.processProtocolMountGwac m conn proto
  | some .focus => v.processProtocolFocus m conn proto
  | _ => .ok v

/-- `on_tcp_close` -/
def onTcpClose (conn : Conn) (v : Server) : Server :=
  match v.peer conn with
  | some .client => { v with tcpCliClient := v.tcpCliClient.erase conn }
  | some .mountGWAC =>
      let r := v.popDevice conn
      r.2.tellAll m r.2.control.ids (.decoupleMount r.1)
  | some .focus =>
      let r := v.popDevice conn
      r.2.tellAll m r.2.control.ids (.decoupleFocus r.1)
  | _ => (v.popDevice conn).2

/-- `tcp_accept` -/
def tcpAccept (conn : Conn) (peer : PeerType) (v : Server) : Server :=
  let w := { v with peer := fun c => if c = conn then some peer else v.peer c }
  match peer with
  | .client => { w with tcpCliClient := v.tcpCliClient ++ [conn] }
  | _ => { w with tcpCliDevice := v.tcpCliDevice ++ [conn] }

/-- The close of a connection has been handled. -/
def markClosed (conn : Conn) (v : Server) : Server := { v with closed := conn :: v.closed }

/-- The services that `start_tcp_server` starts. -/
def ports : List PeerType := [.client, .mountGWAC, .cameraGWAC, .focus, .mountGFT, .cameraGFT]

/-- Whether an event can happen. The close of a connection is posted once, to
the loop whose callback is registered when it happens: to that of a system only
after the system has registered. -/
def enabled (v : Server) : ServerEvent → Bool
  | .accept conn peer => v.alive && (v.peer conn).isNone && ports.contains peer
  | .line conn _ | .report conn _ => v.receives conn
  | .close conn => v.alive && (v.peer conn).isSome && !v.closed.contains conn
  | .obssLine id conn _ => v.receives conn && (v.readers conn).any fun r => r.1 == id
  | .obssClose id conn peer =>
      v.alive && !v.closed.contains conn && (v.readers conn).contains (id, peer) &&
        (v.control.obssVec id).isSome
  | .tick _ _ | .dumpObss => v.alive

def handle (ev : ServerEvent) (v : Server) : Except ServerFault Server :=
  match ev with
  | .accept conn peer => .ok (v.tcpAccept conn peer)
  | .line conn proto => v.onLine m conn proto
  | .report conn proto => v.onReport m conn proto
  | .close conn => .ok ((v.onTcpClose m conn).markClosed conn)
  | .obssLine id conn proto => .ok (v.tell m id (.deviceLine conn proto))
  | .obssClose id conn peer => .ok ((v.tell m id (.onTcpClose conn peer)).markClosed conn)
  | .tick id tick => .ok (v.tell m id tick.event)
  | .dumpObss => .ok { v with control := ((turns m.posix).exec { state := v.control, hist := [] }
      ((v.control.dumpObss m.now).map fun call => ⟨m.now, m.unset, call⟩)).state }

end Server

/-- The program with its connections; its outputs are the faults it ends by. -/
def server : Machine Server (Moment × ServerEvent) ServerFault where
  step v i :=
    if v.enabled i.2 then
      match v.handle i.1 i.2 with
      | .ok v' => (v', [])
      | .error fault => ({ v with alive := false }, [fault])
    else (v, [])

/-- The program before anyone has connected. -/
def Server.start : Config Server ServerFault where
  state := {}
  hist := []

end Gtoaes
