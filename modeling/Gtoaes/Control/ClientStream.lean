import Gtoaes.Control.GeneralControl
import Gtoaes.Net.Framing

/-!
The connections of the clients, down to the bytes that come over them. The message
thread runs the loop of `on_tcp_receive` for one connection after the other, while
bytes come in on all of them and the systems go on; a line that is too long or not
defined has its connection closed, and one with a numeric field that does not read
ends the process.

Over this stands the machine of commands: what the clients have sent is carried out
as the messages their lines say, and nothing else of the bytes matters.
-/

namespace Gtoaes

open Lib

/-- The systems, the connections of the clients, and the one whose lines the message
thread reads. -/
structure ClientStreams where
  control : GeneralControl := {}
  links : Conn → Framing := fun _ => {}
  thread : Option Conn := none
  alive : Bool := true

/-- Bytes come in on a connection; a receive message about it is taken from the queue;
the loop goes on to its next call that takes a lock; or something happens that no
client has sent. -/
inductive ClientStreamEvent
  | packet (conn : Conn) (data : Text)
  | onTcpReceive (conn : Conn)
  | go (now : Time) (unset : Unset)
  | other (c : Command)

inductive ClientStreamOutput
  | received (conn : Conn) (data : Text)
  | carried (conn : Option Conn) (c : Command)
  | sent (act : ℕ × Act)

def CommandKind.ofClient : CommandKind → Bool
  | .client _ => true
  | _ => false

namespace ClientStreams

def setLink (conn : Conn) (link : Framing) (x : ClientStreams) : ClientStreams :=
  { x with links := Function.update x.links conn link }

/-- The connection that the message thread reads, and the thread that leaves it where the
loop over it has ended. -/
def advance (conn : Conn) (link : Framing) (x : ClientStreams) : ClientStreams :=
  { x.setLink conn link with thread := if link.loop = .idle then none else some conn }

variable (posix : PosixTime)

/-- A command is carried out. -/
def carry (conn : Option Conn) (c : Command) (x : ClientStreams) :
    ClientStreams × List ClientStreamOutput :=
  let r := (generalControl posix).step x.control c
  ({ x with control := r.1 }, .carried conn c :: r.2.map .sent)

/-- What `on_tcp_receive` does with a line it has read. -/
def dealClient (now : Time) (unset : Unset) (conn : Conn) (buff : Text) (x : ClientStreams) :
    ClientStreams × List ClientStreamOutput :=
  match resolve buff with
  | .error _ => ({ x with alive := false }, [])
  | .ok none =>
      let link := x.links conn
      (x.setLink conn { link with tcp := link.tcp.close }, [])
  | .ok (some proto) => x.carry posix (some conn) ⟨now, unset, .client proto⟩

/-- The loop of `on_tcp_receive` between two calls that take the lock of the buffer. -/
def go (now : Time) (unset : Unset) (x : ClientStreams) : ClientStreams × List ClientStreamOutput :=
  match x.thread with
  | none => (x, [])
  | some conn =>
      let (link, handed) := (x.links conn).go
      match handed with
      | .handed buff :: _ => (x.advance conn link).dealClient posix now unset conn buff
      | _ => (x.advance conn link, [])

end ClientStreams

def clientStreams (posix : PosixTime) :
    Machine ClientStreams ClientStreamEvent ClientStreamOutput where
  step x ev :=
    if !x.alive then (x, [])
    else
      match ev with
      | .packet conn data =>
          let link := x.links conn
          (x.setLink conn { link with tcp := link.tcp.handleRead data }, [.received conn data])
      | .onTcpReceive conn =>
          if x.thread = none then
            ({ x.setLink conn { x.links conn with loop := .looking } with thread := some conn }, [])
          else (x, [])
      | .go now unset => x.go posix now unset
      | .other c => if c.kind.ofClient then (x, []) else x.carry posix none c

/-- The program before a client has sent anything. -/
def ClientStreams.start : Config ClientStreams ClientStreamOutput where
  state := {}
  hist := []

/-! ### What the clients have sent and what has been made of it -/

namespace ClientStreamOutput

def bytesOn (conn : Conn) : ClientStreamOutput → Text
  | .received conn' data => if conn' = conn then data else []
  | _ => []

def messagesOn (conn : Conn) : ClientStreamOutput → List KVMsg
  | .carried (some conn') ⟨_, _, .client proto⟩ => if conn' = conn then [proto] else []
  | _ => []

def commands : ClientStreamOutput → List Command
  | .carried _ c => [c]
  | _ => []

def acts : ClientStreamOutput → List (ℕ × Act)
  | .sent act => [act]
  | _ => []

end ClientStreamOutput

/-- All bytes received on a connection. -/
def receivedOn (conn : Conn) (hist : List ClientStreamOutput) : Text :=
  hist.flatMap (·.bytesOn conn)

/-- The messages of a connection that have been carried out. -/
def messagesOn (conn : Conn) (hist : List ClientStreamOutput) : List KVMsg :=
  hist.flatMap (·.messagesOn conn)

/-- All commands that have been carried out. -/
def commandsIn (hist : List ClientStreamOutput) : List Command := hist.flatMap (·.commands)

/-- What the systems have sent out. -/
def sentOut (hist : List ClientStreamOutput) : List (ℕ × Act) := hist.flatMap (·.acts)

/-- The message a line stands for, where the line is one that `on_tcp_receive` gives
on. -/
def messageOf (line : Text) : Option KVMsg :=
  if line.length + 1 > tcpPackSize then none
  else
    match resolve (cString line) with
    | .error _ => none
    | .ok proto => proto

/-- The messages of a client that has sent these lines: those before the first that
stands for none. -/
def messagesOf : List Text → List KVMsg
  | [] => []
  | line :: ls =>
      match messageOf line with
      | none => []
      | some proto => proto :: messagesOf ls

/-- The program has read all that it has been sent on a connection. -/
def LoopLeft (c d : Config ClientStreams ClientStreamOutput) (conn : Conn) : Prop :=
  c.state.thread = some conn ∧ d.state.thread = none ∧ d.state.alive = true

/-- Bytes on an open connection find room behind those that are not read yet. -/
def PacketsFit (c : Config ClientStreams ClientStreamOutput) : ClientStreamEvent → Prop
  | .packet conn data => (c.state.links conn).tcp.sockOpen = true →
      (c.state.links conn).tcp.crcbufRead.length + data.length ≤ tcpBufferCapacity
  | _ => True

instance (c : Config ClientStreams ClientStreamOutput) : (i : ClientStreamEvent) →
    Decidable (PacketsFit c i)
  | .packet _ _ => inferInstanceAs (Decidable (_ → _))
  | .onTcpReceive _ => inferInstanceAs (Decidable True)
  | .go _ _ => inferInstanceAs (Decidable True)
  | .other _ => inferInstanceAs (Decidable True)

/-! ### One connection -/

section

variable {line : Text} {ls a b : List Text}

theorem messagesOf_of_none (h : messageOf line = none) : messagesOf (line :: ls) = [] := by
  rw [messagesOf, h]

/-- Lines that all stand for messages. -/
theorem messagesOf_append {msgs : List KVMsg} (h : a.map messageOf = msgs.map some) :
    messagesOf (a ++ b) = msgs ++ messagesOf b := by
  induction a generalizing msgs with
  | nil =>
      obtain rfl : msgs = [] := List.map_eq_nil_iff.mp h.symm
      rfl
  | cons line a ih =>
      cases msgs with
      | nil => cases h
      | cons proto msgs =>
          obtain ⟨hline, ha⟩ := List.cons.inj h
          rw [List.cons_append, messagesOf, hline]
          exact congrArg (proto :: ·) (ih ha)

end

/-- What has been made of the bytes received on a connection: the lines taken out of the
buffer have been carried out, up to one for which the connection has been closed. -/
inductive Streamed (received : Text) (msgs : List KVMsg) (alive : Bool) (link : Framing) : Prop
  | going (handed : List Text) (isOpen : link.tcp.sockOpen = true)
      (noNewline : ∀ l ∈ handed, '\n' ∉ l)
      (hreceived : lineBytes handed ++ link.tcp.crcbufRead = received)
      (hmsgs : handed.map messageOf = msgs.map some)
      (found : ∀ pos, link.loop = .found pos → ∃ line rest, line.length = pos ∧ '\n' ∉ line ∧
        link.tcp.crcbufRead = line ++ '\n' :: rest)
  | stopped (handed : List Text) (bad rest : Text) (noNewline : ∀ l ∈ handed ++ [bad], '\n' ∉ l)
      (hreceived : lineBytes (handed ++ [bad]) ++ rest = received)
      (hmsgs : handed.map messageOf = msgs.map some) (hbad : messageOf bad = none)
      (closed : alive = true → link.tcp.sockOpen = false ∧ ∀ pos, link.loop ≠ .found pos)

namespace Streamed

variable {received : Text} {msgs : List KVMsg} {alive : Bool} {link : Framing}

theorem lines_of_stopped {handed : List Text} {bad rest : Text}
    (noNewline : ∀ l ∈ handed ++ [bad], '\n' ∉ l)
    (hreceived : lineBytes (handed ++ [bad]) ++ rest = received) :
    lines received = handed ++ bad :: lines rest := by
  rw [← hreceived, lines_lineBytes noNewline, List.append_assoc, List.singleton_append]

/-- Where no line is left, all has been carried out that can be, and the connection has
been closed if that is not all. -/
theorem complete (h : Streamed received msgs true link)
    (hlines : link.tcp.sockOpen = true → lines link.tcp.crcbufRead = []) :
    msgs = messagesOf (lines received) ∧
      (link.tcp.sockOpen = false ↔ ∃ line ∈ lines received, messageOf line = none) := by
  cases h with
  | going handed isOpen noNewline hreceived hmsgs =>
      have hall : lines received = handed := by
        rw [← hreceived, lines_lineBytes noNewline, hlines isOpen, List.append_nil]
      have hof := messagesOf_append (b := []) hmsgs
      rw [List.append_nil] at hof
      rw [hall, isOpen]
      refine ⟨(List.append_nil msgs).symm.trans hof.symm, iff_of_false (fun h => by cases h) ?_⟩
      rintro ⟨line, hline, hnone⟩
      have hmem : messageOf line ∈ msgs.map some := hmsgs ▸ List.mem_map_of_mem hline
      obtain ⟨proto, -, hproto⟩ := List.mem_map.mp hmem
      rw [hnone] at hproto
      cases hproto
  | stopped handed bad rest noNewline hreceived hmsgs hbad closed =>
      rw [lines_of_stopped noNewline hreceived, messagesOf_append hmsgs, messagesOf_of_none hbad,
        List.append_nil]
      exact ⟨rfl, iff_of_true (closed rfl).1
        ⟨bad, List.mem_append_right _ List.mem_cons_self, hbad⟩⟩

theorem packet (h : Streamed received msgs alive link) {data : Text}
    (hfit : link.tcp.sockOpen = true →
      link.tcp.crcbufRead.length + data.length ≤ tcpBufferCapacity) :
    Streamed (received ++ data) msgs alive { link with tcp := link.tcp.handleRead data } := by
  cases h with
  | going handed isOpen noNewline hreceived hmsgs found =>
      have hbuf : (link.tcp.handleRead data).crcbufRead = link.tcp.crcbufRead ++ data :=
        Circular.pushAll_of_fits (hfit isOpen)
      refine .going handed isOpen noNewline ?_ hmsgs fun pos hpos => ?_
      · rw [← hreceived, hbuf, List.append_assoc]
      · obtain ⟨line, rest, hlen, hline, hfound⟩ := found pos hpos
        refine ⟨line, rest ++ data, hlen, hline, ?_⟩
        rw [hbuf, hfound, List.append_assoc, List.cons_append]
  | stopped handed bad rest noNewline hreceived hmsgs hbad closed =>
      refine .stopped handed bad (rest ++ data) noNewline ?_ hmsgs hbad closed
      rw [← hreceived, List.append_assoc]

theorem withLoop (h : Streamed received msgs alive link) {loop : LoopPoint}
    (hloop : ∀ pos, loop ≠ .found pos) :
    Streamed received msgs alive { link with loop := loop } := by
  cases h with
  | going handed isOpen noNewline hreceived hmsgs =>
      exact .going handed isOpen noNewline hreceived hmsgs fun pos hpos => absurd hpos (hloop pos)
  | stopped handed bad rest noNewline hreceived hmsgs hbad closed =>
      exact .stopped handed bad rest noNewline hreceived hmsgs hbad fun halive =>
        ⟨(closed halive).1, hloop⟩

/-- Nothing of the connection matters any more. -/
theorem died (h : Streamed received msgs alive link) : Streamed received msgs false link := by
  cases h with
  | going handed isOpen noNewline hreceived hmsgs found =>
      exact .going handed isOpen noNewline hreceived hmsgs found
  | stopped handed bad rest noNewline hreceived hmsgs hbad closed =>
      exact .stopped handed bad rest noNewline hreceived hmsgs hbad fun h => by cases h

/-- A line that has been taken out and is carried out. -/
theorem carried {handed : List Text} {line rest : Text} {proto : KVMsg} {loop : LoopPoint}
    (isOpen : link.tcp.sockOpen = true) (noNewline : ∀ l ∈ handed, '\n' ∉ l) (hline : '\n' ∉ line)
    (hreceived : lineBytes handed ++ (line ++ '\n' :: rest) = received)
    (hmsgs : handed.map messageOf = msgs.map some) (hproto : messageOf line = some proto)
    (hloop : ∀ pos, loop ≠ .found pos) :
    Streamed received (msgs ++ [proto]) alive
      { tcp := { link.tcp with crcbufRead := rest }, loop := loop } := by
  refine .going (handed ++ [line]) isOpen ?_ ?_ ?_ fun pos hpos => absurd hpos (hloop pos)
  · exact List.forall_mem_append.mpr ⟨noNewline, List.forall_mem_singleton.mpr hline⟩
  · rw [← hreceived]
    simp [lineBytes]
  · rw [List.map_append, List.map_append, hmsgs, List.map_singleton, hproto]
    rfl

/-- A line that is not carried out, whether or not it has been taken out. -/
theorem refused {handed : List Text} {line rest : Text} {link' : Framing}
    (noNewline : ∀ l ∈ handed, '\n' ∉ l) (hline : '\n' ∉ line)
    (hreceived : lineBytes handed ++ (line ++ '\n' :: rest) = received)
    (hmsgs : handed.map messageOf = msgs.map some) (hbad : messageOf line = none)
    (closed : alive = true → link'.tcp.sockOpen = false ∧ ∀ pos, link'.loop ≠ .found pos) :
    Streamed received msgs alive link' := by
  refine .stopped handed line rest ?_ ?_ hmsgs hbad closed
  · exact List.forall_mem_append.mpr ⟨noNewline, List.forall_mem_singleton.mpr hline⟩
  · rw [← hreceived]
    simp [lineBytes]

/-- One step of the loop over a connection: it hands nothing on, and where it leaves there
is no line left; or it hands on a line, whose message is what is to be carried out. -/
theorem go (h : Streamed received msgs true link) :
    (link.go.2 = [] ∧ Streamed received msgs true link.go.1 ∧
      (link.loop ≠ .idle → link.go.1.loop = .idle → link.go.1.tcp.sockOpen = true →
        lines link.go.1.tcp.crcbufRead = [])) ∨
    ∃ line, link.go.2 = [.handed (cString line)] ∧ link.go.1.loop = .looking ∧
      line.length + 1 ≤ tcpPackSize ∧
      (∀ proto, messageOf line = some proto → Streamed received (msgs ++ [proto]) true link.go.1) ∧
      (messageOf line = none → Streamed received msgs false link.go.1 ∧
        Streamed received msgs true { link.go.1 with tcp := link.go.1.tcp.close }) := by
  cases hloop : link.loop with
  | idle =>
      have hgo : link.go = (link, []) := by rw [Framing.go, hloop]
      rw [hgo]
      exact .inl ⟨rfl, h, fun hne => absurd rfl hne⟩
  | looking =>
      left
      cases hopen : link.tcp.sockOpen with
      | false =>
          have hgo : link.go = ({ link with loop := .idle }, []) := by
            simp [Framing.go, hloop, hopen]
          rw [hgo]
          refine ⟨rfl, h.withLoop fun pos hpos => (by cases hpos), fun _ _ hopen' => ?_⟩
          rw [hopen] at hopen'
          cases hopen'
      | true =>
          cases hpos : link.tcp.lookup ['\n'] 0 with
          | none =>
              have hgo : link.go = ({ link with loop := .idle }, []) := by
                simp [Framing.go, hloop, hopen, hpos]
              rw [hgo]
              exact ⟨rfl, h.withLoop fun pos hfound => (by cases hfound),
                fun _ _ _ => TcpClient.lines_of_lookup_none hpos⟩
          | some pos =>
              have hgo : link.go = ({ link with loop := .found pos }, []) := by
                simp [Framing.go, hloop, hopen, hpos]
              rw [hgo]
              refine ⟨rfl, ?_, fun _ hidle => by cases hidle⟩
              cases h with
              | going handed isOpen noNewline hreceived hmsgs =>
                  refine .going handed isOpen noNewline hreceived hmsgs fun pos' hfound => ?_
                  obtain rfl := LoopPoint.found.inj hfound
                  obtain ⟨line, rest, hbuf, hline, hlen⟩ :=
                    TcpClient.lookupFrom_newline (by simpa [TcpClient.lookup] using hpos)
                  exact ⟨line, rest, by omega, hline, hbuf⟩
              | stopped _ _ _ _ _ _ _ closed =>
                  rw [(closed rfl).1] at hopen
                  cases hopen
  | found pos =>
      cases h with
      | stopped _ _ _ _ _ _ _ closed => exact absurd hloop ((closed rfl).2 pos)
      | going handed isOpen noNewline hreceived hmsgs found =>
          obtain ⟨line, rest, rfl, hline, hbuf⟩ := found pos hloop
          rw [hbuf] at hreceived
          by_cases hlong : line.length + 1 > tcpPackSize
          · -- the connection is closed, and the line stays where it is
            left
            have hgo : link.go = ({ tcp := link.tcp.close, loop := .looking }, []) := by
              simp only [Framing.go, hloop, if_pos hlong]
            rw [hgo]
            refine ⟨rfl, ?_, fun _ hidle => by cases hidle⟩
            exact refused noNewline hline hreceived hmsgs (if_pos hlong)
              fun _ => ⟨rfl, fun pos hpos => by cases hpos⟩
          · right
            have hgo := go_found hloop hbuf (Nat.not_lt.mp hlong)
            rw [hgo]
            refine ⟨line, rfl, rfl, Nat.not_lt.mp hlong, fun proto hproto => ?_, fun hbad => ⟨?_, ?_⟩⟩
            · exact carried isOpen noNewline hline hreceived hmsgs hproto fun pos hpos => by cases hpos
            · exact refused noNewline hline hreceived hmsgs hbad fun h => by cases h
            · exact refused noNewline hline hreceived hmsgs hbad
                fun _ => ⟨rfl, fun pos hpos => by cases hpos⟩

end Streamed

/-! ### All of them -/

@[simp] theorem receivedOn_append (conn : Conn) (a b : List ClientStreamOutput) :
    receivedOn conn (a ++ b) = receivedOn conn a ++ receivedOn conn b := List.flatMap_append

@[simp] theorem messagesOn_append (conn : Conn) (a b : List ClientStreamOutput) :
    messagesOn conn (a ++ b) = messagesOn conn a ++ messagesOn conn b := List.flatMap_append

@[simp] theorem commandsIn_append (a b : List ClientStreamOutput) :
    commandsIn (a ++ b) = commandsIn a ++ commandsIn b := List.flatMap_append

@[simp] theorem sentOut_append (a b : List ClientStreamOutput) :
    sentOut (a ++ b) = sentOut a ++ sentOut b := List.flatMap_append

/-- What is sent out is neither received nor a command. -/
theorem outputs_sent (conn : Conn) (acts : List (ℕ × Act)) :
    receivedOn conn (acts.map .sent) = [] ∧ messagesOn conn (acts.map .sent) = [] ∧
      commandsIn (acts.map .sent) = [] ∧ sentOut (acts.map .sent) = acts := by
  refine ⟨?_, ?_, ?_, ?_⟩
  · simp [receivedOn, List.flatMap_map, ClientStreamOutput.bytesOn]
  · simp [messagesOn, List.flatMap_map, ClientStreamOutput.messagesOn]
  · simp [commandsIn, List.flatMap_map, ClientStreamOutput.commands]
  · simp [sentOut, List.flatMap_map, ClientStreamOutput.acts]

/-- The systems are where the commands bring them, and every connection is where what
has been received on it does. -/
structure Refined (posix : PosixTime) (c : Config ClientStreams ClientStreamOutput) : Prop where
  control : (generalControl posix).exec GeneralControl.start (commandsIn c.hist) =
    ⟨c.state.control, sentOut c.hist⟩
  streamed : ∀ conn, Streamed (receivedOn conn c.hist) (messagesOn conn c.hist) c.state.alive
    (c.state.links conn)
  busy : ∀ conn, c.state.thread = some conn → (c.state.links conn).loop ≠ .idle

namespace Refined

variable {posix : PosixTime} {c : Config ClientStreams ClientStreamOutput}

theorem control_carry {x : ClientStreams} {hist : List ClientStreamOutput}
    (h : (generalControl posix).exec GeneralControl.start (commandsIn hist) =
      ⟨x.control, sentOut hist⟩) (conn : Option Conn) (cmd : Command) :
    (generalControl posix).exec GeneralControl.start
        (commandsIn (hist ++ (x.carry posix conn cmd).2)) =
      ⟨(x.carry posix conn cmd).1.control, sentOut (hist ++ (x.carry posix conn cmd).2)⟩ := by
  obtain ⟨-, -, hcommands, hacts⟩ :=
    outputs_sent 0 ((generalControl posix).step x.control cmd).2
  have hcmd : commandsIn (x.carry posix conn cmd).2 = [cmd] := congrArg (cmd :: ·) hcommands
  have hsent : sentOut (x.carry posix conn cmd).2 = ((generalControl posix).step x.control cmd).2 :=
    hacts
  rw [commandsIn_append, hcmd, Machine.exec_append, h, sentOut_append, hsent]
  rfl

theorem receivedOn_carry (x : ClientStreams) (conn : Option Conn) (cmd : Command) (conn' : Conn) :
    receivedOn conn' (x.carry posix conn cmd).2 = [] :=
  (outputs_sent conn' ((generalControl posix).step x.control cmd).2).1

theorem messagesOn_carry (x : ClientStreams) (conn : Option Conn) (cmd : Command) (conn' : Conn) :
    messagesOn conn' (x.carry posix conn cmd).2 =
      (ClientStreamOutput.carried conn cmd).messagesOn conn' := by
  have hsent := (outputs_sent conn' ((generalControl posix).step x.control cmd).2).2.1
  show _ ++ messagesOn conn' _ = _
  rw [hsent, List.append_nil]

theorem packet (h : Refined posix c) (halive : c.state.alive = true) {conn : Conn} {data : Text}
    (hfit : PacketsFit c (.packet conn data)) :
    Refined posix ((clientStreams posix).next c (.packet conn data)) := by
  have hnext : (clientStreams posix).next c (.packet conn data) =
      ⟨c.state.setLink conn { c.state.links conn with
        tcp := (c.state.links conn).tcp.handleRead data }, c.hist ++ [.received conn data]⟩ := by
    simp [Machine.next, clientStreams, halive]
  rw [hnext]
  refine ⟨?_, fun conn' => ?_, fun conn' hthread => ?_⟩
  · have hcommands : commandsIn [.received conn data] = [] := rfl
    have hsent : sentOut [.received conn data] = [] := rfl
    rw [commandsIn_append, sentOut_append, hcommands, hsent, List.append_nil, List.append_nil]
    exact h.control
  · rw [receivedOn_append, messagesOn_append]
    simp only [ClientStreams.setLink]
    have hmessages : messagesOn conn' [.received conn data] = [] := rfl
    rw [hmessages, List.append_nil]
    by_cases hconn : conn' = conn
    · subst hconn
      have hreceived : receivedOn conn' [.received conn' data] = data := by
        simp [receivedOn, ClientStreamOutput.bytesOn]
      rw [hreceived, Function.update_self]
      exact (h.streamed conn').packet hfit
    · have hreceived : receivedOn conn' [.received conn data] = [] := by
        simp [receivedOn, ClientStreamOutput.bytesOn, Ne.symm hconn]
      rw [hreceived, List.append_nil, Function.update_of_ne hconn]
      exact h.streamed conn'
  · simp only [ClientStreams.setLink]
    by_cases hconn : conn' = conn
    · subst hconn
      rw [Function.update_self]
      exact h.busy conn' hthread
    · rw [Function.update_of_ne hconn]
      exact h.busy conn' hthread

theorem onTcpReceive (h : Refined posix c) (halive : c.state.alive = true) (conn : Conn) :
    Refined posix ((clientStreams posix).next c (.onTcpReceive conn)) := by
  by_cases hidle : c.state.thread = none
  swap
  · have hnext : (clientStreams posix).next c (.onTcpReceive conn) = c := by
      simp [Machine.next, clientStreams, halive, hidle]
    rwa [hnext]
  have hnext : (clientStreams posix).next c (.onTcpReceive conn) =
      ⟨{ c.state.setLink conn { c.state.links conn with loop := .looking } with
        thread := some conn }, c.hist⟩ := by
    simp [Machine.next, clientStreams, halive, hidle]
  rw [hnext]
  refine ⟨h.control, fun conn' => ?_, fun conn' hthread => ?_⟩
  · simp only [ClientStreams.setLink]
    by_cases hconn : conn' = conn
    · subst hconn
      rw [Function.update_self]
      exact (h.streamed conn').withLoop fun pos hpos => by cases hpos
    · rw [Function.update_of_ne hconn]
      exact h.streamed conn'
  · obtain rfl := Option.some.inj hthread
    simp only [ClientStreams.setLink, Function.update_self]
    exact fun hloop => by cases hloop

theorem other (h : Refined posix c) (halive : c.state.alive = true) (cmd : Command) :
    Refined posix ((clientStreams posix).next c (.other cmd)) := by
  cases hclient : cmd.kind.ofClient with
  | true =>
      have hnext : (clientStreams posix).next c (.other cmd) = c := by
        simp [Machine.next, clientStreams, halive, hclient]
      rwa [hnext]
  | false =>
      have hnext : (clientStreams posix).next c (.other cmd) =
          ⟨(c.state.carry posix none cmd).1, c.hist ++ (c.state.carry posix none cmd).2⟩ := by
        simp [Machine.next, clientStreams, halive, hclient]
      rw [hnext]
      refine ⟨control_carry h.control none cmd, fun conn => ?_, h.busy⟩
      rw [receivedOn_append, messagesOn_append, receivedOn_carry, messagesOn_carry]
      simp only [ClientStreamOutput.messagesOn, List.append_nil]
      exact h.streamed conn

/-- A line that the loop over a connection has handed on. -/
theorem deal {x : ClientStreams} {hist : List ClientStreamOutput} {conn : Conn} {line : Text}
    (hcontrol : (generalControl posix).exec GeneralControl.start (commandsIn hist) =
      ⟨x.control, sentOut hist⟩)
    (halive : x.alive = true) (hthread : x.thread = some conn)
    (hlooking : (x.links conn).loop = .looking) (hfit : line.length + 1 ≤ tcpPackSize)
    (hother : ∀ conn', conn' ≠ conn →
      Streamed (receivedOn conn' hist) (messagesOn conn' hist) true (x.links conn'))
    (hsome : ∀ proto, messageOf line = some proto →
      Streamed (receivedOn conn hist) (messagesOn conn hist ++ [proto]) true (x.links conn))
    (hnone : messageOf line = none →
      Streamed (receivedOn conn hist) (messagesOn conn hist) false (x.links conn) ∧
      Streamed (receivedOn conn hist) (messagesOn conn hist) true
        { x.links conn with tcp := (x.links conn).tcp.close })
    (now : Time) (unset : Unset) :
    Refined posix ⟨(x.dealClient posix now unset conn (cString line)).1,
        hist ++ (x.dealClient posix now unset conn (cString line)).2⟩ ∧
      (x.dealClient posix now unset conn (cString line)).1.thread = some conn := by
  have hmessage : messageOf line =
      match resolve (cString line) with
      | .error _ => none
      | .ok proto => proto := if_neg (Nat.not_lt.mpr hfit)
  have hbusy : ∀ conn', x.thread = some conn' → (x.links conn').loop ≠ .idle := by
    intro conn' hconn
    obtain rfl := Option.some.inj (hthread.symm.trans hconn)
    rw [hlooking]
    exact fun hloop => by cases hloop
  unfold ClientStreams.dealClient
  split
  · -- the process ends
    next hresolve =>
    rw [hresolve] at hmessage
    refine ⟨⟨by rw [List.append_nil]; exact hcontrol, fun conn' => ?_, hbusy⟩, hthread⟩
    rw [List.append_nil]
    by_cases hconn : conn' = conn
    · exact hconn ▸ (hnone hmessage).1
    · exact (hother conn' hconn).died
  · next hresolve =>
    rw [hresolve] at hmessage
    refine ⟨⟨by rw [List.append_nil]; exact hcontrol, fun conn' => ?_, fun conn' hconn => ?_⟩, hthread⟩
    · rw [List.append_nil, show (ClientStreams.setLink conn _ x).alive = true from halive]
      simp only [ClientStreams.setLink]
      by_cases hconn : conn' = conn
      · subst hconn
        rw [Function.update_self]
        exact (hnone hmessage).2
      · rw [Function.update_of_ne hconn]
        exact hother conn' hconn
    · obtain rfl := Option.some.inj (hthread.symm.trans hconn)
      simp only [ClientStreams.setLink, Function.update_self]
      exact hbusy conn hthread
  · next proto hresolve =>
    rw [hresolve] at hmessage
    refine ⟨⟨control_carry hcontrol _ _, fun conn' => ?_, hbusy⟩, hthread⟩
    rw [receivedOn_append, messagesOn_append, receivedOn_carry, messagesOn_carry, List.append_nil,
      show (ClientStreams.carry posix _ _ x).1.alive = true from halive]
    simp only [ClientStreamOutput.messagesOn]
    by_cases hconn : conn' = conn
    · subst hconn
      rw [if_pos rfl]
      exact hsome proto hmessage
    · rw [if_neg (Ne.symm hconn), List.append_nil]
      exact hother conn' hconn

/-- The step of the message thread. It leaves a connection only where no line is left. -/
theorem go (h : Refined posix c) (halive : c.state.alive = true) (now : Time) (unset : Unset)
    {conn : Conn} (hthread : c.state.thread = some conn) :
    Refined posix ((clientStreams posix).next c (.go now unset)) ∧
      (((clientStreams posix).next c (.go now unset)).state.thread = none →
        (((clientStreams posix).next c (.go now unset)).state.links conn).tcp.sockOpen = true →
        lines (((clientStreams posix).next c (.go now unset)).state.links conn).tcp.crcbufRead =
          []) := by
  obtain ⟨link, hlink⟩ : ∃ link, c.state.links conn = link := ⟨_, rfl⟩
  have hself : (c.state.advance conn link.go.1).links conn = link.go.1 := Function.update_self ..
  have hother : ∀ conn', conn' ≠ conn →
      (c.state.advance conn link.go.1).links conn' = c.state.links conn' :=
    fun conn' hconn => Function.update_of_ne hconn ..
  have hothers : ∀ conn', conn' ≠ conn → Streamed (receivedOn conn' c.hist) (messagesOn conn' c.hist)
      true ((c.state.advance conn link.go.1).links conn') := fun conn' hconn => by
    rw [hother conn' hconn, ← halive]
    exact h.streamed conn'
  have hstreamed := h.streamed conn
  rw [halive, hlink] at hstreamed
  rcases hstreamed.go with ⟨hnothing, hkept, hleft⟩ | ⟨line, hhanded, hlooking, hfit, hsome, hnone⟩
  · have hnext : (clientStreams posix).next c (.go now unset) =
        ⟨c.state.advance conn link.go.1, c.hist⟩ := by
      simp [Machine.next, clientStreams, halive, ClientStreams.go, hthread, hlink, hnothing]
    rw [hnext]
    refine ⟨⟨h.control, fun conn' => ?_, fun conn' hbusy => ?_⟩, fun hidle hopen => ?_⟩
    · rw [show (c.state.advance conn link.go.1).alive = true from halive]
      by_cases hconn : conn' = conn
      · subst hconn
        rw [hself]
        exact hkept
      · exact hothers conn' hconn
    · dsimp only [ClientStreams.advance] at hbusy
      split at hbusy
      · cases hbusy
      · next hloop =>
          obtain rfl := Option.some.inj hbusy
          rw [hself]
          exact hloop
    · dsimp only [ClientStreams.advance] at hidle
      split at hidle
      · next hloop =>
          rw [hself] at hopen ⊢
          exact hleft (hlink ▸ h.busy conn hthread) hloop hopen
      · cases hidle
  · have hstep : (clientStreams posix).next c (.go now unset) =
        ⟨((c.state.advance conn link.go.1).dealClient posix now unset conn (cString line)).1,
          c.hist ++
            ((c.state.advance conn link.go.1).dealClient posix now unset conn (cString line)).2⟩ := by
      simp [Machine.next, clientStreams, halive, ClientStreams.go, hthread, hlink, hhanded]
    have hreading : (c.state.advance conn link.go.1).thread = some conn := by
      simp [ClientStreams.advance, hlooking]
    obtain ⟨hrefined, hstill⟩ := deal (x := c.state.advance conn link.go.1) h.control halive hreading
      (by rw [hself]; exact hlooking) hfit hothers (by rw [hself]; exact hsome)
      (by rw [hself]; exact hnone) now unset
    rw [hstep]
    exact ⟨hrefined, fun hidle => by cases hstill.symm.trans hidle⟩

theorem next_of_dead (halive : c.state.alive = false) (i : ClientStreamEvent) :
    (clientStreams posix).next c i = c := by
  simp [Machine.next, clientStreams, halive]

theorem next (h : Refined posix c) {i : ClientStreamEvent} (hfit : PacketsFit c i) :
    Refined posix ((clientStreams posix).next c i) := by
  cases halive : c.state.alive with
  | false => rwa [next_of_dead halive]
  | true =>
      cases i with
      | packet conn data => exact h.packet halive hfit
      | onTcpReceive conn => exact h.onTcpReceive halive conn
      | other cmd => exact h.other halive cmd
      | go now unset =>
          cases hthread : c.state.thread with
          | some conn => exact (h.go halive now unset hthread).1
          | none =>
              have hnext : (clientStreams posix).next c (.go now unset) = c := by
                simp [Machine.next, clientStreams, halive, ClientStreams.go, hthread]
              rwa [hnext]

/-- The loop over a connection ends. -/
theorem complete (h : Refined posix c) {i : ClientStreamEvent} (hfit : PacketsFit c i) {conn : Conn}
    (hleft : LoopLeft c ((clientStreams posix).next c i) conn) :
    messagesOn conn ((clientStreams posix).next c i).hist =
        messagesOf (lines (receivedOn conn ((clientStreams posix).next c i).hist)) ∧
      ((((clientStreams posix).next c i).state.links conn).tcp.sockOpen = false ↔
        ∃ line ∈ lines (receivedOn conn ((clientStreams posix).next c i).hist),
          messageOf line = none) := by
  obtain ⟨hthread, hidle, halive'⟩ := hleft
  have hstreamed := (h.next hfit).streamed conn
  rw [halive'] at hstreamed
  refine hstreamed.complete fun hopen => ?_
  have halive : c.state.alive = true := by
    by_contra hdead
    rw [next_of_dead (Bool.eq_false_iff.mpr hdead), hthread] at hidle
    cases hidle
  cases i with
  | go now unset => exact (h.go halive now unset hthread).2 hidle hopen
  | packet conn' data =>
      have hstill : ((clientStreams posix).next c (.packet conn' data)).state.thread =
          c.state.thread := by simp [Machine.next, clientStreams, halive, ClientStreams.setLink]
      cases hthread.symm.trans (hstill.symm.trans hidle)
  | onTcpReceive conn' =>
      have hstill : ((clientStreams posix).next c (.onTcpReceive conn')).state.thread =
          c.state.thread := by simp [Machine.next, clientStreams, halive, hthread]
      cases hthread.symm.trans (hstill.symm.trans hidle)
  | other cmd =>
      have hstill : ((clientStreams posix).next c (.other cmd)).state.thread = c.state.thread := by
        simp only [Machine.next, clientStreams, halive, Bool.not_true, Bool.false_eq_true, if_false]
        split <;> rfl
      cases hthread.symm.trans (hstill.symm.trans hidle)

end Refined

end Gtoaes
