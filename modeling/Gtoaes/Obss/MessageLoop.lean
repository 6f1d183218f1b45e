import Gtoaes.Lib.Mailbox
import Gtoaes.Obss.WaitFlat

/-!
The message queue of an observation system. The threads that receive for its
cameras post to it, and one thread takes the messages out and handles them. That
thread posts to the same queue when all cameras wait for a flat field: if the
queue is full then, it waits for room that only itself could make.
-/

namespace Gtoaes

open Lib

/-- The entries of a message queue, as `MessageQueue::Start` makes it. -/
def messageQueueSize : ℕ := 1024

/-- What `tcp_receive` posts for the thread that receives on a connection. -/
inductive TcpMessage
  | tcpReceive (conn : Conn) (peer : PeerType)
  | tcpClose (conn : Conn) (peer : PeerType)
  deriving DecidableEq

inductive ObssMessage
  | tcp (msg : TcpMessage)
  | flatReslew
  deriving DecidableEq

/-- Where `message_loop` is: it waits for a message, handles one, or waits inside
the handler of one to post another. -/
inductive MessageThread
  | receiving
  | handling (msg : ObssMessage)
  | posting (msg next : ObssMessage)
  deriving DecidableEq

structure MessageLoop where
  sys : Solo
  mq : Mailbox ObssMessage messageQueueSize := .empty
  thread : MessageThread := .receiving

/-- What the threads do. A network thread posts, or gets the place it has waited
for; the message thread takes a message, handles one line of a connection, ends
the handling, or gets the place it has waited for; other threads call the
functions of the system. -/
inductive MessageLoopEvent
  | post (msg : TcpMessage)
  | letIn (k : ℕ)
  | receive
  | line (now : Time) (unset : Unset) (proto : KVMsg)
  | finish (now : Time) (unset : Unset)
  | unblock
  | call (i : Input)

/-- The events that are messages of the queue and no calls of other threads. -/
def Event.isMessage : Event → Bool
  | .deviceLine _ _ | .onTcpClose _ _ | .onFlatReslew => true
  | _ => false

namespace MessageLoop

variable (posix : PosixTime)

def handle (i : Input) (x : MessageLoop) : MessageLoop × List Act :=
  ({ x with sys := ((solo posix).step x.sys i).1 }, ((solo posix).step x.sys i).2)

/-- `PostMessage` of the message thread, from within the handler of `msg`. -/
def postSelf (msg next : ObssMessage) (x : MessageLoop) : MessageLoop :=
  if h : x.mq.queue.length < messageQueueSize then { x with mq := x.mq.push next h }
  else { x with thread := .posting msg next }

/-- `process_protocol_camera` of one line: its last action is to post the message
about the flat field. -/
def processLine (msg : ObssMessage) (i : Input) (x : MessageLoop) : MessageLoop × List Act :=
  let r := x.handle posix i
  if .flatReslew ∈ r.2 then (r.1.postSelf msg .flatReslew, r.2) else r

end MessageLoop

/-- The threads of one system, one event at a time. -/
def messageLoop (posix : PosixTime) : Machine MessageLoop MessageLoopEvent Act where
  step x
    | .post msg => ({ x with mq := x.mq.send (.tcp msg) }, [])
    | .letIn k => ({ x with mq := x.mq.letIn k }, [])
    | .receive =>
        match x.thread, x.mq.receive with
        | .receiving, some (msg, mq) => ({ x with mq := mq, thread := .handling msg }, [])
        | _, _ => (x, [])
    | .line now unset proto =>
        match x.thread with
        | .handling (.tcp (.tcpReceive conn peer)) =>
            x.processLine posix (.tcp (.tcpReceive conn peer)) ⟨now, unset, .deviceLine conn proto⟩
        | _ => (x, [])
    | .finish now unset =>
        match x.thread with
        | .handling (.tcp (.tcpReceive _ _)) => ({ x with thread := .receiving }, [])
        | .handling (.tcp (.tcpClose conn peer)) =>
            MessageLoop.handle posix ⟨now, unset, .onTcpClose conn peer⟩
              { x with thread := .receiving }
        | .handling .flatReslew =>
            MessageLoop.handle posix ⟨now, unset, .onFlatReslew⟩ { x with thread := .receiving }
        | _ => (x, [])
    | .unblock =>
        match x.thread with
        | .posting msg next =>
            if h : x.mq.queue.length < messageQueueSize then
              ({ x with mq := x.mq.push next h, thread := .handling msg }, [])
            else (x, [])
        | _ => (x, [])
    | .call i => if i.ev.isMessage then (x, []) else x.handle posix i

namespace MessageLoop

/-- The message thread waits for room in its own queue. -/
def Blocked (x : MessageLoop) : Prop := ∃ msg next, x.thread = .posting msg next

/-- The line handled next makes all cameras that expose wait for a flat field. -/
def AllToWait (posix : PosixTime) (x : MessageLoop) : MessageLoopEvent → Prop
  | .line now unset (.camera m) => ∃ conn peer, x.thread = .handling (.tcp (.tcpReceive conn peer)) ∧
      x.sys.obss.sysState.reslews
        (Obss.camReport (x.sys.ctx posix ⟨now, unset, .deviceLine conn (.camera m)⟩) m).state
        (x.sys.obss.oldState conn)
  | _ => False

variable {posix : PosixTime}

@[simp] theorem handle_thread (i : Input) (x : MessageLoop) :
    (x.handle posix i).1.thread = x.thread := rfl

@[simp] theorem handle_mq (i : Input) (x : MessageLoop) : (x.handle posix i).1.mq = x.mq := rfl

theorem blocked_postSelf (msg next : ObssMessage) {x : MessageLoop} (h : ¬ x.Blocked) :
    (x.postSelf msg next).Blocked ↔ x.mq.queue.length = messageQueueSize := by
  have hbounded := x.mq.bounded
  unfold postSelf
  split
  · exact iff_of_false h (by omega)
  · exact iff_of_true ⟨msg, next, rfl⟩ (by omega)

/-- A line blocks the message thread just where it makes all cameras wait and the
queue is full. -/
theorem blocked_processLine (msg : ObssMessage) (i : Input) {x : MessageLoop} (h : ¬ x.Blocked) :
    (x.processLine posix msg i).1.Blocked ↔
      .flatReslew ∈ (Obss.step (x.sys.ctx posix i) i.ev x.sys.obss).2 ∧
        x.mq.queue.length = messageQueueSize := by
  have hkept : ¬ (x.handle posix i).1.Blocked := h
  have hacts : (x.handle posix i).2 = (Obss.step (x.sys.ctx posix i) i.ev x.sys.obss).2 := rfl
  rw [processLine, ← hacts]
  split
  · next hreslew =>
      rw [blocked_postSelf _ _ hkept, and_iff_right hreslew]
      rfl
  · next hnone => exact iff_of_false hkept fun hboth => hnone hboth.1

theorem not_blocked_of_thread {x : MessageLoop} (h : x.thread = .receiving) : ¬ x.Blocked := by
  rintro ⟨msg, next, hthread⟩
  rw [h] at hthread
  cases hthread

theorem not_blocked_of_handling {x : MessageLoop} {msg : ObssMessage}
    (h : x.thread = .handling msg) : ¬ x.Blocked := by
  rintro ⟨msg', next, hthread⟩
  rw [h] at hthread
  cases hthread

/-- A line that posts the message is a camera's report that makes all of them wait. -/
theorem posts_iff_allToWait {x : MessageLoop} {conn : Conn} {peer : PeerType}
    (hthread : x.thread = .handling (.tcp (.tcpReceive conn peer))) (now : Time) (unset : Unset)
    (proto : KVMsg) :
    .flatReslew ∈ (Obss.step (x.sys.ctx posix ⟨now, unset, .deviceLine conn proto⟩)
        (.deviceLine conn proto) x.sys.obss).2 ↔ x.AllToWait posix (.line now unset proto) := by
  rw [Obss.reslew_iff]
  constructor
  · rintro ⟨conn', m, hev, hreslews⟩
    obtain ⟨rfl, rfl⟩ := Event.deviceLine.inj hev
    exact ⟨conn, peer, hthread, hreslews⟩
  · intro hall
    cases proto with
    | camera m =>
        obtain ⟨conn', peer', hthread', hreslews⟩ := hall
        obtain ⟨rfl, rfl⟩ : conn = conn' ∧ peer = peer' := by
          rw [hthread] at hthread'
          simpa using hthread'
        exact ⟨conn, m, rfl, hreslews⟩
    | _ => exact hall.elim

/-- A line is handled only while the message it came with is. -/
theorem AllToWait.handling {x : MessageLoop} {now : Time} {unset : Unset} {proto : KVMsg}
    (h : x.AllToWait posix (.line now unset proto)) :
    ∃ conn peer, x.thread = .handling (.tcp (.tcpReceive conn peer)) := by
  cases proto with
  | camera m =>
      obtain ⟨conn, peer, hthread, -⟩ := h
      exact ⟨conn, peer, hthread⟩
  | _ => exact h.elim

theorem blocked_line (c : Config MessageLoop Act) (h : ¬ c.state.Blocked) (now : Time)
    (unset : Unset) (proto : KVMsg) :
    ((messageLoop posix).next c (.line now unset proto)).state.Blocked ↔
      c.state.AllToWait posix (.line now unset proto) ∧
        c.state.mq.queue.length = messageQueueSize := by
  by_cases hreads : ∃ conn peer, c.state.thread = .handling (.tcp (.tcpReceive conn peer))
  · obtain ⟨conn, peer, hthread⟩ := hreads
    have hstep : ((messageLoop posix).next c (.line now unset proto)).state =
        (c.state.processLine posix (.tcp (.tcpReceive conn peer))
          ⟨now, unset, .deviceLine conn proto⟩).1 := by
      simp only [Machine.next, messageLoop, hthread]
    rw [hstep, blocked_processLine _ _ h, posts_iff_allToWait hthread]
  · have hstep : ((messageLoop posix).next c (.line now unset proto)).state = c.state := by
      simp only [Machine.next, messageLoop]
      split
      · next conn peer hthread => exact absurd ⟨conn, peer, hthread⟩ hreads
      · rfl
    rw [hstep]
    exact iff_of_false h fun hboth => hreads hboth.1.handling

/-- The message thread comes to wait in a step exactly where the line it handles
makes all cameras wait and the queue is full. -/
theorem blocked_next (c : Config MessageLoop Act) (h : ¬ c.state.Blocked) (i : MessageLoopEvent) :
    ((messageLoop posix).next c i).state.Blocked ↔
      c.state.AllToWait posix i ∧ c.state.mq.queue.length = messageQueueSize := by
  -- only a line can have the thread post, and only to a full queue in vain
  cases i with
  | line now unset proto => exact blocked_line c h now unset proto
  | receive =>
      refine iff_of_false ?_ fun hall => hall.1
      simp only [Machine.next, messageLoop]
      split
      · exact not_blocked_of_handling rfl
      · exact h
  | finish now unset =>
      refine iff_of_false ?_ fun hall => hall.1
      simp only [Machine.next, messageLoop]
      split
      · exact not_blocked_of_thread rfl
      · exact not_blocked_of_thread rfl
      · exact not_blocked_of_thread rfl
      · exact h
  | unblock =>
      refine iff_of_false ?_ fun hall => hall.1
      simp only [Machine.next, messageLoop]
      split
      · split
        · exact not_blocked_of_handling rfl
        · exact h
      · exact h
  | call i =>
      refine iff_of_false ?_ fun hall => hall.1
      simp only [Machine.next, messageLoop]
      split <;> exact h
  | post msg => exact iff_of_false h fun hall => hall.1
  | letIn k => exact iff_of_false h fun hall => hall.1

/-- A thread that waits for room in its own full queue waits for ever: nobody else
takes a message out. -/
theorem blocked_forever {c : Config MessageLoop Act} (hblocked : c.state.Blocked)
    (hfull : c.state.mq.queue.length = messageQueueSize) (is : List MessageLoopEvent) :
    (messageLoop posix).Always
      (fun c => c.state.Blocked ∧ c.state.mq.queue.length = messageQueueSize) c is := by
  -- nobody takes anything out, so the queue stays full
  refine Machine.always_of_invariant ⟨hblocked, hfull⟩ fun c i ⟨⟨msg, next, hthread⟩, hfull⟩ => ?_
  cases i with
  | post tcp =>
      exact ⟨⟨msg, next, hthread⟩,
        (congrArg List.length (Mailbox.send_full hfull (.tcp tcp))).trans hfull⟩
  | letIn k =>
      exact ⟨⟨msg, next, hthread⟩,
        (congrArg (fun mq => mq.queue.length) (Mailbox.letIn_full hfull k)).trans hfull⟩
  | unblock =>
      have hstep : ((messageLoop posix).next c .unblock).state = c.state := by
        simp [Machine.next, messageLoop, hthread, hfull]
      rw [hstep]
      exact ⟨⟨msg, next, hthread⟩, hfull⟩
  | call i =>
      simp only [Machine.next, messageLoop]
      split <;> exact ⟨⟨msg, next, hthread⟩, hfull⟩
  | receive =>
      have hstep : ((messageLoop posix).next c .receive).state = c.state := by
        simp [Machine.next, messageLoop, hthread]
      rw [hstep]
      exact ⟨⟨msg, next, hthread⟩, hfull⟩
  | line now unset proto =>
      have hstep : ((messageLoop posix).next c (.line now unset proto)).state = c.state := by
        simp [Machine.next, messageLoop, hthread]
      rw [hstep]
      exact ⟨⟨msg, next, hthread⟩, hfull⟩
  | finish now unset =>
      have hstep : ((messageLoop posix).next c (.finish now unset)).state = c.state := by
        simp [Machine.next, messageLoop, hthread]
      rw [hstep]
      exact ⟨⟨msg, next, hthread⟩, hfull⟩

/-- A system with an empty queue. -/
def start (gid uid : Text) (type : ObssType) (now : Time) : Config MessageLoop Act where
  state := { sys := (Solo.start gid uid type now).state }
  hist := []

/-- The message thread never waits for room in its own queue, if and only if there
is room whenever a line makes all cameras wait for a flat field. -/
theorem neverBlocked_iff_room (posix : PosixTime) (gid uid : Text) (type : ObssType) (now : Time)
    (is : List MessageLoopEvent) :
    (messageLoop posix).Always (fun c => ¬ c.state.Blocked) (start gid uid type now) is ↔
      (messageLoop posix).Each
        (fun c i => c.state.AllToWait posix i → c.state.mq.queue.length < messageQueueSize)
        (start gid uid type now) is := by
  refine Machine.always_iff_each Machine.each_true ?_ fun c i _ h => ?_
  · rintro ⟨_, _, hthread⟩
    cases hthread
  · have hbounded := c.state.mq.bounded
    rw [blocked_next c h i, not_and]
    exact imp_congr_right fun _ => by omega

/-- A camera's line in a run whose clock stands and whose unset memory is cleared. -/
def plainLine (m : KVCamera) : MessageLoopEvent :=
  .line 0 { int := fun _ => 0, dbl := fun _ => .fin 0 } (.camera m)

/-- The only camera of a system begins to expose. -/
def exposes : List MessageLoopEvent :=
  [.call (Event.plain (.coupleCamera 2 "001".toList)), .post (.tcpReceive 2 .cameraGWAC), .receive,
    plainLine { cid := "001".toList, state := some camctlExposing }]

/-- While the lines of its first packet are handled, 1024 more packets come in; the
last of those lines says that the camera waits. -/
def flooded : List MessageLoopEvent :=
  exposes ++ List.replicate 1024 (.post (.tcpReceive 2 .cameraGWAC)) ++
    [plainLine { cid := "001".toList, state := some camctlWaitFlat }]

def exposing : Config MessageLoop Act :=
  (messageLoop .blank).exec (start "001".toList "001".toList .gwac 0) exposes

theorem exec_posts (posix : PosixTime) (c : Config MessageLoop Act) (msg : TcpMessage) (k : ℕ)
    (h : c.state.mq.queue.length + k ≤ messageQueueSize) :
    ((messageLoop posix).exec c (List.replicate k (.post msg))).state.sys = c.state.sys ∧
      ((messageLoop posix).exec c (List.replicate k (.post msg))).state.thread = c.state.thread ∧
      ((messageLoop posix).exec c (List.replicate k (.post msg))).state.mq.queue.length =
        c.state.mq.queue.length + k := by
  induction k with
  | zero => exact ⟨rfl, rfl, rfl⟩
  | succ k ih =>
      obtain ⟨hsys, hthread, hlen⟩ := ih (by omega)
      rw [List.replicate_succ', Machine.exec_append]
      refine ⟨hsys, hthread, ?_⟩
      have hsend := Mailbox.length_queue_send (.tcp msg)
        ((messageLoop posix).exec c (List.replicate k (.post msg))).state.mq
      refine hsend.trans ?_
      rw [hlen]
      omega

theorem not_neverBlocked : ¬ ∀ (posix : PosixTime) (gid uid : Text) (type : ObssType) (now : Time)
    (is : List MessageLoopEvent),
    (messageLoop posix).Always (fun c => ¬ c.state.Blocked) (start gid uid type now) is := by
  intro h
  have hrun := (h .blank "001".toList "001".toList .gwac 0 flooded).exec
  rw [flooded, Machine.exec_append, Machine.exec_append, ← exposing] at hrun
  have hthread : exposing.state.thread = .handling (.tcp (.tcpReceive 2 .cameraGWAC)) := by
    decide +kernel
  have hempty : exposing.state.mq.queue.length = 0 := by decide +kernel
  have hreslews : exposing.state.sys.obss.sysState.reslews camctlWaitFlat
      (exposing.state.sys.obss.oldState 2) := by decide +kernel
  obtain ⟨hsys', hthread', hfull⟩ := exec_posts .blank exposing (.tcpReceive 2 .cameraGWAC) 1024
    (by rw [hempty, messageQueueSize])
  rw [hempty, Nat.zero_add] at hfull
  refine hrun ((blocked_next _ ?_ _).mpr ⟨⟨2, .cameraGWAC, hthread'.trans hthread, ?_⟩, hfull⟩)
  · exact not_blocked_of_handling (hthread'.trans hthread)
  · rw [hsys']
    exact hreslews

end MessageLoop

end Gtoaes
