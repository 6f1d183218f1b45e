import Gtoaes.Obss.MessageLoop

/-!
The messages of one connection on their way to the message loop. `handle_read`
posts one message for every read that completes, waits inside the post where the
queue is full, and starts the next read when it has returned, unless there was an
error. So the loop finds the messages of every connection as they were posted, and
nothing behind the message about its close.
-/

namespace Gtoaes

open Lib

/-- What a read that completes with or without an error has `tcp_receive` post. -/
def tcpReceive (conn : Conn) (peer : PeerType) (ec : Bool) : TcpMessage :=
  if ec then .tcpClose conn peer else .tcpReceive conn peer

def TcpMessage.conn : TcpMessage → Conn
  | .tcpReceive conn _ | .tcpClose conn _ => conn

def TcpMessage.closes : TcpMessage → Bool
  | .tcpReceive _ _ => false
  | .tcpClose _ _ => true

@[simp] theorem tcpReceive_conn (conn : Conn) (peer : PeerType) (ec : Bool) :
    (tcpReceive conn peer ec).conn = conn := by cases ec <;> rfl

@[simp] theorem tcpReceive_closes (conn : Conn) (peer : PeerType) (ec : Bool) :
    (tcpReceive conn peer ec).closes = ec := by cases ec <;> rfl

def ObssMessage.closes : ObssMessage → Bool
  | .tcp msg => msg.closes
  | .flatReslew => false

/-- The message is about the connection. -/
def isOn (conn : Conn) : ObssMessage → Bool
  | .tcp msg => msg.conn == conn
  | .flatReslew => false

/-- Where the reading of a connection is: the system has not registered with it, a
read is outstanding, `handle_read` waits for a place in the queue, or it has
returned from an error and no read is started any more. -/
inductive ReadPhase
  | unbound | reading | posting | ended
  deriving DecidableEq

/-- The end of `handle_read`. -/
def ReadPhase.afterPost (ec : Bool) : ReadPhase := if ec then .ended else .reading

/-- The threads of one system with those that read from its connections. -/
structure ReaderLoop where
  loop : MessageLoop
  phase : Conn → ReadPhase := fun _ => .unbound

/-- The system registers with a connection, a read completes, a thread gets the
place it has waited for, or something else happens. -/
inductive ReaderEvent
  | registerRead (conn : Conn)
  | handleRead (conn : Conn) (peer : PeerType) (ec : Bool)
  | letIn (k : ℕ)
  | loop (ev : MessageLoopEvent)

/-- The network threads have events of their own. -/
def MessageLoopEvent.ofReader : MessageLoopEvent → Bool
  | .post _ | .letIn _ => true
  | _ => false

inductive MailMark
  | posted (msg : ObssMessage)
  | taken (msg : ObssMessage)

namespace ReaderLoop

def setPhase (conn : Conn) (phase : ReadPhase) (x : ReaderLoop) : ReaderLoop :=
  { x with phase := Function.update x.phase conn phase }

variable (posix : PosixTime)

def stepLoop (ev : MessageLoopEvent) (x : ReaderLoop) : ReaderLoop :=
  { x with loop := ((messageLoop posix).step x.loop ev).1 }

/-- The message that the message thread takes out of the queue. -/
def takes (x : MessageLoop) : MessageLoopEvent → List MailMark
  | .receive =>
      match x.thread, x.mq.receive with
      | .receiving, some (msg, _) => [.taken msg]
      | _, _ => []
  | _ => []

end ReaderLoop

def readerLoop (posix : PosixTime) : Machine ReaderLoop ReaderEvent MailMark where
  step x
    | .registerRead conn => (if x.phase conn = .unbound then x.setPhase conn .reading else x, [])
    | .handleRead conn peer ec =>
        if x.phase conn = .reading then
          -- the post returns at once, or waits
          let phase := if x.loop.mq.queue.length < messageQueueSize then .afterPost ec else .posting
          ((x.stepLoop posix (.post (tcpReceive conn peer ec))).setPhase conn phase,
            [.posted (.tcp (tcpReceive conn peer ec))])
        else (x, [])
    | .letIn k =>
        match x.loop.mq.waiting[k]? with
        | some (.tcp msg) =>
            if x.loop.mq.queue.length < messageQueueSize then
              ((x.stepLoop posix (.letIn k)).setPhase msg.conn (.afterPost msg.closes), [])
            else (x, [])
        | _ => (x, [])
    | .loop ev => if ev.ofReader then (x, []) else (x.stepLoop posix ev, ReaderLoop.takes x.loop ev)

/-! ### What has been posted and taken -/

def MailMark.posts : MailMark → List ObssMessage
  | .posted msg => [msg]
  | .taken _ => []

def MailMark.takes : MailMark → List ObssMessage
  | .posted _ => []
  | .taken msg => [msg]

/-- The messages about a connection that have been posted. -/
def postedOn (conn : Conn) (hist : List MailMark) : List ObssMessage :=
  (hist.flatMap (·.posts)).filter (isOn conn)

/-- Those that the message thread has taken to handle. -/
def takenOn (conn : Conn) (hist : List MailMark) : List ObssMessage :=
  (hist.flatMap (·.takes)).filter (isOn conn)

@[simp] theorem postedOn_append (conn : Conn) (a b : List MailMark) :
    postedOn conn (a ++ b) = postedOn conn a ++ postedOn conn b := by
  rw [postedOn, List.flatMap_append, List.filter_append]
  rfl

@[simp] theorem takenOn_append (conn : Conn) (a b : List MailMark) :
    takenOn conn (a ++ b) = takenOn conn a ++ takenOn conn b := by
  rw [takenOn, List.flatMap_append, List.filter_append]
  rfl

@[simp] theorem postedOn_posted (conn : Conn) (msg : ObssMessage) :
    postedOn conn [.posted msg] = [msg].filter (isOn conn) := rfl

@[simp] theorem takenOn_posted (conn : Conn) (msg : ObssMessage) :
    takenOn conn [.posted msg] = [] := rfl

/-- The messages about a connection that are in the queue or wait. -/
def ReaderLoop.pendingOn (x : ReaderLoop) (conn : Conn) : List ObssMessage :=
  x.loop.mq.pending (isOn conn)

/-- The one that waits. -/
def ReaderLoop.heldOn (x : ReaderLoop) (conn : Conn) : List ObssMessage :=
  x.loop.mq.held (isOn conn)

/-! ### The message thread -/

namespace MessageLoop

variable {posix : PosixTime}

/-- The message thread posts nothing but the message about the flat field. -/
def PostsFlat (x : MessageLoop) : Prop := ∀ msg next, x.thread = .posting msg next → next = .flatReslew

theorem postsFlat_of_not_blocked {x : MessageLoop} (h : ¬ x.Blocked) : x.PostsFlat :=
  fun msg next hthread => absurd ⟨msg, next, hthread⟩ h

theorem postsFlat_postSelf (msg : ObssMessage) {x : MessageLoop} (h : x.PostsFlat) :
    (x.postSelf msg .flatReslew).PostsFlat := by
  unfold postSelf
  split
  · exact h
  · intro msg' next hthread
    exact (MessageThread.posting.inj hthread).2.symm

theorem postSelf_mq (msg : ObssMessage) (x : MessageLoop) {p : ObssMessage → Bool}
    (hp : p .flatReslew = false) :
    (x.postSelf msg .flatReslew).mq.pending p = x.mq.pending p ∧
      (x.postSelf msg .flatReslew).mq.held p = x.mq.held p := by
  unfold postSelf
  split
  · next hroom => exact ⟨Mailbox.pending_push hroom hp, rfl⟩
  · exact ⟨rfl, rfl⟩

/-- Apart from the network threads, the messages about connections only leave the
queue, at its front. -/
theorem step_mq (posix : PosixTime) {x : MessageLoop} (h : x.PostsFlat) {ev : MessageLoopEvent}
    (hev : ev.ofReader = false) {p : ObssMessage → Bool} (hp : p .flatReslew = false) :
    x.mq.pending p = ((ReaderLoop.takes x ev).flatMap (·.takes)).filter p ++
        ((messageLoop posix).step x ev).1.mq.pending p ∧
      ((messageLoop posix).step x ev).1.mq.held p = x.mq.held p := by
  cases ev with
  | post msg => cases hev
  | letIn k => cases hev
  | receive =>
      cases hreceive : x.mq.receive with
      | none => cases hthread : x.thread <;> simp [messageLoop, ReaderLoop.takes, hreceive, hthread]
      | some r =>
          obtain ⟨msg, mq⟩ := r
          cases hthread : x.thread with
          | receiving =>
              simp only [messageLoop, ReaderLoop.takes, hreceive, hthread]
              exact ⟨Mailbox.pending_receive hreceive, Mailbox.held_receive hreceive⟩
          | handling msg => simp [messageLoop, ReaderLoop.takes, hthread]
          | posting msg next => simp [messageLoop, ReaderLoop.takes, hthread]
  | line now unset proto =>
      simp only [messageLoop]
      split
      · simp only [processLine]
        split
        · obtain ⟨hpending, hheld⟩ := postSelf_mq (p := p) _ (x.handle posix _).1 hp
          exact ⟨hpending.symm, hheld⟩
        · exact ⟨rfl, rfl⟩
      · exact ⟨rfl, rfl⟩
  | finish now unset =>
      simp only [messageLoop]
      split <;> exact ⟨rfl, rfl⟩
  | unblock =>
      simp only [messageLoop]
      split
      · next msg next hthread =>
          split
          · next hroom =>
              obtain rfl := h msg next hthread
              exact ⟨(Mailbox.pending_push hroom hp).symm, rfl⟩
          · exact ⟨rfl, rfl⟩
      · exact ⟨rfl, rfl⟩
  | call i =>
      simp only [messageLoop]
      split <;> exact ⟨rfl, rfl⟩

theorem postsFlat_step {x : MessageLoop} (h : x.PostsFlat) (ev : MessageLoopEvent) :
    ((messageLoop posix).step x ev).1.PostsFlat := by
  cases ev with
  | post msg => exact h
  | letIn k => exact h
  | receive =>
      simp only [messageLoop]
      split
      · exact postsFlat_of_not_blocked (not_blocked_of_handling rfl)
      · exact h
  | line now unset proto =>
      simp only [messageLoop]
      split
      · simp only [processLine]
        split
        · exact postsFlat_postSelf _ h
        · exact h
      · exact h
  | finish now unset =>
      simp only [messageLoop]
      split
      · exact postsFlat_of_not_blocked (not_blocked_of_thread rfl)
      · exact postsFlat_of_not_blocked (not_blocked_of_thread rfl)
      · exact postsFlat_of_not_blocked (not_blocked_of_thread rfl)
      · exact h
  | unblock =>
      simp only [messageLoop]
      split
      · split
        · exact postsFlat_of_not_blocked (not_blocked_of_handling rfl)
        · exact h
      · exact h
  | call i =>
      simp only [messageLoop]
      split <;> exact h

end MessageLoop

/-! ### One connection -/

/-- What has been posted about a connection and what of it waits, by where its reading
is: while reads go on no close has been posted, and nothing is posted behind one. -/
inductive ReadsOn (posted held : List ObssMessage) : ReadPhase → Prop
  | unbound (hheld : held = []) (hposted : ∀ m ∈ posted, m.closes = false) :
      ReadsOn posted held .unbound
  | reading (hheld : held = []) (hposted : ∀ m ∈ posted, m.closes = false) :
      ReadsOn posted held .reading
  | posting {pre : List ObssMessage} {msg : ObssMessage} (hheld : held = [msg])
      (hposted : posted = pre ++ [msg]) (hpre : ∀ m ∈ pre, m.closes = false) :
      ReadsOn posted held .posting
  | ended {pre : List ObssMessage} {msg : ObssMessage} (hheld : held = [])
      (hposted : posted = pre ++ [msg]) (hpre : ∀ m ∈ pre, m.closes = false) :
      ReadsOn posted held .ended

namespace ReadsOn

variable {posted held : List ObssMessage} {phase : ReadPhase}

theorem of_held {held' : List ObssMessage} (h : ReadsOn posted held phase) (hheld : held' = held) :
    ReadsOn posted held' phase := hheld ▸ h

theorem length_held (h : ReadsOn posted held phase) : held.length ≤ 1 := by
  cases h with
  | unbound hheld => rw [hheld]; exact Nat.zero_le 1
  | reading hheld => rw [hheld]; exact Nat.zero_le 1
  | posting hheld => rw [hheld]; exact le_refl 1
  | ended hheld => rw [hheld]; exact Nat.zero_le 1

/-- What has been posted ends with the close, if it has one. -/
theorem eq_of_closes (h : ReadsOn posted held phase) {m : ObssMessage} (hm : m ∈ posted)
    (hcloses : m.closes = true) : ∃ pre, posted = pre ++ [m] ∧ ∀ m ∈ pre, m.closes = false := by
  have hnot : ∀ l : List ObssMessage, (∀ m ∈ l, m.closes = false) → m ∉ l := fun l hl hmem =>
    Bool.false_ne_true ((hl m hmem).symm.trans hcloses)
  have hlast : ∀ pre msg, posted = pre ++ [msg] → (∀ m ∈ pre, m.closes = false) → m = msg := by
    rintro pre msg rfl hpre
    rcases List.mem_append.mp hm with hmem | hmem
    · exact absurd hmem (hnot pre hpre)
    · exact List.mem_singleton.mp hmem
  cases h with
  | unbound _ hposted => exact absurd hm (hnot posted hposted)
  | reading _ hposted => exact absurd hm (hnot posted hposted)
  | posting _ hposted hpre => exact ⟨_, hlast _ _ hposted hpre ▸ hposted, hpre⟩
  | ended _ hposted hpre => exact ⟨_, hlast _ _ hposted hpre ▸ hposted, hpre⟩

/-- The post of a read that completes goes into the queue. -/
theorem post_room (h : ReadsOn posted held .reading) {msg : ObssMessage} :
    ReadsOn (posted ++ [msg]) held (.afterPost msg.closes) := by
  obtain ⟨hheld, hposted⟩ : held = [] ∧ ∀ m ∈ posted, m.closes = false := by
    cases h with
    | reading hheld hposted => exact ⟨hheld, hposted⟩
  cases hcloses : msg.closes with
  | true => exact .ended hheld rfl hposted
  | false =>
      exact .reading hheld (List.forall_mem_append.mpr
        ⟨hposted, List.forall_mem_singleton.mpr hcloses⟩)

/-- It waits. -/
theorem post_full (h : ReadsOn posted held .reading) {msg : ObssMessage} :
    ReadsOn (posted ++ [msg]) (held ++ [msg]) .posting := by
  cases h with
  | reading hheld hposted => exact .posting (by rw [hheld]; rfl) rfl hposted

/-- The message that has waited is let in. -/
theorem letIn {held' : List ObssMessage} {msg : ObssMessage} (h : ReadsOn posted held phase)
    (hheld : [msg] ++ held' = held) : ReadsOn posted held' (.afterPost msg.closes) := by
  have hlen := h.length_held
  rw [← hheld, List.singleton_append, List.length_cons] at hlen
  obtain rfl : held' = [] := List.length_eq_zero_iff.mp (by omega)
  cases h with
  | unbound hnone => cases hheld.trans hnone
  | reading hnone => cases hheld.trans hnone
  | ended hnone => cases hheld.trans hnone
  | @posting pre msg' hone hposted hpre =>
      obtain rfl : msg = msg' := (List.cons.inj (hheld.trans hone)).1
      cases hcloses : msg.closes with
      | true => exact .ended rfl hposted hpre
      | false =>
          refine .reading rfl ?_
          rw [hposted]
          exact List.forall_mem_append.mpr ⟨hpre, List.forall_mem_singleton.mpr hcloses⟩

end ReadsOn

/-- The messages about every connection are taken as they were posted. -/
structure InOrder (c : Config ReaderLoop MailMark) : Prop where
  flat : c.state.loop.PostsFlat
  stream : ∀ conn, postedOn conn c.hist = takenOn conn c.hist ++ c.state.pendingOn conn
  reads : ∀ conn, ReadsOn (postedOn conn c.hist) (c.state.heldOn conn) (c.state.phase conn)

namespace InOrder

variable {posix : PosixTime} {c : Config ReaderLoop MailMark}

theorem filter_other {conn : Conn} {msg : TcpMessage} (h : msg.conn ≠ conn) :
    [ObssMessage.tcp msg].filter (isOn conn) = [] := by simp [isOn, h]

theorem filter_self (msg : TcpMessage) :
    [ObssMessage.tcp msg].filter (isOn msg.conn) = [.tcp msg] := by simp [isOn]

theorem registerRead (h : InOrder c) (conn : Conn) :
    InOrder ((readerLoop posix).next c (.registerRead conn)) := by
  rw [Machine.next]
  simp only [readerLoop]
  split
  · next hphase =>
      refine ⟨h.flat, fun conn' => by rw [List.append_nil]; exact h.stream conn', fun conn' => ?_⟩
      rw [List.append_nil]
      have hreads := h.reads conn'
      by_cases hconn : conn' = conn
      · subst hconn
        rw [hphase] at hreads
        cases hreads with
        | unbound hheld hposted =>
            simp only [ReaderLoop.setPhase, Function.update_self]
            exact .reading hheld hposted
      · simp only [ReaderLoop.setPhase, Function.update_of_ne hconn]
        exact hreads
  · rwa [List.append_nil]

/-- A post that is about one connection is behind all that has been posted about it. -/
theorem handleRead (h : InOrder c) (conn : Conn) (peer : PeerType) (ec : Bool) :
    InOrder ((readerLoop posix).next c (.handleRead conn peer ec)) := by
  rw [Machine.next]
  simp only [readerLoop]
  split
  swap
  · rwa [List.append_nil]
  next hphase =>
  obtain ⟨msg, hmsg⟩ : ∃ msg, tcpReceive conn peer ec = msg := ⟨_, rfl⟩
  obtain rfl : msg.conn = conn := by rw [← hmsg, tcpReceive_conn]
  obtain rfl : msg.closes = ec := by rw [← hmsg, tcpReceive_closes]
  rw [hmsg]
  have hreading := h.reads msg.conn
  rw [hphase] at hreading
  have hidle : ∀ conn', isOn conn' (.tcp msg) = true → c.state.heldOn conn' = [] := by
    intro conn' hon
    obtain rfl : msg.conn = conn' := by simpa [isOn] using hon
    cases hreading with
    | reading hheld => exact hheld
  have hpending : ∀ conn', (c.state.loop.mq.send (.tcp msg)).pending (isOn conn') =
      c.state.pendingOn conn' ++ [ObssMessage.tcp msg].filter (isOn conn') := fun conn' =>
    Mailbox.pending_send (hidle conn')
  refine ⟨h.flat, fun conn' => ?_, fun conn' => ?_⟩
  · rw [postedOn_append, takenOn_append, postedOn_posted, takenOn_posted, List.append_nil,
      h.stream conn', List.append_assoc]
    exact congrArg _ (hpending conn').symm
  · rw [postedOn_append, postedOn_posted]
    have hreads := h.reads conn'
    by_cases hroom : c.state.loop.mq.queue.length < messageQueueSize
    · have hheld : (c.state.loop.mq.send (.tcp msg)).held (isOn conn') = c.state.heldOn conn' :=
        Mailbox.held_send_of_room hroom
      simp only [ReaderLoop.setPhase, if_pos hroom]
      by_cases hconn : conn' = msg.conn
      · subst hconn
        rw [Function.update_self, filter_self]
        exact hreading.post_room.of_held hheld
      · rw [Function.update_of_ne hconn, filter_other (Ne.symm hconn), List.append_nil]
        exact hreads.of_held hheld
    · have hheld : (c.state.loop.mq.send (.tcp msg)).held (isOn conn') =
          c.state.heldOn conn' ++ [ObssMessage.tcp msg].filter (isOn conn') :=
        Mailbox.held_send_of_full hroom
      simp only [ReaderLoop.setPhase, if_neg hroom]
      by_cases hconn : conn' = msg.conn
      · subst hconn
        rw [filter_self] at hheld ⊢
        rw [Function.update_self]
        exact hreading.post_full.of_held hheld
      · rw [filter_other (Ne.symm hconn), List.append_nil] at hheld ⊢
        rw [Function.update_of_ne hconn]
        exact hreads.of_held hheld

theorem letIn (h : InOrder c) (k : ℕ) : InOrder ((readerLoop posix).next c (.letIn k)) := by
  rw [Machine.next]
  simp only [readerLoop]
  split
  swap
  · rwa [List.append_nil]
  next msg hmsg =>
  split
  swap
  · rwa [List.append_nil]
  next hroom =>
  rw [List.append_nil]
  have hpending : ∀ conn, (c.state.loop.mq.letIn k).pending (isOn conn) = c.state.pendingOn conn :=
    fun conn => Mailbox.pending_letIn (h.reads conn).length_held k
  refine ⟨h.flat, fun conn => ?_, fun conn => ?_⟩
  · rw [h.stream conn]
    exact congrArg _ (hpending conn).symm
  · have hheld := Mailbox.held_letIn (p := isOn conn) (h.reads conn).length_held hmsg hroom
    simp only [ReaderLoop.setPhase]
    by_cases hconn : conn = msg.conn
    · subst hconn
      rw [filter_self] at hheld
      rw [Function.update_self]
      exact (h.reads msg.conn).letIn hheld
    · rw [filter_other (Ne.symm hconn), List.nil_append] at hheld
      rw [Function.update_of_ne hconn]
      exact (h.reads conn).of_held hheld

theorem posts_takes (x : MessageLoop) (ev : MessageLoopEvent) (conn : Conn) :
    postedOn conn (ReaderLoop.takes x ev) = [] := by
  cases ev with
  | receive =>
      simp only [ReaderLoop.takes]
      split <;> rfl
  | _ => rfl

theorem loop (h : InOrder c) (ev : MessageLoopEvent) :
    InOrder ((readerLoop posix).next c (.loop ev)) := by
  rw [Machine.next]
  simp only [readerLoop]
  split
  · rwa [List.append_nil]
  next hev =>
  rw [Bool.not_eq_true] at hev
  refine ⟨MessageLoop.postsFlat_step h.flat ev, fun conn => ?_, fun conn => ?_⟩
  · obtain ⟨hpending, -⟩ := MessageLoop.step_mq posix h.flat hev (p := isOn conn) rfl
    rw [postedOn_append, takenOn_append, posts_takes, List.append_nil, h.stream conn,
      List.append_assoc]
    exact congrArg _ hpending
  · obtain ⟨-, hheld⟩ := MessageLoop.step_mq posix h.flat hev (p := isOn conn) rfl
    rw [postedOn_append, posts_takes, List.append_nil]
    exact (h.reads conn).of_held hheld

theorem next (h : InOrder c) (i : ReaderEvent) : InOrder ((readerLoop posix).next c i) := by
  cases i with
  | registerRead conn => exact h.registerRead conn
  | handleRead conn peer ec => exact h.handleRead conn peer ec
  | letIn k => exact h.letIn k
  | loop ev => exact h.loop ev

/-- A close that has been taken was the last message. -/
theorem pending_of_closed (h : InOrder c) {conn : Conn} {m : ObssMessage}
    (hm : m ∈ takenOn conn c.hist) (hcloses : m.closes = true) : c.state.pendingOn conn = [] := by
  have hposted : m ∈ postedOn conn c.hist := by
    rw [h.stream conn]
    exact List.mem_append_left _ hm
  obtain ⟨pre, hpre, hopen⟩ := (h.reads conn).eq_of_closes hposted hcloses
  by_contra hpending
  -- the close would be in front of the last one
  obtain ⟨rest, hrest⟩ : ∃ rest, pre = takenOn conn c.hist ++ rest := by
    rw [h.stream conn, ← List.dropLast_append_getLast hpending, ← List.append_assoc] at hpre
    exact ⟨_, (List.append_inj_left' hpre rfl).symm⟩
  have hmem : m ∈ pre := by
    rw [hrest]
    exact List.mem_append_left _ hm
  exact Bool.false_ne_true ((hopen m hmem).symm.trans hcloses)

end InOrder

/-- A system with an empty queue that has registered with no connection. -/
def ReaderLoop.start (gid uid : Text) (type : ObssType) (now : Time) : Config ReaderLoop MailMark where
  state := { loop := (MessageLoop.start gid uid type now).state }
  hist := []

/-- However the threads take turns and wait for each other, the message loop takes the
messages about every connection in the order in which its reads have completed, each
of them once; when it has taken the close of a connection, no message about it is left
or comes. -/
theorem messages_in_order (posix : PosixTime) (gid uid : Text) (type : ObssType) (now : Time)
    (is : List ReaderEvent) :
    (readerLoop posix).Always (fun c => ∀ conn,
        postedOn conn c.hist = takenOn conn c.hist ++ c.state.pendingOn conn ∧
        (∀ m ∈ takenOn conn c.hist, m.closes = true →
          c.state.pendingOn conn = [] ∧ (takenOn conn c.hist).getLast? = some m))
      (ReaderLoop.start gid uid type now) is := by
  have hstart : InOrder (ReaderLoop.start gid uid type now) :=
    { flat := fun msg next hthread => by cases hthread
      stream := fun _ => rfl
      reads := fun _ => ReadsOn.unbound rfl (List.forall_mem_nil _) }
  refine (Machine.always_of_invariant hstart fun c i h => h.next i).mono fun c h conn => ?_
  refine ⟨h.stream conn, fun m hm hcloses => ?_⟩
  have hnone := h.pending_of_closed hm hcloses
  have hstream := h.stream conn
  rw [hnone, List.append_nil] at hstream
  obtain ⟨pre, hpre, -⟩ := (h.reads conn).eq_of_closes (hstream ▸ hm) hcloses
  exact ⟨hnone, by rw [← hstream, hpre, List.getLast?_append, List.getLast?_singleton]; rfl⟩

end Gtoaes
