import Gtoaes.Lib.PriorityMailbox
import Gtoaes.Obss.MessageLoop

/-!
The message queue. Threads post messages, `Stop` sends one that overtakes them, and
`message_loop` takes them out and calls what is registered for their numbers. Up to the
moment when the message of `Stop` has its place, the loop is that of a queue without
priorities; from then on it takes this message and no other.
-/

namespace Gtoaes

open Lib

/-- `MessageQueue::Message` -/
structure Message where
  id : ℤ
  par1 : ℤ := 0
  par2 : ℤ := 0
  deriving DecidableEq

/-- `MSG_QUIT` -/
def msgQuit : ℤ := 0

/-- `MSG_USER` -/
def msgUser : ℤ := 1

/-- `funcs_count_` -/
def funcsCount : ℤ := 1024

/-- What a queue of messages does, each sent with its priority. -/
structure MsgQue (M : Type) where
  send : Ranked Message → M → M
  letIn : ℕ → M → M
  receive : M → Option (Message × M)

/-- A message that was handled, with the calls of its slots. -/
structure Handled (σ : Type) where
  msg : Message
  calls : List (σ × ℤ × ℤ)
  deriving DecidableEq

/-- A message queue over the queue `M`; the slots `σ` are what is registered. `ended` is the
end of `message_loop`. -/
structure MessageQueue (M σ : Type) where
  mqPtr : M
  funcs : ℤ → List σ := fun _ => []
  ended : Bool := false

inductive MessageQueueEvent
  | postMessage (msg : Message)
  | sendMessage (msg : Message)
  | letIn (k : ℕ)
  | receive
  deriving DecidableEq

namespace MessageQueue

variable {M N σ : Type}

/-- `RegisterMessage`, with its result -/
def registerMessage (id : ℤ) (slot : σ) (x : MessageQueue M σ) : Bool × MessageQueue M σ :=
  let pos := id - msgUser
  if 0 ≤ pos ∧ pos < funcsCount then
    (true, { x with funcs := Function.update x.funcs pos (x.funcs pos ++ [slot]) })
  else (false, x)

/-- The calls for a message: its place is counted in 32 bits. -/
def callsOf (x : MessageQueue M σ) (msg : Message) : List (σ × ℤ × ℤ) :=
  let pos := (msg.id - msgUser) % 2 ^ 32
  if pos < funcsCount then (x.funcs pos).map fun slot => (slot, msg.par1, msg.par2) else []

/-- The threads and `message_loop`, over a queue. -/
def loop (que : MsgQue M) : Machine (MessageQueue M σ) MessageQueueEvent (Handled σ) where
  step x
    | .postMessage msg => ({ x with mqPtr := que.send (1, msg) x.mqPtr }, [])
    | .sendMessage msg => ({ x with mqPtr := que.send (10, msg) x.mqPtr }, [])
    | .letIn k => ({ x with mqPtr := que.letIn k x.mqPtr }, [])
    | .receive =>
        if x.ended then (x, [])
        else
          match que.receive x.mqPtr with
          | none => (x, [])
          | some (msg, mqPtr) =>
              ({ x with mqPtr := mqPtr, ended := msg.id = msgQuit }, [⟨msg, x.callsOf msg⟩])

/-- The queue of the source. -/
def ranked : MsgQue (PriorityMailbox Message messageQueueSize) where
  send := PriorityMailbox.send
  letIn := PriorityMailbox.letIn
  receive := PriorityMailbox.receive

/-- A queue that does not look at the priorities, as `messageLoop` has it. -/
def inOrder : MsgQue (Mailbox Message messageQueueSize) where
  send e := Mailbox.send e.2
  letIn := Mailbox.letIn
  receive := Mailbox.receive

/-- The slots are registered one after the other. -/
def registered (mqPtr : M) (slots : List (ℤ × σ)) : MessageQueue M σ :=
  slots.foldl (fun x s => (x.registerMessage s.1 s.2).2) { mqPtr := mqPtr }

/-! ### Registered slots -/

theorem funcs_registerMessage (id : ℤ) (slot : σ) (x : MessageQueue M σ) {pos : ℤ}
    (hpos : 0 ≤ pos ∧ pos < funcsCount) : (x.registerMessage id slot).2.funcs pos =
      x.funcs pos ++ if id = pos + msgUser then [slot] else [] := by
  rw [registerMessage]
  by_cases hid : id = pos + msgUser
  · have hid' : id - msgUser = pos := by omega
    rw [if_pos hid]
    simp only [hid']
    rw [if_pos hpos]
    exact Function.update_self _ _ _
  · rw [if_neg hid, List.append_nil]
    split
    · exact Function.update_of_ne (fun h => hid (by omega)) _ _
    · rfl

theorem funcs_foldl (slots : List (ℤ × σ)) (x : MessageQueue M σ) {pos : ℤ}
    (hpos : 0 ≤ pos ∧ pos < funcsCount) :
    (slots.foldl (fun x s => (x.registerMessage s.1 s.2).2) x).funcs pos =
      x.funcs pos ++ (slots.filter (·.1 = pos + msgUser)).map Prod.snd := by
  induction slots generalizing x with
  | nil => exact (List.append_nil _).symm
  | cons s slots ih =>
      rw [List.foldl_cons, ih, funcs_registerMessage _ _ _ hpos, List.append_assoc, List.filter_cons]
      congr 1
      by_cases hs : s.1 = pos + msgUser
      · simp [hs]
      · simp [hs]

/-- A message calls the slots of its number, in the order in which they were registered. -/
theorem callsOf_registered (mqPtr : M) (slots : List (ℤ × σ)) {msg : Message}
    (hid : msgUser ≤ msg.id ∧ msg.id < msgUser + funcsCount) :
    (registered mqPtr slots).callsOf msg =
      (slots.filter (·.1 = msg.id)).map fun s => (s.2, msg.par1, msg.par2) := by
  obtain ⟨hlow, hhigh⟩ := hid
  have hpos : (msg.id - msgUser) % 2 ^ 32 = msg.id - msgUser := by
    rw [funcsCount] at hhigh
    exact Int.emod_eq_of_lt (by omega) (by omega)
  rw [callsOf, hpos, if_pos (by omega), registered, funcs_foldl slots _ ⟨by omega, by omega⟩, List.nil_append,
    List.map_map, show msg.id - msgUser + msgUser = msg.id by omega]
  rfl

/-! ### Receiving -/

/-- What a message makes of a state. -/
def handle (x : MessageQueue M σ) (msg : Message) : Handled σ := ⟨msg, x.callsOf msg⟩

theorem handle_congr {x : MessageQueue M σ} {y : MessageQueue N σ} (h : x.funcs = y.funcs) :
    x.handle = y.handle := by
  funext msg
  rw [handle, handle, callsOf, callsOf, h]

section

variable {que : MsgQue M} {e : Config (MessageQueue M σ) (Handled σ)}

/-- A loop that has ended takes nothing, -/
theorem next_of_ended (hend : e.state.ended = true) : (loop que).next e .receive = e := by
  simp only [Machine.next, loop, hend, if_true, List.append_nil]

/-- and no loop takes anything out of an empty queue. -/
theorem next_of_none (hreceive : que.receive e.state.mqPtr = none) :
    (loop que).next e .receive = e := by
  simp only [Machine.next, loop, hreceive, ite_self, List.append_nil]

theorem next_of_some (hrun : e.state.ended = false) {msg : Message} {rest : M}
    (hreceive : que.receive e.state.mqPtr = some (msg, rest)) :
    (loop que).next e .receive =
      { state := { e.state with mqPtr := rest, ended := msg.id = msgQuit },
        hist := e.hist ++ [e.state.handle msg] } := by
  simp only [Machine.next, loop, hrun, hreceive, Bool.false_eq_true, if_false, handle]

end

/-! ### Queues with priorities -/

/-- The message that takes its place in the queue. -/
def accepts (x : MessageQueue (PriorityMailbox Message messageQueueSize) σ) :
    MessageQueueEvent → Option (Ranked Message)
  | .postMessage msg => if x.mqPtr.queue.length < messageQueueSize then some (1, msg) else none
  | .sendMessage msg => if x.mqPtr.queue.length < messageQueueSize then some (10, msg) else none
  | .letIn k => x.mqPtr.letsIn k
  | .receive => none

/-- What a step leaves that takes nothing out. -/
structure Sends (c d : Config (MessageQueue (PriorityMailbox Message messageQueueSize) σ) (Handled σ))
    (e : Option (Ranked Message)) : Prop where
  hist : d.hist = c.hist
  ended : d.state.ended = c.state.ended
  funcs : d.state.funcs = c.state.funcs
  queue : d.state.mqPtr.queue = e.elim c.state.mqPtr.queue fun e => insertRanked e c.state.mqPtr.queue

variable {c : Config (MessageQueue (PriorityMailbox Message messageQueueSize) σ) (Handled σ)}

theorem sends_send (e : Ranked Message) :
    Sends c
      { state := { c.state with mqPtr := c.state.mqPtr.send e }, hist := c.hist ++ [] }
      (if c.state.mqPtr.queue.length < messageQueueSize then some e else none) := by
  refine ⟨List.append_nil _, rfl, rfl, ?_⟩
  split
  · next h => exact PriorityMailbox.queue_send_of_room h
  · next h => exact PriorityMailbox.queue_send_of_full h

theorem sends_next {i : MessageQueueEvent} (hi : i ≠ .receive) :
    Sends c ((loop ranked).next c i) (c.state.accepts i) := by
  cases i with
  | postMessage msg => exact sends_send (1, msg)
  | sendMessage msg => exact sends_send (10, msg)
  | letIn k =>
      refine ⟨List.append_nil _, rfl, rfl, ?_⟩
      cases hk : c.state.mqPtr.letsIn k with
      | none =>
          rw [accepts, hk]
          exact congrArg PriorityMailbox.queue (PriorityMailbox.letIn_of_none hk)
      | some e =>
          rw [accepts, hk]
          exact PriorityMailbox.queue_letIn_of_some hk
  | receive => exact absurd rfl hi

theorem next_receive {e : Ranked Message} {rest : List (Ranked Message)}
    (hrun : c.state.ended = false) (hq : c.state.mqPtr.queue = e :: rest) :
    ((loop ranked).next c .receive).hist = c.hist ++ [⟨e.2, c.state.callsOf e.2⟩] ∧
      ((loop ranked).next c .receive).state.ended = decide (e.2.id = msgQuit) ∧
      ((loop ranked).next c .receive).state.funcs = c.state.funcs ∧
      ((loop ranked).next c .receive).state.mqPtr.queue = rest := by
  obtain ⟨b, hreceive, hrest, -⟩ := PriorityMailbox.receive_eq hq
  have hreceive' : ranked.receive c.state.mqPtr = some (e.2, b) := hreceive
  rw [next_of_some hrun hreceive']
  exact ⟨rfl, rfl, rfl, hrest⟩

/-- A loop that has ended takes nothing. -/
theorem exec_of_ended (hend : c.state.ended = true) (is : List MessageQueueEvent) :
    ((loop ranked).exec c is).hist = c.hist ∧ ((loop ranked).exec c is).state.ended = true := by
  induction is generalizing c with
  | nil => exact ⟨rfl, hend⟩
  | cons i is ih =>
      by_cases hi : i = .receive
      · rw [hi, Machine.exec, List.foldl_cons, next_of_ended hend]
        exact ih hend
      · have hsends := sends_next (c := c) hi
        obtain ⟨hhist, hended⟩ := ih (hsends.ended.trans hend)
        exact ⟨hhist.trans hsends.hist, hended⟩

/-- `SendMessage` is the highest priority there is. -/
def Highest (x : MessageQueue (PriorityMailbox Message messageQueueSize) σ) : Prop :=
  ∀ e ∈ x.mqPtr.waiting, e.1 ≤ 10

theorem highest_next (h : c.state.Highest) (i : MessageQueueEvent) :
    ((loop ranked).next c i).state.Highest := by
  intro e he
  cases i with
  | postMessage msg =>
      rcases PriorityMailbox.mem_waiting_send he with rfl | he
      · show 1 ≤ 10
        decide
      · exact h e he
  | sendMessage msg =>
      rcases PriorityMailbox.mem_waiting_send he with rfl | he
      · exact le_rfl
      · exact h e he
  | letIn k => exact h e (PriorityMailbox.mem_waiting_letIn he)
  | receive =>
      simp only [Machine.next, loop] at he
      split at he
      · exact h e he
      · split at he
        · exact h e he
        · next msg b hreceive =>
          exact h e (PriorityMailbox.waiting_receive hreceive ▸ he)

theorem accepts_le (h : c.state.Highest) {i : MessageQueueEvent} {e : Ranked Message}
    (he : c.state.accepts i = some e) : e.1 ≤ 10 := by
  cases i with
  | postMessage msg =>
      obtain ⟨-, hmsg⟩ := Option.ite_none_right_eq_some.mp he
      cases hmsg
      show 1 ≤ 10
      decide
  | sendMessage msg =>
      obtain ⟨-, hmsg⟩ := Option.ite_none_right_eq_some.mp he
      cases hmsg
      exact le_rfl
  | letIn k =>
      obtain ⟨-, hmsg⟩ := Option.ite_none_right_eq_some.mp he
      exact h e (List.mem_of_getElem? hmsg)
  | receive => cases he

/-- From the moment on when the message that ends the loop has its place, what stands
before it is taken out, then it, and nothing else. -/
theorem exec_drains {ahead rest : List (Ranked Message)} {quit : Ranked Message}
    (hrun : c.state.ended = false) (hhigh : c.state.Highest)
    (hq : c.state.mqPtr.queue = ahead ++ quit :: rest) (hahead : ∀ e ∈ ahead, 10 ≤ e.1)
    (hnone : ∀ e ∈ ahead, e.2.id ≠ msgQuit) (hquit : quit.1 = 10 ∧ quit.2.id = msgQuit)
    (is : List MessageQueueEvent) :
    ((loop ranked).exec c is).hist = c.hist ++
        (((ahead ++ [quit]).map Prod.snd).take (is.count .receive)).map c.state.handle ∧
      ((loop ranked).exec c is).state.ended = decide (ahead.length < is.count .receive) := by
  induction is generalizing c ahead rest with
  | nil => simpa [Machine.exec] using hrun
  | cons i is ih =>
      have hexec : (loop ranked).exec c (i :: is) = (loop ranked).exec ((loop ranked).next c i) is :=
        rfl
      rw [hexec]
      by_cases hi : i = .receive
      · subst hi
        rw [List.count_cons_self]
        cases ahead with
        | nil =>
            obtain ⟨hhist, hend, -, -⟩ := next_receive hrun hq
            obtain ⟨hstay, hended⟩ := exec_of_ended (hend.trans (decide_eq_true hquit.2)) is
            rw [hstay, hended, hhist]
            simp [handle]
        | cons a ahead =>
            obtain ⟨hhist, hend, hfuncs, hqueue⟩ := next_receive hrun hq
            have hgo := hend.trans (decide_eq_false (hnone a List.mem_cons_self))
            obtain ⟨hrest, hended⟩ := ih hgo (highest_next hhigh _) hqueue
              (fun e he => hahead e (List.mem_cons_of_mem a he))
              (fun e he => hnone e (List.mem_cons_of_mem a he))
            rw [hrest, hended, hhist, handle_congr hfuncs]
            simp [handle]
      · have hsends := sends_next (c := c) hi
        rw [List.count_cons_of_ne hi]
        obtain ⟨rest', hq'⟩ : ∃ rest', ((loop ranked).next c i).state.mqPtr.queue =
            ahead ++ quit :: rest' := by
          rw [hsends.queue, hq]
          cases hacc : c.state.accepts i with
          | none => exact ⟨rest, rfl⟩
          | some e =>
              have hle := accepts_le hhigh hacc
              refine ⟨insertRanked e rest, ?_⟩
              rw [Option.elim_some, insertRanked_append fun x hx => hle.trans (hahead x hx),
                insertRanked_of_le (hle.trans hquit.1.ge)]
        obtain ⟨hrest, hended⟩ :=
          ih (hsends.ended.trans hrun) (highest_next hhigh i) hq' hahead hnone
        rw [hrest, hended, hsends.hist, handle_congr hsends.funcs]
        exact ⟨rfl, rfl⟩

/-! ### Before `Stop` -/

/-- Two loops in step, one with priorities and one without. -/
structure InStep (c : Config (MessageQueue (PriorityMailbox Message messageQueueSize) σ) (Handled σ))
    (d : Config (MessageQueue (Mailbox Message messageQueueSize) σ) (Handled σ)) : Prop where
  flat : c.state.mqPtr.Flat 1
  mqPtr : d.state.mqPtr = c.state.mqPtr.plain
  funcs : d.state.funcs = c.state.funcs
  ended : d.state.ended = c.state.ended
  hist : d.hist = c.hist

/-- What takes its place was posted. -/
def Posted (c : Config (MessageQueue (PriorityMailbox Message messageQueueSize) σ) (Handled σ))
    (i : MessageQueueEvent) : Prop := ∀ e, c.state.accepts i = some e → e.1 = 1

theorem posted_postMessage (msg : Message) : Posted c (.postMessage msg) := by
  intro e he
  obtain ⟨-, hmsg⟩ := Option.ite_none_right_eq_some.mp he
  cases hmsg
  rfl

theorem posted_receive : Posted c .receive := by
  rintro e ⟨⟩

variable {d : Config (MessageQueue (Mailbox Message messageQueueSize) σ) (Handled σ)}

theorem InStep.next (h : InStep c d) {i : MessageQueueEvent} (hi : Posted c i) :
    InStep ((loop ranked).next c i) ((loop inOrder).next d i) := by
  have hhist : d.hist ++ [] = c.hist ++ [] := congrArg (· ++ []) h.hist
  cases i with
  | postMessage msg =>
      obtain ⟨hflat, hplain⟩ := h.flat.plain_send (e := (1, msg)) fun _ => rfl
      exact ⟨hflat, (congrArg (Mailbox.send msg) h.mqPtr).trans hplain.symm, h.funcs, h.ended, hhist⟩
  | sendMessage msg =>
      obtain ⟨hflat, hplain⟩ :=
        h.flat.plain_send (e := (10, msg)) fun hroom => hi (10, msg) (if_pos hroom)
      exact ⟨hflat, (congrArg (Mailbox.send msg) h.mqPtr).trans hplain.symm, h.funcs, h.ended, hhist⟩
  | letIn k =>
      obtain ⟨hflat, hplain⟩ := h.flat.plain_letIn (k := k) fun e he => hi e he
      exact ⟨hflat, (congrArg (Mailbox.letIn k) h.mqPtr).trans hplain.symm, h.funcs, h.ended, hhist⟩
  | receive =>
      obtain ⟨hplain, hflat⟩ := h.flat.plain_receive
      rw [← h.mqPtr] at hplain
      cases hend : c.state.ended with
      | true =>
          rw [next_of_ended hend, next_of_ended (h.ended.trans hend)]
          exact h
      | false =>
          cases hreceive : c.state.mqPtr.receive with
          | none =>
              rw [hreceive] at hplain
              have hnone : ranked.receive c.state.mqPtr = none := hreceive
              have hnone' : inOrder.receive d.state.mqPtr = none := hplain
              rw [next_of_none hnone, next_of_none hnone']
              exact h
          | some r =>
              rw [hreceive] at hplain
              have hsome : ranked.receive c.state.mqPtr = some (r.1, r.2) := hreceive
              have hsome' : inOrder.receive d.state.mqPtr = some (r.1, r.2.plain) := hplain
              rw [next_of_some hend hsome, next_of_some (h.ended.trans hend) hsome']
              exact ⟨hflat _ _ hreceive, rfl, h.funcs, rfl, by rw [h.hist, handle_congr h.funcs]⟩

theorem InStep.exec (h : InStep c d) {is : List MessageQueueEvent}
    (his : (loop ranked).Each Posted c is) :
    InStep ((loop ranked).exec c is) ((loop inOrder).exec d is) := by
  induction is generalizing c d with
  | nil => exact h
  | cons i is ih => exact ih (h.next his.1) his.2

/-! ### The life of a queue -/

/-- `Start`, with an empty queue and what `register_messages` registers. -/
def start (mqPtr : M) (slots : List (ℤ × σ)) : Config (MessageQueue M σ) (Handled σ) where
  state := registered mqPtr slots
  hist := []

theorem registered_eq (mqPtr : M) (other : N) (slots : List (ℤ × σ)) :
    (registered mqPtr slots).mqPtr = mqPtr ∧ (registered mqPtr slots).ended = false ∧
      (registered other slots).funcs = (registered mqPtr slots).funcs := by
  have hfold : ∀ (slots : List (ℤ × σ)) (x : MessageQueue M σ) (y : MessageQueue N σ),
      y.funcs = x.funcs →
        (slots.foldl (fun x s => (x.registerMessage s.1 s.2).2) x).mqPtr = x.mqPtr ∧
          (slots.foldl (fun x s => (x.registerMessage s.1 s.2).2) x).ended = x.ended ∧
          (slots.foldl (fun y s => (y.registerMessage s.1 s.2).2) y).funcs =
            (slots.foldl (fun x s => (x.registerMessage s.1 s.2).2) x).funcs := by
    intro slots
    induction slots with
    | nil => exact fun x y h => ⟨rfl, rfl, h⟩
    | cons s slots ih =>
        intro x y h
        have hstep : (y.registerMessage s.1 s.2).2.funcs = (x.registerMessage s.1 s.2).2.funcs ∧
            (x.registerMessage s.1 s.2).2.mqPtr = x.mqPtr ∧
            (x.registerMessage s.1 s.2).2.ended = x.ended := by
          rw [registerMessage, registerMessage]
          split
          · exact ⟨by rw [h], rfl, rfl⟩
          · exact ⟨h, rfl, rfl⟩
        obtain ⟨hmq, hended, hfuncs⟩ := ih _ _ hstep.1
        exact ⟨hmq.trans hstep.2.1, hended.trans hstep.2.2, hfuncs⟩
  exact hfold slots { mqPtr := mqPtr } { mqPtr := other } rfl

theorem inStep_start (slots : List (ℤ × σ)) :
    InStep (start (.empty : PriorityMailbox Message messageQueueSize) slots)
      (start (.empty : Mailbox Message messageQueueSize) slots) := by
  obtain ⟨hmq, hended, hfuncs⟩ :=
    registered_eq (PriorityMailbox.empty : PriorityMailbox Message messageQueueSize)
      (Mailbox.empty : Mailbox Message messageQueueSize) slots
  obtain ⟨hmq', hended', -⟩ :=
    registered_eq (Mailbox.empty : Mailbox Message messageQueueSize)
      (Mailbox.empty : Mailbox Message messageQueueSize) slots
  refine ⟨fun e he => ?_, ?_, hfuncs, hended'.trans hended.symm, rfl⟩
  · rw [start, hmq] at he
    cases he
  · rw [start, start, hmq, hmq']
    rfl

theorem highest_start (slots : List (ℤ × σ)) :
    (start (.empty : PriorityMailbox Message messageQueueSize) slots).state.Highest := by
  intro e he
  obtain ⟨hmq, -, -⟩ :=
    registered_eq (PriorityMailbox.empty : PriorityMailbox Message messageQueueSize)
      (Mailbox.empty : Mailbox Message messageQueueSize) slots
  rw [start, hmq] at he
  cases he

/-- Every message is handled with what is registered. -/
theorem handled_exec (que : MsgQue M) (e : Config (MessageQueue M σ) (Handled σ))
    (hhist : ∀ x ∈ e.hist, x = e.state.handle x.msg) (is : List MessageQueueEvent) :
    ((loop que).exec e is).state.funcs = e.state.funcs ∧
      ∀ x ∈ ((loop que).exec e is).hist, x = e.state.handle x.msg := by
  have hkeep : (loop que).Always
      (fun d => d.state.funcs = e.state.funcs ∧ ∀ x ∈ d.hist, x = e.state.handle x.msg) e is := by
    refine Machine.always_of_invariant ⟨rfl, hhist⟩ fun d i ⟨hfuncs, hall⟩ => ?_
    have hsame : ∀ x ∈ d.hist ++ [], x = e.state.handle x.msg := by
      rwa [List.append_nil]
    cases i with
    | receive =>
        simp only [Machine.next, loop]
        split
        · exact ⟨hfuncs, hsame⟩
        · split
          · exact ⟨hfuncs, hsame⟩
          · refine ⟨hfuncs, fun x hx => ?_⟩
            rcases List.mem_append.mp hx with hx | hx
            · exact hall x hx
            · obtain rfl := List.mem_singleton.mp hx
              rw [← handle_congr hfuncs]
              rfl
    | _ => exact ⟨hfuncs, hsame⟩
  exact hkeep.exec

theorem insertRanked_front {e : Ranked Message} {q : List (Ranked Message)} (he : e.1 = 10)
    (hq : ∀ x ∈ q, x.1 = 1) : insertRanked e q = e :: q := by
  cases q with
  | nil => rfl
  | cons x q =>
      refine insertRanked_of_lt ?_
      rw [he, hq x List.mem_cons_self]
      decide

theorem callsOf_quit (x : MessageQueue M σ) {msg : Message} (h : msg.id = msgQuit) :
    x.callsOf msg = [] := by
  rw [callsOf, h]
  exact if_neg (by decide)

/-- Up to the moment when the message of `Stop` has its place, a message queue handles what a
queue without priorities does, each message with the slots of its number; from then on the
next message is that of `Stop`, with no slots, and the last one. -/
theorem messageQueue_stop (slots : List (ℤ × σ)) {pre is : List MessageQueueEvent}
    {i : MessageQueueEvent} {quit : Ranked Message}
    (hpre : (loop ranked).Each Posted (start .empty slots) pre)
    (hrun : ((loop ranked).exec (start .empty slots) pre).state.ended = false)
    (hi : ((loop ranked).exec (start .empty slots) pre).state.accepts i = some quit)
    (hquit : quit.1 = 10 ∧ quit.2.id = msgQuit) :
    ((loop ranked).exec (start .empty slots) (pre ++ i :: is)).hist =
        ((loop inOrder).exec (start .empty slots) pre).hist ++
          (if .receive ∈ is then [⟨quit.2, []⟩] else []) ∧
      ((loop ranked).exec (start .empty slots) (pre ++ i :: is)).state.ended =
        decide (.receive ∈ is) ∧
      ∀ x ∈ ((loop inOrder).exec (start .empty slots) pre).hist,
        msgUser ≤ x.msg.id ∧ x.msg.id < msgUser + funcsCount →
          x.calls = (slots.filter (·.1 = x.msg.id)).map fun s => (s.2, x.msg.par1, x.msg.par2) := by
  have hwaiting : (loop ranked).Always (fun c => c.state.Highest)
      (start (.empty : PriorityMailbox Message messageQueueSize) slots) pre :=
    Machine.always_of_invariant (highest_start slots) fun c i h => highest_next h i
  have hbefore := (inStep_start slots).exec hpre
  have hhigh := hwaiting.exec
  have hi' : i ≠ .receive := by
    rintro rfl
    cases hi
  have hsends := sends_next (c := (loop ranked).exec (start .empty slots) pre) hi'
  have hqueue := hsends.queue
  rw [hi, Option.elim_some, insertRanked_front hquit.1 hbefore.flat,
    ← List.nil_append (quit :: _)] at hqueue
  obtain ⟨hhist, hend⟩ := exec_drains (hsends.ended.trans hrun) (highest_next hhigh i)
    hqueue (by simp) (by simp) hquit is
  have hexec : (loop ranked).exec (start .empty slots) (pre ++ i :: is) =
      (loop ranked).exec ((loop ranked).next ((loop ranked).exec (start .empty slots) pre) i) is := by
    rw [Machine.exec_append]
    rfl
  rw [hexec, hhist, hend, hsends.hist, ← hbefore.hist]
  refine ⟨?_, decide_eq_decide.mpr List.count_pos_iff, fun x hx hid => ?_⟩
  · congr 1
    by_cases hmem : MessageQueueEvent.receive ∈ is
    · have hcount : 1 ≤ is.count .receive := List.count_pos_iff.mpr hmem
      rw [if_pos hmem, List.take_of_length_le (by simpa using hcount)]
      simp [handle, callsOf_quit _ hquit.2]
    · rw [if_neg hmem, List.count_eq_zero_of_not_mem hmem]
      rfl
  · obtain ⟨-, hall⟩ := handled_exec inOrder (start .empty slots) (by simp [start]) pre
    rw [hall x hx]
    exact callsOf_registered _ slots hid

/-- Two messages wait when a third thread stops the queue, and one comes after it. -/
def stopped : List MessageQueueEvent :=
  [.postMessage ⟨1, 5, 2⟩, .postMessage ⟨2, 6, 3⟩, .receive, .postMessage ⟨1, 7, 2⟩]

theorem messageQueue_stop_early :
    ((loop ranked).exec (start .empty [(1, "on_tcp_close"), (2, "on_tcp_receive")])
      (stopped ++ .sendMessage ⟨0, 0, 0⟩ :: [.postMessage ⟨2, 8, 3⟩, .receive, .receive])).hist =
    ((loop inOrder).exec (start .empty [(1, "on_tcp_close"), (2, "on_tcp_receive")]) stopped).hist ++
      if .receive ∈ [MessageQueueEvent.postMessage ⟨2, 8, 3⟩, .receive, .receive] then [⟨⟨0, 0, 0⟩, []⟩]
      else [] := by
  refine (@messageQueue_stop _ _ stopped _ _ (10, ⟨0, 0, 0⟩) ?_ ?_ ?_ ⟨rfl, rfl⟩).1
  · exact ⟨posted_postMessage _, posted_postMessage _, posted_receive, posted_postMessage _, trivial⟩
  · decide
  · decide

end MessageQueue

end Gtoaes
