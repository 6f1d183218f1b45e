import Gtoaes.Control.GeneralControl
import Gtoaes.Net.Sending

/-!
The clients as listeners. Each line for them goes to every connection of the pool:
the plan states that the systems publish, the answer to a `check_plan`, and what
`cycle_upload_client` reports. A connection takes as much of it as its buffer has
room for and sends that whenever the network lets it.
-/

namespace Gtoaes

open Lib

/-- The systems, the pool of the clients, and the sending side of every connection. -/
structure Broadcaster where
  control : GeneralControl := {}
  connBuff : List Conn := []
  senders : Conn → TcpSender := fun _ => .start

/-- A connection is accepted or closed, one of its writes is completed, a command is
carried out, or the status of a system is uploaded. -/
inductive BroadcastEvent
  | accept (conn : Conn)
  | close (conn : Conn)
  | complete (conn : Conn) (k n : ℕ)
  | command (c : Command)
  | upload (status : KVMsg)

inductive BroadcastOutput
  | accepted (conn : Conn)
  | published (addr : ℕ) (state : KVPlan)
  | answered (state : KVPlan)
  | uploaded (status : KVMsg)
  | transmitted (conn : Conn) (bytes : Text)

namespace GeneralControl

/-- The plan that answers a `check_plan`: that of the first system it matches which has
it. -/
def checkPlan (g : GeneralControl) (m : KVCheckPlan) : Option KVPlan :=
  (g.matched m.gid m.uid).findSome? fun id =>
    match g.obssVec id with
    | some s => s.checkPlan m.planSn
    | none => none

def answer (g : GeneralControl) (c : Command) : Option KVPlan :=
  match c.kind with
  | .client (.checkPlan m) => g.checkPlan m
  | _ => none

end GeneralControl

/-- What a message is sent as. Unset memory stands for the fields that have none. -/
def wireLine (mem : Text → Value) (m : KVMsg) : Text := m.toText mem ++ ['\n']

namespace BroadcastOutput

/-- The line that goes out to the clients. -/
def message : BroadcastOutput → Option KVMsg
  | .published _ state | .answered state => some (.plan state)
  | .uploaded status => some status
  | _ => none

end BroadcastOutput

/-- The plan states among what the systems send out. -/
def planActs (acts : List (ℕ × Act)) : List BroadcastOutput :=
  acts.filterMap fun act =>
    match act.2 with
    | .plan addr state => some (.published addr state)
    | _ => none

namespace Broadcaster

/-- `Write` of a text. -/
def writeText (line : Text) (t : TcpSender) : TcpSender :=
  (t.write (some fun i => line.getD i '\x00') line.length).2

/-- `TcpCVec::Write` -/
def write (line : Text) (x : Broadcaster) : Broadcaster :=
  { x with senders := x.connBuff.foldl (fun senders conn =>
      Function.update senders conn (writeText line (senders conn))) x.senders }

/-- The outputs that are lines are written one after the other. -/
def writeAll (mem : Text → Value) (outs : List BroadcastOutput) (x : Broadcaster) : Broadcaster :=
  outs.foldl (fun x out =>
    match out.message with
    | some m => x.write (wireLine mem m)
    | none => x) x

end Broadcaster

def broadcaster (posix : PosixTime) (mem : Text → Value) :
    Machine Broadcaster BroadcastEvent BroadcastOutput where
  step x
    | .accept conn =>
        if conn ∈ x.connBuff then (x, [])
        else
          ({ x with connBuff := x.connBuff ++ [conn]
                    senders := Function.update x.senders conn .start }, [.accepted conn])
    | .close conn => ({ x with connBuff := x.connBuff.erase conn }, [])
    | .complete conn k n =>
        match (x.senders conn).offers[k]? with
        | none => (x, [])
        | some offer =>
            if n ≤ offer.length then
              let sender := TcpSender.handleWrite n
                { x.senders conn with offers := (x.senders conn).offers.eraseIdx k }
              ({ x with senders := Function.update x.senders conn sender },
                [.transmitted conn (offer.take n)])
            else (x, [])
    | .command c =>
        let r := (generalControl posix).step x.control c
        let outs := planActs r.2 ++ (x.control.answer c).toList.map .answered
        (({ x with control := r.1 }).writeAll mem outs, outs)
    | .upload status => (x.writeAll mem [.uploaded status], [.uploaded status])

/-- The program before anyone listens. -/
def Broadcaster.start : Config Broadcaster BroadcastOutput where
  state := {}
  hist := []

/-! ### What a client has been sent -/

namespace BroadcastOutput

/-- What a client has to hear, which starts with its acceptance. -/
def hear (mem : Text → Value) (conn : Conn) (lines : List Text) (out : BroadcastOutput) : List Text :=
  match out with
  | .accepted conn' => if conn' = conn then [] else lines
  | out => lines ++ (out.message.map (wireLine mem)).toList

def send (conn : Conn) (bytes : Text) : BroadcastOutput → Text
  | .accepted conn' => if conn' = conn then [] else bytes
  | .transmitted conn' data => if conn' = conn then bytes ++ data else bytes
  | _ => bytes

def isPublished : BroadcastOutput → Bool
  | .published _ _ => true
  | _ => false

end BroadcastOutput

/-- The lines that have gone out to the clients since a connection was accepted. -/
def linesSince (mem : Text → Value) (conn : Conn) (hist : List BroadcastOutput) : List Text :=
  hist.foldl (BroadcastOutput.hear mem conn) []

/-- The bytes that have been sent on it since then. -/
def sentSince (conn : Conn) (hist : List BroadcastOutput) : Text :=
  hist.foldl (BroadcastOutput.send conn) []

/-- The lines among the outputs of one step. -/
def linesOf (mem : Text → Value) (outs : List BroadcastOutput) : List Text :=
  outs.filterMap fun out => out.message.map (wireLine mem)

/-- The lines of a step find room in the buffer of a client. -/
def KeepsUp (posix : PosixTime) (mem : Text → Value) (conn : Conn)
    (c : Config Broadcaster BroadcastOutput) (i : BroadcastEvent) : Prop :=
  conn ∈ c.state.connBuff →
    (linesOf mem ((broadcaster posix mem).step c.state i).2).flatten.length ≤
      (c.state.senders conn).room

instance {posix : PosixTime} {mem : Text → Value} {conn : Conn}
    (c : Config Broadcaster BroadcastOutput) (i : BroadcastEvent) :
    Decidable (KeepsUp posix mem conn c i) :=
  inferInstanceAs (Decidable (_ → _))

namespace Broadcaster

theorem messageAt_text (line : Text) :
    messageAt (some fun i => line.getD i '\x00') line.length = line := by
  rw [messageAt, bytesAt, Int.toNat_natCast]
  refine List.ext_getElem (by simp) fun i hi hi' => ?_
  rw [List.getElem_map, List.getElem_range, List.getD_eq_getElem?_getD, List.getElem?_eq_getElem hi',
    Option.getD_some]

theorem writeText_crcbufWrite (line : Text) (t : TcpSender) :
    (writeText line t).crcbufWrite = t.crcbufWrite ++ line.take t.room := by
  rw [writeText, write_crcbufWrite, messageAt_text]

/-- Lines that fit are appended whole. -/
theorem writeTexts {lines : List Text} {t : TcpSender} (h : t.InFlight)
    (hfit : lines.flatten.length ≤ t.room) :
    (lines.foldl (fun t line => writeText line t) t).InFlight ∧
      (lines.foldl (fun t line => writeText line t) t).crcbufWrite =
        t.crcbufWrite ++ lines.flatten := by
  induction lines generalizing t with
  | nil => exact ⟨h, (List.append_nil _).symm⟩
  | cons line lines ih =>
      rw [List.flatten_cons, List.length_append] at hfit
      have hbuf : (writeText line t).crcbufWrite = t.crcbufWrite ++ line := by
        rw [writeText_crcbufWrite, List.take_of_length_le (by omega)]
      have hroom : (writeText line t).room = t.room - line.length := by
        rw [TcpSender.room, TcpSender.room, hbuf, List.length_append]
        omega
      obtain ⟨hflight, hlines⟩ := ih (t := writeText line t) (h.write _ _) (by omega)
      rw [List.foldl_cons]
      refine ⟨hflight, ?_⟩
      rw [hlines, hbuf, List.flatten_cons, List.append_assoc]

/-- One pass over a pool treats each of its members once. -/
theorem foldl_update {α : Type*} (g : α → α) {l : List Conn} (hl : l.Nodup) (f : Conn → α)
    (a : Conn) :
    l.foldl (fun f a => Function.update f a (g (f a))) f a = if a ∈ l then g (f a) else f a := by
  induction l generalizing f with
  | nil => rfl
  | cons b l ih =>
      obtain ⟨hb, hl⟩ := List.nodup_cons.mp hl
      rw [List.foldl_cons, ih hl]
      by_cases hab : a = b
      · subst hab
        rw [if_neg hb, if_pos List.mem_cons_self, Function.update_self]
      · rw [Function.update_of_ne hab]
        simp only [List.mem_cons, hab, false_or]

@[simp] theorem write_connBuff (line : Text) (x : Broadcaster) :
    (x.write line).connBuff = x.connBuff := rfl

theorem write_senders {x : Broadcaster} (hnodup : x.connBuff.Nodup) (line : Text) {conn : Conn}
    (h : conn ∈ x.connBuff) : (x.write line).senders conn = writeText line (x.senders conn) :=
  (foldl_update (writeText line) hnodup x.senders conn).trans (if_pos h)

@[simp] theorem writeAll_cons (mem : Text → Value) (out : BroadcastOutput)
    (outs : List BroadcastOutput) (x : Broadcaster) :
    x.writeAll mem (out :: outs) =
      (match out.message with
        | some m => x.write (wireLine mem m)
        | none => x).writeAll mem outs := rfl

/-- What `writeAll` leaves alone, and what it does to a connection of the pool. -/
theorem writeAll_spec (mem : Text → Value) (outs : List BroadcastOutput) (x : Broadcaster) :
    (x.writeAll mem outs).connBuff = x.connBuff ∧ (x.writeAll mem outs).control = x.control ∧
      (x.connBuff.Nodup → ∀ conn ∈ x.connBuff, (x.writeAll mem outs).senders conn =
        (linesOf mem outs).foldl (fun t line => writeText line t) (x.senders conn)) := by
  induction outs generalizing x with
  | nil => exact ⟨rfl, rfl, fun _ _ _ => rfl⟩
  | cons out outs ih =>
      rw [writeAll_cons]
      cases hout : out.message with
      | none =>
          have hlines : linesOf mem (out :: outs) = linesOf mem outs := by simp [linesOf, hout]
          rw [hlines]
          exact ih x
      | some m =>
          have hlines : linesOf mem (out :: outs) = wireLine mem m :: linesOf mem outs := by
            simp [linesOf, hout]
          obtain ⟨hbuff, hcontrol, hsenders⟩ := ih (x.write (wireLine mem m))
          refine ⟨hbuff, hcontrol, fun hnodup conn hconn => ?_⟩
          rw [hlines, List.foldl_cons, ← write_senders hnodup _ hconn]
          exact hsenders hnodup conn hconn

end Broadcaster

/-! ### One listener -/

section

variable {mem : Text → Value} {conn : Conn} {outs : List BroadcastOutput}

/-- Outputs that go out to the clients. -/
def Lines (outs : List BroadcastOutput) : Prop := ∀ out ∈ outs, out.message.isSome

theorem linesSince_append_lines (h : Lines outs) (hist : List BroadcastOutput) :
    linesSince mem conn (hist ++ outs) = linesSince mem conn hist ++ linesOf mem outs := by
  rw [linesSince, List.foldl_append]
  change outs.foldl _ (linesSince mem conn hist) = _
  generalize linesSince mem conn hist = heard
  induction outs generalizing heard with
  | nil => exact (List.append_nil _).symm
  | cons out outs ih =>
      obtain ⟨hout, houts⟩ := List.forall_mem_cons.mp h
      have hhear : BroadcastOutput.hear mem conn heard out =
          heard ++ (out.message.map (wireLine mem)).toList := by
        cases out with
        | accepted conn' => cases hout
        | _ => rfl
      rw [List.foldl_cons, ih houts, hhear, List.append_assoc]
      congr 1
      rw [linesOf, linesOf, List.filterMap_cons]
      cases out.message <;> rfl

theorem sentSince_append_lines (h : Lines outs) (hist : List BroadcastOutput) :
    sentSince conn (hist ++ outs) = sentSince conn hist := by
  rw [sentSince, List.foldl_append]
  change outs.foldl _ (sentSince conn hist) = sentSince conn hist
  generalize sentSince conn hist = bytes
  induction outs with
  | nil => rfl
  | cons out outs ih =>
      obtain ⟨hout, houts⟩ := List.forall_mem_cons.mp h
      have hsend : BroadcastOutput.send conn bytes out = bytes := by
        cases out with
        | accepted conn' => cases hout
        | transmitted conn' data => cases hout
        | _ => rfl
      rw [List.foldl_cons, hsend]
      exact ih houts

theorem lines_planActs (acts : List (ℕ × Act)) : Lines (planActs acts) := by
  intro out hout
  obtain ⟨act, -, hact⟩ := List.mem_filterMap.mp hout
  split at hact
  · obtain rfl := Option.some.inj hact
    rfl
  · cases hact

theorem lines_answer (answer : Option KVPlan) : Lines (answer.toList.map .answered) := by
  intro out hout
  obtain ⟨state, -, rfl⟩ := List.mem_map.mp hout
  rfl

end

/-- The pool names nobody twice, and a client that is in it has been sent what is to be
heard, up to what waits in its buffer. -/
structure Heard (mem : Text → Value) (conn : Conn) (c : Config Broadcaster BroadcastOutput) :
    Prop where
  nodup : c.state.connBuff.Nodup
  inFlight : conn ∈ c.state.connBuff → (c.state.senders conn).InFlight
  stream : conn ∈ c.state.connBuff →
    sentSince conn c.hist ++ (c.state.senders conn).crcbufWrite = (linesSince mem conn c.hist).flatten

namespace Heard

variable {posix : PosixTime} {mem : Text → Value} {conn : Conn} {c : Config Broadcaster BroadcastOutput}

/-- A step that writes lines. -/
theorem writeAll (h : Heard mem conn c) {x : Broadcaster} {outs : List BroadcastOutput}
    (hbuff : x.connBuff = c.state.connBuff) (hsenders : x.senders = c.state.senders)
    (houts : Lines outs)
    (hfit : conn ∈ c.state.connBuff →
      (linesOf mem outs).flatten.length ≤ (c.state.senders conn).room) :
    Heard mem conn ⟨x.writeAll mem outs, c.hist ++ outs⟩ := by
  obtain ⟨hpool, -, hspec⟩ := Broadcaster.writeAll_spec mem outs x
  rw [hbuff] at hpool hspec
  have hwrites : conn ∈ c.state.connBuff → ((x.writeAll mem outs).senders conn).InFlight ∧
      ((x.writeAll mem outs).senders conn).crcbufWrite =
        (c.state.senders conn).crcbufWrite ++ (linesOf mem outs).flatten := by
    intro hconn
    rw [hspec h.nodup conn hconn, hsenders]
    exact Broadcaster.writeTexts (h.inFlight hconn) (hfit hconn)
  refine ⟨by rw [hpool]; exact h.nodup, fun hconn => ?_, fun hconn => ?_⟩
  · rw [hpool] at hconn
    exact (hwrites hconn).1
  · rw [hpool] at hconn
    rw [(hwrites hconn).2, sentSince_append_lines houts, linesSince_append_lines houts,
      List.flatten_append, ← h.stream hconn, List.append_assoc]

theorem accept (h : Heard mem conn c) (conn' : Conn) :
    Heard mem conn ((broadcaster posix mem).next c (.accept conn')) := by
  rw [Machine.next]
  simp only [broadcaster]
  split
  · rwa [List.append_nil]
  next hnew =>
  have hsent : sentSince conn (c.hist ++ [.accepted conn']) =
      if conn' = conn then [] else sentSince conn c.hist := List.foldl_append
  have hlines : linesSince mem conn (c.hist ++ [.accepted conn']) =
      if conn' = conn then [] else linesSince mem conn c.hist := List.foldl_append
  refine ⟨?_, fun hconn => ?_, fun hconn => ?_⟩
  · exact List.nodup_append.mpr ⟨h.nodup, List.nodup_singleton conn', fun a ha b hb hab =>
      hnew (List.mem_singleton.mp hb ▸ hab ▸ ha)⟩
  · dsimp only
    by_cases heq : conn = conn'
    · subst heq
      rw [Function.update_self]
      exact .idle rfl rfl
    · rw [Function.update_of_ne heq]
      refine h.inFlight ?_
      simpa [heq] using hconn
  · rw [hsent, hlines]
    dsimp only
    by_cases heq : conn = conn'
    · subst heq
      rw [Function.update_self, if_pos rfl, if_pos rfl]
      rfl
    · rw [Function.update_of_ne heq, if_neg (Ne.symm heq), if_neg (Ne.symm heq)]
      refine h.stream ?_
      simpa [heq] using hconn

theorem close (h : Heard mem conn c) (conn' : Conn) :
    Heard mem conn ((broadcaster posix mem).next c (.close conn')) := by
  rw [Machine.next]
  simp only [broadcaster, List.append_nil]
  exact ⟨h.nodup.erase conn', fun hconn => h.inFlight (List.mem_of_mem_erase hconn),
    fun hconn => h.stream (List.mem_of_mem_erase hconn)⟩

/-- The write that is completed is the only one of its connection. -/
theorem complete (h : Heard mem conn c) (conn' : Conn) (k n : ℕ) :
    Heard mem conn ((broadcaster posix mem).next c (.complete conn' k n)) := by
  rw [Machine.next]
  simp only [broadcaster]
  split
  · rwa [List.append_nil]
  next offer hoffer =>
  split
  swap
  · rwa [List.append_nil]
  next hn =>
  have hsent : sentSince conn (c.hist ++ [.transmitted conn' (offer.take n)]) =
      if conn' = conn then sentSince conn c.hist ++ offer.take n else sentSince conn c.hist :=
    List.foldl_append
  have hlines : linesSince mem conn (c.hist ++ [.transmitted conn' (offer.take n)]) =
      linesSince mem conn c.hist := List.foldl_append.trans (List.append_nil _)
  by_cases heq : conn = conn'
  · subst heq
    refine ⟨h.nodup, fun hconn => ?_, fun hconn => ?_⟩
    · simp only [Function.update_self]
      obtain ⟨hempty, -⟩ := (h.inFlight hconn).of_offer hoffer
      exact TcpSender.inFlight_startWrite hempty
    · obtain ⟨-, rest, hrest⟩ := (h.inFlight hconn).of_offer hoffer
      have htake : offer.take n = (c.state.senders conn).crcbufWrite.take n := by
        rw [← hrest, List.take_append_of_le_length hn]
      rw [hsent, hlines, if_pos rfl, ← h.stream hconn]
      simp only [Function.update_self]
      rw [TcpSender.handleWrite, TcpSender.startWrite_crcbufWrite, TcpSender.eraseBegin_crcbufWrite,
        htake, List.append_assoc, List.take_append_drop]
  · refine ⟨h.nodup, fun hconn => ?_, fun hconn => ?_⟩
    · simp only [Function.update_of_ne heq]
      exact h.inFlight hconn
    · rw [hsent, hlines, if_neg (Ne.symm heq)]
      simp only [Function.update_of_ne heq]
      exact h.stream hconn

theorem next (h : Heard mem conn c) {i : BroadcastEvent} (hfit : KeepsUp posix mem conn c i) :
    Heard mem conn ((broadcaster posix mem).next c i) := by
  cases i with
  | accept conn' => exact h.accept conn'
  | close conn' => exact h.close conn'
  | complete conn' k n => exact h.complete conn' k n
  | command cmd =>
      refine h.writeAll rfl rfl (fun out hout => ?_) hfit
      rcases List.mem_append.mp hout with hmem | hmem
      · exact lines_planActs _ out hmem
      · exact lines_answer _ out hmem
  | upload status =>
      refine h.writeAll rfl rfl (fun out hout => ?_) hfit
      obtain rfl := List.mem_singleton.mp hout
      rfl

end Heard

/-! ### The systems behind it -/

def BroadcastEvent.command? : BroadcastEvent → Option Command
  | .command c => some c
  | _ => none

/-- The plan states that have been published. -/
def publishedIn (hist : List BroadcastOutput) : List BroadcastOutput := hist.filter (·.isPublished)

theorem publishedIn_append (a b : List BroadcastOutput) :
    publishedIn (a ++ b) = publishedIn a ++ publishedIn b := List.filter_append ..

theorem planActs_append (a b : List (ℕ × Act)) : planActs (a ++ b) = planActs a ++ planActs b :=
  List.filterMap_append

theorem publishedIn_planActs (acts : List (ℕ × Act)) : publishedIn (planActs acts) = planActs acts := by
  refine List.filter_eq_self.mpr fun out hout => ?_
  obtain ⟨act, -, hact⟩ := List.mem_filterMap.mp hout
  split at hact
  · obtain rfl := Option.some.inj hact
    rfl
  · cases hact

theorem publishedIn_answer (answer : Option KVPlan) :
    publishedIn (answer.toList.map .answered) = [] := by
  cases answer <;> rfl

/-- The clients do not hold up the systems. -/
structure Behind (posix : PosixTime) (c : Config Broadcaster BroadcastOutput)
    (d : Config GeneralControl (ℕ × Act)) : Prop where
  control : c.state.control = d.state
  published : publishedIn c.hist = planActs d.hist

theorem Behind.next {posix : PosixTime} (mem : Text → Value) {c : Config Broadcaster BroadcastOutput}
    {d : Config GeneralControl (ℕ × Act)} (h : Behind posix c d) (i : BroadcastEvent) :
    Behind posix ((broadcaster posix mem).next c i)
      ((generalControl posix).exec d i.command?.toList) := by
  have hsame : ∀ {x : Broadcaster} {outs : List BroadcastOutput}, x.control = c.state.control →
      publishedIn outs = [] → Behind posix ⟨x, c.hist ++ outs⟩ d := by
    intro x outs hx houts
    refine ⟨hx.trans h.control, ?_⟩
    rw [publishedIn_append, houts, List.append_nil]
    exact h.published
  cases i with
  | accept conn =>
      rw [Machine.next]
      simp only [broadcaster]
      split
      · exact hsame rfl rfl
      · exact hsame rfl rfl
  | close conn => exact hsame rfl rfl
  | complete conn k n =>
      rw [Machine.next]
      simp only [broadcaster]
      split
      · exact hsame rfl rfl
      · split
        · exact hsame rfl rfl
        · exact hsame rfl rfl
  | upload status =>
      exact hsame (Broadcaster.writeAll_spec mem [.uploaded status] c.state).2.1 rfl
  | command cmd =>
      obtain ⟨-, hcontrol, -⟩ := Broadcaster.writeAll_spec mem
        (planActs ((generalControl posix).step c.state.control cmd).2 ++
          (c.state.control.answer cmd).toList.map .answered)
        { c.state with control := ((generalControl posix).step c.state.control cmd).1 }
      refine ⟨hcontrol.trans ?_, ?_⟩
      · rw [h.control]
        rfl
      · show publishedIn (c.hist ++ (planActs _ ++ _)) = planActs (d.hist ++ _)
        rw [planActs_append, ← h.published, publishedIn_append, publishedIn_append,
          publishedIn_planActs, publishedIn_answer, List.append_nil, h.control]

/-- The plan states that go out to the clients are those that the systems publish in the
run of the commands, whatever the clients do. A client has been sent, up to what waits
in its buffer, every line that has gone out since it was accepted, whole and in order, as
long as its own buffer has room for the lines; it does not depend on any other client. -/
theorem clients_hear (posix : PosixTime) (mem : Text → Value) (is : List BroadcastEvent) :
    Behind posix ((broadcaster posix mem).exec Broadcaster.start is)
      ((generalControl posix).exec GeneralControl.start (is.filterMap (·.command?))) ∧
    ∀ conn, (broadcaster posix mem).Each (KeepsUp posix mem conn) Broadcaster.start is →
      (broadcaster posix mem).Always (fun c => conn ∈ c.state.connBuff →
        sentSince conn c.hist ++ (c.state.senders conn).crcbufWrite =
          (linesSince mem conn c.hist).flatten) Broadcaster.start is := by
  constructor
  · have hbehind : ∀ (is : List BroadcastEvent) {c d}, Behind posix c d →
        Behind posix ((broadcaster posix mem).exec c is)
          ((generalControl posix).exec d (is.filterMap (·.command?))) := by
      intro is
      induction is with
      | nil => exact id
      | cons i is ih =>
          intro c d h
          have hnext := ih (h.next mem i)
          rw [← Machine.exec_append] at hnext
          cases i <;> exact hnext
    exact hbehind is ⟨rfl, rfl⟩
  · intro conn hfit
    have hstart : Heard mem conn Broadcaster.start := by
      refine ⟨List.nodup_nil, fun hconn => ?_, fun hconn => ?_⟩
      · cases hconn
      · cases hconn
    exact (Machine.always_of_each hstart hfit fun c i h hi => h.next hi).mono fun c h => h.stream

/-- A command on a clock that stands. -/
def heardCommand (kind : CommandKind) : BroadcastEvent :=
  .command { now := 0, unset := (Event.plain .abort).unset, kind := kind }

/-- One client hears that a plan is taken; another one comes, and both hear the answer to
a `check_plan` and the status of the system, while the network takes ten bytes. -/
def twoListeners : List BroadcastEvent :=
  [.accept 0,
    heardCommand (.findObss "001".toList "002".toList .gwac),
    heardCommand (.client (.appPlan
      { gid := "001".toList, uid := "002".toList, type := kvtypeAppgwac, planSn := "1".toList })),
    .accept 1,
    .complete 0 0 10,
    heardCommand (.client (.checkPlan
      { gid := "001".toList, uid := "002".toList, planSn := "1".toList })),
    .upload (.obss { gid := "001".toList, uid := "002".toList })]

theorem clients_hear_twoListeners : ∀ conn ∈ [0, 1],
    (broadcaster .blank fun _ => .int 0).Always (fun c => conn ∈ c.state.connBuff →
      sentSince conn c.hist ++ (c.state.senders conn).crcbufWrite =
        (linesSince (fun _ => .int 0) conn c.hist).flatten) Broadcaster.start twoListeners := by
  have hkeep : ∀ conn ∈ [0, 1], (broadcaster .blank fun _ => .int 0).Each
      (KeepsUp .blank (fun _ => .int 0) conn) Broadcaster.start twoListeners := by
    decide +kernel
  intro conn hconn
  exact (clients_hear .blank (fun _ => .int 0) twoListeners).2 conn (hkeep conn hconn)

end Gtoaes
