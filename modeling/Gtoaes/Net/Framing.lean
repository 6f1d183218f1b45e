import Gtoaes.Lib.Circular
import Gtoaes.Lib.Machine
import Gtoaes.Net.Receive
import Gtoaes.Net.Sending

/-!
The bytes of a connection between the thread that receives them and the loop of
`GeneralControl::on_tcp_receive`.

Each of them takes the lock of the buffer for one call at a time, so bytes may
come in between a `Lookup` that finds a newline and the `Read` that takes the
line out. The lines handed on do not depend on that, nor on how the bytes were
cut into packets.
-/

namespace Gtoaes

open Lib

/-- `handle_read` of the bytes of one packet. -/
def TcpClient.handleRead (data : Text) (t : TcpClient) : TcpClient :=
  { t with crcbufRead := Circular.pushAll tcpBufferCapacity t.crcbufRead data }

/-- Where the message thread is: in no run of the loop, before a `Lookup`, or
behind one that has found a newline at `pos`. -/
inductive LoopPoint
  | idle
  | looking
  | found (pos : ℕ)
  deriving DecidableEq

structure Framing where
  tcp : TcpClient := {}
  loop : LoopPoint := .idle
  deriving DecidableEq

/-- A packet comes in, the connection is closed by whoever closes it, a receive
message is taken from the queue, and the loop it starts goes on. -/
inductive FramingEvent
  | packet (data : Text)
  | close
  | onTcpReceive
  | go
  deriving DecidableEq

inductive FramingOutput
  | received (data : Text)
  | handed (line : Text)
  deriving DecidableEq

/-- The loop between two calls that take the lock. -/
def Framing.go (x : Framing) : Framing × List FramingOutput :=
  match x.loop with
  | .idle => (x, [])
  | .looking =>
      if !x.tcp.sockOpen then ({ x with loop := .idle }, [])
      else
        match x.tcp.lookup ['\n'] 0 with
        | none => ({ x with loop := .idle }, [])
        | some pos => ({ x with loop := .found pos }, [])
  | .found pos =>
      if pos + 1 > tcpPackSize then ({ tcp := x.tcp.close, loop := .looking }, [])
      else
        let (buff, tcp) := x.tcp.read (pos + 1) 0
        ({ tcp := tcp, loop := .looking }, [.handed (cString (buff.take pos))])

def framing : Machine Framing FramingEvent FramingOutput where
  step x
    | .packet data => ({ x with tcp := x.tcp.handleRead data }, [.received data])
    | .close => ({ x with tcp := x.tcp.close }, [])
    | .onTcpReceive =>
        match x.loop with
        | .idle => ({ x with loop := .looking }, [])
        | _ => (x, [])
    | .go => x.go

/-! ### Lines of a text in parts -/

/-- The bytes behind the last newline. -/
def afterLines (buf : Text) : Text := (pieces (· == '\n') buf).getLast (pieces_ne_nil _)

/-- Lines as they come over a connection. -/
def lineBytes (ls : List Text) : Text := ls.flatMap (· ++ ['\n'])

theorem pieces_line {line : Text} (h : '\n' ∉ line) (rest : Text) :
    pieces (· == '\n') (line ++ '\n' :: rest) = line :: pieces (· == '\n') rest := by
  refine pieces_append_cons ?_ (by simp) rest
  intro c hc
  simpa using fun heq : c = '\n' => h (heq ▸ hc)

theorem pieces_lineBytes {ls : List Text} (h : ∀ l ∈ ls, '\n' ∉ l) (rest : Text) :
    pieces (· == '\n') (lineBytes ls ++ rest) = ls ++ pieces (· == '\n') rest := by
  induction ls with
  | nil => rfl
  | cons l ls ih =>
      obtain ⟨hl, hls⟩ := List.forall_mem_cons.mp h
      calc pieces (· == '\n') (lineBytes (l :: ls) ++ rest)
          = pieces (· == '\n') (l ++ '\n' :: (lineBytes ls ++ rest)) := by simp [lineBytes]
        _ = l :: pieces (· == '\n') (lineBytes ls ++ rest) := pieces_line hl _
        _ = l :: ls ++ pieces (· == '\n') rest := by rw [ih hls, List.cons_append]

theorem lines_lineBytes {ls : List Text} (h : ∀ l ∈ ls, '\n' ∉ l) (rest : Text) :
    lines (lineBytes ls ++ rest) = ls ++ lines rest := by
  rw [lines, pieces_lineBytes h, List.dropLast_append_of_ne_nil (pieces_ne_nil _)]
  rfl

/-- A text is its lines and what stands behind them. -/
theorem lineBytes_lines (t : Text) : lineBytes (lines t) ++ afterLines t = t := by
  unfold lines afterLines
  induction t with
  | nil => rfl
  | cons c t ih =>
      have hne : pieces (· == '\n') t ≠ [] := pieces_ne_nil t
      by_cases hc : c = '\n'
      · have hpieces : pieces (· == '\n') (c :: t) = [] :: pieces (· == '\n') t := by
          rw [pieces, if_pos (by simpa using hc)]
        simp only [hpieces, List.dropLast_cons_of_ne_nil hne, List.getLast_cons hne]
        rw [hc]
        exact congrArg ('\n' :: ·) ih
      · obtain ⟨p, ps, hp⟩ := List.exists_cons_of_ne_nil hne
        have hpieces : pieces (· == '\n') (c :: t) = (c :: p) :: ps := by
          rw [pieces, if_neg (by simpa using hc), hp]
        simp only [hp] at ih
        simp only [hpieces]
        cases ps with
        | nil => exact congrArg (c :: ·) ih
        | cons q qs => exact congrArg (c :: ·) ih

theorem not_mem_lines (t : Text) : ∀ l ∈ lines t, '\n' ∉ l := by
  intro l hl hmem
  have hfree := free_of_mem_pieces (List.mem_of_mem_dropLast hl) '\n' hmem
  exact Bool.false_ne_true (hfree.symm.trans (by simp))

/-- A line received to its end is one of the lines of all that is received. -/
theorem lines_isPrefix_append (a b : Text) : lines a <+: lines (a ++ b) := by
  have hsplit : a ++ b = lineBytes (lines a) ++ (afterLines a ++ b) := by
    rw [← List.append_assoc, lineBytes_lines]
  rw [hsplit, lines_lineBytes (not_mem_lines a)]
  exact List.prefix_append _ _

/-! ### The bytes and the lines of a run -/

def FramingOutput.bytes : FramingOutput → Text
  | .received data => data
  | .handed _ => []

def FramingOutput.lines : FramingOutput → List Text
  | .received _ => []
  | .handed line => [line]

def receivedIn (hist : List FramingOutput) : Text := hist.flatMap (·.bytes)

/-- The lines handed to the parser. -/
def handedIn (hist : List FramingOutput) : List Text := hist.flatMap (·.lines)

@[simp] theorem receivedIn_append (a b : List FramingOutput) :
    receivedIn (a ++ b) = receivedIn a ++ receivedIn b := List.flatMap_append

@[simp] theorem handedIn_append (a b : List FramingOutput) :
    handedIn (a ++ b) = handedIn a ++ handedIn b := List.flatMap_append

def FramingEvent.bytes : FramingEvent → Text
  | .packet data => data
  | _ => []

/-- The packet fits behind the bytes not yet read, and nobody closes the
connection. -/
def Admits (c : Config Framing FramingOutput) : FramingEvent → Prop
  | .packet data => c.state.tcp.crcbufRead.length + data.length ≤ tcpBufferCapacity
  | .close => False
  | _ => True

instance (c : Config Framing FramingOutput) : (i : FramingEvent) → Decidable (Admits c i)
  | .packet _ => inferInstanceAs (Decidable (_ ≤ _))
  | .close => inferInstanceAs (Decidable False)
  | .onTcpReceive => inferInstanceAs (Decidable True)
  | .go => inferInstanceAs (Decidable True)

/-- Bytes without NUL whose lines fit the loop's array. -/
def PlainBytes (t : Text) : Prop := '\x00' ∉ t ∧ ∀ l ∈ lines t, l.length + 1 ≤ tcpPackSize

theorem PlainBytes.of_append {a b : Text} (h : PlainBytes (a ++ b)) : PlainBytes a := by
  refine ⟨fun hmem => h.1 (List.mem_append_left b hmem), fun l hl => h.2 l ?_⟩
  exact (lines_isPrefix_append a b).subset hl

/-- What has been received is what has been handed on, line by line, and the
buffer; a newline that has been found is still there. -/
structure Framed (c : Config Framing FramingOutput) : Prop where
  isOpen : c.state.tcp.sockOpen = true
  noNewline : ∀ l ∈ handedIn c.hist, '\n' ∉ l
  received : lineBytes (handedIn c.hist) ++ c.state.tcp.crcbufRead = receivedIn c.hist
  found : ∀ pos, c.state.loop = .found pos → ∃ line rest, line.length = pos ∧ '\n' ∉ line ∧
    c.state.tcp.crcbufRead = line ++ '\n' :: rest

theorem Framed.lines_eq {c : Config Framing FramingOutput} (h : Framed c) :
    handedIn c.hist ++ lines c.state.tcp.crcbufRead = lines (receivedIn c.hist) := by
  rw [← h.received, lines_lineBytes h.noNewline]

theorem Framed.withLoop {c : Config Framing FramingOutput} (h : Framed c) {loop : LoopPoint}
    (hloop : ∀ pos, loop ≠ .found pos) : Framed ⟨{ c.state with loop := loop }, c.hist⟩ :=
  ⟨h.isOpen, h.noNewline, h.received, fun pos hfound => absurd hfound (hloop pos)⟩

/-- The iteration that takes a line out. -/
theorem go_found {x : Framing} {line rest : Text} (hloop : x.loop = .found line.length)
    (hbuf : x.tcp.crcbufRead = line ++ '\n' :: rest) (hfit : line.length + 1 ≤ tcpPackSize) :
    x.go = ({ tcp := { x.tcp with crcbufRead := rest }, loop := .looking },
      [.handed (cString line)]) := by
  have hsplit : x.tcp.crcbufRead = (line ++ ['\n']) ++ rest := by rw [hbuf]; simp
  have hread : x.tcp.read (line.length + 1) 0 =
      (line ++ ['\n'], { x.tcp with crcbufRead := rest }) := by
    rw [show line.length + 1 = (line ++ ['\n']).length by simp]
    exact TcpClient.read_prefix (by simp) hsplit
  simp only [Framing.go, hloop, if_neg (Nat.not_lt.mpr hfit), hread, List.take_left]

theorem cString_of_no_nul {t : Text} (h : '\x00' ∉ t) : cString t = t := by
  refine List.takeWhile_eq_self_iff.mpr fun c hc => ?_
  simpa using fun heq : c = '\x00' => h (heq ▸ hc)

theorem Framed.packet {c : Config Framing FramingOutput} (h : Framed c) {data : Text}
    (hfit : c.state.tcp.crcbufRead.length + data.length ≤ tcpBufferCapacity) :
    Framed (framing.next c (.packet data)) := by
  have hbuf : (framing.next c (.packet data)).state.tcp.crcbufRead =
      c.state.tcp.crcbufRead ++ data := Circular.pushAll_of_fits hfit
  have hhist : (framing.next c (.packet data)).hist = c.hist ++ [.received data] := rfl
  have hhanded : handedIn (framing.next c (.packet data)).hist = handedIn c.hist := by
    rw [hhist, handedIn_append]
    exact List.append_nil _
  have hreceived : receivedIn (framing.next c (.packet data)).hist = receivedIn c.hist ++ data := by
    rw [hhist, receivedIn_append]
    exact congrArg _ (List.append_nil data)
  refine ⟨h.isOpen, by rw [hhanded]; exact h.noNewline, ?_, fun pos hpos => ?_⟩
  · rw [hhanded, hbuf, hreceived, ← h.received, List.append_assoc]
  · -- A newline that has been found stays where it is.
    obtain ⟨line, rest, hlen, hline, hfound⟩ := h.found pos hpos
    refine ⟨line, rest ++ data, hlen, hline, ?_⟩
    rw [hbuf, hfound, List.append_assoc, List.cons_append]

theorem Framed.go {c : Config Framing FramingOutput} (h : Framed c)
    (hplain : PlainBytes (receivedIn c.hist)) : Framed (framing.next c .go) := by
  have hnext : framing.next c .go = ⟨c.state.go.1, c.hist ++ c.state.go.2⟩ := rfl
  -- bytes that came in after the `Lookup` are behind the newline it found
  cases hloop : c.state.loop with
  | idle =>
      have hgo : c.state.go = (c.state, []) := by rw [Framing.go, hloop]
      rw [hnext, hgo, List.append_nil]
      exact h
  | looking =>
      cases hpos : c.state.tcp.lookup ['\n'] 0 with
      | none =>
          have hgo : c.state.go = ({ c.state with loop := .idle }, []) := by
            simp [Framing.go, hloop, h.isOpen, hpos]
          rw [hnext, hgo, List.append_nil]
          exact h.withLoop fun pos hfound => by cases hfound
      | some pos =>
          have hgo : c.state.go = ({ c.state with loop := .found pos }, []) := by
            simp [Framing.go, hloop, h.isOpen, hpos]
          rw [hnext, hgo, List.append_nil]
          refine ⟨h.isOpen, h.noNewline, h.received, fun pos' hfound => ?_⟩
          obtain rfl := LoopPoint.found.inj hfound
          obtain ⟨line, rest, hbuf, hline, hlen⟩ :=
            TcpClient.lookupFrom_newline (by simpa [TcpClient.lookup] using hpos)
          exact ⟨line, rest, by omega, hline, hbuf⟩
  | found pos =>
      obtain ⟨line, rest, rfl, hline, hbuf⟩ := h.found pos hloop
      have hmem : line ∈ lines (receivedIn c.hist) := by
        rw [← h.lines_eq, hbuf, lines, pieces_line hline,
          List.dropLast_cons_of_ne_nil (pieces_ne_nil _)]
        exact List.mem_append_right _ List.mem_cons_self
      have hnul : '\x00' ∉ line := by
        intro hin
        apply hplain.1
        rw [← h.received, hbuf]
        exact List.mem_append_right _ (List.mem_append_left _ hin)
      have hgo := go_found hloop hbuf (hplain.2 line hmem)
      rw [cString_of_no_nul hnul] at hgo
      have hhanded : handedIn (c.hist ++ [.handed line]) = handedIn c.hist ++ [line] :=
        handedIn_append _ _
      have hreceived : receivedIn (c.hist ++ [.handed line]) = receivedIn c.hist := by
        rw [receivedIn_append]
        exact List.append_nil _
      rw [hnext, hgo]
      refine ⟨h.isOpen, ?_, ?_, fun pos hfound => by cases hfound⟩
      · rw [hhanded]
        exact List.forall_mem_append.mpr ⟨h.noNewline, List.forall_mem_singleton.mpr hline⟩
      · rw [hhanded, hreceived, ← h.received, hbuf]
        simp [lineBytes]

theorem Framed.next {c : Config Framing FramingOutput} (h : Framed c) {i : FramingEvent}
    (hadmits : Admits c i) (hplain : PlainBytes (receivedIn c.hist)) :
    Framed (framing.next c i) := by
  cases i with
  | packet data => exact h.packet hadmits
  | close => exact hadmits.elim
  | go => exact h.go hplain
  | onTcpReceive =>
      cases hloop : c.state.loop with
      | idle =>
          have hnext : framing.next c .onTcpReceive = ⟨{ c.state with loop := .looking }, c.hist⟩ := by
            simp [Machine.next, framing, hloop]
          rw [hnext]
          exact h.withLoop fun pos hfound => by cases hfound
      | looking =>
          have hnext : framing.next c .onTcpReceive = c := by simp [Machine.next, framing, hloop]
          rwa [hnext]
      | found pos =>
          have hnext : framing.next c .onTcpReceive = c := by simp [Machine.next, framing, hloop]
          rwa [hnext]

end Gtoaes
