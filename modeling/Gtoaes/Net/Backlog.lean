import Gtoaes.Net.Framing

/-!
The bytes that have been received and not yet read. Each completion of a read from the
socket starts the next one, whether or not anyone has taken out what has come before, and
adds to a buffer that drops its oldest bytes where it is full.
-/

namespace Gtoaes

open Lib

/-- The bytes that a completion delivers. -/
structure Packet where
  data : Text
  delivers : data ≠ []
  fits : data.length ≤ tcpPackSize

/-- A completion of a read from the socket, or a call of `Read`. -/
inductive BacklogEvent
  | complete (packet : Packet)
  | read (n : ℕ)

inductive BacklogOutput
  | arrived (data : Text)
  | taken (data : Text)

def backlog : Machine TcpClient BacklogEvent BacklogOutput where
  step t
    | .complete packet => (t.handleRead packet.data, [.arrived packet.data])
    | .read n => ((t.read n 0).2, [.taken (t.read n 0).1])

/-- A connection as the constructor leaves it. -/
def TcpClient.start : Config TcpClient BacklogOutput where
  state := {}
  hist := []

def BacklogOutput.arrivals : BacklogOutput → Text
  | .arrived data => data
  | .taken _ => []

def BacklogOutput.takings : BacklogOutput → Text
  | .arrived _ => []
  | .taken data => data

/-- All bytes received. -/
def arrivedIn (hist : List BacklogOutput) : Text := hist.flatMap (·.arrivals)

/-- All bytes read. -/
def takenIn (hist : List BacklogOutput) : Text := hist.flatMap (·.takings)

/-- What has been received is what has been read and what is there to be read. -/
def Undropped (c : Config TcpClient BacklogOutput) : Prop :=
  takenIn c.hist ++ c.state.crcbufRead = arrivedIn c.hist

/-- A packet comes when the bytes that are still to be read leave room for it. -/
def LeavesRoom (c : Config TcpClient BacklogOutput) : BacklogEvent → Prop
  | .complete packet => c.state.crcbufRead.length + packet.data.length ≤ tcpBufferCapacity
  | .read _ => True

@[simp] theorem arrivedIn_append (a b : List BacklogOutput) :
    arrivedIn (a ++ b) = arrivedIn a ++ arrivedIn b := List.flatMap_append

@[simp] theorem takenIn_append (a b : List BacklogOutput) :
    takenIn (a ++ b) = takenIn a ++ takenIn b := List.flatMap_append

variable {c : Config TcpClient BacklogOutput}

theorem arrivedIn_complete (packet : Packet) :
    arrivedIn (backlog.next c (.complete packet)).hist = arrivedIn c.hist ++ packet.data := by
  rw [Machine.next_hist, arrivedIn_append]
  exact congrArg (arrivedIn c.hist ++ ·) (List.append_nil packet.data)

theorem takenIn_complete (packet : Packet) :
    takenIn (backlog.next c (.complete packet)).hist = takenIn c.hist := by
  rw [Machine.next_hist, takenIn_append]
  exact List.append_nil _

/-- `Read` splits the buffer. -/
theorem TcpClient.read_append (t : TcpClient) (n : ℕ) :
    (t.read n 0).1 ++ (t.read n 0).2.crcbufRead = t.crcbufRead := by
  rw [TcpClient.read]
  generalize (if t.crcbufRead.length > 0 + n then n else t.crcbufRead.length - 0) = toRead
  split
  · rfl
  · show (t.crcbufRead.drop 0).take toRead ++ t.crcbufRead.drop (0 + toRead) = t.crcbufRead
    rw [List.drop_zero, Nat.zero_add]
    exact List.take_append_drop toRead t.crcbufRead

/-- One step drops no byte just if it has room. -/
theorem undropped_next_iff (h : Undropped c) (ev : BacklogEvent) :
    Undropped (backlog.next c ev) ↔ LeavesRoom c ev := by
  rw [Undropped] at h ⊢
  cases ev with
  | complete packet =>
      -- what is added comes behind what is there, or drops some of it
      rw [takenIn_complete, arrivedIn_complete, ← h, List.append_assoc, List.append_cancel_left_eq]
      exact Circular.pushAll_eq_append_iff packet.delivers
  | read n =>
      refine iff_of_true ?_ trivial
      rw [Machine.next_hist, takenIn_append, arrivedIn_append]
      show takenIn c.hist ++ ((c.state.read n 0).1 ++ []) ++ (c.state.read n 0).2.crcbufRead =
        arrivedIn c.hist ++ []
      rw [List.append_nil, List.append_nil, List.append_assoc, TcpClient.read_append, h]

/-- In a run of completions and calls no byte is dropped if and only if each packet finds
room behind the bytes that are still to be read. -/
theorem undropped_iff_leavesRoom (is : List BacklogEvent) :
    backlog.Always Undropped TcpClient.start is ↔ backlog.Each LeavesRoom TcpClient.start is :=
  Machine.always_iff_each Machine.each_true rfl fun _ ev _ h => undropped_next_iff h ev

/-- The same packet again and again, while nobody reads. -/
def flood (packet : Packet) (k : ℕ) : List BacklogEvent := List.replicate k (.complete packet)

theorem exec_flood (packet : Packet) (k : ℕ) :
    takenIn (backlog.exec TcpClient.start (flood packet k)).hist = [] ∧
      (arrivedIn (backlog.exec TcpClient.start (flood packet k)).hist).length =
        k * packet.data.length ∧
      (backlog.exec TcpClient.start (flood packet k)).state.crcbufRead.length ≤
        tcpBufferCapacity := by
  induction k with
  | zero => exact ⟨rfl, (Nat.zero_mul _).symm, Nat.zero_le _⟩
  | succ k ih =>
      obtain ⟨htaken, harrived, -⟩ := ih
      rw [flood, List.replicate_succ', Machine.exec_append]
      refine ⟨(takenIn_complete packet).trans htaken, ?_,
        Circular.length_pushAll_of_ne_nil _ packet.delivers⟩
      calc (arrivedIn (backlog.next _ (.complete packet)).hist).length
          = (arrivedIn (backlog.exec TcpClient.start (flood packet k)).hist ++
              packet.data).length := congrArg List.length (arrivedIn_complete packet)
        _ = k * packet.data.length + packet.data.length := by rw [List.length_append, harrived]
        _ = (k + 1) * packet.data.length := (Nat.succ_mul _ _).symm

/-- A packet as large as they get. -/
def fullPacket : Packet where
  data := List.replicate tcpPackSize 'a'
  delivers := List.ne_nil_of_length_pos (List.length_replicate.trans_gt (by decide))
  fits := List.length_replicate.le

/-- The fifty-first such packet takes the place of the first. -/
theorem not_undropped : ¬ ∀ is : List BacklogEvent,
    backlog.Always Undropped TcpClient.start is := by
  intro h
  obtain ⟨htaken, harrived, hfull⟩ := exec_flood fullPacket 51
  have hlast : Undropped (backlog.exec TcpClient.start (flood fullPacket 51)) :=
    (h (flood fullPacket 51)).exec
  have hlength : fullPacket.data.length = 1500 := List.length_replicate
  rw [Undropped, htaken, List.nil_append] at hlast
  rw [hlast, harrived, hlength] at hfull
  exact absurd hfull (by decide)

end Gtoaes
