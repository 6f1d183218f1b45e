import Gtoaes.Lib.Circular
import Gtoaes.Lib.Machine
import Gtoaes.Net.TcpClient
import Gtoaes.Proto.Print

/-!
The sending side of `TcpClient` (`AsioTCP.cpp`): the bytes accepted and not yet
sent, and the asynchronous write that sends them. `Write` and the completion of
a write both start one, each only where there is none.
-/

namespace Gtoaes

open Lib

/-- The room of `crcbuf_read_` and of `crcbuf_write_`. -/
def tcpBufferCapacity : ℕ := tcpPackSize * 50

/-- What `Write` and `handle_write` move: the buffer, and what each asynchronous
write that has been started and not been completed was given to send. -/
structure TcpSender where
  crcbufWrite : Text
  offers : List Text
  bounded : crcbufWrite.length ≤ tcpBufferCapacity

/-- The `n` bytes at a pointer. -/
def bytesAt (data : ℕ → Char) (n : ℕ) : Text := (List.range n).map data

@[simp] theorem length_bytesAt (data : ℕ → Char) (n : ℕ) : (bytesAt data n).length = n := by
  rw [bytesAt, List.length_map, List.length_range]

namespace TcpSender

def start : TcpSender where
  crcbufWrite := []
  offers := []
  bounded := Nat.zero_le _

/-- What is left of the capacity. -/
def room (t : TcpSender) : ℕ := tcpBufferCapacity - t.crcbufWrite.length

def startWrite (t : TcpSender) : TcpSender :=
  if t.crcbufWrite = [] then t else { t with offers := t.offers ++ [t.crcbufWrite] }

def pushAll (bytes : Text) (t : TcpSender) : TcpSender where
  crcbufWrite := Circular.pushAll tcpBufferCapacity t.crcbufWrite bytes
  offers := t.offers
  bounded := Circular.length_pushAll_le t.bounded bytes

/-- `Write(data, n)`: what it returns and leaves. -/
def write (data : Option (ℕ → Char)) (n : ℤ) (t : TcpSender) : ℕ × TcpSender :=
  match data with
  | none => (0, t)
  | some data =>
      if n ≤ 0 then (0, t)
      else
        let hadWrite := if n.toNat > t.room then t.room else n.toNat
        let pushed := t.pushAll (bytesAt data hadWrite)
        (hadWrite, if t.crcbufWrite = [] then pushed.startWrite else pushed)

def eraseBegin (n : ℕ) (t : TcpSender) : TcpSender where
  crcbufWrite := t.crcbufWrite.drop n
  offers := t.offers
  bounded := List.length_drop.trans_le ((Nat.sub_le _ _).trans t.bounded)

/-- `handle_write` of a write that has sent `n` bytes. -/
def handleWrite (n : ℕ) (t : TcpSender) : TcpSender := (t.eraseBegin n).startWrite

@[simp] theorem eraseBegin_crcbufWrite (n : ℕ) (t : TcpSender) :
    (t.eraseBegin n).crcbufWrite = t.crcbufWrite.drop n := rfl

@[simp] theorem eraseBegin_offers (n : ℕ) (t : TcpSender) : (t.eraseBegin n).offers = t.offers := rfl

@[simp] theorem pushAll_offers (bytes : Text) (t : TcpSender) :
    (t.pushAll bytes).offers = t.offers := rfl

@[simp] theorem startWrite_crcbufWrite (t : TcpSender) :
    t.startWrite.crcbufWrite = t.crcbufWrite := by
  unfold startWrite
  split <;> rfl

theorem pushAll_crcbufWrite {bytes : Text} {t : TcpSender} (h : bytes.length ≤ t.room) :
    (t.pushAll bytes).crcbufWrite = t.crcbufWrite ++ bytes := by
  have hbounded := t.bounded
  rw [room] at h
  exact Circular.pushAll_of_fits (by omega)

end TcpSender

/-! ### Writes and completions in any order -/

/-- A call of `Write`, or the completion of the `k`-th outstanding write, which
reports that it has sent `n` bytes. -/
inductive TcpSenderEvent
  | write (data : Option (ℕ → Char)) (n : ℤ)
  | complete (k n : ℕ)

inductive TcpSenderOutput
  | returned (data : Option (ℕ → Char)) (n : ℤ) (len : ℕ)
  | transmitted (bytes : Text)

/-- A write that reports `n` bytes has sent the first `n` of those it was given;
there is no completion of a write that is not outstanding, nor of more bytes than
it was given. -/
def tcpSender : Machine TcpSender TcpSenderEvent TcpSenderOutput where
  step t
    | .write data n => ((t.write data n).2, [.returned data n (t.write data n).1])
    | .complete k n =>
        match t.offers[k]? with
        | none => (t, [])
        | some offer =>
            if n ≤ offer.length then
              (TcpSender.handleWrite n { t with offers := t.offers.eraseIdx k },
                [.transmitted (offer.take n)])
            else (t, [])

/-- The bytes a call of `Write` has accepted. -/
def TcpSenderOutput.accepted : TcpSenderOutput → Text
  | .returned (some data) _ len => bytesAt data len
  | _ => []

def TcpSenderOutput.sent : TcpSenderOutput → Text
  | .transmitted bytes => bytes
  | _ => []

namespace TcpSender

/-- What `Write` appends is what it says it has accepted, and it starts a write
where the buffer was empty. -/
theorem write_cases (data : Option (ℕ → Char)) (n : ℤ) (t : TcpSender) :
    (t.write data n = (0, t) ∧ (data = none ∨ n ≤ 0)) ∨
    ∃ mem, data = some mem ∧ 0 < n ∧ (t.write data n).1 = min n.toNat t.room ∧
      (t.write data n).2.crcbufWrite = t.crcbufWrite ++ bytesAt mem (min n.toNat t.room) ∧
      (t.write data n).2.offers =
        if t.crcbufWrite = [] then t.offers ++ [(t.write data n).2.crcbufWrite] else t.offers := by
  cases data with
  | none => exact .inl ⟨rfl, .inl rfl⟩
  | some mem =>
      by_cases hn : n ≤ 0
      · left
        exact ⟨if_pos hn, .inr hn⟩
      right
      have hlen : (if n.toNat > t.room then t.room else n.toNat) = min n.toNat t.room := by
        split <;> omega
      have hfit : (bytesAt mem (min n.toNat t.room)).length ≤ t.room := by
        rw [length_bytesAt]
        exact Nat.min_le_right _ _
      have hpush := pushAll_crcbufWrite hfit
      have hwrite : t.write (some mem) n = (min n.toNat t.room,
          if t.crcbufWrite = [] then (t.pushAll (bytesAt mem (min n.toNat t.room))).startWrite
          else t.pushAll (bytesAt mem (min n.toNat t.room))) := by
        rw [write, if_neg hn, hlen]
      refine ⟨mem, rfl, by omega, by rw [hwrite], ?_⟩
      rw [hwrite]
      split
      · next hempty =>
          -- An empty buffer has room, so the bytes accepted are not none.
          have hroom : t.room = tcpBufferCapacity := by rw [room, hempty, List.length_nil, Nat.sub_zero]
          have hpos : 0 < (bytesAt mem (min n.toNat t.room)).length := by
            rw [length_bytesAt, hroom, tcpBufferCapacity, tcpPackSize]
            omega
          have hsome : (t.pushAll (bytesAt mem (min n.toNat t.room))).crcbufWrite ≠ [] := by
            rw [hpush]
            exact List.append_ne_nil_of_right_ne_nil _ (List.length_pos_iff.mp hpos)
          refine ⟨(startWrite_crcbufWrite _).trans hpush, ?_⟩
          rw [startWrite_crcbufWrite, startWrite, if_neg hsome]
          rfl
      · exact ⟨hpush, rfl⟩

/-- The writes in flight: none over an empty buffer, and otherwise one, which was
given the beginning of the buffer. -/
inductive InFlight (t : TcpSender) : Prop
  | idle (hbuf : t.crcbufWrite = []) (hoffers : t.offers = [])
  | busy (offer : Text) (hoffer : offer ≠ []) (hpre : offer <+: t.crcbufWrite)
      (hoffers : t.offers = [offer])

theorem InFlight.length_offers_le {t : TcpSender} (h : t.InFlight) : t.offers.length ≤ 1 := by
  cases h with
  | idle _ hoffers => rw [hoffers]; exact Nat.zero_le 1
  | busy _ _ _ hoffers => rw [hoffers]; exact le_refl 1

theorem InFlight.offers_ne_nil_iff {t : TcpSender} (h : t.InFlight) :
    t.offers ≠ [] ↔ t.crcbufWrite ≠ [] := by
  cases h with
  | idle hbuf hoffers => exact iff_of_false (· hoffers) (· hbuf)
  | busy offer hoffer hpre hoffers =>
      refine iff_of_true (by rw [hoffers]; exact List.cons_ne_nil _ _) fun hbuf => hoffer ?_
      rw [hbuf] at hpre
      exact List.prefix_nil.mp hpre

/-- A write started where none is in flight. -/
theorem inFlight_startWrite {t : TcpSender} (h : t.offers = []) : t.startWrite.InFlight := by
  by_cases hbuf : t.crcbufWrite = []
  · rw [startWrite, if_pos hbuf]
    exact .idle hbuf h
  · rw [startWrite, if_neg hbuf]
    exact .busy t.crcbufWrite hbuf (List.prefix_refl _) (by rw [h]; rfl)

theorem InFlight.write {t : TcpSender} (h : t.InFlight) (data : Option (ℕ → Char)) (n : ℤ) :
    (t.write data n).2.InFlight := by
  rcases t.write_cases data n with ⟨hnone, -⟩ | ⟨mem, -, hn, -, hbuf', hoffers'⟩
  · rw [hnone]
    exact h
  cases h with
  | idle hbuf hoffers =>
      rw [if_pos hbuf, hoffers] at hoffers'
      refine .busy _ ?_ (List.prefix_refl _) hoffers'
      have hroom : t.room = tcpBufferCapacity := by rw [room, hbuf, List.length_nil, Nat.sub_zero]
      rw [hbuf', hroom]
      apply List.append_ne_nil_of_right_ne_nil
      rw [← List.length_pos_iff, length_bytesAt, tcpBufferCapacity, tcpPackSize]
      omega
  | busy offer hoffer hpre hoffers =>
      have hbuf : t.crcbufWrite ≠ [] := by
        rintro hbuf
        rw [hbuf] at hpre
        exact hoffer (List.prefix_nil.mp hpre)
      rw [if_neg hbuf, hoffers] at hoffers'
      refine .busy offer hoffer ?_ hoffers'
      rw [hbuf']
      exact hpre.trans (List.prefix_append _ _)

/-- The only write there can be a completion of. -/
theorem InFlight.of_offer {t : TcpSender} (h : t.InFlight) {k : ℕ} {offer : Text}
    (hk : t.offers[k]? = some offer) : t.offers.eraseIdx k = [] ∧ offer <+: t.crcbufWrite := by
  cases h with
  | idle _ hoffers =>
      rw [hoffers] at hk
      cases hk
  | busy offer' _ hpre hoffers =>
      rw [hoffers] at hk ⊢
      cases k with
      | zero =>
          obtain rfl := Option.some.inj hk
          exact ⟨rfl, hpre⟩
      | succ k => cases hk

end TcpSender

@[simp] theorem accepted_transmitted (bytes : Text) :
    (TcpSenderOutput.transmitted bytes).accepted = [] := rfl

@[simp] theorem sent_returned (data : Option (ℕ → Char)) (n : ℤ) (len : ℕ) :
    (TcpSenderOutput.returned data n len).sent = [] := rfl

/-- The bytes accepted in a history and the bytes sent in it. -/
def acceptedIn (hist : List TcpSenderOutput) : Text := hist.flatMap (·.accepted)

def sentIn (hist : List TcpSenderOutput) : Text := hist.flatMap (·.sent)

@[simp] theorem acceptedIn_append (hist : List TcpSenderOutput) (o : TcpSenderOutput) :
    acceptedIn (hist ++ [o]) = acceptedIn hist ++ o.accepted := by
  rw [acceptedIn, List.flatMap_append, List.flatMap_singleton]
  rfl

@[simp] theorem sentIn_append (hist : List TcpSenderOutput) (o : TcpSenderOutput) :
    sentIn (hist ++ [o]) = sentIn hist ++ o.sent := by
  rw [sentIn, List.flatMap_append, List.flatMap_singleton]
  rfl

theorem next_write (c : Config TcpSender TcpSenderOutput) (data : Option (ℕ → Char)) (n : ℤ) :
    tcpSender.next c (.write data n) = ⟨(c.state.write data n).2,
      c.hist ++ [.returned data n (c.state.write data n).1]⟩ := rfl

theorem next_complete_cases (c : Config TcpSender TcpSenderOutput) (k n : ℕ) :
    tcpSender.next c (.complete k n) = c ∨
    ∃ offer, c.state.offers[k]? = some offer ∧ n ≤ offer.length ∧
      tcpSender.next c (.complete k n) =
        ⟨TcpSender.handleWrite n { c.state with offers := c.state.offers.eraseIdx k },
          c.hist ++ [.transmitted (offer.take n)]⟩ := by
  cases hk : c.state.offers[k]? with
  | none =>
      left
      simp [Machine.next, tcpSender, hk]
  | some offer =>
      by_cases hn : n ≤ offer.length
      · right
        refine ⟨offer, rfl, hn, ?_⟩
        simp [Machine.next, tcpSender, hk, hn]
      · left
        simp [Machine.next, tcpSender, hk, hn]

/-- Nothing accepted is lost, sent twice or out of order. -/
structure Lossless (c : Config TcpSender TcpSenderOutput) : Prop where
  inFlight : c.state.InFlight
  stream : sentIn c.hist ++ c.state.crcbufWrite = acceptedIn c.hist

theorem Lossless.write {c : Config TcpSender TcpSenderOutput} (h : Lossless c)
    (data : Option (ℕ → Char)) (n : ℤ) : Lossless (tcpSender.next c (.write data n)) := by
  rw [next_write]
  refine ⟨h.inFlight.write data n, ?_⟩
  rw [sentIn_append, acceptedIn_append, ← h.stream, sent_returned, List.append_nil]
  rcases c.state.write_cases data n with ⟨hnone, -⟩ | ⟨mem, rfl, -, hlen, hbuf, -⟩
  · have hno : (TcpSenderOutput.returned data n 0).accepted = [] := by
      cases data <;> rfl
    rw [hnone, hno, List.append_nil]
  · rw [hbuf, hlen, TcpSenderOutput.accepted, List.append_assoc]

theorem Lossless.complete {c : Config TcpSender TcpSenderOutput} (h : Lossless c) (k n : ℕ) :
    Lossless (tcpSender.next c (.complete k n)) := by
  rcases next_complete_cases c k n with hnext | ⟨offer, hk, hn, hnext⟩
  · rwa [hnext]
  · -- The write completed is the one in flight, so none is in flight now.
    obtain ⟨hempty, rest, hrest⟩ := h.inFlight.of_offer hk
    have htake : offer.take n = c.state.crcbufWrite.take n := by
      rw [← hrest, List.take_append_of_le_length hn]
    rw [hnext]
    refine ⟨TcpSender.inFlight_startWrite hempty, ?_⟩
    rw [sentIn_append, acceptedIn_append, ← h.stream, TcpSender.handleWrite,
      TcpSender.startWrite_crcbufWrite, TcpSender.eraseBegin_crcbufWrite, TcpSenderOutput.sent,
      accepted_transmitted, htake, List.append_nil, List.append_assoc, List.take_append_drop]

theorem Lossless.next {c : Config TcpSender TcpSenderOutput} (h : Lossless c)
    (i : TcpSenderEvent) : Lossless (tcpSender.next c i) := by
  cases i with
  | write data n => exact h.write data n
  | complete k n => exact h.complete k n

/-- Over every run of `Write`s and completions: at most one write is in flight,
there is one just where the buffer is not empty, and what has been sent, followed
by the buffer, is what the calls of `Write` have accepted. -/
theorem sender_lossless (is : List TcpSenderEvent) :
    tcpSender.Always (fun c => c.state.offers.length ≤ 1 ∧
        (c.state.offers ≠ [] ↔ c.state.crcbufWrite ≠ []) ∧
        sentIn c.hist ++ c.state.crcbufWrite = acceptedIn c.hist)
      ⟨TcpSender.start, []⟩ is := by
  have hlossless : tcpSender.Always Lossless ⟨TcpSender.start, []⟩ is :=
    Machine.always_of_invariant ⟨.idle rfl rfl, rfl⟩ fun c i h => h.next i
  exact hlossless.mono fun c h =>
    ⟨h.inFlight.length_offers_le, h.inFlight.offers_ne_nil_iff, h.stream⟩

/-! ### Whole messages -/

/-- The message a call of `Write` is handed. -/
def messageAt (data : Option (ℕ → Char)) (n : ℤ) : Text :=
  match data with
  | none => []
  | some data => bytesAt data n.toNat

def TcpSenderOutput.messages : TcpSenderOutput → List Text
  | .returned data n _ => [messageAt data n]
  | .transmitted _ => []

def messagesIn (hist : List TcpSenderOutput) : List Text := hist.flatMap (·.messages)

theorem messagesIn_append (hist : List TcpSenderOutput) (o : TcpSenderOutput) :
    messagesIn (hist ++ [o]) = messagesIn hist ++ o.messages := by
  rw [messagesIn, List.flatMap_append, List.flatMap_singleton]
  rfl

/-- The bytes put into the buffer since the start are some of the messages, whole
and in order. -/
def WholeStream (c : Config TcpSender TcpSenderOutput) : Prop :=
  ∃ whole, List.Sublist whole (messagesIn c.hist) ∧
    sentIn c.hist ++ c.state.crcbufWrite = whole.flatten

/-- A call of `Write` appends its whole message to the buffer, or nothing of it. -/
def PutsWhole (c : Config TcpSender TcpSenderOutput) (i : TcpSenderEvent) : Prop :=
  ∀ data n, i = .write data n →
    (tcpSender.next c i).state.crcbufWrite = c.state.crcbufWrite ++ messageAt data n ∨
    (tcpSender.next c i).state.crcbufWrite = c.state.crcbufWrite

/-- The message of a call fits into the room left, or there is none left. -/
def FitsOrFull (c : Config TcpSender TcpSenderOutput) (i : TcpSenderEvent) : Prop :=
  ∀ data n, i = .write data n → (messageAt data n).length ≤ c.state.room ∨ c.state.room = 0

/-- `Write` appends the beginning of the message that there is room for. -/
theorem write_crcbufWrite (data : Option (ℕ → Char)) (n : ℤ) (t : TcpSender) :
    (t.write data n).2.crcbufWrite = t.crcbufWrite ++ (messageAt data n).take t.room := by
  rcases t.write_cases data n with ⟨hnone, rfl | hn⟩ | ⟨mem, rfl, -, -, hbuf, -⟩
  · rw [hnone, messageAt, List.take_nil, List.append_nil]
  · have hempty : messageAt data n = [] := by
      cases data with
      | none => rfl
      | some mem => rw [messageAt, Int.toNat_of_nonpos hn]; rfl
    rw [hnone, hempty, List.take_nil, List.append_nil]
  · rw [hbuf, messageAt, bytesAt, bytesAt, ← List.map_take, List.take_range, Nat.min_comm]

theorem putsWhole_iff (c : Config TcpSender TcpSenderOutput) (i : TcpSenderEvent) :
    PutsWhole c i ↔ FitsOrFull c i := by
  refine forall_congr' fun data => forall_congr' fun n => forall_congr' fun hi => ?_
  subst hi
  have hnext : (tcpSender.next c (.write data n)).state.crcbufWrite =
      c.state.crcbufWrite ++ (messageAt data n).take c.state.room :=
    write_crcbufWrite data n c.state
  rw [hnext, List.append_cancel_left_eq, List.append_right_eq_self, List.take_eq_self_iff,
    List.take_eq_nil_iff]
  constructor
  · rintro (h | h | h)
    · exact .inl h
    · exact .inr h
    · exact .inl (by rw [h]; exact Nat.zero_le _)
  · rintro (h | h)
    · exact .inl h
    · exact .inr (.inl h)

/-- What is in the buffer and has been sent grows by whole messages. -/
theorem WholeStream.next {c : Config TcpSender TcpSenderOutput} (h : WholeStream c)
    (hlossless : Lossless c) {i : TcpSenderEvent} (hi : PutsWhole c i) :
    WholeStream (tcpSender.next c i) := by
  obtain ⟨whole, hsub, hstream⟩ := h
  -- a `Write` adds its whole message or nothing; a completion adds no message
  cases i with
  | write data n =>
      have hmessages : messagesIn (tcpSender.next c (.write data n)).hist =
          messagesIn c.hist ++ [messageAt data n] := messagesIn_append _ _
      have hsent : sentIn (tcpSender.next c (.write data n)).hist = sentIn c.hist := by
        rw [next_write, sentIn_append]
        exact List.append_nil _
      rw [WholeStream, hmessages, hsent]
      rcases hi data n rfl with hall | hnone
      · refine ⟨whole ++ [messageAt data n], hsub.append (List.Sublist.refl _), ?_⟩
        rw [hall, ← List.append_assoc, hstream, List.flatten_append, List.flatten_singleton]
      · refine ⟨whole, hsub.trans (List.sublist_append_left _ _), ?_⟩
        rw [hnone, hstream]
  | complete k n =>
      have hstream' := (hlossless.complete k n).stream
      rcases next_complete_cases c k n with hnext | ⟨offer, -, -, hnext⟩
      · rw [hnext]
        exact ⟨whole, hsub, hstream⟩
      · rw [hnext] at hstream' ⊢
        refine ⟨whole, ?_, ?_⟩
        · rw [messagesIn_append, TcpSenderOutput.messages, List.append_nil]
          exact hsub
        · rw [hstream', acceptedIn_append, accepted_transmitted, List.append_nil,
            ← hlossless.stream, hstream]

/-- In a run every call of `Write` puts a whole message into the buffer or nothing,
and so the bytes put into it are whole messages, if and only if every message
fits into the room there is when it is written, or meets a full buffer. -/
theorem putsWhole_iff_fitsOrFull (is : List TcpSenderEvent) :
    (tcpSender.Always WholeStream ⟨TcpSender.start, []⟩ is ∧
        tcpSender.Each PutsWhole ⟨TcpSender.start, []⟩ is) ↔
      tcpSender.Each FitsOrFull ⟨TcpSender.start, []⟩ is := by
  refine Machine.always_and_each_iff (L := fun c => WholeStream c ∧ Lossless c)
    ⟨⟨[], List.Sublist.refl _, rfl⟩, .idle rfl rfl, rfl⟩ (fun c h => h.1) ?_ ?_
  · intro c i h
    rw [putsWhole_iff, and_iff_right_iff_imp]
    exact fun hfits => h.1.next h.2 ((putsWhole_iff c i).mpr hfits)
  · intro c i h hfits
    exact ⟨h.1.next h.2 ((putsWhole_iff c i).mpr hfits), h.2.next i⟩

/-- The line that tells a camera to stop its exposure. -/
def stopLine : Text :=
  (KVMsg.expose { command := some expStop }).toText (fun _ => .int 0) ++ ['\n']

/-- `expose2camera(EXP_STOP)`. -/
def sendStop : TcpSenderEvent := .write (some fun i => stopLine.getD i '\x00') stopLine.length

/-- A camera is told 2143 times to stop and takes nothing off the connection. -/
def stopsUnread : List TcpSenderEvent := List.replicate 2142 sendStop ++ [sendStop]

theorem length_stopLine : stopLine.length = 35 := by decide +kernel

theorem length_stop_message {data : Option (ℕ → Char)} {n : ℤ} (h : sendStop = .write data n) :
    (messageAt data n).length = 35 := by
  obtain ⟨rfl, rfl⟩ := TcpSenderEvent.write.inj h
  rw [messageAt, length_bytesAt, Int.toNat_natCast, length_stopLine]

/-- Lines that fit stand behind each other. -/
theorem room_after_stops (k : ℕ) (h : 35 * k ≤ tcpBufferCapacity) :
    (tcpSender.exec ⟨TcpSender.start, []⟩ (List.replicate k sendStop)).state.room =
      tcpBufferCapacity - 35 * k := by
  induction k with
  | zero => rfl
  | succ k ih =>
      have hprev := ih (by omega)
      have hbuf := write_crcbufWrite (some fun i => stopLine.getD i '\x00') stopLine.length
        (tcpSender.exec ⟨TcpSender.start, []⟩ (List.replicate k sendStop)).state
      rw [List.replicate_succ', Machine.exec_append]
      change (TcpSender.write _ _ _).2.room = _
      rw [TcpSender.room] at hprev ⊢
      rw [hbuf, List.length_append, List.length_take, length_stop_message rfl, TcpSender.room]
      omega

theorem not_putsWhole : ¬ (tcpSender.Always WholeStream ⟨TcpSender.start, []⟩ stopsUnread ∧
    tcpSender.Each PutsWhole ⟨TcpSender.start, []⟩ stopsUnread) := by
  rintro ⟨-, heach⟩
  have hlast := (Machine.each_append.mp heach).2.1
  have hroom := room_after_stops 2142 (by rw [tcpBufferCapacity, tcpPackSize]; omega)
  have hfits := (putsWhole_iff _ _).mp hlast _ _ rfl
  rw [hroom, length_stop_message rfl, tcpBufferCapacity, tcpPackSize] at hfits
  omega

end Gtoaes
