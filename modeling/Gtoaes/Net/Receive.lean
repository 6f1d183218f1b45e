import Gtoaes.Lib.Loop
import Gtoaes.Net.TcpClient
import Gtoaes.Obss.Step
import Gtoaes.Proto.NumericFields

/-!
The two copies of `on_tcp_receive`.

Both take newline-terminated lines out of a connection's buffer until there is
none left, and both close the connection on a line that is too long for their
own buffer, leaving it where it is. The copy in `GeneralControl` looks at the
connection before it looks into the buffer again; the one in
`ObservationSystem` does not, and finds the same line for ever.
-/

namespace Gtoaes

open Lib Lib.Loop

/-- What dealing with one line comes to: the process may die of it, and the
connection may be closed on account of it. -/
inductive Dealt (σ : Type)
  | kept (s : σ)
  | closed (s : σ)
  | died

/-- The connection a loop reads from, and what its lines move. -/
structure Receiving (σ : Type) where
  tcp : TcpClient
  rest : σ

/-- A character array as the C functions read it. -/
def cString (t : Text) : Text := t.takeWhile (· != '\x00')

section

variable {σ : Type}

/-- One iteration of either loop; the result `none` is the death of the
process. -/
def receiveLine (guarded : Bool) (deal : ℕ → Text → σ → Dealt σ) (k : ℕ) (x : Receiving σ) :
    Receiving σ ⊕ Option (Receiving σ) :=
  if guarded && !x.tcp.sockOpen then .inr (some x)
  else
    match x.tcp.lookup ['\n'] 0 with
    | none => .inr (some x)
    | some pos =>
        if pos + 1 > tcpPackSize then .inl { x with tcp := x.tcp.close }
        else
          let (buff, tcp) := x.tcp.read (pos + 1) 0
          match deal k (cString (buff.take pos)) x.rest with
          | .kept s => .inl { tcp := tcp, rest := s }
          | .closed s => .inl { tcp := tcp.close, rest := s }
          | .died => .inr none

/-- The loop of `GeneralControl::on_tcp_receive`, whatever is done with a
line. -/
def GeneralControl.receiveLine (deal : ℕ → Text → σ → Dealt σ) := Gtoaes.receiveLine true deal

/-- The bytes still to be read. -/
def Receiving.left (x : Receiving σ) : ℕ := x.tcp.crcbufRead.length

/-- The cases of an iteration that finds a line. -/
theorem receiveLine_cases (guarded : Bool) (deal : ℕ → Text → σ → Dealt σ) (k : ℕ)
    {x : Receiving σ} (hopen : (guarded && !x.tcp.sockOpen) = false) {line : Text}
    {ls : List Text} (hlines : lines x.tcp.crcbufRead = line :: ls) :
    (tcpPackSize < line.length + 1 ∧
      receiveLine guarded deal k x = .inl { x with tcp := x.tcp.close }) ∨
    (line.length + 1 ≤ tcpPackSize ∧ ∃ rest, lines rest = ls ∧
      rest.length < x.tcp.crcbufRead.length ∧
      receiveLine guarded deal k x =
        match deal k (cString line) x.rest with
        | .kept s => .inl { tcp := { x.tcp with crcbufRead := rest }, rest := s }
        | .closed s =>
            .inl { tcp := TcpClient.close { x.tcp with crcbufRead := rest }, rest := s }
        | .died => .inr none) := by
  cases hpos : x.tcp.lookup ['\n'] 0 with
  | none =>
      rw [TcpClient.lines_of_lookup_none hpos] at hlines
      cases hlines
  | some pos =>
      obtain ⟨line', rest, hlen, hbuf, hls, hread⟩ := TcpClient.lines_of_lookup hpos
      obtain ⟨rfl, rfl⟩ := List.cons.inj (hls.symm.trans hlines)
      by_cases hlong : pos + 1 > tcpPackSize
      · left
        refine ⟨by omega, ?_⟩
        simp only [receiveLine, hopen, Bool.false_eq_true, if_false, hpos, if_pos hlong]
      · right
        refine ⟨by omega, rest, rfl, ?_, ?_⟩
        · rw [hbuf, List.length_append, List.length_cons]
          exact Nat.lt_of_lt_of_le (Nat.lt_succ_self _) (Nat.le_add_left _ _)
        · have htake : (line' ++ ['\n']).take pos = line' := by rw [← hlen, List.take_left]
          simp only [receiveLine, hopen, Bool.false_eq_true, if_false, hpos, if_neg hlong, hread,
            htake]

theorem receiveLine_of_no_lines {guarded : Bool} {deal : ℕ → Text → σ → Dealt σ} {k : ℕ}
    {x : Receiving σ} (h : lines x.tcp.crcbufRead = []) :
    receiveLine guarded deal k x = .inr (some x) := by
  have hnone : x.tcp.lookup ['\n'] 0 = none := by
    cases hpos : x.tcp.lookup ['\n'] 0 with
    | none => rfl
    | some pos =>
        obtain ⟨line, rest, -, -, hls, -⟩ := TcpClient.lines_of_lookup hpos
        rw [h] at hls
        cases hls
  simp [receiveLine, hnone]

/-! ### The guarded copy -/

/-- The bytes left, and one more while the connection is open. -/
def Receiving.leftOpen (x : Receiving σ) : ℕ := x.left + if x.tcp.sockOpen then 1 else 0

/-- The guarded loop terminates on every buffer, whatever its lines do: each
iteration takes a line out or closes the connection, after which the next one
leaves. -/
theorem GeneralControl.terminates_receiveLine (deal : ℕ → Text → σ → Dealt σ) (k : ℕ)
    (x : Receiving σ) : Terminates (GeneralControl.receiveLine deal) k x := by
  refine (progresses_of_lowers (μ := Receiving.leftOpen) ?_ k x).terminates
  intro k x y hy
  rw [GeneralControl.receiveLine] at hy
  cases hopen : x.tcp.sockOpen with
  | false => simp [Gtoaes.receiveLine, hopen] at hy
  | true =>
      cases hlines : lines x.tcp.crcbufRead with
      | nil => rw [receiveLine_of_no_lines hlines] at hy; cases hy
      | cons line ls =>
          have hguard : (true && !x.tcp.sockOpen) = false := by rw [hopen]; rfl
          rcases receiveLine_cases true deal k hguard hlines with
            ⟨-, hlong⟩ | ⟨-, rest, -, hrest, hshort⟩
          · rw [hlong] at hy
            obtain rfl := Sum.inl.inj hy
            simp [Receiving.leftOpen, Receiving.left, hopen]
          · rw [hshort] at hy
            split at hy
            · obtain rfl := Sum.inl.inj hy
              simpa [Receiving.leftOpen, Receiving.left, hopen] using hrest
            · obtain rfl := Sum.inl.inj hy
              simp only [Receiving.leftOpen, Receiving.left, hopen, TcpClient.close_crcbufRead,
                TcpClient.close_sockOpen, Bool.false_eq_true, if_false, if_true]
              omega
            · cases hy

/-! ### The copy without the guard -/

/-- Every line that is reached fits the loop's buffer with its newline: the
first one that does not live ends the reading. -/
def linesFit (lives : Text → Prop) : List Text → Prop
  | [] => True
  | l :: ls => l.length + 1 ≤ tcpPackSize ∧ (lives (cString l) → linesFit lives ls)

section

variable {deal : ℕ → Text → σ → Dealt σ} {lives : Text → Prop} {k : ℕ} {x : Receiving σ}

theorem progresses_of_linesFit (hdeal : ∀ k l s, deal k l s = .died ↔ ¬ lives l)
    (h : linesFit lives (lines x.tcp.crcbufRead)) :
    Progresses Receiving.left (receiveLine false deal) k x := by
  induction hls : lines x.tcp.crcbufRead generalizing k x with
  | nil => exact progresses_of_leaves (receiveLine_of_no_lines hls)
  | cons line ls ih =>
      rw [hls] at h
      obtain ⟨hfit, hrest⟩ := h
      rcases receiveLine_cases false deal k rfl hls with
        ⟨hlong, -⟩ | ⟨-, rest, hlines, hlt, hstep⟩
      · omega
      · cases hd : deal k (cString line) x.rest with
        | died =>
            rw [hd] at hstep
            exact progresses_of_leaves hstep
        | kept s =>
            have hlives : lives (cString line) := by
              by_contra hdies
              rw [(hdeal _ _ _).mpr hdies] at hd
              cases hd
            rw [hd] at hstep
            exact (progresses_iff_of_goes_on hstep).mpr ⟨hlt, ih (hlines ▸ hrest hlives) hlines⟩
        | closed s =>
            have hlives : lives (cString line) := by
              by_contra hdies
              rw [(hdeal _ _ _).mpr hdies] at hd
              cases hd
            rw [hd] at hstep
            exact (progresses_iff_of_goes_on hstep).mpr ⟨hlt, ih (hlines ▸ hrest hlives) hlines⟩

/-- A line that is too long is found again in the next iteration. -/
theorem not_terminates_of_long {line : Text} {ls : List Text}
    (hlines : lines x.tcp.crcbufRead = line :: ls) (hlong : tcpPackSize < line.length + 1) :
    ¬ Terminates (receiveLine false deal) k x := by
  refine not_terminates_of_trap (S := fun y => lines y.tcp.crcbufRead = line :: ls) ?_ hlines
  intro k y hy
  rcases receiveLine_cases false deal k rfl hy with ⟨-, hstep⟩ | ⟨hfit, -⟩
  · exact ⟨_, hstep, hy⟩
  · omega

theorem linesFit_of_terminates (hdeal : ∀ k l s, deal k l s = .died ↔ ¬ lives l)
    (h : Terminates (receiveLine false deal) k x) :
    linesFit lives (lines x.tcp.crcbufRead) := by
  induction hls : lines x.tcp.crcbufRead generalizing k x with
  | nil => trivial
  | cons line ls ih =>
      rcases receiveLine_cases false deal k rfl hls with
        ⟨hlong, -⟩ | ⟨hfit, rest, hlines, -, hstep⟩
      · exact absurd h (not_terminates_of_long hls hlong)
      · refine ⟨hfit, fun hlives => ?_⟩
        cases hd : deal k (cString line) x.rest with
        | died => exact absurd hlives ((hdeal _ _ _).mp hd)
        | kept s =>
            rw [hd] at hstep
            exact ih ((terminates_iff_of_goes_on hstep).mp h) hlines
        | closed s =>
            rw [hd] at hstep
            exact ih ((terminates_iff_of_goes_on hstep).mp h) hlines

end

end

namespace Obss

/-- What becomes of one line of a camera. -/
def dealCamera (ctx : ℕ → Ctx) (conn : Conn) (k : ℕ) (buff : Text) (x : Obss × List Act) :
    Dealt (Obss × List Act) :=
  match resolve buff with
  | .error _ => .died
  | .ok none => .closed x
  | .ok (some proto) =>
      let r := processProtocolCamera (ctx k) conn proto x.1
      .kept (r.1, x.2 ++ r.2)

/-- The loop of `ObservationSystem::on_tcp_receive`. -/
def receiveLine (ctx : ℕ → Ctx) (conn : Conn) := Gtoaes.receiveLine false (dealCamera ctx conn)

/-- The process dies of a line exactly when one of its numeric fields does not
read. -/
theorem dealCamera_died_iff (ctx : ℕ → Ctx) (conn : Conn) (k : ℕ) (buff : Text)
    (x : Obss × List Act) : dealCamera ctx conn k buff x = .died ↔ ¬ NumericFieldsRead buff := by
  rw [← returns_resolve, dealCamera]
  cases resolve buff with
  | error e => simp
  | ok proto => cases proto <;> simp

/-- The loop terminates, and until it leaves each of its iterations takes at
least one byte out of the buffer. -/
def ReceiveEnds (ctx : ℕ → Ctx) (conn : Conn) (x : Receiving (Obss × List Act)) : Prop :=
  Terminates (receiveLine ctx conn) 0 x ∧ Progresses Receiving.left (receiveLine ctx conn) 0 x

/-- The loop behaves on exactly the buffers whose lines all fit, up to a line
the process dies of. -/
theorem receiveEnds_iff_linesFit (ctx : ℕ → Ctx) (conn : Conn)
    (x : Receiving (Obss × List Act)) :
    ReceiveEnds ctx conn x ↔ linesFit NumericFieldsRead (lines x.tcp.crcbufRead) := by
  have hdeal := dealCamera_died_iff ctx conn
  constructor
  · intro h
    exact linesFit_of_terminates hdeal h.1
  · intro h
    have hprogress := progresses_of_linesFit (k := 0) hdeal h
    exact ⟨hprogress.terminates, hprogress⟩

/-- One line of 1501 bytes, its newline included. -/
def longLine : Text := List.replicate tcpPackSize 'a' ++ ['\n']

theorem lines_longLine : lines longLine = [List.replicate tcpPackSize 'a'] := by
  rw [lines, longLine, pieces_append_cons _ (by simp)]
  · rfl
  · intro c hc
    obtain rfl := List.eq_of_mem_replicate hc
    decide

/-- A camera connection that has received that line. -/
def flooded : Receiving (Obss × List Act) where
  tcp := { crcbufRead := longLine }
  rest := (create [] [] .gwac 0, [])

theorem not_receiveEnds : ¬ ∀ (ctx : ℕ → Ctx) (conn : Conn) (x : Receiving (Obss × List Act)),
    ReceiveEnds ctx conn x := by
  intro h
  have hlines : lines flooded.tcp.crcbufRead = [List.replicate tcpPackSize 'a'] := lines_longLine
  have hlong : tcpPackSize < (List.replicate tcpPackSize 'a').length + 1 := by
    rw [List.length_replicate]
    exact Nat.lt_succ_self _
  have hctx := h (fun _ => Solo.ctx .blank { obss := create [] [] .gwac 0 }
    (Event.plain .obsplanTick)) 2 flooded
  exact not_terminates_of_long hlines hlong hctx.1

end Obss

end Gtoaes
