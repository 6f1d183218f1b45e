import Gtoaes.Lib.Split

/-!
The receiving side of `TcpClient` (`AsioTCP.cpp`): the bytes received and not
yet read, and the two functions that look for a flag in them and take them out.
-/

namespace Gtoaes

open Lib

structure TcpClient where
  crcbufRead : Text := []
  sockOpen : Bool := true
  deriving DecidableEq

def tcpPackSize : ℕ := 1500

namespace TcpClient

/-- The loop of `Lookup` over positions, on what of the buffer is left. -/
def lookupFrom (flag : Text) (pos : ℕ) : Text → Option ℕ
  | [] => none
  | c :: t => if flag.isPrefixOf (c :: t) then some pos else lookupFrom flag (pos + 1) t

/-- `Lookup(flag, n, from)`, which returns -1 where the flag is not found. -/
def lookup (flag : Text) (start : ℕ) (t : TcpClient) : Option ℕ :=
  if flag = [] then none else lookupFrom flag start (t.crcbufRead.drop start)

/-- `Read(data, n, from)`: the bytes, and the buffer without them and all that
stood before them. -/
def read (n start : ℕ) (t : TcpClient) : Text × TcpClient :=
  let toRead := if t.crcbufRead.length > start + n then n else t.crcbufRead.length - start
  if n = 0 ∨ toRead = 0 then ([], t)
  else ((t.crcbufRead.drop start).take toRead,
    { t with crcbufRead := t.crcbufRead.drop (start + toRead) })

def close (t : TcpClient) : TcpClient := { t with sockOpen := false }

@[simp] theorem close_crcbufRead (t : TcpClient) : t.close.crcbufRead = t.crcbufRead := rfl

@[simp] theorem close_sockOpen (t : TcpClient) : t.close.sockOpen = false := rfl

end TcpClient

/-- The lines of a buffer that have been received to their end. -/
def lines (buf : Text) : List Text := (pieces (· == '\n') buf).dropLast

namespace TcpClient

/-- What a hit of `Lookup` for a newline says about the bytes looked at. -/
theorem lookupFrom_newline {start : ℕ} {t : Text} {pos : ℕ}
    (h : lookupFrom ['\n'] start t = some pos) :
    ∃ pre rest, t = pre ++ '\n' :: rest ∧ '\n' ∉ pre ∧ pos = start + pre.length := by
  induction t generalizing start with
  | nil => cases h
  | cons c t ih =>
      rw [lookupFrom] at h
      split at h
      · rename_i hflag
        obtain rfl : '\n' = c := by simpa [List.isPrefixOf] using hflag
        obtain rfl := Option.some.inj h
        exact ⟨[], t, rfl, by simp, rfl⟩
      · rename_i hflag
        have hne : '\n' ≠ c := by simpa [List.isPrefixOf] using hflag
        obtain ⟨pre, rest, rfl, hpre, rfl⟩ := ih h
        refine ⟨c :: pre, rest, rfl, by simp [hne, hpre], ?_⟩
        simp only [List.length_cons]
        omega

theorem lookupFrom_eq_none {start : ℕ} {t : Text} (h : lookupFrom ['\n'] start t = none) :
    '\n' ∉ t := by
  induction t generalizing start with
  | nil => simp
  | cons c t ih =>
      rw [lookupFrom] at h
      split at h
      · cases h
      · rename_i hflag
        have hne : '\n' ≠ c := by simpa [List.isPrefixOf] using hflag
        simp [hne, ih h]

/-- A miss: no line has been received to its end. -/
theorem lines_of_lookup_none {t : TcpClient} (h : t.lookup ['\n'] 0 = none) :
    lines t.crcbufRead = [] := by
  have hno : '\n' ∉ t.crcbufRead := lookupFrom_eq_none (by simpa [lookup] using h)
  rw [lines, pieces_of_free]
  · rfl
  · intro c hc
    simpa using fun heq : c = '\n' => hno (heq ▸ hc)

/-- `Read` of as many bytes as a prefix has takes that prefix. -/
theorem read_prefix {t : TcpClient} {pre rest : Text} (hpre : pre ≠ [])
    (h : t.crcbufRead = pre ++ rest) :
    t.read pre.length 0 = (pre, { t with crcbufRead := rest }) := by
  have hpos : 0 < pre.length := List.length_pos_of_ne_nil hpre
  have htoRead : (if t.crcbufRead.length > 0 + pre.length then pre.length
      else t.crcbufRead.length - 0) = pre.length := by
    rw [h, List.length_append]
    split <;> omega
  rw [read, htoRead, if_neg (by omega), h]
  simp

/-- A hit: the first line, and what `Read` makes of it. -/
theorem lines_of_lookup {t : TcpClient} {pos : ℕ} (h : t.lookup ['\n'] 0 = some pos) :
    ∃ line rest, line.length = pos ∧ t.crcbufRead = line ++ '\n' :: rest ∧
      lines t.crcbufRead = line :: lines rest ∧
      t.read (pos + 1) 0 = (line ++ ['\n'], { t with crcbufRead := rest }) := by
  obtain ⟨line, rest, hbuf, hline, hpos⟩ := lookupFrom_newline (by simpa [lookup] using h)
  have hlen : line.length = pos := by omega
  refine ⟨line, rest, hlen, hbuf, ?_, ?_⟩
  · rw [lines, hbuf, pieces_append_cons _ (by simp)]
    · exact List.dropLast_cons_of_ne_nil (pieces_ne_nil _)
    · intro c hc
      simpa using fun heq : c = '\n' => hline (heq ▸ hc)
  · have hsplit : t.crcbufRead = (line ++ ['\n']) ++ rest := by rw [hbuf]; simp
    have hfirst : pos + 1 = (line ++ ['\n']).length := by simp [hlen]
    rw [hfirst]
    exact read_prefix (by simp) hsplit

end TcpClient

end Gtoaes
