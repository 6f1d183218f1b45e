import Gtoaes.Lib.CString
import Gtoaes.Proto.NonKVProtocol

/-!
`NonKVProtocol::Resolve`: from a line of a GWAC mount or focuser to a message.

The line is read by position: `i` is the loop variable that the branches hand
on to the common part, which reads date, time and serial number from there.
-/

namespace Gtoaes

open Lib

/-- What can go wrong while a line is taken apart: `string_ref::at` throws, or
a field is written past the end of its array. -/
inductive NonKVFault
  | outOfRange
  | overrun
  deriving DecidableEq

inductive NonKVKind
  | response
  | status (state : List ℤ)
  | position (body : NonKVPosition)
  | focus (pos : List ℤ)
  deriving DecidableEq

structure NonKVMsg where
  gid : Text
  uid : Text
  utc : Text
  sn : ℤ
  kind : NonKVKind
  deriving DecidableEq

/-- What a branch has found, and where it stopped. -/
structure NonKVHead where
  gid : Text
  uid : Text
  kind : NonKVKind
  i : ℕ
  deriving DecidableEq

namespace NonKVProtocol

def sep : Char := '%'

/-- `resolve_focus`: the place of a focus label. -/
def resolveFocus (id : Text) : ℤ :=
  if iequals id "es".toList then 0
  else if iequals id "ws".toList then 1
  else if iequals id "wn".toList then 2
  else if iequals id "en".toList then 3
  else if iequals id "mid".toList then 4
  else -1

/-- The loop over `at(i)`, a fixed number of times. -/
def slice (s : Text) (i k : ℕ) : Except NonKVFault Text :=
  if i + k ≤ s.length then .ok ((s.drop i).take k) else .error .outOfRange

/-- The loop up to the next separator, or to `n`. -/
def field (s : Text) (n i : ℕ) : Text := ((s.take n).drop i).takeWhile (· != sep)

/-- The same into an array of 20, with the terminating zero. -/
def buffered (s : Text) (n i : ℕ) : Except NonKVFault Text :=
  if (field s n i).length < 20 then .ok (field s n i) else .error .overrun

/-- `sref.at(i) - '0'` as an `int8_t`. -/
def stateOf (c : Char) : ℤ := (c.toNat - '0'.toNat : ℤ).bmod 256

def intMax : ℤ := 2 ^ 31 - 1

/-- The positions of a `NonKVFocus` before any is read. -/
def noFocus : List ℤ := List.replicate 10 intMax

/-- A label and a number, both read to their end. -/
def FocusPair (lab num : Text) : Prop := lab ≠ [] ∧ num ≠ []

instance (lab num : Text) : Decidable (FocusPair lab num) := inferInstanceAs (Decidable (_ ∧ _))

/-- Storing a pair; both arrays are closed with a zero first. -/
def storeFocus (lab num : Text) (pos : List ℤ) : Except NonKVFault (ℤ × List ℤ) :=
  if lab.length < 20 ∧ num.length < 20 then
    let index := resolveFocus lab
    if index < 0 then .ok (index, pos)
    else if index < pos.length then .ok (index, pos.set index.toNat (atoi num))
    else .error .overrun
  else .error .overrun

/-- The loop over the labels and numbers of a focus line: the last label's
place, the positions, and where the loop ended. -/
def focusLoop : Text → ℕ → Text → Text → ℤ → List ℤ → Except NonKVFault (ℤ × List ℤ × ℕ)
  | [], i, _, _, index, pos => .ok (index, pos, i)
  | ch :: t, i, lab, num, index, pos =>
      -- the separator closes the last pair and ends the loop
      if ch = sep then
        if FocusPair lab num then do
          let (index, pos) ← storeFocus lab num pos
          .ok (index, pos, i)
        else .ok (index, pos, i)
      else if ch.isAlpha then
        if FocusPair lab num then do
          let (index, pos) ← storeFocus lab num pos
          -- a label that is unknown ends it too
          if index < 0 then .ok (index, pos, i) else focusLoop t (i + 1) [ch] [] index pos
        else if lab.length < 20 then focusLoop t (i + 1) (lab ++ [ch]) num index pos
        else .error .overrun
      else if num.length < 20 then focusLoop t (i + 1) lab (num ++ [ch]) index pos
      else .error .overrun

/-- `g#001001trackRec%YYYY-MM-DD%hh:mm:ss%xxxxxx%`, the separator behind `Rec`
being optional. -/
def resolveRec (s : Text) (pos : ℕ) : Except NonKVFault (Option NonKVHead) := do
  let gid ← slice s 2 3
  let uid ← slice s 5 3
  match s[pos + 3]? with
  | none => .error .outOfRange
  | some c => .ok (some ⟨gid, uid, .response, if c ≠ sep then pos + 2 else pos + 3⟩)

def resolveState (s : Text) (n pos : ℕ) : Except NonKVFault (Option NonKVHead) :=
  let state := field s n (pos + 6)
  if state.length ≤ 20 then
    .ok (some ⟨(s.take pos).drop 2, [], .status (state.map stateOf), pos + 6 + state.length⟩)
  else .error .overrun

/-- Group and unit in front of a keyword; the unit is the three characters
before it. -/
def idsBefore (s : Text) (pos : ℕ) : Text × Text :=
  ((s.take (pos - 3)).drop 2, (s.take pos).drop (max 2 (pos - 3)))

def resolvePos (s : Text) (n pos : ℕ) : Except NonKVFault (Option NonKVHead) := do
  let (gid, uid) := idsBefore s pos
  let ra ← buffered s n (pos + 10)
  let i := pos + 10 + ra.length + 1
  let dec ← buffered s n i
  if ra ≠ [] ∧ dec ≠ [] then
    .ok (some ⟨gid, uid,
      .position ⟨(Double.ofInt (atoi ra)).scale (1 / 10000),
        (Double.ofInt (atoi dec)).scale (1 / 10000)⟩, i + dec.length⟩)
  else .ok none

def resolveFocusLine (s : Text) (n pos : ℕ) : Except NonKVFault (Option NonKVHead) := do
  let (gid, uid) := idsBefore s pos
  let (index, positions, i) ← focusLoop ((s.take n).drop (pos + 5)) (pos + 5) [] [] (-1) noFocus
  if 0 ≤ index then .ok (some ⟨gid, uid, .focus positions, i⟩) else .ok none

/-- `(pos = sref.find(..)) > 0` -/
def findWord (word : String) (s : Text) : Option ℕ :=
  (find word.toList s).bind fun pos => if 0 < pos then some pos else none

/-- The branches by keyword. -/
def resolveHead (s : Text) : Except NonKVFault (Option NonKVHead) :=
  let n := s.length - 1
  if ¬ ("g#".toList <+: s ∧ "%".toList <:+ s) then .ok none
  else match findWord "Rec" s with
  | some pos => resolveRec s pos
  | none =>
      -- a line with `finished` is told apart, and nothing is read from it
      match findWord "finished" s with
      | some _ => .ok none
      | none =>
          match findWord "status" s with
          | some pos => resolveState s n pos
          | none =>
              match findWord "currentpos" s with
              | some pos => resolvePos s n pos
              | none =>
                  match findWord "focus" s with
                  | some pos => resolveFocusLine s n pos
                  | none => .ok none

/-- Date, time and serial number from where the branch stopped. -/
def resolveTail (s : Text) (h : NonKVHead) : Except NonKVFault (Option NonKVMsg) :=
  let n := s.length - 1
  if h.gid.length ≠ 3 ∨ (h.uid ≠ [] ∧ h.uid.length ≠ 3) then .ok none
  else
    -- `i` is at the separator in front of the date
    let date := field s n (h.i + 1)
    let i := h.i + 1 + date.length + 1
    let time := field s n i
    match buffered s n (i + time.length + 1) with
    | .error e => .error e
    | .ok sn =>
        if sn = [] then .ok none
        else .ok (some ⟨h.gid, h.uid, date ++ 'T' :: time, atoi sn, h.kind⟩)

/-- `NonKVProtocol::Resolve`. -/
def resolve (s : Text) : Except NonKVFault (Option NonKVMsg) :=
  match resolveHead s with
  | .error e => .error e
  | .ok none => .ok none
  | .ok (some h) => resolveTail s h

end NonKVProtocol

end Gtoaes
