import Gtoaes.Lib.Numeral

/-!
The frame protocol of the GWAC mounts and focusers: the encoders of
`NonKVProtocol.cpp` and the retry buffer that keeps sent frames until they are
acknowledged (`NonKVProtoItem`, `NonKVProtoBuff` of `ObservationSystem.h`).

A frame is kept as what its encoder was called with: ids, command, clock reading
and serial number. `issued` counts the frames encoded so far and `no` is a
frame's place in that count. Both are history variables: the serial number
returns to 1 after 99999, so it does not tell which of two frames is older.
-/

namespace Gtoaes

open Lib

abbrev Time := ℤ

/-- The command of a frame, by encoder. -/
inductive NonKVBody
  | findHome (ra dec : Bool)
  | slew (ra dec : Double)
  | guide (ra dec : ℤ)
  | park
  | abortSlew
  | track
  | trackVelocity (ra dec : Double)
  | fwhm (cid tmobs : Text) (fwhm : Double)
  | focus (cid : Text) (pos : ℤ)
  | focusSync (cid : Text)
  deriving DecidableEq

structure NonKVFrame where
  gid : Text
  uid : Text
  body : NonKVBody
  utc : Time
  serno : ℤ
  no : ℕ
  deriving DecidableEq

/-- The encoder's own state. -/
structure NonKVProtocol where
  gid : Text
  uid : Text
  serno : ℤ := 1
  issued : ℕ := 0
  deriving DecidableEq

namespace NonKVProtocol

/-- `increase_serno`, which hands out the old number. -/
def increaseSerno (p : NonKVProtocol) : NonKVProtocol :=
  { p with serno := if p.serno + 1 = 100000 then 1 else p.serno + 1, issued := p.issued + 1 }

/-- What all encoders do around their own format: print the current serial
number and increase it. -/
def encode (body : NonKVBody) (p : NonKVProtocol) (utc : Time) : NonKVFrame × NonKVProtocol :=
  ({ gid := p.gid, uid := p.uid, body := body, utc := utc, serno := p.serno, no := p.issued },
    p.increaseSerno)

/-- Both axes, the defaults of `FindHome`. -/
def findHome := encode (.findHome true true)

def slew (ra dec : Double) := encode (.slew ra dec)

def guide (ra dec : ℤ) := encode (.guide ra dec)

def park := encode .park

def abortSlew := encode .abortSlew

def track := encode .track

def trackVelocity (ra dec : Double) := encode (.trackVelocity ra dec)

def fwhm (cid tmobs : Text) (fwhm : Double) := encode (.fwhm cid tmobs fwhm)

def focus (cid : Text) (pos : ℤ) := encode (.focus cid pos)

def focusSync (cid : Text) := encode (.focusSync cid)

@[simp] theorem encode_body (body : NonKVBody) (p : NonKVProtocol) (utc : Time) :
    (encode body p utc).1.body = body := rfl

@[simp] theorem encode_no (body : NonKVBody) (p : NonKVProtocol) (utc : Time) :
    (encode body p utc).1.no = p.issued := rfl

@[simp] theorem encode_issued (body : NonKVBody) (p : NonKVProtocol) (utc : Time) :
    (encode body p utc).2.issued = p.issued + 1 := rfl

end NonKVProtocol

/-- The part of a `NonKVResponse` the retry buffer is searched with. -/
structure NonKVResponse where
  sn : ℤ
  deriving DecidableEq

/-- The part of a `NonKVPosition` that is stored. -/
structure NonKVPosition where
  ra : Double
  dec : Double
  deriving DecidableEq

/-- A command waiting for its acknowledgement; `devtype` is 0 for the mount
and 1 for the focuser. -/
structure NonKVProtoItem where
  serno : ℤ
  devtype : ℤ
  retry : ℕ
  cmd : NonKVFrame
  deriving DecidableEq

abbrev NonKVProtoBuff := List NonKVProtoItem

namespace NonKVProtoBuff

def push (b : NonKVProtoBuff) (devtype : ℤ) (cmd : NonKVFrame) : NonKVProtoBuff :=
  b ++ [{ serno := cmd.serno, devtype := devtype, retry := 0, cmd := cmd }]

/-- `Pop(serno)`: the first entry with that number. -/
def pop (b : NonKVProtoBuff) (serno : ℤ) : NonKVProtoBuff := b.eraseP fun it => it.serno == serno

def clear (b : NonKVProtoBuff) (devtype : ℤ) : NonKVProtoBuff :=
  b.filter fun it => it.devtype != devtype

theorem mem_push {b : NonKVProtoBuff} {devtype : ℤ} {cmd : NonKVFrame} {it : NonKVProtoItem} :
    it ∈ b.push devtype cmd ↔ it ∈ b ∨ it = ⟨cmd.serno, devtype, 0, cmd⟩ := by
  simp [push]

theorem pop_of_distinct {l r : NonKVProtoBuff} {it : NonKVProtoItem}
    (h : ∀ x ∈ l ++ r, x.serno ≠ it.serno) :
    pop (l ++ it :: r) it.serno = l ++ r := by
  have hl : ∀ x ∈ l, ¬ (x.serno == it.serno) = true := by
    intro x hx
    simpa using h x (List.mem_append_left r hx)
  rw [pop, List.eraseP_append_right _ hl, List.eraseP_cons_of_pos (by simp)]

end NonKVProtoBuff

end Gtoaes
