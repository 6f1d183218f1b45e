import Gtoaes.Lib.CString
import Gtoaes.Proto.NonKVProtocol

/-!
The text of the frames that the encoders of `NonKVProtocol.cpp` print, and the
shapes in which a mount acknowledges one.
-/

namespace Gtoaes

open Lib

/-- Date and time of day as `posix_time` prints them, `YYYY-MM-DD` and
`hh:mm:ss`. -/
structure Stamp where
  date : Text
  time : Text
  date_length : date.length = 10
  date_chars : ∀ c ∈ date, c.isDigit = true ∨ c = '-'
  time_length : time.length = 8
  time_chars : ∀ c ∈ time, c.isDigit = true ∨ c = ':'

/-- A clock reading. -/
def noon : Stamp where
  date := "2024-03-28".toList
  time := "10:17:56".toList
  date_length := rfl
  date_chars := by
    have hall : "2024-03-28".toList.all (fun c => c.isDigit || c == '-') = true := by decide
    intro c hc
    simpa using List.all_eq_true.mp hall c hc
  time_length := rfl
  time_chars := by
    have hall : "10:17:56".toList.all (fun c => c.isDigit || c == ':') = true := by decide
    intro c hc
    simpa using List.all_eq_true.mp hall c hc

def boolDigit (b : Bool) : Char := if b then '1' else '0'

/-- `int(x * 10000)` -/
def tenThousandths (x : Double) : ℤ := (x.scale 10000).toInt

/-- `int(x * 1000 + 0.5)` -/
def thousandths (x : Double) : ℤ := ((x.scale 1000).sub (.fin (mkRat (-1) 2))).toInt

/-- The part of the formats that tells the encoders apart. -/
def NonKVBody.text : NonKVBody → Text
  | .findHome ra dec => "homera".toList ++ boolDigit ra :: ("dec".toList ++ [boolDigit dec])
  | .slew ra dec =>
      "slew".toList ++ zeroPad 7 (tenThousandths ra) ++ '%' :: signPad 7 (tenThousandths dec)
  | .guide ra dec => "guide".toList ++ signPad 6 ra ++ '%' :: signPad 6 dec
  | .park => "park".toList
  | .abortSlew => "abortslew".toList
  | .track => "track".toList
  | .trackVelocity ra dec =>
      "trackvel".toList ++ signBlank 8 (thousandths ra) ++ '%' :: signBlank 8 (thousandths dec)
  | .fwhm cid tmobs value =>
      "fwhm".toList ++ cid ++ zeroPad 4 (thousandths value) ++ 'T' :: tmobs
  | .focus cid pos => "focus".toList ++ cid ++ signPad 5 pos
  | .focusSync cid => "focus".toList ++ cid ++ "clear".toList

/-- What a format prints in front of the date. -/
def commandText (gid uid : Text) (body : NonKVBody) : Text :=
  "g#".toList ++ gid ++ uid ++ body.text

namespace NonKVFrame

def command (f : NonKVFrame) : Text := commandText f.gid f.uid f.body

/-- What it prints behind that. -/
def trailer (stamp : Time → Stamp) (f : NonKVFrame) : Text :=
  '%' :: (stamp f.utc).date ++ '%' :: (stamp f.utc).time ++ '%' :: zeroPad 5 f.serno ++ "%\n".toList

/-- The frame, as much of it as fits the local buffer. -/
def text (stamp : Time → Stamp) (f : NonKVFrame) : Text :=
  snprintf 100 (f.command ++ f.trailer stamp)

end NonKVFrame

/-- The two ways the documented acknowledgements differ: whether `Rec` is
followed by a separator, and whether the serial number is preceded by two. -/
structure AckShape where
  separated : Bool
  doubled : Bool
  deriving DecidableEq

/-- An acknowledgement up to the serial number. -/
def AckShape.head (shape : AckShape) (command : Text) (st : Stamp) : Text :=
  command ++ "Rec".toList ++ (if shape.separated then ['%'] else []) ++ st.date ++
    '%' :: st.time ++ '%' :: (if shape.doubled then ['%'] else [])

/-- An acknowledgement of the frame: the command as it was received, `Rec`, the
mount's own clock reading and the serial number of the frame. -/
def AckShape.text (shape : AckShape) (f : NonKVFrame) (st : Stamp) : Text :=
  shape.head (snprintf 100 f.command) st ++ zeroPad 5 f.serno ++ ['%']

/-! ### How long a frame gets -/

/-- The characters of a command behind the ids. -/
def NonKVBody.width : NonKVBody → ℕ
  | .findHome _ _ => 11
  | .slew ra dec => 5 + zeroPadWidth 7 (tenThousandths ra) + signWidth 7 (tenThousandths dec)
  | .guide ra dec => 6 + signWidth 6 ra + signWidth 6 dec
  | .park => 4
  | .abortSlew => 9
  | .track => 5
  | .trackVelocity ra dec => 9 + signWidth 8 (thousandths ra) + signWidth 8 (thousandths dec)
  | .fwhm cid tmobs value => 5 + cid.length + zeroPadWidth 4 (thousandths value) + tmobs.length
  | .focus cid pos => 5 + cid.length + signWidth 5 pos
  | .focusSync cid => 10 + cid.length

theorem length_text (body : NonKVBody) : body.text.length = body.width := by
  -- the words have their letters, each number is as wide as it is printed
  cases body with
  | findHome ra dec =>
      have hwords : "homera".toList.length = 6 ∧ "dec".toList.length = 3 := ⟨rfl, rfl⟩
      show ("homera".toList ++ boolDigit ra :: ("dec".toList ++ [boolDigit dec])).length = 11
      rw [List.length_append, List.length_cons, List.length_append, hwords.1, hwords.2,
        List.length_singleton]
  | park => rfl
  | abortSlew => rfl
  | track => rfl
  | slew ra dec =>
      have hword : "slew".toList.length = 4 := rfl
      show ("slew".toList ++ zeroPad 7 (tenThousandths ra) ++
        '%' :: signPad 7 (tenThousandths dec)).length = 5 + _ + _
      rw [List.length_append, List.length_append, List.length_cons, hword, length_zeroPad_eq,
        length_signPad]
      omega
  | guide ra dec =>
      have hword : "guide".toList.length = 5 := rfl
      show ("guide".toList ++ signPad 6 ra ++ '%' :: signPad 6 dec).length = 6 + _ + _
      rw [List.length_append, List.length_append, List.length_cons, hword, length_signPad,
        length_signPad]
      omega
  | trackVelocity ra dec =>
      have hword : "trackvel".toList.length = 8 := rfl
      show ("trackvel".toList ++ signBlank 8 (thousandths ra) ++
        '%' :: signBlank 8 (thousandths dec)).length = 9 + _ + _
      rw [List.length_append, List.length_append, List.length_cons, hword, length_signBlank,
        length_signBlank]
      omega
  | fwhm cid tmobs value =>
      have hword : "fwhm".toList.length = 4 := rfl
      show ("fwhm".toList ++ cid ++ zeroPad 4 (thousandths value) ++ 'T' :: tmobs).length =
        5 + _ + _ + _
      rw [List.length_append, List.length_append, List.length_append, List.length_cons, hword,
        length_zeroPad_eq]
      omega
  | focus cid pos =>
      have hword : "focus".toList.length = 5 := rfl
      show ("focus".toList ++ cid ++ signPad 5 pos).length = 5 + _ + _
      rw [List.length_append, List.length_append, hword, length_signPad]
  | focusSync cid =>
      have hwords : "focus".toList.length = 5 ∧ "clear".toList.length = 5 := ⟨rfl, rfl⟩
      show ("focus".toList ++ cid ++ "clear".toList).length = 10 + _
      rw [List.length_append, List.length_append, hwords.1, hwords.2]
      omega

/-- Serial numbers have five digits. -/
theorem length_serial {serno : ℤ} (h : 1 ≤ serno ∧ serno ≤ 99999) :
    (zeroPad 5 serno).length = 5 := length_zeroPad (by omega) (by omega) (by decide)

namespace NonKVFrame

variable {f : NonKVFrame}

theorem length_command (f : NonKVFrame) :
    f.command.length = 2 + f.gid.length + f.uid.length + f.body.width := by
  have hword : "g#".toList.length = 2 := rfl
  rw [command, commandText, List.length_append, List.length_append, List.length_append, hword,
    length_text]

theorem length_trailer (stamp : Time → Stamp) (h : 1 ≤ f.serno ∧ f.serno ≤ 99999) :
    (f.trailer stamp).length = 28 := by
  have hword : "%\n".toList.length = 2 := rfl
  simp only [trailer, List.length_append, List.length_cons, hword, length_serial h,
    (stamp f.utc).date_length, (stamp f.utc).time_length]

/-- A frame is printed as a whole if and only if ids and command leave room for the rest. -/
theorem text_eq_iff (stamp : Time → Stamp) (h : 1 ≤ f.serno ∧ f.serno ≤ 99999) :
    f.text stamp = f.command ++ f.trailer stamp ↔
      f.gid.length + f.uid.length + f.body.width ≤ 69 := by
  have hlength : (f.command ++ f.trailer stamp).length =
      30 + (f.gid.length + f.uid.length + f.body.width) := by
    rw [List.length_append, length_command, length_trailer stamp h]
    omega
  rw [text, snprintf, List.take_eq_self_iff, hlength]
  omega

end NonKVFrame

end Gtoaes
