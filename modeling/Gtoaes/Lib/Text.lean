import Mathlib.Data.List.Basic

/-!
Byte texts and the string operations of the C++ library on them.

A text is a list of characters, one for each byte, without the terminating
zero of a C string. Case and white space are those of the classic locale, so
only ASCII letters have a case.
-/

namespace Gtoaes.Lib

abbrev Text := List Char

def upper (t : Text) : Text := t.map Char.toUpper

/-- `boost::iequals`: equal up to letter case. -/
def iequals (a b : Text) : Bool := a.map Char.toUpper == b.map Char.toUpper

@[simp] theorem iequals_refl (a : Text) : iequals a a = true := by simp [iequals]

theorem iequals_iff {a b : Text} :
    iequals a b = true ↔ a.map Char.toUpper = b.map Char.toUpper := by
  simp [iequals]

theorem iequals_iff_upper {a b : Text} : iequals a b = true ↔ upper a = upper b := iequals_iff

theorem iequals_comm (a b : Text) : iequals a b = iequals b a := by
  rw [Bool.eq_iff_iff, iequals_iff, iequals_iff, eq_comm]

theorem iequals_length {a b : Text} (h : iequals a b = true) : a.length = b.length := by
  have hlen := congrArg List.length (iequals_iff.mp h)
  rwa [List.length_map, List.length_map] at hlen

theorem iequals_trans {a b c : Text} (hab : iequals a b = true) (hbc : iequals b c = true) :
    iequals a c = true :=
  iequals_iff.mpr ((iequals_iff.mp hab).trans (iequals_iff.mp hbc))

/-- `std::isspace` in the classic locale. -/
def isSpace (c : Char) : Bool := c == ' ' || (9 ≤ c.toNat && c.toNat ≤ 13)

/-- `boost::trim`: without white space at either end. -/
def trim (t : Text) : Text := ((t.dropWhile isSpace).reverse.dropWhile isSpace).reverse

/-- Runs of separators cut down to their last character. -/
def squeeze (sep : Char → Bool) : Text → Text
  | [] => []
  | [c] => [c]
  | c :: d :: t => if sep c && sep d then squeeze sep (d :: t) else c :: squeeze sep (d :: t)

/-- The pieces between single separators; one piece where there is none. -/
def pieces (sep : Char → Bool) : Text → List Text
  | [] => [[]]
  | c :: t =>
      if sep c then [] :: pieces sep t
      else match pieces sep t with
        | [] => [[c]]
        | p :: ps => (c :: p) :: ps

/-- `boost::split` with `is_any_of` and `token_compress_on`. A separator at
either end still leaves an empty piece there. -/
def split (sep : Char → Bool) (t : Text) : List Text := pieces sep (squeeze sep t)

example : split (· == ',') ",a,,b c,".toList = ["".toList, "a".toList, "b c".toList, "".toList] := by
  decide

end Gtoaes.Lib
