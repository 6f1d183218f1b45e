import Mathlib.Data.List.Induction
import Gtoaes.Lib.Spelling
import Gtoaes.Proto.NonKVArrays

/-!
The frames that GWAC mounts and focusers report with, as texts: the state of a group
of mounts, the position of a mount, and the positions of the focusers of a unit.
Each is read back to what it was written from.
-/

namespace Gtoaes

open Lib

namespace NonKVProtocol

/-! ### The parts of a frame -/

/-- An id of a group or a unit. -/
structure Ident where
  text : Text
  length : text.length = 3
  digits : ∀ c ∈ text, c.isDigit = true

/-- A date, or a time of day. -/
structure ClockText where
  text : Text
  chars : ∀ c ∈ text, c.isDigit = true ∨ c = '-' ∨ c = ':'

/-- The sign a numeral may have. -/
inductive Sign
  | none
  | plus
  | minus
  deriving DecidableEq

def Sign.text : Sign → Text
  | none => []
  | plus => ['+']
  | minus => ['-']

/-- A decimal numeral of an `int`, short enough for the arrays it is read into. -/
structure IntNumeral where
  sign : Sign
  digits : Text
  nonempty : digits ≠ []
  decimal : ∀ c ∈ digits, c.isDigit = true
  short : (sign.text ++ digits).length ≤ 19
  fits : -2 ^ 31 ≤ signed (sign = .minus) (Nat.ofDigitChars 10 digits 0 : ℤ) ∧
    signed (sign = .minus) (Nat.ofDigitChars 10 digits 0 : ℤ) < 2 ^ 31

namespace IntNumeral

def text (n : IntNumeral) : Text := n.sign.text ++ n.digits

def value (n : IntNumeral) : ℤ := signed (n.sign = .minus) (Nat.ofDigitChars 10 n.digits 0 : ℤ)

end IntNumeral

/-- Date, time and serial number, which end every frame. -/
structure FrameTail where
  date : ClockText
  time : ClockText
  sn : IntNumeral

namespace FrameTail

/-- Behind the separator that precedes it, without the last one. -/
def fields (tail : FrameTail) : Text :=
  tail.date.text ++ '%' :: (tail.time.text ++ '%' :: tail.sn.text)

def text (tail : FrameTail) : Text := '%' :: tail.fields ++ ['%']

def utc (tail : FrameTail) : Text := tail.date.text ++ 'T' :: tail.time.text

end FrameTail

/-- `g#` gid `status` states -/
def statusFrame (gid : Ident) (states : Text) (tail : FrameTail) : Text :=
  "g#".toList ++ gid.text ++ "status".toList ++ states ++ tail.text

/-- `g#` gid uid `currentpos` ra `%` dec -/
def positionFrame (gid uid : Ident) (ra dec : IntNumeral) (tail : FrameTail) : Text :=
  "g#".toList ++ gid.text ++ uid.text ++ "currentpos".toList ++ ra.text ++
    '%' :: dec.text ++ tail.text

/-- The cameras of a unit by the edge of the field they stand at. -/
inductive FocusLabel
  | es
  | ws
  | wn
  | en
  | mid
  deriving DecidableEq

namespace FocusLabel

def text : FocusLabel → Text
  | es => "es".toList
  | ws => "ws".toList
  | wn => "wn".toList
  | en => "en".toList
  | mid => "mid".toList

/-- Where the position of the camera is kept. -/
def index : FocusLabel → ℕ
  | es => 0
  | ws => 1
  | wn => 2
  | en => 3
  | mid => 4

end FocusLabel

/-- A label in any letter case, with a position. -/
structure FocusEntry where
  label : FocusLabel
  spelling : Text
  spelled : iequals spelling label.text = true
  pos : IntNumeral

namespace FocusEntry

def text (e : FocusEntry) : Text := e.spelling ++ e.pos.text

end FocusEntry

/-- `g#` gid uid `focus` entries -/
def focusFrame (gid uid : Ident) (entries : List FocusEntry) (tail : FrameTail) : Text :=
  "g#".toList ++ gid.text ++ uid.text ++ "focus".toList ++ entries.flatMap FocusEntry.text ++
    tail.text

/-- The last position given for a place. -/
def lastGiven (entries : List FocusEntry) (i : ℕ) : ℤ :=
  ((entries.filter fun e => e.label.index = i).getLast?.map fun e => e.pos.value).getD intMax

/-! ### Characters of a frame -/

/-- What stands between keywords, labels and separators. -/
def isPlain (c : Char) : Bool := c.isDigit || c == '-' || c == '+' || c == ':'

theorem not_mem_of_isPlain {t : Text} (h : ∀ c ∈ t, isPlain c = true) {c : Char}
    (hc : isPlain c = false) : c ∉ t :=
  fun hmem => Bool.false_ne_true (hc.symm.trans (h c hmem))

theorem not_isAlpha_of_isPlain {c : Char} (h : isPlain c = true) : c.isAlpha = false := by
  simp only [isPlain, Bool.or_eq_true, beq_iff_eq] at h
  obtain ((hdigit | rfl) | rfl) | rfl := h
  · have hrange : 48 ≤ c.toNat ∧ c.toNat ≤ 57 := Char.isDigit_iff_toNat.mp hdigit
    rw [← Bool.not_eq_true, isAlpha_iff_toNat]
    omega
  · rfl
  · rfl
  · rfl

theorem ClockText.isPlain_of_mem (t : ClockText) {c : Char} (hc : c ∈ t.text) :
    isPlain c = true := by
  obtain h | rfl | rfl := t.chars c hc
  · simp [isPlain, h]
  · rfl
  · rfl

namespace IntNumeral

variable (n : IntNumeral)

theorem isPlain_of_mem {c : Char} (hc : c ∈ n.text) : isPlain c = true := by
  obtain hc | hc := List.mem_append.mp hc
  · cases hsign : n.sign <;> rw [hsign] at hc
    · cases hc
    · obtain rfl := List.mem_singleton.mp hc
      rfl
    · obtain rfl := List.mem_singleton.mp hc
      rfl
  · simp [isPlain, n.decimal c hc]

theorem text_ne_nil : n.text ≠ [] := fun h => n.nonempty (List.append_eq_nil_iff.mp h).2

theorem sign_text :
    Lib.sign (n.text.dropWhile isSpace) = (decide (n.sign = .minus), n.digits) := by
  obtain ⟨c, ds, hds⟩ := List.exists_cons_of_ne_nil n.nonempty
  have hdigit : c.isDigit = true := n.decimal c (hds ▸ List.mem_cons_self)
  rw [IntNumeral.text]
  cases n.sign with
  | none =>
      have hspace : ¬ isSpace c = true := by simp [isSpace_of_isDigit hdigit]
      rw [Sign.text, List.nil_append, hds, List.dropWhile_cons_of_neg hspace,
        sign_of_isDigit hdigit]
      rfl
  | plus => rfl
  | minus => rfl

/-- It is read as its value. -/
theorem atoi_text : atoi n.text = n.value := by
  have hall : n.digits.takeWhile Char.isDigit = n.digits := by
    have h := takeWhile_append_stop (b := []) n.decimal (by simp)
    rwa [List.append_nil] at h
  have hvalue : -2 ^ 31 ≤ n.value ∧ n.value < 2 ^ 31 := n.fits
  have hclamp : max (-2 ^ 63) (min (2 ^ 63 - 1) n.value) = n.value := by omega
  have hread : atoi n.text = toInt32 (max (-2 ^ 63) (min (2 ^ 63 - 1) n.value)) := by
    simp only [atoi, sign_text, hall, digitsValue_eq_ofDigitChars, value]
  rw [hread, hclamp, toInt32_of_isInt hvalue]

theorem length_lt : n.text.length < 20 := Nat.lt_succ_of_le n.short

end IntNumeral

theorem FrameTail.readFields_fields (gid uid : Text) (tail : FrameTail) (kind : NonKVKind) :
    readFields gid uid tail.fields kind =
      .ok (some ⟨gid, uid, tail.utc, tail.sn.value, kind⟩) := by
  have hdate : sep ∉ tail.date.text := not_mem_of_isPlain (fun _ => tail.date.isPlain_of_mem) rfl
  have htime : sep ∉ tail.time.text := not_mem_of_isPlain (fun _ => tail.time.isPlain_of_mem) rfl
  have hsn : sep ∉ tail.sn.text := not_mem_of_isPlain (fun _ => tail.sn.isPlain_of_mem) rfl
  have h₀ : fieldAt tail.fields 0 = tail.date.text := takeWhile_cut hdate _
  have h₁ : fieldAt tail.fields 1 = tail.time.text := by
    show (afterField tail.fields).takeWhile _ = _
    rw [fields, ← sep, afterField_cut hdate, takeWhile_cut htime]
  have h₂ : fieldAt tail.fields 2 = tail.sn.text := by
    show (afterField (afterField tail.fields)).takeWhile _ = _
    rw [fields, ← sep, afterField_cut hdate, afterField_cut htime, takeWhile_uncut hsn]
  rw [readFields_eq_some_iff, h₀, h₁, h₂]
  exact ⟨⟨tail.sn.length_lt, tail.sn.text_ne_nil⟩, by rw [tail.sn.atoi_text, utc]⟩

/-! ### Labels -/

theorem resolveFocus_congr {a b : Text} (h : iequals a b = true) :
    resolveFocus a = resolveFocus b := by
  have hsame : ∀ t, iequals a t = iequals b t := by
    intro t
    rw [Bool.eq_iff_iff, iequals_iff, iequals_iff, iequals_iff.mp h]
  simp only [resolveFocus, hsame]

namespace FocusEntry

variable (e : FocusEntry)

theorem resolveFocus_spelling : resolveFocus e.spelling = e.label.index := by
  rw [resolveFocus_congr e.spelled]
  cases e.label <;> decide

theorem toUpper_mem {c : Char} (hc : c ∈ e.spelling) : c.toUpper ∈ "ESWNMID".toList := by
  have hupper : c.toUpper ∈ e.label.text.map Char.toUpper :=
    iequals_iff.mp e.spelled ▸ List.mem_map_of_mem hc
  have hall : ∀ l : FocusLabel,
      (l.text.map Char.toUpper).all ("ESWNMID".toList.contains ·) = true := by
    intro l
    cases l <;> rfl
  exact List.contains_iff_mem.mp (List.all_eq_true.mp (hall e.label) _ hupper)

theorem isAlpha_of_mem {c : Char} (hc : c ∈ e.spelling) : c.isAlpha = true := by
  have hall : "ESWNMID".toList.all Char.isAlpha = true := rfl
  have hupper := List.all_eq_true.mp hall _ (e.toUpper_mem hc)
  rwa [Char.isAlpha_toUpper_eq_isAlpha] at hupper

theorem length_spelling : 0 < e.spelling.length ∧ e.spelling.length < 20 := by
  rw [iequals_length e.spelled]
  cases e.label <;> decide

/-- As the loop over the line has it. -/
def pair : Text × Text := (e.spelling, e.pos.text)

theorem focusPair : FocusPair e.spelling e.pos.text :=
  ⟨List.length_pos_iff.mp e.length_spelling.1, e.pos.text_ne_nil⟩

end FocusEntry

/-! ### The loop over a focus line -/

theorem focusGroups_letters {t : Text} (ht : ∀ c ∈ t, c.isAlpha = true) (lab rest : Text) :
    focusGroups lab [] (t ++ rest) = focusGroups (lab ++ t) [] rest := by
  induction t generalizing lab with
  | nil => rw [List.nil_append, List.append_nil]
  | cons c t ih =>
      have hopen : ¬ FocusPair lab [] := fun h => h.2 rfl
      rw [List.cons_append, focusGroups, if_pos (ht c List.mem_cons_self), if_neg hopen,
        ih fun d hd => ht d (List.mem_cons_of_mem c hd), List.append_assoc, List.singleton_append]

theorem focusGroups_others {t : Text} (ht : ∀ c ∈ t, c.isAlpha = false) (lab num rest : Text) :
    focusGroups lab num (t ++ rest) = focusGroups lab (num ++ t) rest := by
  induction t generalizing num with
  | nil => rw [List.nil_append, List.append_nil]
  | cons c t ih =>
      have hother : ¬ c.isAlpha = true := by simp [ht c List.mem_cons_self]
      rw [List.cons_append, focusGroups, if_neg hother,
        ih fun d hd => ht d (List.mem_cons_of_mem c hd), List.append_assoc, List.singleton_append]

theorem focusGroups_text (e : FocusEntry) (rest : Text) :
    focusGroups [] [] (e.text ++ rest) = focusGroups e.spelling e.pos.text rest := by
  have hnum : ∀ c ∈ e.pos.text, c.isAlpha = false :=
    fun c hc => not_isAlpha_of_isPlain (e.pos.isPlain_of_mem hc)
  rw [FocusEntry.text, List.append_assoc, focusGroups_letters fun c hc => e.isAlpha_of_mem hc,
    focusGroups_others hnum]
  rfl

/-- A letter behind a pair begins the next one. -/
theorem focusGroups_next {lab num : Text} (h : FocusPair lab num) (e : FocusEntry) (rest : Text) :
    focusGroups lab num (e.text ++ rest) = (lab, num) :: focusGroups [] [] (e.text ++ rest) := by
  obtain ⟨c, cs, hcs⟩ := List.exists_cons_of_ne_nil e.focusPair.1
  have hc : c.isAlpha = true := e.isAlpha_of_mem (hcs ▸ List.mem_cons_self)
  have hopen : ¬ FocusPair [] [] := fun h => h.1 rfl
  rw [FocusEntry.text, hcs, List.cons_append, List.cons_append, focusGroups, if_pos hc, if_pos h,
    focusGroups, if_pos hc, if_neg hopen]
  rfl

/-- The pairs are the entries. -/
theorem focusGroups_entries (e : FocusEntry) (es : List FocusEntry) :
    focusGroups [] [] ((e :: es).flatMap FocusEntry.text) = (e :: es).map FocusEntry.pair := by
  induction es generalizing e with
  | nil =>
      rw [List.flatMap_cons, focusGroups_text]
      rfl
  | cons e' es ih =>
      rw [List.flatMap_cons, focusGroups_text, List.flatMap_cons,
        focusGroups_next e.focusPair, ← List.flatMap_cons, ih e']
      rfl

theorem storeGroups_cons {closed : Bool} {g : Text × Text} {gs : List (Text × Text)}
    {index index' : ℤ} {pos pos' : List ℤ} (hgs : gs ≠ [])
    (hstore : storeFocus g.1 g.2 pos = .ok (index', pos')) (hindex : 0 ≤ index') :
    storeGroups closed (g :: gs) index pos = storeGroups closed gs index' pos' := by
  rw [storeGroups, if_neg hgs, hstore]
  show (if index' < 0 then Except.ok (index', pos') else storeGroups closed gs index' pos') = _
  rw [if_neg (not_lt_of_ge hindex)]

/-- Every entry is stored, and the last one as well. -/
theorem storeGroups_entries (e : FocusEntry) (es : List FocusEntry) (index : ℤ) {pos : List ℤ}
    (hpos : pos.length = 10) :
    ∃ last : ℕ, storeGroups true ((e :: es).map FocusEntry.pair) index pos =
      .ok (last, (e :: es).foldl (fun p e => p.set e.label.index e.pos.value) pos) := by
  have hstore : ∀ {p : List ℤ}, p.length = 10 → ∀ e : FocusEntry,
      storeFocus e.pair.1 e.pair.2 p =
        .ok (e.label.index, p.set e.label.index e.pos.value) := by
    intro p hp e
    rw [storeFocus_eq hp, FocusEntry.pair, if_pos ⟨e.length_spelling.2, e.pos.length_lt⟩,
      e.resolveFocus_spelling, if_neg (by omega), e.pos.atoi_text, Int.toNat_natCast]
  induction es generalizing e index pos with
  | nil =>
      refine ⟨e.label.index, ?_⟩
      rw [List.map_singleton, storeGroups, if_pos rfl, if_pos ⟨rfl, e.focusPair⟩, hstore hpos]
      rfl
  | cons e' es ih =>
      have hset : (pos.set e.label.index e.pos.value).length = 10 := by
        rw [List.length_set, hpos]
      obtain ⟨last, hlast⟩ := ih e' e.label.index hset
      refine ⟨last, ?_⟩
      rw [List.map_cons, storeGroups_cons (by simp) (hstore hpos e) (Int.natCast_nonneg _)]
      exact hlast

/-! ### What is kept of the entries -/

theorem lastGiven_append (entries : List FocusEntry) (e : FocusEntry) (i : ℕ) :
    lastGiven (entries ++ [e]) i =
      if e.label.index = i then e.pos.value else lastGiven entries i := by
  rw [lastGiven, List.filter_append]
  by_cases h : e.label.index = i
  · simp [h]
  · simp [h, lastGiven]

/-- Later entries replace earlier ones for the same place. -/
theorem foldl_set_eq (entries : List FocusEntry) :
    entries.foldl (fun p e => p.set e.label.index e.pos.value) noFocus =
      (List.range 10).map (lastGiven entries) := by
  induction entries using List.reverseRecOn with
  | nil => rfl
  | append_singleton entries e ih =>
      rw [List.foldl_append, ih]
      apply List.ext_getElem
      · simp
      · intro i hi hi'
        simp only [List.foldl_cons, List.foldl_nil, List.getElem_set, List.getElem_map,
          List.getElem_range, lastGiven_append]

/-! ### The keyword of a frame -/

/-- The characters behind the keyword of a frame: a letter belongs to a label. -/
def isBody (c : Char) : Bool := isPlain c || c == sep || "ESWNMID".toList.contains c.toUpper

theorem isBody_of_isPlain {c : Char} (h : isPlain c = true) : isBody c = true := by
  simp [isBody, h]

/-- A line by its ids, its keyword and what follows. -/
def frameLine (ids : Text) (k : Keyword) (body : Text) : Text :=
  "g#".toList ++ ids ++ k.text ++ body ++ [sep]

section FrameLine

variable {ids body : Text} {k : Keyword}

theorem frameLine_eq :
    frameLine ids k body = "g#".toList ++ ids ++ k.text ++ body ++ [sep] := rfl

theorem framed_frameLine : Framed (frameLine ids k body) := by
  refine ⟨?_, List.suffix_append _ [sep]⟩
  rw [frameLine_eq, List.append_assoc, List.append_assoc, List.append_assoc]
  exact List.prefix_append _ _

theorem behind_frameLine {n : ℕ} (h : ("g#".toList ++ ids ++ k.text).length = n) :
    behind (frameLine ids k body) n = body := by
  rw [behind, frameLine_eq, List.length_append, List.length_singleton, Nat.add_sub_cancel,
    List.take_left, ← h, List.drop_left]

variable (hids : ∀ c ∈ ids, c.isDigit = true) (hbody : ∀ c ∈ body, isBody c = true)
include hids

theorem not_mem_ids {c : Char} (hc : c.isDigit = false) (hmark : c ∉ "g#".toList) :
    c ∉ "g#".toList ++ ids := by
  rw [List.mem_append]
  rintro (hmem | hmem)
  · exact hmark hmem
  · exact Bool.false_ne_true (hc.symm.trans (hids c hmem))

include hbody

theorem not_mem_frameLine {c : Char} (hdigit : c.isDigit = false) (hmark : c ∉ "g#".toList)
    (hkey : c ∉ k.text) (hc : isBody c = false) : c ∉ frameLine ids k body := by
  have hsep : c ≠ sep := by
    rintro rfl
    cases hc
  simp only [frameLine_eq, List.mem_append, List.mem_singleton, not_or]
  refine ⟨⟨⟨?_, hkey⟩, fun hmem => ?_⟩, hsep⟩
  · exact not_or.mp (mt List.mem_append.mpr (not_mem_ids hids hdigit hmark))
  · exact Bool.false_ne_true (hc.symm.trans (hbody c hmem))

/-- A keyword with a character that is not in the frame. -/
theorem findWord_eq_none {w : String} {c : Char} (hw : c ∈ w.toList) (hdigit : c.isDigit = false)
    (hmark : c ∉ "g#".toList) (hkey : c ∉ k.text) (hc : isBody c = false) :
    findWord w (frameLine ids k body) = none := by
  rw [findWord, find_eq_none_of_not_mem hw (not_mem_frameLine hids hbody hdigit hmark hkey hc)]
  rfl

omit hbody in
theorem findWord_frameLine {w : String} {c : Char} {cs : Text} (hw : w.toList = c :: cs)
    (hkey : k.text = c :: cs) (hc : c.isDigit = false) (hmark : c ∉ "g#".toList) :
    findWord w (frameLine ids k body) = some (ids.length + 2) := by
  have hfind := find_of_not_mem (p := cs) (not_mem_ids hids hc hmark) (body ++ [sep])
  rw [findWord, frameLine_eq, hw, hkey, List.append_assoc _ body, hfind, List.length_append,
    Nat.add_comm]
  rfl

/-- No other keyword is found in a frame. -/
theorem keywordOf_frameLine (hk : k = .status ∨ k = .currentpos ∨ k = .focus) :
    keywordOf (frameLine ids k body) = some (k, ids.length + 2) := by
  have hkey : 'R' ∉ k.text ∧ 'h' ∉ k.text := by
    obtain rfl | rfl | rfl := hk <;> decide
  have hrec : findWord "Rec" (frameLine ids k body) = none :=
    findWord_eq_none hids hbody (List.mem_cons_self) rfl (by decide) hkey.1 rfl
  have hfinished : findWord "finished" (frameLine ids k body) = none :=
    findWord_eq_none hids hbody (c := 'h') (by decide) rfl (by decide) hkey.2 rfl
  rw [keywordOf, if_pos framed_frameLine, hrec, hfinished]
  obtain rfl | rfl | rfl := hk
  · rw [findWord_frameLine hids rfl rfl rfl (by decide)]
    rfl
  · rw [findWord_eq_none hids hbody (w := "status") (c := 'a') (by decide) rfl (by decide)
      (by decide) rfl, findWord_frameLine hids rfl rfl rfl (by decide)]
    rfl
  · rw [findWord_eq_none hids hbody (w := "status") (c := 'a') (by decide) rfl (by decide)
      (by decide) rfl, findWord_eq_none hids hbody (w := "currentpos") (c := 'r') (by decide) rfl
      (by decide) (by decide) rfl, findWord_frameLine hids rfl rfl rfl (by decide)]
    rfl

end FrameLine

/-! ### Frames read back -/

theorem append_tail (front t : Text) (tail : FrameTail) :
    front ++ t ++ tail.text = front ++ (t ++ sep :: tail.fields) ++ [sep] := by
  rw [FrameTail.text, List.cons_append, List.append_assoc, List.append_assoc, List.append_assoc]
  rfl

theorem statusFrame_eq (gid : Ident) (states : Text) (tail : FrameTail) :
    statusFrame gid states tail = frameLine gid.text .status (states ++ sep :: tail.fields) :=
  append_tail _ states tail

theorem positionFrame_eq (gid uid : Ident) (ra dec : IntNumeral) (tail : FrameTail) :
    positionFrame gid uid ra dec tail =
      frameLine (gid.text ++ uid.text) .currentpos
        (ra.text ++ sep :: (dec.text ++ sep :: tail.fields)) := by
  rw [frameLine_eq, ← List.append_assoc _ gid.text]
  exact (append_tail _ _ tail).trans (congrArg (· ++ [sep]) (List.append_assoc _ ra.text _))

theorem focusFrame_eq (gid uid : Ident) (entries : List FocusEntry) (tail : FrameTail) :
    focusFrame gid uid entries tail =
      frameLine (gid.text ++ uid.text) .focus
        (entries.flatMap FocusEntry.text ++ sep :: tail.fields) := by
  rw [frameLine_eq, ← List.append_assoc _ gid.text]
  exact append_tail _ (entries.flatMap FocusEntry.text) tail

theorem isBody_cut {a rest : Text} (ha : ∀ c ∈ a, isBody c = true)
    (hrest : ∀ c ∈ rest, isBody c = true) : ∀ c ∈ a ++ sep :: rest, isBody c = true := by
  intro c hc
  rw [List.mem_append, List.mem_cons] at hc
  obtain hc | rfl | hc := hc
  · exact ha c hc
  · rfl
  · exact hrest c hc

theorem IntNumeral.isBody_of_mem (n : IntNumeral) : ∀ c ∈ n.text, isBody c = true :=
  fun _ hc => isBody_of_isPlain (n.isPlain_of_mem hc)

theorem ClockText.isBody_of_mem (t : ClockText) : ∀ c ∈ t.text, isBody c = true :=
  fun _ hc => isBody_of_isPlain (t.isPlain_of_mem hc)

theorem FrameTail.isBody_of_mem (tail : FrameTail) : ∀ c ∈ tail.fields, isBody c = true :=
  isBody_cut tail.date.isBody_of_mem (isBody_cut tail.time.isBody_of_mem tail.sn.isBody_of_mem)

theorem FocusEntry.isBody_of_mem (e : FocusEntry) : ∀ c ∈ e.text, isBody c = true := by
  intro c hc
  obtain hc | hc := List.mem_append.mp hc
  · rw [isBody, Bool.or_eq_true, List.contains_iff_mem]
    exact .inr (e.toUpper_mem hc)
  · exact e.pos.isBody_of_mem c hc

theorem Ident.isDigit_append (gid uid : Ident) : ∀ c ∈ gid.text ++ uid.text, c.isDigit = true := by
  intro c hc
  obtain hc | hc := List.mem_append.mp hc
  · exact gid.digits c hc
  · exact uid.digits c hc

/-- Group and unit of a frame. -/
theorem idsBefore_frameLine (gid uid : Ident) (k : Keyword) (body : Text) :
    idsBefore (frameLine (gid.text ++ uid.text) k body) 8 = (gid.text, uid.text) := by
  obtain ⟨a, b, c, hgid⟩ := List.length_eq_three.mp gid.length
  obtain ⟨a', b', c', huid⟩ := List.length_eq_three.mp uid.length
  rw [frameLine_eq, hgid, huid]
  rfl

theorem length_front (gid uid : Ident) (k : Keyword) :
    ("g#".toList ++ (gid.text ++ uid.text) ++ k.text).length = 8 + k.text.length := by
  rw [List.length_append, List.length_append, List.length_append, gid.length, uid.length]
  rfl

theorem stateOf_digit {c : Char} (h : c.isDigit = true) : stateOf c = decVal c := by
  have hrange : 48 ≤ c.toNat ∧ c.toNat ≤ 57 := Char.isDigit_iff_toNat.mp h
  have hzero : '0'.toNat = 48 := rfl
  rw [stateOf, decVal, hzero, Int.bmod_def]
  omega

theorem resolve_statusFrame (gid : Ident) {states : Text} (tail : FrameTail)
    (hdigits : ∀ c ∈ states, c.isDigit = true) (hlen : states.length ≤ 20) :
    resolve (statusFrame gid states tail) =
      .ok (some ⟨gid.text, [], tail.utc, tail.sn.value,
        .status (states.map fun c => (decVal c : ℤ))⟩) := by
  have hplain : ∀ c ∈ states, isPlain c = true := fun c hc => by simp [isPlain, hdigits c hc]
  have hsep : sep ∉ states := not_mem_of_isPlain hplain rfl
  have hbody := isBody_cut (fun c hc => isBody_of_isPlain (hplain c hc)) tail.isBody_of_mem
  have hkey := keywordOf_frameLine gid.digits hbody (.inl rfl)
  have hbehind : behind (frameLine gid.text .status (states ++ sep :: tail.fields)) (5 + 6) =
      states ++ sep :: tail.fields :=
    behind_frameLine (by rw [List.length_append, List.length_append, gid.length]; rfl)
  have hstates : states.map stateOf = states.map fun c => (decVal c : ℤ) :=
    List.map_congr_left fun c hc => stateOf_digit (hdigits c hc)
  have hgid : ((frameLine gid.text .status (states ++ sep :: tail.fields)).take 5).drop 2 =
      gid.text := by
    obtain ⟨a, b, c, h⟩ := List.length_eq_three.mp gid.length
    rw [frameLine_eq, h]
    rfl
  rw [gid.length] at hkey
  rw [statusFrame_eq, resolve_status hkey, hbehind, fieldAt_zero, takeWhile_cut hsep, if_pos hlen,
    if_pos rfl, afterField_cut hsep, hgid, hstates, tail.readFields_fields]

theorem resolve_positionFrame (gid uid : Ident) (ra dec : IntNumeral) (tail : FrameTail) :
    resolve (positionFrame gid uid ra dec tail) =
      .ok (some ⟨gid.text, uid.text, tail.utc, tail.sn.value,
        .position ⟨(Double.ofInt ra.value).scale (1 / 10000),
          (Double.ofInt dec.value).scale (1 / 10000)⟩⟩) := by
  have hra : sep ∉ ra.text := not_mem_of_isPlain (fun _ => ra.isPlain_of_mem) rfl
  have hdec : sep ∉ dec.text := not_mem_of_isPlain (fun _ => dec.isPlain_of_mem) rfl
  have hbody := isBody_cut ra.isBody_of_mem (isBody_cut dec.isBody_of_mem tail.isBody_of_mem)
  have hkey := keywordOf_frameLine (Ident.isDigit_append gid uid) hbody (.inr (.inl rfl))
  have hbehind : behind (frameLine (gid.text ++ uid.text) .currentpos
      (ra.text ++ sep :: (dec.text ++ sep :: tail.fields))) (8 + 10) =
        ra.text ++ sep :: (dec.text ++ sep :: tail.fields) :=
    behind_frameLine (length_front gid uid .currentpos)
  have hfields : fieldAt (ra.text ++ sep :: (dec.text ++ sep :: tail.fields)) 0 = ra.text ∧
      fieldAt (ra.text ++ sep :: (dec.text ++ sep :: tail.fields)) 1 = dec.text := by
    rw [fieldAt_succ, afterField_cut hra]
    exact ⟨takeWhile_cut hra _, takeWhile_cut hdec _⟩
  rw [List.length_append, gid.length, uid.length] at hkey
  rw [positionFrame_eq, resolve_currentpos hkey, hbehind, hfields.1, hfields.2,
    if_pos ⟨ra.length_lt, dec.length_lt⟩, if_pos ⟨⟨ra.text_ne_nil, dec.text_ne_nil⟩, rfl⟩,
    afterField_cut hra, afterField_cut hdec, idsBefore_frameLine, tail.readFields_fields,
    ra.atoi_text, dec.atoi_text]

theorem resolve_focusFrame (gid uid : Ident) {entries : List FocusEntry} (tail : FrameTail)
    (hne : entries ≠ []) :
    resolve (focusFrame gid uid entries tail) =
      .ok (some ⟨gid.text, uid.text, tail.utc, tail.sn.value,
        .focus ((List.range 10).map (lastGiven entries))⟩) := by
  have hentries : ∀ c ∈ entries.flatMap FocusEntry.text, isBody c = true := by
    intro c hc
    obtain ⟨e, -, hc⟩ := List.mem_flatMap.mp hc
    exact e.isBody_of_mem c hc
  -- no separator before the tail: the pairs are read to their end
  have hsep : sep ∉ entries.flatMap FocusEntry.text := by
    rw [List.mem_flatMap]
    rintro ⟨e, -, hmem⟩
    obtain hmem | hmem := List.mem_append.mp hmem
    · have halpha := e.isAlpha_of_mem hmem
      cases halpha
    · exact not_mem_of_isPlain (fun _ => e.pos.isPlain_of_mem) rfl hmem
  have hkey := keywordOf_frameLine (Ident.isDigit_append gid uid)
    (isBody_cut hentries tail.isBody_of_mem) (.inr (.inr rfl))
  have hbehind : behind (frameLine (gid.text ++ uid.text) .focus
      (entries.flatMap FocusEntry.text ++ sep :: tail.fields)) (8 + 5) =
        entries.flatMap FocusEntry.text ++ sep :: tail.fields :=
    behind_frameLine (length_front gid uid .focus)
  obtain ⟨e, es, rfl⟩ := List.exists_cons_of_ne_nil hne
  obtain ⟨last, hlast⟩ := storeGroups_entries e es (-1) (show noFocus.length = 10 from rfl)
  rw [List.length_append, gid.length, uid.length] at hkey
  rw [focusFrame_eq, resolve_focus hkey, pairsClosed, pairsOf, hbehind, fieldAt_zero,
    takeWhile_cut hsep, focusGroups_entries, decide_eq_true (by simp), hlast, foldl_set_eq,
    afterField_cut hsep, idsBefore_frameLine]
  show (if (0 : ℤ) ≤ last ∧ 8 = 8 then _ else _) = _
  rw [if_pos ⟨Int.natCast_nonneg last, rfl⟩, tail.readFields_fields]

/-- Reading a frame gives what it was written from. -/
theorem resolve_frames (gid uid : Ident) (tail : FrameTail) :
    (∀ states : Text, (∀ c ∈ states, c.isDigit = true) → states.length ≤ 20 →
      resolve (statusFrame gid states tail) =
        .ok (some ⟨gid.text, [], tail.utc, tail.sn.value,
          .status (states.map fun c => (decVal c : ℤ))⟩)) ∧
    (∀ ra dec : IntNumeral, resolve (positionFrame gid uid ra dec tail) =
      .ok (some ⟨gid.text, uid.text, tail.utc, tail.sn.value,
        .position ⟨(Double.ofInt ra.value).scale (1 / 10000),
          (Double.ofInt dec.value).scale (1 / 10000)⟩⟩)) ∧
    (∀ entries : List FocusEntry, entries ≠ [] →
      resolve (focusFrame gid uid entries tail) =
        .ok (some ⟨gid.text, uid.text, tail.utc, tail.sn.value,
          .focus ((List.range 10).map (lastGiven entries))⟩)) :=
  ⟨fun _ => resolve_statusFrame gid tail, fun ra dec => resolve_positionFrame gid uid ra dec tail,
    fun _ => resolve_focusFrame gid uid tail⟩

/-- `002` -/
def group002 : Ident := ⟨"002".toList, rfl, List.all_eq_true.mp rfl⟩

/-- `006` -/
def unit006 : Ident := ⟨"006".toList, rfl, List.all_eq_true.mp rfl⟩

/-- `7` -/
def serial7 : IntNumeral :=
  ⟨.none, "7".toList, by decide, List.all_eq_true.mp rfl, by decide, by decide⟩

/-- `2024-03-29%13:07:26%7` -/
def tail7 : FrameTail :=
  ⟨⟨"2024-03-29".toList, by simp⟩, ⟨"13:07:26".toList, by simp⟩, serial7⟩

/-- `-25` -/
def minus25 : IntNumeral :=
  ⟨.minus, "25".toList, by decide, List.all_eq_true.mp rfl, by decide, by decide⟩

/-- Of two positions for one camera the last one is kept. -/
theorem resolve_frames_002006 :
    resolve "g#002status05%2024-03-29%13:07:26%7%".toList =
      .ok (some ⟨"002".toList, [], "2024-03-29T13:07:26".toList, 7, .status [0, 5]⟩) ∧
    resolve "g#002006focusEs7mid-25es-25%2024-03-29%13:07:26%7%".toList =
      .ok (some ⟨"002".toList, "006".toList, "2024-03-29T13:07:26".toList, 7,
        .focus ([-25, intMax, intMax, intMax, -25] ++ List.replicate 5 intMax)⟩) := by
  obtain ⟨hstatus, -, hfocus⟩ := resolve_frames group002 unit006 tail7
  have hstatusText : "g#002status05%2024-03-29%13:07:26%7%".toList =
      statusFrame group002 "05".toList tail7 := by
    decide +kernel
  have hfocusText : "g#002006focusEs7mid-25es-25%2024-03-29%13:07:26%7%".toList =
      focusFrame group002 unit006 [⟨.es, "Es".toList, by decide, serial7⟩,
        ⟨.mid, "mid".toList, by decide, minus25⟩, ⟨.es, "es".toList, by decide, minus25⟩] tail7 := by
    decide +kernel
  constructor
  · rw [hstatusText]
    exact hstatus "05".toList (List.all_eq_true.mp rfl) (by decide)
  · rw [hfocusText]
    exact hfocus _ (List.cons_ne_nil _ _)

end NonKVProtocol

end Gtoaes
