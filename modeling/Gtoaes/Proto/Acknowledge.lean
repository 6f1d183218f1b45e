import Gtoaes.Proto.NonKVFields
import Gtoaes.Proto.NonKVText

/-!
Acknowledgements of a GWAC mount against the commands they answer.

The parser finds the first `Rec` of the line, skips one separator behind it and
takes the third field from there for the serial number. So an acknowledgement is
understood when exactly two separators stand in between: the one with a doubled
separator in front of the serial number, which the source gives as its example,
never is.
-/

namespace Gtoaes

open Lib NonKVProtocol

/-! ### The acknowledgement -/

/-- What the parser cuts into fields: the text behind the first `Rec`, less a
separator directly behind it. -/
def afterRec (t : Text) : Text :=
  match find "Rec".toList t with
  | some k => if (t.drop (k + 3)).head? = some sep then t.drop (k + 4) else t.drop (k + 3)
  | none => t

theorem find_pos_of_g {t : Text} {k : ℕ} (h : find "Rec".toList ('g' :: t) = some k) : 0 < k := by
  rw [find, if_neg (by simp [List.isPrefixOf])] at h
  obtain ⟨j, -, rfl⟩ := Option.map_eq_some_iff.mp h
  exact Nat.succ_pos j

/-- A line with `Rec` in it is read from there, whatever stands behind its last
separator. -/
theorem resolve_rec {gid uid rest A S : Text} (hA : A = "g#".toList ++ gid ++ uid ++ rest)
    (hgid : gid.length = 3) (huid : uid.length = 3) {k : ℕ}
    (hfind : find "Rec".toList A = some k) (hlt : k + 3 < A.length) :
    NonKVProtocol.resolve (A ++ S ++ ['%']) = readFields gid uid (afterRec A ++ S) .response := by
  have hpos : 0 < k := by
    rw [hA] at hfind
    exact find_pos_of_g hfind
  have hword : findWord "Rec" (A ++ S ++ ['%']) = some k := by
    have hlong : find "Rec".toList (A ++ S ++ ['%']) = some k := by
      rw [List.append_assoc]
      exact find_append (by simp) hfind _
    rw [findWord, hlong, Option.bind_some, if_pos hpos]
  have hends : "g#".toList <+: A ++ S ++ ['%'] ∧ "%".toList <:+ A ++ S ++ ['%'] := by
    refine ⟨⟨gid ++ uid ++ rest ++ S ++ ['%'], ?_⟩, ⟨A ++ S, rfl⟩⟩
    rw [hA]
    simp only [List.append_assoc]
  have hlen : 8 ≤ A.length := by
    rw [hA]
    simp only [List.length_append, hgid, huid]
    simp
  -- both ids lie in front of `Rec`
  have hslice : ∀ {i : ℕ} {a t : Text}, (A ++ S ++ ['%']).drop i = a ++ t → a.length = 3 →
      i + 3 ≤ A.length → slice (A ++ S ++ ['%']) i 3 = .ok a := by
    intro i a t hdrop ha hi
    have hle : i + 3 ≤ (A ++ S ++ ['%']).length := by
      simp only [List.length_append]
      omega
    rw [slice, if_pos hle, hdrop, ← ha, List.take_left]
  have hg : slice (A ++ S ++ ['%']) 2 3 = .ok gid := by
    refine hslice (t := uid ++ rest ++ S ++ ['%']) ?_ hgid (by omega)
    rw [hA]
    simp
  have hu : slice (A ++ S ++ ['%']) 5 3 = .ok uid := by
    refine hslice (t := rest ++ S ++ ['%']) ?_ huid (by omega)
    have hcut : ("g#".toList ++ gid).length = 5 := by
      simp only [List.length_append, hgid]
      simp
    rw [hA]
    simp only [List.append_assoc]
    rw [← List.append_assoc "g#".toList, ← hcut, List.drop_left]
  obtain ⟨c, hc⟩ : ∃ c, A[k + 3]? = some c := ⟨A[k + 3], List.getElem?_eq_getElem hlt⟩
  have hat : (A ++ S ++ ['%'])[k + 3]? = some c := by
    rw [List.append_assoc, List.getElem?_append_left hlt, hc]
  have hhead : (A.drop (k + 3)).head? = some c := by rw [List.head?_drop, hc]
  have hresolve : resolveHead (A ++ S ++ ['%']) =
      .ok (some ⟨gid, uid, .response, if c ≠ sep then k + 2 else k + 3⟩) := by
    rw [resolveHead]
    simp only [hends, not_true_eq_false, if_false, and_self, hword]
    rw [resolveRec, hg, hu]
    simp only [hat]
    rfl
  have htake : (A ++ S ++ ['%']).take ((A ++ S ++ ['%']).length - 1) = A ++ S := by
    have hone : (A ++ S ++ ['%']).length - 1 = (A ++ S).length := by simp
    rw [hone, List.take_left]
  rw [NonKVProtocol.resolve, hresolve]
  show resolveTail _ _ = _
  rw [resolveTail_eq ⟨hgid, .inr huid⟩, htake, afterRec, hfind]
  simp only [hhead, Option.some.injEq]
  by_cases hsep : c = sep
  · rw [if_neg (by simpa using hsep), if_pos hsep, List.drop_append_of_le_length (by omega)]
  · rw [if_pos hsep, if_neg hsep, List.drop_append_of_le_length (by omega)]

/-- Exactly two separators stand between the first `Rec` and the serial number,
one directly behind `Rec` not counted. -/
def AckShape.Legible (shape : AckShape) (gid uid : Text) (body : NonKVBody) (st : Stamp) : Prop :=
  (afterRec (shape.head (snprintf 100 (commandText gid uid body)) st)).count sep = 2

def ThreeDigits (t : Text) : Prop := t.length = 3 ∧ ∀ c ∈ t, c.isDigit = true

/-- The mount's own clock reading, with the separators that follow its parts. -/
def AckShape.clock (shape : AckShape) (st : Stamp) : Text :=
  st.date ++ sep :: (st.time ++ sep :: (if shape.doubled then [sep] else []))

theorem Stamp.sep_not_mem_date (st : Stamp) : sep ∉ st.date := by
  intro h
  obtain h | h := st.date_chars sep h <;> cases h

theorem Stamp.sep_not_mem_time (st : Stamp) : sep ∉ st.time := by
  intro h
  obtain h | h := st.time_chars sep h <;> cases h

theorem AckShape.count_clock (shape : AckShape) (st : Stamp) :
    (shape.clock st).count sep = 2 + if shape.doubled then 1 else 0 := by
  rw [clock]
  cases shape.doubled <;>
    simp [List.count_append, List.count_eq_zero_of_not_mem st.sep_not_mem_date,
      List.count_eq_zero_of_not_mem st.sep_not_mem_time]

/-- The first `Rec` is the one behind the command or stands before it, so that
the clock reading is behind it in full. -/
theorem AckShape.find_head (shape : AckShape) (command : Text) (st : Stamp) :
    ∃ k u, find "Rec".toList (shape.head command st) = some k ∧
      k + 3 < (shape.head command st).length ∧
      afterRec (shape.head command st) = u ++ shape.clock st := by
  obtain ⟨opt, hopt⟩ : ∃ opt : Text, opt = if shape.separated then [sep] else [] := ⟨_, rfl⟩
  have hhead : shape.head command st =
      command ++ "Rec".toList ++ opt ++ shape.clock st := by
    rw [head, clock, hopt]
    simp [sep, List.append_assoc]
  obtain ⟨k, hk, hfind⟩ := exists_find (p := "Rec".toList) command (opt ++ shape.clock st)
  rw [← List.append_assoc, ← hhead] at hfind
  obtain ⟨c, hc⟩ : ∃ c, st.date.head? = some c := by
    cases hd : st.date with
    | nil =>
        have hlen := st.date_length
        rw [hd] at hlen
        cases hlen
    | cons c t => exact ⟨c, rfl⟩
  have hcsep : c ≠ sep := fun h => st.sep_not_mem_date (h ▸ List.mem_of_head? hc)
  have hclock : (shape.clock st).head? = some c := by
    rw [clock, List.head?_append, hc]
    rfl
  have hlong : 0 < (shape.clock st).length := by
    rw [clock, List.length_append, st.date_length]
    omega
  have hlen : (command ++ "Rec".toList).length = command.length + 3 := by simp
  have hle : k + 3 ≤ (command ++ "Rec".toList ++ opt).length := by
    rw [List.length_append, hlen]
    omega
  have hdrop : (shape.head command st).drop (k + 3) =
      (command ++ "Rec".toList ++ opt).drop (k + 3) ++ shape.clock st := by
    rw [hhead, List.drop_append_of_le_length hle]
  refine ⟨k, ?_⟩
  rw [afterRec, hfind]
  by_cases hsep : ((shape.head command st).drop (k + 3)).head? = some sep
  · -- a separator right behind `Rec` is not the clock reading's
    have hmore : k + 4 ≤ (command ++ "Rec".toList ++ opt).length := by
      by_contra hshort
      have hnil : (command ++ "Rec".toList ++ opt).drop (k + 3) = [] :=
        List.drop_eq_nil_of_le (by omega)
      rw [hdrop, hnil, List.nil_append, hclock] at hsep
      exact hcsep (Option.some.inj hsep)
    refine ⟨(command ++ "Rec".toList ++ opt).drop (k + 4), rfl, ?_, ?_⟩
    · rw [hhead, List.length_append]
      omega
    · simp only [hsep, if_true]
      rw [hhead, List.drop_append_of_le_length hmore]
  · refine ⟨(command ++ "Rec".toList ++ opt).drop (k + 3), rfl, ?_, ?_⟩
    · rw [hhead, List.length_append]
      omega
    · simp only [hsep, if_false]
      exact hdrop

/-! ### Which acknowledgements are understood -/

/-- The command's acknowledgement is resolved to a response with the ids and
the serial number of its frame, and this takes just that command out of a retry
buffer where no other has its number. -/
def Acknowledged (shape : AckShape) (body : NonKVBody) (p : NonKVProtocol) (utc : Time)
    (st : Stamp) : Prop :=
  let frame := (encode body p utc).1
  ∃ m, NonKVProtocol.resolve (shape.text frame st) = .ok (some m) ∧ m.kind = .response ∧ m.gid = p.gid ∧
    m.uid = p.uid ∧ m.sn = frame.serno ∧
    ∀ (l r : NonKVProtoBuff) (it : NonKVProtoItem), it.serno = frame.serno →
      (∀ x ∈ l ++ r, x.serno ≠ frame.serno) → NonKVProtoBuff.pop (l ++ it :: r) m.sn = l ++ r

section

variable {gid uid : Text} {body : NonKVBody} {shape : AckShape} {st : Stamp}

theorem snprintf_commandText (hgid : gid.length = 3) (huid : uid.length = 3) :
    snprintf 100 (commandText gid uid body) =
      "g#".toList ++ gid ++ uid ++ body.text.take 91 := by
  have hlen : ("g#".toList ++ gid ++ uid).length = 8 := by
    simp only [List.length_append, hgid, huid]
    rfl
  rw [snprintf, commandText, List.take_append, hlen, List.take_of_length_le (by omega)]

/-- The acknowledgement is read field by field from the first `Rec`. -/
theorem resolve_ack (hgid : gid.length = 3) (huid : uid.length = 3) (S : Text) :
    NonKVProtocol.resolve (shape.head (snprintf 100 (commandText gid uid body)) st ++ S ++ ['%']) =
      readFields gid uid
        (afterRec (shape.head (snprintf 100 (commandText gid uid body)) st) ++ S) .response := by
  obtain ⟨k, u, hfind, hlt, -⟩ := shape.find_head (snprintf 100 (commandText gid uid body)) st
  have hhead : shape.head (snprintf 100 (commandText gid uid body)) st =
      "g#".toList ++ gid ++ uid ++ (body.text.take 91 ++ "Rec".toList ++
        (if shape.separated then ['%'] else []) ++ st.date ++
        '%' :: st.time ++ '%' :: (if shape.doubled then ['%'] else [])) := by
    rw [AckShape.head, snprintf_commandText hgid huid]
    simp only [List.append_assoc, List.cons_append]
  exact resolve_rec hhead hgid huid hfind hlt

theorem two_le_count : 2 ≤ (afterRec (shape.head (snprintf 100 (commandText gid uid body))
    st)).count sep := by
  obtain ⟨k, u, -, -, hafter⟩ := shape.find_head (snprintf 100 (commandText gid uid body)) st
  rw [hafter, List.count_append, shape.count_clock]
  omega

/-- A legible acknowledgement gives back the serial number. -/
theorem resolve_legible (hgid : gid.length = 3) (huid : uid.length = 3)
    (h : shape.Legible gid uid body st) {n : ℤ} (hn : 1 ≤ n ∧ n ≤ 99999) :
    ∃ utc, NonKVProtocol.resolve
      (shape.head (snprintf 100 (commandText gid uid body)) st ++ zeroPad 5 n ++ ['%']) =
        .ok (some ⟨gid, uid, utc, n, .response⟩) := by
  obtain ⟨k, u, -, -, hafter⟩ := shape.find_head (snprintf 100 (commandText gid uid body)) st
  rw [AckShape.Legible, hafter, List.count_append, shape.count_clock] at h
  have hdbl : shape.doubled = false := by
    cases hd : shape.doubled with
    | false => rfl
    | true =>
        rw [hd, if_pos rfl] at h
        omega
  have hu : sep ∉ u ++ st.date := by
    rw [List.mem_append, not_or]
    refine ⟨?_, st.sep_not_mem_date⟩
    rw [← List.count_eq_zero]
    omega
  have hdigits : sep ∉ zeroPad 5 n := fun hmem => by
    have hdigit := isDigit_of_mem_zeroPad (by omega) hmem
    cases hdigit
  have hclock : shape.clock st = st.date ++ sep :: (st.time ++ [sep]) := by
    rw [AckShape.clock, hdbl]
    rfl
  have htext : afterRec (shape.head (snprintf 100 (commandText gid uid body)) st) ++
      zeroPad 5 n = (u ++ st.date) ++ sep :: (st.time ++ sep :: zeroPad 5 n) := by
    rw [hafter, hclock]
    simp only [List.append_assoc, List.cons_append, List.nil_append]
  have hlen : (zeroPad 5 n).length = 5 := length_zeroPad (by omega) (by omega) (by decide)
  refine ⟨u ++ st.date ++ 'T' :: st.time, ?_⟩
  rw [resolve_ack hgid huid, htext, readFields]
  simp only [afterField_cut hu, afterField_cut st.sep_not_mem_time, takeWhile_cut hu,
    takeWhile_cut st.sep_not_mem_time, takeWhile_uncut hdigits, hlen, zeroPad_ne_nil, if_false,
    atoi_zeroPad (show -2 ^ 31 ≤ n ∧ n < 2 ^ 31 by omega)]
  rfl

/-- From an illegible one the parser takes its number before it comes to the
serial number. -/
theorem resolve_illegible (hgid : gid.length = 3) (huid : uid.length = 3)
    (h : ¬ shape.Legible gid uid body st) :
    ∃ r, ∀ S, NonKVProtocol.resolve
      (shape.head (snprintf 100 (commandText gid uid body)) st ++ S ++ ['%']) = r := by
  have htwo : 2 ≤ (afterRec (shape.head (snprintf 100 (commandText gid uid body)) st)).count sep :=
    two_le_count
  rw [AckShape.Legible] at h
  have hpos : 0 < (afterRec (shape.head (snprintf 100 (commandText gid uid body)) st)).count sep := by
    omega
  obtain ⟨a, t₁, ht, ha, hcount₁⟩ := exists_cut hpos
  obtain ⟨b, t₂, rfl, hb, hcount₂⟩ := exists_cut (t := t₁) (by omega)
  obtain ⟨c, t₃, rfl, hc, -⟩ := exists_cut (t := t₂) (by omega)
  refine ⟨readFields gid uid (a ++ sep :: (b ++ sep :: (c ++ sep :: t₃))) .response, fun S => ?_⟩
  rw [resolve_ack hgid huid, ht]
  simp only [List.append_assoc, List.cons_append, readFields, takeWhile_cut ha, takeWhile_cut hb,
    takeWhile_cut hc, afterField_cut ha, afterField_cut hb]

end

/-- Where the command has no `Rec` of its own, a single separator in front of the
serial number is all it takes. -/
theorem AckShape.legible_iff {gid uid : Text} {body : NonKVBody} {shape : AckShape} {st : Stamp}
    (h : find "Rec".toList (snprintf 100 (commandText gid uid body) ++ "Rec".toList) =
      some (snprintf 100 (commandText gid uid body)).length) :
    shape.Legible gid uid body st ↔ shape.doubled = false := by
  generalize hcommand : snprintf 100 (commandText gid uid body) = command at h
  -- the clock reading begins with a digit, and so is not skipped
  have hdate : ∀ c, st.date.head? = some c → c ≠ sep := fun c hc hsep =>
    st.sep_not_mem_date (hsep ▸ List.mem_of_head? hc)
  obtain ⟨c, t, hct⟩ : ∃ c t, st.date = c :: t := by
    cases hd : st.date with
    | nil =>
        have hlen := st.date_length
        rw [hd] at hlen
        cases hlen
    | cons c t => exact ⟨c, t, rfl⟩
  have hc : c ≠ sep := hdate c (by rw [hct]; rfl)
  have hhead : shape.head command st = command ++ "Rec".toList ++
      ((if shape.separated then [sep] else []) ++ shape.clock st) := by
    rw [head, clock]
    simp [sep, List.append_assoc]
  have hfind : find "Rec".toList (shape.head command st) = some command.length := by
    rw [hhead]
    exact find_append (by simp) h _
  have hdrop : (shape.head command st).drop (command.length + 3) =
      (if shape.separated then [sep] else []) ++ shape.clock st := by
    have hlen : (command ++ "Rec".toList).length = command.length + 3 := by simp
    rw [hhead, ← hlen, List.drop_left]
  have hafter : afterRec (shape.head command st) = shape.clock st := by
    rw [afterRec, hfind]
    cases hs : shape.separated with
    | false =>
        rw [hs] at hdrop
        have hopen : (shape.clock st).head? ≠ some sep := by
          rw [clock, hct]
          simpa using hc
        simp only [hdrop, Bool.false_eq_true, if_false, List.nil_append, hopen]
    | true =>
        rw [hs] at hdrop
        have hmore : (shape.head command st).drop (command.length + 4) =
            ((shape.head command st).drop (command.length + 3)).drop 1 := by
          rw [List.drop_drop]
        simp only [hmore, hdrop, if_true, List.cons_append, List.nil_append, List.head?_cons,
          List.drop_succ_cons, List.drop_zero]
  rw [Legible, hcommand, hafter, count_clock]
  cases shape.doubled <;> simp

/-- Every command of the kind is acknowledged by acknowledgements of the shape
exactly when these are legible. -/
theorem acknowledged_iff_legible {gid uid : Text} (hgid : ThreeDigits gid) (huid : ThreeDigits uid)
    (body : NonKVBody) (shape : AckShape) (st : Stamp) :
    (∀ (p : NonKVProtocol) (utc : Time), p.gid = gid → p.uid = uid →
      1 ≤ p.serno ∧ p.serno ≤ 99999 → Acknowledged shape body p utc st) ↔
        shape.Legible gid uid body st := by
  constructor
  · intro hall
    by_contra hillegible
    obtain ⟨r, hr⟩ := resolve_illegible hgid.1 huid.1 hillegible
    obtain ⟨m₁, hm₁, -, -, -, hsn₁, -⟩ := hall ⟨gid, uid, 1, 0⟩ 0 rfl rfl (by norm_num)
    obtain ⟨m₂, hm₂, -, -, -, hsn₂, -⟩ := hall ⟨gid, uid, 2, 0⟩ 0 rfl rfl (by norm_num)
    have hsame : m₁ = m₂ := by
      have h₁ := (hr (zeroPad 5 1)).symm.trans hm₁
      have h₂ := (hr (zeroPad 5 2)).symm.trans hm₂
      rw [h₁] at h₂
      exact Option.some.inj (Except.ok.inj h₂)
    rw [hsame, hsn₂] at hsn₁
    cases hsn₁
  · rintro hlegible p utc rfl rfl hn
    obtain ⟨utc', hresolve⟩ := resolve_legible hgid.1 huid.1 hlegible hn
    refine ⟨_, hresolve, rfl, rfl, rfl, rfl, ?_⟩
    intro l r it hit hdistinct
    have hsn : it.serno = p.serno := hit
    show NonKVProtoBuff.pop (l ++ it :: r) p.serno = l ++ r
    rw [← hsn]
    exact NonKVProtoBuff.pop_of_distinct fun x hx => hsn ▸ hdistinct x hx

/-- The documented acknowledgement of a track command. -/
theorem acknowledged_track :
    ThreeDigits "001".toList ∧
      ∀ (p : NonKVProtocol) (utc : Time), p.gid = "001".toList → p.uid = "001".toList →
        1 ≤ p.serno ∧ p.serno ≤ 99999 → Acknowledged ⟨true, false⟩ .track p utc noon := by
  have hdigits : "001".toList.all Char.isDigit = true := by decide
  have hid : ThreeDigits "001".toList := ⟨rfl, List.all_eq_true.mp hdigits⟩
  refine ⟨hid, (acknowledged_iff_legible hid hid .track ⟨true, false⟩ noon).mpr ?_⟩
  exact (AckShape.legible_iff (by decide +kernel)).mpr rfl

/-- The encoder of unit 008 of group 002 before its first frame. -/
def unit008 : NonKVProtocol := ⟨"002".toList, "008".toList, 1, 0⟩

/-- A `FWHM` command to camera 081. -/
def fwhm081 : NonKVBody :=
  .fwhm "081".toList "101756000".toList (.fin (mkRat 24 1000))

/-- The documented acknowledgement with a doubled separator is not understood. -/
theorem not_acknowledged :
    (AckShape.mk true true).text (encode fwhm081 unit008 0).1 noon =
        "g#002008fwhm0810024T101756000Rec%2024-03-28%10:17:56%%00001%".toList ∧
      ¬ Acknowledged ⟨true, true⟩ fwhm081 unit008 0 noon := by
  refine ⟨by decide +kernel, ?_⟩
  rintro ⟨m, hresolve, -⟩
  have hnull : NonKVProtocol.resolve ((AckShape.mk true true).text (encode fwhm081 unit008 0).1 noon) =
      .ok none := by decide +kernel
  rw [hnull] at hresolve
  cases hresolve

end Gtoaes
