import Gtoaes.Astro.Sexagesimal

/-!
The buffer of `HourStr2Dbl` and `DegStr2Dbl`. It is emptied where a field ends, and a field
of hours, degrees or minutes ends in time. Nothing ends the field that has the decimal
point, or the third one, before the text does.
-/

namespace Gtoaes

open Lib

/-! ### Fields of any text -/

def IsSeparator (c : Char) : Prop := c = ' ' ∨ c = ':'

/-- As many digits as the fields in front of the third one have. -/
def fieldWidth (width part : ℕ) : ℕ := if part = 0 then width else 2

theorem fieldWidth_mem {width : ℕ} (hwidth : 0 < width ∧ width < 20) (part : ℕ) :
    0 < fieldWidth width part ∧ fieldWidth width part < 20 := by
  rw [fieldWidth]
  split_ifs
  · exact hwidth
  · decide

/-- A field starts in front of the rest of the text. -/
inductive Starts (width : ℕ) (t : Text) : ℕ → Text → Prop
  | first : Starts width t 0 t
  | blank {part : ℕ} {c : Char} {rest : Text} (h : Starts width t part (c :: rest))
      (hpart : part < 2) (hc : IsSeparator c) : Starts width t part rest
  | separated {part : ℕ} {ds : Text} {c : Char} {rest : Text}
      (h : Starts width t part (ds ++ c :: rest)) (hpart : part < 2) (hne : ds ≠ [])
      (hdigits : ∀ d ∈ ds, d.isDigit = true) (hwidth : ds.length ≤ fieldWidth width part)
      (hc : IsSeparator c) : Starts width t (part + 1) rest
  | full {part : ℕ} {ds : Text} {c : Char} {rest : Text}
      (h : Starts width t part (ds ++ c :: rest)) (hpart : part < 2)
      (hdigits : ∀ d ∈ ds, d.isDigit = true) (hwidth : ds.length = fieldWidth width part)
      (hc : c.isDigit = true) : Starts width t (part + 1) (c :: rest)

/-- Digits with at most one point, and in front of it no more than the field has. -/
structure OneField (width part : ℕ) (run : Text) : Prop where
  chars : ∀ c ∈ run, c.isDigit = true ∨ c = '.'
  points : run.count '.' ≤ 1
  whole : part < 2 → (run.takeWhile Char.isDigit).length ≤ fieldWidth width part

/-- A field has more than 20 digits and points, or 20 of them end the text. -/
def Crowded (width : ℕ) (t : Text) : Prop :=
  ∃ part run rest, Starts width t part (run ++ rest) ∧ OneField width part run ∧
    (20 < run.length ∨ run.length = 20 ∧ rest = [])

/-- What the loop of `DegStr2Dbl` runs over. -/
def dropSign : Text → Text
  | [] => []
  | c :: t => if c = '+' ∨ c = '-' then t else c :: t

namespace OneField

variable {width part : ℕ} {run : Text} {c : Char}

theorem nil : OneField width part [] := ⟨nofun, by simp, fun _ => Nat.zero_le _⟩

theorem digits (h : OneField width part run) (hpoint : run.count '.' = 0) :
    ∀ c ∈ run, c.isDigit = true := by
  intro c hc
  refine (h.chars c hc).resolve_right ?_
  rintro rfl
  exact List.count_eq_zero.mp hpoint hc

theorem length_le (h : OneField width part run) (hpoint : run.count '.' = 0) (hpart : part < 2) :
    run.length ≤ fieldWidth width part := by
  have hwhole := h.whole hpart
  rwa [List.takeWhile_eq_self_iff.mpr (h.digits hpoint)] at hwhole

theorem count_of_digits (hdigits : ∀ c ∈ run, c.isDigit = true) : run.count '.' = 0 :=
  List.count_eq_zero.mpr fun hmem => by cases hdigits _ hmem

theorem of_digits (hdigits : ∀ c ∈ run, c.isDigit = true)
    (hlength : part < 2 → run.length ≤ fieldWidth width part) : OneField width part run := by
  refine ⟨fun c hc => .inl (hdigits c hc), ?_, fun hpart => ?_⟩
  · rw [count_of_digits hdigits]
    exact Nat.zero_le 1
  · rw [List.takeWhile_eq_self_iff.mpr hdigits]
    exact hlength hpart

theorem of_append {run' : Text} (h : OneField width part (run ++ run')) :
    OneField width part run := by
  refine ⟨fun c hc => h.chars c (List.mem_append_left _ hc), ?_, fun hpart => ?_⟩
  · have hpoints := h.points
    rw [List.count_append] at hpoints
    omega
  · have hwhole := h.whole hpart
    rw [List.takeWhile_append] at hwhole
    split_ifs at hwhole with hall
    · rw [List.length_append] at hwhole
      omega
    · exact hwhole

theorem append_digit (h : OneField width part run) (hc : c.isDigit = true)
    (hopen : run.count '.' = 0 → part < 2 → run.length < fieldWidth width part) :
    OneField width part (run ++ [c]) := by
  have hpoint : c ≠ '.' := by
    rintro rfl
    cases hc
  refine ⟨fun d hd => ?_, ?_, fun hpart => ?_⟩
  · rcases List.mem_append.mp hd with hd | hd
    · exact h.chars d hd
    · exact .inl (List.mem_singleton.mp hd ▸ hc)
  · rw [List.count_append, List.count_singleton, if_neg (by simpa using hpoint)]
    exact h.points
  · rw [List.takeWhile_append]
    split_ifs with hall
    · have hdigits : ∀ d ∈ run, d.isDigit = true := List.takeWhile_eq_self_iff.mp
        ((List.takeWhile_prefix _).eq_of_length hall)
      have hlt := hopen (count_of_digits hdigits) hpart
      rw [List.takeWhile_cons_of_pos hc, List.takeWhile_nil, List.length_append,
        List.length_singleton]
      omega
    · exact h.whole hpart

theorem append_point (h : OneField width part run) (hpoint : run.count '.' = 0) :
    OneField width part (run ++ ['.']) := by
  refine ⟨fun d hd => ?_, ?_, fun hpart => ?_⟩
  · rcases List.mem_append.mp hd with hd | hd
    · exact h.chars d hd
    · exact .inr (List.mem_singleton.mp hd)
  · rw [List.count_append, hpoint]
    decide
  · rw [List.takeWhile_append_of_pos (h.digits hpoint), List.takeWhile_cons_of_neg (by decide),
      List.append_nil]
    exact h.length_le hpoint hpart

end OneField

/-! ### One character -/

namespace Fields

variable {width part : ℕ} {run rest : Text} {c : Char} {f : Fields}

/-- The buffer has what there is of the field. -/
structure Holds (part : ℕ) (run : Text) (f : Fields) : Prop where
  part_eq : f.part = part
  buff_eq : f.buff = run
  dot_eq : f.dot = run.count '.'

/-- A character that goes on with the field is stored behind it. -/
theorem read_stored (hf : f.Holds part run) (h : OneField width part (run ++ [c])) :
    read width f c = store c { f with dot := (run ++ [c]).count '.' } := by
  obtain ⟨rfl, rfl, hdot⟩ := hf
  have hpoints := h.points
  rw [List.count_append, List.count_singleton] at hpoints ⊢
  rcases h.chars c (List.mem_append_right _ List.mem_cons_self) with hc | rfl
  · have hpoint : (c == '.') = false := by
      rw [beq_eq_false_iff_ne]
      rintro rfl
      cases hc
    have hopen : ¬ (f.dot = 0 ∧
        (f.part = 0 ∧ f.buff.length = width ∨ f.part = 1 ∧ f.buff.length = 2)) := by
      rintro ⟨hnone, hfull⟩
      have hcount : (f.buff ++ [c]).count '.' = 0 := by
        rw [List.count_append, ← hdot, hnone, List.count_singleton, hpoint]
        rfl
      have hlength := h.length_le hcount (by omega)
      rw [List.length_append, List.length_singleton, fieldWidth] at hlength
      split_ifs at hlength <;> omega
    rw [read, if_pos hc, if_neg hopen, hpoint, if_neg (by decide), Nat.add_zero, ← hdot]
  · rw [if_pos (by decide)] at hpoints ⊢
    have hnone : ¬ f.dot > 0 := by omega
    rw [read, if_neg (by decide), if_neg (by decide), if_pos rfl, if_neg hnone, hdot]

theorem holds_stored (hf : f.Holds part run) (h : OneField width part (run ++ [c]))
    (hroom : run.length < 20) :
    ∃ f', read width f c = .ok f' ∧ f'.Holds part (run ++ [c]) := by
  rw [read_stored hf h, store]
  obtain ⟨rfl, rfl, -⟩ := hf
  rw [if_pos hroom]
  exact ⟨_, rfl, rfl, rfl, rfl⟩

theorem overrun_stored (hf : f.Holds part run) (h : OneField width part (run ++ [c]))
    (hfull : 20 ≤ run.length) : read width f c = .error .overrun := by
  rw [read_stored hf h, store]
  obtain ⟨rfl, rfl, -⟩ := hf
  rw [if_neg hfull.not_gt]

/-- A digit behind a field that is full starts the next one. -/
theorem read_full (hf : f.Holds part run) (hpoint : run.count '.' = 0) (hpart : part < 2)
    (hfull : run.length = fieldWidth width part) (hc : c.isDigit = true) (hwidth : width < 20) :
    ∃ f', read width f c = .ok f' ∧ f'.Holds (part + 1) [c] := by
  obtain ⟨rfl, rfl, hdot⟩ := hf
  rw [hpoint] at hdot
  have hnone : [c].count '.' = 0 := OneField.count_of_digits (by simpa using hc)
  have hends : f.dot = 0 ∧
      (f.part = 0 ∧ f.buff.length = width ∨ f.part = 1 ∧ f.buff.length = 2) := by
    rw [fieldWidth] at hfull
    split_ifs at hfull <;> omega
  have hroom : f.buff.length < 20 := by omega
  rw [read, if_pos hc, if_pos hends, close, if_pos hroom]
  exact ⟨_, rfl, rfl, rfl, hdot.trans hnone.symm⟩

theorem holds_separator (hf : f.Holds part run) (hpoint : run.count '.' = 0) (hpart : part < 2)
    (hne : run ≠ []) (hroom : run.length < 20) (hc : IsSeparator c) :
    ∃ f', read width f c = .ok f' ∧ f'.Holds (part + 1) [] := by
  obtain ⟨rfl, rfl, hdot⟩ := hf
  rw [hpoint] at hdot
  exact ⟨_, read_separator hc hdot hpart hne hroom, rfl, rfl, hdot⟩

theorem read_blank (hf : f.Holds part []) (hpart : part < 2) (hc : IsSeparator c) :
    read width f c = .ok f := by
  obtain ⟨rfl, hbuff, hdot⟩ := hf
  have hdigit : ¬ c.isDigit = true := by rcases hc with rfl | rfl <;> decide
  have hseparator : ¬ (f.dot > 0 ∨ f.part ≥ 2) := by
    rw [hdot]
    simp
    omega
  rw [read, if_neg hdigit, if_pos (show c = ' ' ∨ c = ':' from hc), if_neg hseparator, hbuff]
  rfl

/-! ### The loop -/

/-- What the loop keeps in front of the rest of the text. -/
structure Reached (width : ℕ) (t : Text) (f : Fields) (rest : Text) : Prop where
  starts : Starts width t f.part (f.buff ++ rest)
  field : OneField width f.part f.buff
  dot_eq : f.dot = f.buff.count '.'
  length_le : f.buff.length ≤ 20

variable {t : Text}

theorem Reached.holds (h : Reached width t f rest) : f.Holds f.part f.buff := ⟨rfl, rfl, h.dot_eq⟩

/-- A character of the field is stored, or there is no room for it. -/
theorem Reached.stored (h : Reached width t f (c :: rest))
    (hfield : OneField width f.part (f.buff ++ [c])) :
    (∃ f', read width f c = .ok f' ∧ Reached width t f' rest) ∨ Crowded width t := by
  rcases Nat.lt_or_ge f.buff.length 20 with hroom | hfull
  · obtain ⟨f', hread, hpart, hbuff, hdot⟩ := holds_stored h.holds hfield hroom
    refine .inl ⟨f', hread, ?_, ?_, hbuff ▸ hdot, ?_⟩
    · rw [hpart, hbuff, List.append_assoc]
      exact h.starts
    · rw [hpart, hbuff]
      exact hfield
    · rw [hbuff, List.length_append]
      exact hroom
  · refine .inr ⟨f.part, f.buff ++ [c], rest, ?_, hfield, .inl ?_⟩
    · rw [List.append_assoc]
      exact h.starts
    · rw [List.length_append]
      exact Nat.lt_succ_of_le hfull

/-- A digit is stored in its field or ends a field that is full. -/
theorem Reached.read_digit (hwidth : 0 < width ∧ width < 20) (h : Reached width t f (c :: rest))
    (hdigit : c.isDigit = true) :
    (∃ f', read width f c = .ok f' ∧ Reached width t f' rest) ∨ Crowded width t := by
  have hnone : f.dot = 0 → f.buff.count '.' = 0 := fun hdot => h.dot_eq ▸ hdot
  by_cases hfull : f.dot = 0 ∧ f.part < 2 ∧ f.buff.length = fieldWidth width f.part
  · obtain ⟨hdot, hpart, hlength⟩ := hfull
    obtain ⟨f', hread, hpart', hbuff, hdot'⟩ :=
      read_full h.holds (hnone hdot) hpart hlength hdigit hwidth.2
    refine .inl ⟨f', hread, ?_, ?_, hbuff ▸ hdot', ?_⟩
    · rw [hpart', hbuff]
      exact h.starts.full hpart (h.field.digits (hnone hdot)) hlength hdigit
    · rw [hpart', hbuff]
      exact OneField.nil.append_digit hdigit fun _ _ => (fieldWidth_mem hwidth _).1
    · rw [hbuff, List.length_singleton]
      decide
  · have hopen : f.buff.count '.' = 0 → f.part < 2 →
        f.buff.length < fieldWidth width f.part := by
      intro hpoint hpart
      refine lt_of_le_of_ne (h.field.length_le hpoint hpart) fun heq => ?_
      exact hfull ⟨h.dot_eq.trans hpoint, hpart, heq⟩
    exact h.stored (h.field.append_digit hdigit hopen)

/-- A separator ends a field of hours, degrees or minutes, and is skipped in front of one. -/
theorem Reached.read_separator (hwidth : 0 < width ∧ width < 20)
    (h : Reached width t f (c :: rest)) (hdot : f.dot = 0) (hpart : f.part < 2)
    (hsep : IsSeparator c) : ∃ f', read width f c = .ok f' ∧ Reached width t f' rest := by
  have hpoint : f.buff.count '.' = 0 := h.dot_eq ▸ hdot
  by_cases hempty : f.buff = []
  · have hholds : f.Holds f.part [] := hempty ▸ h.holds
    refine ⟨f, read_blank hholds hpart hsep, ?_, h.field, h.dot_eq, h.length_le⟩
    have hstarts := h.starts
    rw [hempty] at hstarts ⊢
    exact hstarts.blank hpart hsep
  · have hle := h.field.length_le hpoint hpart
    obtain ⟨f', hread, hpart', hbuff, hdot'⟩ := holds_separator h.holds hpoint hpart hempty
      (hle.trans_lt (fieldWidth_mem hwidth f.part).2) hsep
    refine ⟨f', hread, ?_, ?_, hbuff ▸ hdot', ?_⟩
    · rw [hpart', hbuff]
      exact h.starts.separated hpart hempty (h.field.digits hpoint) hle hsep
    · rw [hbuff]
      exact .nil
    · rw [hbuff]
      exact Nat.zero_le _

/-- One character keeps the invariant, is refused, or has no room. -/
theorem Reached.read (hwidth : 0 < width ∧ width < 20) (h : Reached width t f (c :: rest)) :
    (∃ f', Fields.read width f c = .ok f' ∧ Reached width t f' rest) ∨
      (∃ n, Fields.read width f c = .error (.code n)) ∨ Crowded width t := by
  by_cases hdigit : c.isDigit = true
  · exact (h.read_digit hwidth hdigit).imp_right .inr
  by_cases hsep : c = ' ' ∨ c = ':'
  · by_cases hlate : f.dot > 0 ∨ f.part ≥ 2
    · refine .inr (.inl ⟨-2, ?_⟩)
      rw [Fields.read, if_neg hdigit, if_pos hsep, if_pos hlate]
    · exact .inl (h.read_separator hwidth (by omega) (by omega) hsep)
  by_cases hpoint : c = '.'
  · by_cases hsecond : f.dot > 0
    · refine .inr (.inl ⟨-3, ?_⟩)
      rw [Fields.read, if_neg hdigit, if_neg hsep, if_pos hpoint, if_pos hsecond]
    · subst hpoint
      have hnone : f.buff.count '.' = 0 := h.dot_eq ▸ Nat.eq_zero_of_not_pos hsecond
      exact (h.stored (h.field.append_point hnone)).imp_right .inr
  · refine .inr (.inl ⟨-4, ?_⟩)
    rw [Fields.read, if_neg hdigit, if_neg hsep, if_neg hpoint]

theorem Reached.foldlM (hwidth : 0 < width ∧ width < 20) (hfree : ¬ Crowded width t)
    (h : Reached width t f rest) :
    (∃ f', rest.foldlM (Fields.read width) f = .ok f' ∧ Reached width t f' []) ∨
      ∃ n, rest.foldlM (Fields.read width) f = .error (.code n) := by
  induction rest generalizing f with
  | nil => exact .inl ⟨f, rfl, h⟩
  | cons c rest ih =>
      rw [List.foldlM_cons]
      rcases h.read hwidth with ⟨f', hread, hnext⟩ | ⟨n, hread⟩ | hcrowded
      · rw [hread]
        exact ih hnext
      · rw [hread]
        exact .inr ⟨n, rfl⟩
      · exact absurd hcrowded hfree

theorem readAll_ne_overrun (hwidth : 0 < width ∧ width < 20) (hfree : ¬ Crowded width t) (sign : ℚ) :
    readAll width sign t ≠ .overrun := by
  have hstart : Reached width t {} t := ⟨.first, .nil, rfl, Nat.zero_le _⟩
  rw [readAll]
  rcases hstart.foldlM hwidth hfree with ⟨f, hread, hend⟩ | ⟨n, hread⟩
  · have hroom : f.buff.length < 20 := by
      refine lt_of_le_of_ne hend.length_le fun hlength => hfree ?_
      exact ⟨f.part, f.buff, [], hend.starts, hend.field, .inr ⟨hlength, rfl⟩⟩
    rw [hread]
    simp [hroom]
  · rw [hread]
    simp

/-! ### Fields that are too long -/

/-- The field in the buffer has ended, or the next character ends it. -/
inductive Ready (width : ℕ) (f : Fields) : ℕ → Text → Prop
  | ended {part : ℕ} {rest : Text} (h : f.Holds part []) : Ready width f part rest
  | ends {part : ℕ} {run rest : Text} {c : Char} (h : f.Holds part run) (hpart : part < 2)
      (hpoint : run.count '.' = 0) (hfull : run.length = fieldWidth width part)
      (hc : c.isDigit = true) : Ready width f (part + 1) (c :: rest)

theorem Ready.read (hwidth : width < 20) (h : Ready width f part (c :: rest))
    (hfield : OneField width part [c]) :
    ∃ f', Fields.read width f c = .ok f' ∧ f'.Holds part [c] := by
  cases h with
  | ended h => exact holds_stored h hfield (by decide)
  | ends h hpart hpoint hfull hc => exact read_full h hpoint hpart hfull hc hwidth

theorem foldlM_append_of_ok {run' : Text} {f' : Fields}
    (h : run.foldlM (Fields.read width) f = .ok f') :
    (run ++ run').foldlM (Fields.read width) f = run'.foldlM (Fields.read width) f' := by
  rw [List.foldlM_append, h]
  rfl

theorem foldlM_singleton : [c].foldlM (Fields.read width) f = Fields.read width f c := by
  rw [List.foldlM_cons]
  exact bind_pure _

theorem Ready.foldlM (hwidth : width < 20) (h : Ready width f part (run ++ rest))
    (hfield : OneField width part run) (hne : run ≠ []) (hroom : run.length ≤ 20) :
    ∃ f', run.foldlM (Fields.read width) f = .ok f' ∧ f'.Holds part run := by
  induction run using List.reverseRecOn generalizing rest with
  | nil => exact absurd rfl hne
  | append_singleton run c ih =>
      rw [List.length_append, List.length_singleton] at hroom
      by_cases hfirst : run = []
      · subst hfirst
        rw [List.nil_append, foldlM_singleton]
        exact h.read hwidth hfield
      · rw [List.append_assoc] at h
        obtain ⟨f', hrun, hholds⟩ := ih h hfield.of_append hfirst (by omega)
        rw [foldlM_append_of_ok hrun, foldlM_singleton]
        exact holds_stored hholds hfield (by omega)

/-- Where a field starts, the loop is done with those in front of it. -/
theorem ready_of_starts (hwidth : 0 < width ∧ width < 20) (h : Starts width t part rest) :
    ∃ pre f, t = pre ++ rest ∧ pre.foldlM (Fields.read width) {} = .ok f ∧
      Ready width f part rest := by
  induction h with
  | first => exact ⟨[], {}, rfl, rfl, .ended ⟨rfl, rfl, rfl⟩⟩
  | @blank part c rest _ hpart hc ih =>
      obtain ⟨pre, f, htext, hpre, hready⟩ := ih
      cases hready with
      | ended hholds =>
          refine ⟨pre ++ [c], f, by rw [htext, List.append_assoc]; rfl, ?_, .ended hholds⟩
          rw [foldlM_append_of_ok hpre, foldlM_singleton, read_blank hholds hpart hc]
      | ends _ _ _ _ hdigit => rcases hc with rfl | rfl <;> cases hdigit
  | @separated part ds c rest _ hpart hne hdigits hle hc ih =>
      obtain ⟨pre, f, htext, hpre, hready⟩ := ih
      have hlt := (fieldWidth_mem hwidth part).2
      obtain ⟨f', hrun, hholds⟩ :=
        hready.foldlM hwidth.2 (.of_digits hdigits fun _ => hle) hne (by omega)
      obtain ⟨f'', hread, hholds'⟩ : ∃ f'', Fields.read width f' c = .ok f'' ∧
          f''.Holds (part + 1) [] :=
        holds_separator hholds (OneField.count_of_digits hdigits) hpart hne (by omega) hc
      refine ⟨pre ++ ds ++ [c], f'', by simp [htext], ?_, .ended hholds'⟩
      rw [List.append_assoc, foldlM_append_of_ok hpre, foldlM_append_of_ok hrun, foldlM_singleton,
        hread]
  | @full part ds c rest _ hpart hdigits hlength hc ih =>
      obtain ⟨pre, f, htext, hpre, hready⟩ := ih
      obtain ⟨hpos, hlt⟩ := fieldWidth_mem hwidth part
      have hne : ds ≠ [] := List.ne_nil_of_length_pos (by omega)
      obtain ⟨f', hrun, hholds⟩ :=
        hready.foldlM hwidth.2 (.of_digits hdigits fun _ => hlength.le) hne (by omega)
      refine ⟨pre ++ ds, f', by rw [htext, List.append_assoc], ?_,
        .ends hholds hpart (OneField.count_of_digits hdigits) hlength hc⟩
      rw [foldlM_append_of_ok hpre, hrun]

theorem readAll_eq_overrun (hwidth : 0 < width ∧ width < 20) (h : Crowded width t) (sign : ℚ) :
    readAll width sign t = .overrun := by
  obtain ⟨part, run, rest, hstarts, hfield, hlong⟩ := h
  obtain ⟨pre, f, rfl, hpre, hready⟩ := ready_of_starts hwidth hstarts
  obtain ⟨kept, more, rfl, hkept⟩ : ∃ kept more, run = kept ++ more ∧ kept.length = 20 :=
    ⟨run.take 20, run.drop 20, (List.take_append_drop 20 run).symm, by rw [List.length_take]; omega⟩
  rw [List.append_assoc] at hready
  obtain ⟨f', hrun, hholds⟩ := hready.foldlM hwidth.2 hfield.of_append
    (List.ne_nil_of_length_pos (by omega)) hkept.le
  rw [readAll, List.append_assoc, foldlM_append_of_ok hpre, foldlM_append_of_ok hrun]
  cases more with
  | nil =>
      obtain rfl : rest = [] := by
        rcases hlong with hlong | ⟨-, hrest⟩
        · simp [hkept] at hlong
        · exact hrest
      have hfull : ¬ f'.buff.length < 20 := by
        rw [hholds.buff_eq]
        omega
      rw [List.append_nil, List.foldlM_nil]
      exact if_neg hfull
  | cons c more =>
      have hnext : OneField width part (kept ++ [c]) := by
        rw [← List.singleton_append, ← List.append_assoc] at hfield
        exact hfield.of_append
      rw [List.cons_append, List.foldlM_cons, overrun_stored hholds hnext hkept.ge]
      rfl

theorem readAll_ne_overrun_iff (hwidth : 0 < width ∧ width < 20) (sign : ℚ) :
    readAll width sign t ≠ .overrun ↔ ¬ Crowded width t :=
  ⟨fun h hcrowded => h (readAll_eq_overrun hwidth hcrowded sign),
    fun h => readAll_ne_overrun hwidth h sign⟩

end Fields

/-! ### Both readers -/

theorem Starts.length_le {width : ℕ} {t : Text} {part : ℕ} {rest : Text}
    (h : Starts width t part rest) : rest.length ≤ t.length := by
  induction h with
  | first => exact le_rfl
  | blank _ _ _ ih => exact (Nat.le_succ _).trans ih
  | separated _ _ _ _ _ _ ih =>
      rw [List.length_append, List.length_cons] at ih
      omega
  | full _ _ _ _ _ ih =>
      rw [List.length_append] at ih
      omega

/-- Only a text of 20 characters has a field that is too long. -/
theorem Crowded.length_le {width : ℕ} {t : Text} (h : Crowded width t) : 20 ≤ t.length := by
  obtain ⟨part, run, rest, hstarts, -, hlong⟩ := h
  have hle := hstarts.length_le
  rw [List.length_append] at hle
  omega

theorem not_crowded_nil (width : ℕ) : ¬ Crowded width [] := fun h => by
  cases h.length_le

/-- The readers store in their buffer only, but for the texts with a field that is too long
for it. -/
theorem str2Dbl_ne_overrun_iff (t : Text) :
    (hourStr2Dbl (some t) ≠ .overrun ↔ ¬ Crowded 2 t) ∧
      (degStr2Dbl (some t) ≠ .overrun ↔ ¬ Crowded 3 (dropSign t)) := by
  cases t with
  | nil => simp [hourStr2Dbl, degStr2Dbl, dropSign, not_crowded_nil]
  | cons c t =>
      exact ⟨Fields.readAll_ne_overrun_iff (by decide) 1,
        Fields.readAll_ne_overrun_iff (by decide) _⟩

/-- A number of 18 decimals, without a place for its end. -/
theorem hourStr2Dbl_overrun :
    hourStr2Dbl (some "1.234567890123456789".toList) = .overrun ∧
      degStr2Dbl (some "1.234567890123456789".toList) = .overrun := by
  decide +kernel

end Gtoaes
