import Gtoaes.Obss.FocusSide

/-!
When a focuser counts as settled. The system counts the reports in a row that repeat a
position, and takes the third for the end of a movement. The count is kept in the entry
of the camera and starts anew with a change of position and with a `Focus`; `FocusSync`
and `FWHM` set a focuser going without starting it anew.
-/

namespace Gtoaes

open Lib Lib.Handler

/-- One report, by what it finds. -/
theorem Obss.focusReport_cases (pos : ℤ) (it : CameraInfo) :
    (pos ≠ it.focPos ∧ focusReport pos it =
      ({ it with focPos := pos, rep := 0, focTar := if it.focState < 0 then pos else it.focTar },
        false)) ∨
    (pos = it.focPos ∧ it.focState ≠ 0 ∧ 3 ≤ it.rep + 1 ∧
      focusReport pos it = ({ it with rep := it.rep + 1, focState := 0 }, true)) ∨
    (pos = it.focPos ∧ it.focState ≠ 0 ∧ it.rep + 1 < 3 ∧
      focusReport pos it = ({ it with rep := it.rep + 1 }, false)) ∨
    (pos = it.focPos ∧ it.focState = 0 ∧ focusReport pos it = (it, false)) := by
  rw [focusReport]
  by_cases hpos : pos = it.focPos
  · rw [if_neg (not_not_intro hpos)]
    by_cases hstate : it.focState = 0
    · exact .inr (.inr (.inr ⟨hpos, hstate, if_neg (not_not_intro hstate)⟩))
    · rw [if_pos hstate]
      obtain hge | hlt := le_or_gt 3 (it.rep + 1)
      · exact .inr (.inl ⟨hpos, hstate, hge, if_pos hge⟩)
      · exact .inr (.inr (.inl ⟨hpos, hstate, hlt, if_neg (not_le_of_gt hlt)⟩))
  · exact .inl ⟨hpos, if_pos hpos⟩

namespace Obss

/-- The reports in a row that have repeated the position of an entry, since that position
changed last or a command for its focuser was accepted. -/
def streakAfter (ctx : Ctx) (s : Obss) (i n : ℕ) (ev : Event) : ℕ :=
  match s.reportAt i ev with
  | some pos => if (s.focuserAt i).any (·.focPos == pos) then n + 1 else 0
  | none => if s.commandsAt ctx i ev then 0 else n

/-- The focuser of an entry counts as settled. -/
def SettledAt (s : Obss) (i : ℕ) : Prop := ∃ f ∈ s.focuserAt i, f.focState = 0

/-- The camera of an entry is told that its focuser has settled, other than on coming
back. -/
def TellsSettled (s : Obss) (i : ℕ) (ev : Event) (acts : List Act) : Prop :=
  (∀ conn cid, ev ≠ .coupleCamera conn cid) ∧
    ∃ conn m, (conn, m) ∈ acts.filterMap Act.settled ∧ s.camIndex m.cid = some i

/-- An accepted `FocusSync` or `FWHM` finds no repeated report counted. -/
def ResetsClean (ctx : Ctx) (s : Obss) (i : ℕ) (ev : Event) : Prop :=
  s.resetsAt ctx i ev = true → ∀ f ∈ s.focuserAt i, f.rep = 0

instance (ctx : Ctx) (s : Obss) (i : ℕ) (ev : Event) : Decidable (ResetsClean ctx s i ev) :=
  inferInstanceAs (Decidable (_ → _))

end Obss

/-- A system on its own, with the reports in a row that have repeated the position of
one entry. -/
structure Watched where
  solo : Solo
  streak : ℕ := 0

/-- The system, with an eye on the entry at `i`. -/
def watch (posix : PosixTime) (i : ℕ) : Machine Watched Input Act where
  step w input :=
    ({ solo := ((solo posix).step w.solo input).1
       streak := w.solo.obss.streakAfter (w.solo.ctx posix input) i w.streak input.ev },
      ((solo posix).step w.solo input).2)

def Watched.start (gid uid : Text) (type : ObssType) (now : Time) : Config Watched Act where
  state := { solo := { obss := Obss.create gid uid type now } }
  hist := []

/-- The focuser of the entry settles, and its camera is told so, only at a report that is
at least the third in a row to repeat the position. -/
def SettlesInTime (posix : PosixTime) (i : ℕ) (c : Config Watched Act) (input : Input) : Prop :=
  (¬ c.state.solo.obss.SettledAt i ∧
      ((watch posix i).next c input).state.solo.obss.SettledAt i) ∨
    c.state.solo.obss.TellsSettled i input.ev ((watch posix i).step c.state input).2 →
  (c.state.solo.obss.reportAt i input.ev).isSome = true ∧
    3 ≤ ((watch posix i).next c input).state.streak

namespace Obss

variable {ctx : Ctx} {s : Obss} {i n : ℕ} {ev : Event}

theorem focuserAt_of_getElem? {it : CameraInfo} (h : s.camInfoVec[i]? = some it) :
    s.focuserAt i = some it.focuser := by
  rw [focuserAt, h]
  rfl

theorem streakAfter_of_report {pos : ℤ} (h : s.reportAt i ev = some pos) {it : CameraInfo}
    (hit : s.camInfoVec[i]? = some it) :
    s.streakAfter ctx i n ev = if it.focPos = pos then n + 1 else 0 := by
  rw [streakAfter, h, focuserAt_of_getElem? hit]
  simp [CameraInfo.focuser]

/-- The count in the entry has not run ahead of the reports. -/
def Counted (s : Obss) (i n : ℕ) : Prop := ∀ f ∈ s.focuserAt i, f.rep ≤ n

theorem counted_step (h : s.Counted i n) (hclean : s.ResetsClean ctx i ev) :
    (step ctx ev s).1.Counted i (s.streakAfter ctx i n ev) := by
  intro f hf
  obtain ⟨pos, hreport, hat⟩ | ⟨proto, rfl, htarget, hat⟩ | ⟨hreset, hat⟩ |
    ⟨hreport, hcommand, hat⟩ := focuserAt_step ctx s i ev
  · -- a report counts once more, or from nothing
    obtain ⟨it, hit, rfl⟩ := Option.map_eq_some_iff.mp (hat ▸ hf)
    have hcount : it.rep ≤ n := h _ (focuserAt_of_getElem? hit)
    rw [streakAfter_of_report hreport hit]
    obtain ⟨hpos, heq⟩ | ⟨hpos, -, -, heq⟩ | ⟨hpos, -, -, heq⟩ | ⟨hpos, -, heq⟩ :=
      focusReport_cases pos it
    · rw [heq, if_neg (Ne.symm hpos)]
      exact le_rfl
    all_goals
      rw [heq, if_pos hpos.symm]
      simp only [CameraInfo.focuser]
      omega
  · -- a movement starts the count anew
    obtain ⟨it, hit, rfl⟩ := Option.map_eq_some_iff.mp (hat ▸ hf)
    exact Int.natCast_nonneg _
  · -- a reset leaves the count, which is at its start
    obtain ⟨g, hg, rfl⟩ := Option.map_eq_some_iff.mp (hat ▸ hf)
    have hzero : g.reset.rep = 0 := hclean hreset g hg
    rw [hzero]
    exact Int.natCast_nonneg _
  · have hstay : s.streakAfter ctx i n ev = n := by
      rw [streakAfter, hreport, hcommand]
      rfl
    rw [hstay]
    obtain hsame | ⟨-, hnew⟩ := hat
    · exact h f (hsame ▸ hf)
    · obtain rfl := Option.some.inj (hnew.symm.trans hf)
      exact Int.natCast_nonneg _

/-- A report that settles the focuser repeats the position, and the count has come to
three with it. -/
theorem report_settles {pos : ℤ} {it : CameraInfo}
    (h : (it.focState ≠ 0 ∧ (focusReport pos it).1.focState = 0) ∨ (focusReport pos it).2 = true) :
    it.focPos = pos ∧ 3 ≤ it.rep + 1 := by
  obtain ⟨-, heq⟩ | ⟨hpos, -, hthree, -⟩ | ⟨-, -, -, heq⟩ | ⟨-, -, heq⟩ := focusReport_cases pos it
  · rw [heq] at h
    obtain ⟨hne, hzero⟩ | hfalse := h
    · exact absurd hzero hne
    · cases hfalse
  · exact ⟨hpos.symm, hthree⟩
  all_goals
    rw [heq] at h
    obtain ⟨hne, hzero⟩ | hfalse := h
    · exact absurd hzero hne
    · cases hfalse

/-- Only a report makes a focuser count as settled. -/
theorem settledAt_step (hbefore : ¬ s.SettledAt i) (hafter : (step ctx ev s).1.SettledAt i) :
    ∃ pos it, s.reportAt i ev = some pos ∧ s.camInfoVec[i]? = some it ∧ it.focState ≠ 0 ∧
      (focusReport pos it).1.focState = 0 := by
  obtain ⟨f, hf, hzero⟩ := hafter
  have hnot : ∀ g, s.focuserAt i = some g → g.focState ≠ 0 := fun g hg h0 => hbefore ⟨g, hg, h0⟩
  obtain ⟨pos, hreport, hat⟩ | ⟨proto, rfl, htarget, hat⟩ | ⟨hreset, hat⟩ |
    ⟨hreport, hcommand, hat⟩ := focuserAt_step ctx s i ev
  · obtain ⟨it, hit, rfl⟩ := Option.map_eq_some_iff.mp (hat ▸ hf)
    exact ⟨pos, it, hreport, hit, hnot _ (focuserAt_of_getElem? hit), hzero⟩
  · obtain ⟨it, hit, rfl⟩ := Option.map_eq_some_iff.mp (hat ▸ hf)
    cases hzero
  · obtain ⟨g, hg, rfl⟩ := Option.map_eq_some_iff.mp (hat ▸ hf)
    cases hzero
  · obtain hsame | ⟨-, hnew⟩ := hat
    · exact absurd hzero (hnot f (hsame ▸ hf))
    · obtain rfl := Option.some.inj (hnew.symm.trans hf)
      cases hzero

/-- Only a report has a camera told, unless it comes back. -/
theorem tellsSettled_step (h : s.TellsSettled i ev (step ctx ev s).2) :
    ∃ pos it, s.reportAt i ev = some pos ∧ s.camInfoVec[i]? = some it ∧
      (focusReport pos it).2 = true := by
  obtain ⟨hcouple, conn, m, hmem, hindex⟩ := h
  have hsilent : (step ctx ev s).2.filterMap Act.settled ≠ [] := List.ne_nil_of_mem hmem
  cases hev : ev.focusing with
  | false => exact absurd (fociInert_step ctx hev s).2 hsilent
  | true =>
      cases ev with
      | notifyFocus cid pos =>
          rw [notifyFocus_settled] at hmem
          cases hfind : s.camInfoVec.find? (hasCid cid) with
          | none =>
              rw [hfind] at hmem
              cases hmem
          | some it =>
              rw [hfind] at hmem
              dsimp only at hmem
              split at hmem
              · rename_i htells
                obtain ⟨c, -, heq⟩ := List.mem_map.mp hmem
                obtain ⟨-, rfl⟩ := Prod.mk.inj heq
                exact ⟨pos, it, if_pos hindex, (find?_of_camIndex hindex).symm.trans hfind, htells⟩
              · cases hmem
      | coupleCamera conn cid => exact absurd rfl (hcouple conn cid)
      | focus | focusSync | notifyFWHM =>
          exact absurd (settled_of_command ctx s hev (by simp) (by simp)) hsilent
      | _ => cases hev

end Obss

/-- The focuser of a camera settles, and its camera is told so, only at a report that is
at least the third in a row to repeat the position since it changed or a command was
accepted: in every run in which each accepted `FocusSync` or `FWHM` for that camera finds
no repeated report counted. -/
theorem settlesInTime_of_clean (posix : PosixTime) (gid uid : Text) (type : ObssType) (now : Time)
    (i : ℕ) (is : List Input)
    (h : (watch posix i).Each (fun c input =>
      c.state.solo.obss.ResetsClean (c.state.solo.ctx posix input) i input.ev)
      (Watched.start gid uid type now) is) :
    (watch posix i).Each (SettlesInTime posix i) (Watched.start gid uid type now) is := by
  have hstart : (Watched.start gid uid type now).state.solo.obss.Counted i 0 := by
    intro f hf
    cases hf
  -- the invariant: the entry has not counted further than the reports
  have hcounted := h.with_invariant (P := fun c => c.state.solo.obss.Counted i c.state.streak)
    hstart fun c input hc hclean => Obss.counted_step hc hclean
  refine hcounted.mono fun c input hc hsettles => ?_
  obtain ⟨hcount, -⟩ := hc
  obtain ⟨pos, it, hreport, hit, hend⟩ : ∃ pos it,
      c.state.solo.obss.reportAt i input.ev = some pos ∧
        c.state.solo.obss.camInfoVec[i]? = some it ∧
          ((it.focState ≠ 0 ∧ (Obss.focusReport pos it).1.focState = 0) ∨
            (Obss.focusReport pos it).2 = true) := by
    obtain ⟨hbefore, hafter⟩ | htells := hsettles
    · obtain ⟨pos, it, hreport, hit, hend⟩ := Obss.settledAt_step hbefore hafter
      exact ⟨pos, it, hreport, hit, .inl hend⟩
    · obtain ⟨pos, it, hreport, hit, hend⟩ := Obss.tellsSettled_step htells
      exact ⟨pos, it, hreport, hit, .inr hend⟩
  obtain ⟨hpos, hthree⟩ := Obss.report_settles hend
  have hrep : it.rep ≤ c.state.streak := hcount _ (Obss.focuserAt_of_getElem? hit)
  refine ⟨Option.isSome_iff_exists.mpr ⟨pos, hreport⟩, ?_⟩
  show 3 ≤ c.state.solo.obss.streakAfter _ i c.state.streak input.ev
  rw [Obss.streakAfter_of_report hreport hit, if_pos hpos]
  omega

/-- Camera and focuser come, and the position is reported. -/
def focuserComes : List Event :=
  [.coupleFocus 2, .coupleCamera 1 "061".toList, .notifyFocus "061".toList 5]

/-- The same position again, so many times. -/
def repeatedly (n : ℕ) : List Event := List.replicate n (.notifyFocus "061".toList 5)

/-- The focuser is reset at once, and its position is repeated three times. -/
def resetAtOnce : List Input :=
  (focuserComes ++ [Event.focusSync {}] ++ repeatedly 3).map Event.plain

theorem settlesInTime_resetAtOnce :
    (watch .blank 0).Each (SettlesInTime .blank 0)
        (Watched.start "002".toList "006".toList .gwac 0) resetAtOnce ∧
      ((watch .blank 0).exec (Watched.start "002".toList "006".toList .gwac 0)
        resetAtOnce).state.solo.obss.focuserAt 0 = some ⟨0, 5, 5, 3⟩ := by
  refine ⟨settlesInTime_of_clean .blank _ _ .gwac 0 0 resetAtOnce ?_, by decide⟩
  decide

/-- The focuser has settled when it is reset, and its position is repeated once. -/
def resetSettled : List Input :=
  (focuserComes ++ repeatedly 3 ++ [Event.focusSync {}]).map Event.plain ++
    (repeatedly 1).map Event.plain

theorem not_settlesInTime : ¬ ∀ (posix : PosixTime) (gid uid : Text) (type : ObssType)
    (now : Time) (i : ℕ) (is : List Input),
    (watch posix i).Each (SettlesInTime posix i) (Watched.start gid uid type now) is := by
  intro h
  have hrun := h .blank "002".toList "006".toList .gwac 0 0 resetSettled
  obtain ⟨-, hlast, -⟩ := Machine.each_append.mp hrun
  refine absurd (hlast (.inl ⟨?_, ?_⟩)).2 (by decide)
  · rintro ⟨f, hf, hzero⟩
    obtain rfl : ⟨-1, 5, 5, 3⟩ = f := Option.some.inj hf
    cases hzero
  · exact ⟨⟨0, 5, 5, 4⟩, rfl, rfl⟩

end Gtoaes
