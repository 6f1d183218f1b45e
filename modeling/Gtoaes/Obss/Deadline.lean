import Gtoaes.Lib.CString
import Gtoaes.Obss.Apart
import Gtoaes.Obss.PlanTimes

/-!
The end of a running plan. `thread_obsplan` keeps it in a variable of its own, which
outlives the plan, and compares it with the clock in whole seconds narrowed to an
`int`. The variable belongs to the plan as long as the plan runs; the comparison is
right unless the end is more than `2 ^ 31` seconds ahead.
-/

namespace Gtoaes

open Lib Lib.Handler

/-! ### Seconds as the executor counts them -/

/-- A duration in seconds. -/
def seconds (d : Ticks) : Double := .fin ((d : ℚ) / (ticksPerSecond : ℚ))

/-- The same as `over_secs` has it. -/
def overSecs (d : Ticks) : Double := Double.ofInt (toInt32 (Obss.totalSeconds d))

/-- So long a time is ahead that its seconds, narrowed, come round beyond the
exposure. -/
def WrapsRound (d : Ticks) (exptime : Double) : Prop :=
  Obss.totalSeconds d < -2 ^ 31 ∧ (overSecs d).gt exptime = true

/-- A fraction of a second is ahead, and without it the time is beyond the exposure,
which is negative then. -/
def CutsShort (d : Ticks) (exptime : Double) : Prop :=
  -2 ^ 31 ≤ Obss.totalSeconds d ∧ d < 0 ∧
    (Double.ofInt (Obss.totalSeconds d)).gt exptime = true

theorem Double.gt_mono {p q : ℚ} (hpq : p ≤ q) {x : Double} (h : (Double.fin p).gt x = true) :
    (Double.fin q).gt x = true := by
  cases x with
  | fin e => exact decide_eq_true ((of_decide_eq_true h).trans_le hpq)
  | inf neg => exact h
  | nan => exact h

/-- Cutting a fraction off does not add to a time that is past. -/
theorem totalSeconds_le {d : Ticks} (hd : 0 ≤ d) :
    ((Obss.totalSeconds d : ℤ) : ℚ) ≤ (d : ℚ) / (ticksPerSecond : ℚ) := by
  rw [le_div_iff₀ (by norm_num [ticksPerSecond])]
  have h : Obss.totalSeconds d * ticksPerSecond ≤ d := by
    rw [Obss.totalSeconds, ticksPerSecond, Int.tdiv_eq_ediv_of_nonneg hd]
    omega
  exact_mod_cast h

theorem totalSeconds_nonpos {d : Ticks} (hd : d < 0) : Obss.totalSeconds d ≤ 0 := by
  have hneg : 0 ≤ (-d).tdiv ticksPerSecond :=
    Int.tdiv_nonneg (Int.neg_nonneg.mpr hd.le) (by decide)
  rw [Int.neg_tdiv] at hneg
  exact Int.neg_nonneg.mp hneg

/-- A plan whose end is past is not mistaken for one that is over. -/
theorem seconds_gt_of_overSecs {d : Ticks} (hd : 0 ≤ d) {exptime : Double}
    (h : (overSecs d).gt exptime = true) : (seconds d).gt exptime = true := by
  refine Double.gt_mono ?_ h
  have hnarrow : toInt32 (Obss.totalSeconds d) ≤ Obss.totalSeconds d :=
    toInt32_le ((by decide : (-2 ^ 31 : ℤ) ≤ 0).trans (Int.tdiv_nonneg hd (by decide)))
  calc ((toInt32 (Obss.totalSeconds d) : ℤ) : ℚ) ≤ ((Obss.totalSeconds d : ℤ) : ℚ) := by
        exact_mod_cast hnarrow
    _ ≤ (d : ℚ) / (ticksPerSecond : ℚ) := totalSeconds_le hd

/-- The executor's comparison says no more than the clock does, but for the two ways
in which its seconds mislead it. -/
theorem overSecs_gt_iff (d : Ticks) (exptime : Double) :
    ((overSecs d).gt exptime = true → (seconds d).gt exptime = true) ↔
      (seconds d).gt exptime = true ∨ (¬ WrapsRound d exptime ∧ ¬ CutsShort d exptime) := by
  by_cases hover : (seconds d).gt exptime = true
  · exact iff_of_true (fun _ => hover) (.inl hover)
  rw [or_iff_right hover, imp_iff_not hover]
  by_cases hfar : Obss.totalSeconds d < -2 ^ 31
  · have hcut : ¬ CutsShort d exptime := fun h => absurd h.1 (not_le.mpr hfar)
    rw [and_iff_left hcut, WrapsRound, and_iff_right hfar]
  · have hwrap : ¬ WrapsRound d exptime := fun h => hfar h.1
    rw [and_iff_right hwrap, CutsShort, and_iff_right (not_lt.mp hfar)]
    by_cases hd : d < 0
    · have hsmall := totalSeconds_nonpos hd
      rw [and_iff_right hd, overSecs, toInt32_of_isInt ⟨not_lt.mp hfar, by omega⟩]
    · -- the time is past: what the executor sees, the clock has gone through
      refine iff_of_true (fun h => hover (seconds_gt_of_overSecs (not_lt.mp hd) h)) fun h => ?_
      exact hd h.1

namespace Obss

/-! ### The executor's variable -/

theorem away_tmend : Away Obss.tmend (fun _ : Act => (none : Option Unit)) where
  frames _ _ _ := rfl
  target _ _ _ := rfl
  counters _ _ := rfl
  plan _ _ _ := rfl
  numbers _ _ _ := rfl
  silent _ _ := rfl
  cameras _ _ _ := rfl
  blind _ := rfl

/-- Only the executor writes its variable. -/
theorem tmend_step (ctx : Ctx) {ev : Event} (h : ev ≠ .obsplanTick) (s : Obss) :
    (step ctx ev s).1.tmend = s.tmend := by
  by_cases hdistant : ev.distant = true
  · exact (away_tmend.step_distant ctx hdistant s).1
  by_cases hoptical : ev.optical = true
  · exact (away_tmend.step_optical ctx hoptical s).1
  -- what comes or goes, and reports of the mount; none of it writes `tmend`
  cases ev with
  | coupleMount conn =>
      rw [step, coupleMount]
      split <;> split <;> rfl
  | decoupleMount ptr =>
      rw [step, decoupleMount]
      split <;> rfl
  | coupleFocus conn => rfl
  | decoupleFocus ptr =>
      rw [step, decoupleFocus, update_apply]
      split <;> rfl
  | notifyMountState state =>
      rw [step, notifyMountState]
      split
      · rfl
      · split
        · have hstate : Inert Obss.tmend (fun _ : Act => (none : Option Unit)) _ :=
            .cons (away_tmend.mountArrived state) (.cons (.update fun _ => rfl) .nil)
          exact (hstate s).1
        · rfl
  | notifyMountPosition pos => rfl
  | obsplanTick => exact absurd rfl h
  | _ => simp [Event.distant, Event.optical] at hdistant hoptical

/-- The plan that runs has its own end in the executor's variable. -/
def Dated (posix : PosixTime) (s : Obss) : Prop :=
  ∀ p, s.plan = some p → s.planState.state = some obsplanRunning →
    s.tmend = posix.fromIsoExtendedString p.plan.planEnd

theorem dated_of_not_running {posix : PosixTime} {s : Obss}
    (h : s.planState.state ≠ some obsplanRunning) : s.Dated posix :=
  fun _ _ hrun => absurd hrun h

theorem dated_of_none {posix : PosixTime} {s : Obss} (h : s.plan = none) : s.Dated posix := by
  intro p hp
  rw [h] at hp
  cases hp

theorem dated_threadObsplan {ctx : Ctx} {s : Obss} (h : s.Owns ctx) (hs : s.Dated ctx.posix) :
    (threadObsplan ctx s).1.Dated ctx.posix := by
  unfold threadObsplan
  split
  · exact hs
  · rename_i p hp
    rw [if_neg (by simp [h p hp])]
    split
    · obtain ⟨-, heq⟩ | ⟨-, heq⟩ :=
        when_cases readyToRun (all [processNewPlan ctx p, setTmend ctx p.plan]) s
      · -- the end of the plan just started is written
        intro q hq _
        rw [heq, all_pair] at hq ⊢
        have hplan : (processNewPlan ctx p s).1.plan = some q := hq
        rw [(processNewPlan_spec ctx p s).1, hp] at hplan
        obtain rfl := Option.some.inj hplan
        rfl
      · rwa [heq]
    · split
      · obtain ⟨-, heq⟩ | ⟨-, heq⟩ := when_cases (overdue ctx · p.plan) (abort ctx) s
        · rw [heq]
          exact dated_of_none (abort_spec h).1
        · rwa [heq]
      · exact hs

theorem dated_step {ctx : Ctx} {s : Obss} (h : s.Owns ctx) (ev : Event) (hs : s.Dated ctx.posix) :
    (step ctx ev s).1.Dated ctx.posix := by
  by_cases hev : ev = .obsplanTick
  · subst hev
    exact dated_threadObsplan h hs
  have htmend := tmend_step ctx hev s
  cases step_planMove h ev with
  | stays _ hr =>
      obtain ⟨hplan, hst⟩ := Prod.mk.inj hr.1
      intro p hp hrun
      rw [htmend]
      exact hs p (hplan ▸ hp) (hst ▸ hrun)
  | stored plan _ hr =>
      apply dated_of_not_running
      rw [(Prod.mk.inj hr.1).2]
      exact fun hrun => absurd (Option.some.inj hrun) (by decide)
  | started => exact absurd rfl hev
  | ended _ p code hp _ hr =>
      rw [closePlan, hp] at hr
      exact dated_of_none (Prod.mk.inj hr.1).1

/-- A round of the executor drops the plan that runs where it finds it overdue. -/
theorem threadObsplan_drops_iff {ctx : Ctx} {s : Obss} (h : s.Owns ctx) {p : PlanPtr}
    (hp : s.plan = some p) : (threadObsplan ctx s).1.plan = none ↔
      s.planState.state = some obsplanRunning ∧ s.overdue ctx p.plan = true := by
  have hheld : s.plan ≠ none := by
    rw [hp]
    exact Option.some_ne_none p
  simp only [threadObsplan, hp, h p hp, Bool.false_eq_true, if_false]
  -- a plan that waits may be started, but is not dropped
  by_cases hcat : s.planState.state = some obsplanCataloged
  · have hnot : s.planState.state ≠ some obsplanRunning := by
      rw [hcat]
      decide
    rw [if_pos hcat, iff_false_right (fun hrun => hnot hrun.1)]
    obtain ⟨-, heq⟩ | ⟨-, heq⟩ :=
      when_cases readyToRun (all [processNewPlan ctx p, setTmend ctx p.plan]) s
    · rw [heq, all_pair]
      show (processNewPlan ctx p s).1.plan ≠ none
      rwa [(processNewPlan_spec ctx p s).1]
    · rwa [heq]
  rw [if_neg hcat]
  -- a running one is dropped just if it is overdue
  by_cases hrun : s.planState.state = some obsplanRunning
  · rw [if_pos hrun, and_iff_right hrun]
    obtain ⟨hover, heq⟩ | ⟨hover, heq⟩ := when_cases (overdue ctx · p.plan) (abort ctx) s
    · rw [heq]
      exact iff_of_true (abort_spec h).1 hover
    · rw [heq, hover]
      exact iff_of_false hheld Bool.false_ne_true
  · rw [if_neg hrun]
    exact iff_of_false hheld fun h => hrun h.1

end Obss

/-! ### Runs -/

/-- The time is past the plan's own end by more than its exposure. -/
def KVAppPlan.PastEnd (posix : PosixTime) (now : Time) (plan : KVAppPlan) : Prop :=
  ∃ t, posix.fromIsoExtendedString plan.planEnd = some t ∧
    (seconds (now * ticksPerSecond - t)).gt plan.exptime = true

/-- A round of the executor takes a plan away only when that plan is past its end. -/
def EndsPast (posix : PosixTime) (c : Config Solo Act) (i : Input) : Prop :=
  ∀ p, i.ev = .obsplanTick → c.state.obss.plan = some p →
    ((solo posix).next c i).state.obss.plan = none → p.plan.PastEnd posix i.now

/-- A round that finds a plan running which is not past its end is not misled about
the time to it. -/
def CountsRight (posix : PosixTime) (c : Config Solo Act) (i : Input) : Prop :=
  ∀ p t, i.ev = .obsplanTick → c.state.obss.plan = some p →
    c.state.obss.planState.state = some obsplanRunning →
    posix.fromIsoExtendedString p.plan.planEnd = some t →
    (seconds (i.now * ticksPerSecond - t)).gt p.plan.exptime = true ∨
      (¬ WrapsRound (i.now * ticksPerSecond - t) p.plan.exptime ∧
        ¬ CutsShort (i.now * ticksPerSecond - t) p.plan.exptime)

/-- A plan taken away has been running, and the executor has counted its own end as
past. -/
theorem dropped_iff {posix : PosixTime} {c : Config Solo Act} {i : Input}
    (h : c.state.obss.Dated posix) (hev : i.ev = .obsplanTick) {p : PlanPtr}
    (hp : c.state.obss.plan = some p) : ((solo posix).next c i).state.obss.plan = none ↔
      c.state.obss.planState.state = some obsplanRunning ∧
        ∃ t, posix.fromIsoExtendedString p.plan.planEnd = some t ∧
          (overSecs (i.now * ticksPerSecond - t)).gt p.plan.exptime = true := by
  rw [solo_next_obss, hev]
  refine (Obss.threadObsplan_drops_iff (solo_owns posix c.state i) hp).trans
    (and_congr_right fun hrun => ?_)
  rw [Obss.overdue, h p hp hrun]
  cases posix.fromIsoExtendedString p.plan.planEnd with
  | none => simp
  | some t => simp [overSecs, Solo.ctx]

/-- A plan without an end, or with one that is no time, is not taken away. -/
theorem kept_of_no_end {posix : PosixTime} {c : Config Solo Act} {i : Input}
    (h : c.state.obss.Dated posix) (hev : i.ev = .obsplanTick) {p : PlanPtr}
    (hp : c.state.obss.plan = some p)
    (hend : posix.fromIsoExtendedString p.plan.planEnd = none) :
    ((solo posix).next c i).state.obss.plan ≠ none := by
  intro hnone
  obtain ⟨-, t, ht, -⟩ := (dropped_iff h hev hp).mp hnone
  rw [hend] at ht
  cases ht

/-- The executor ends each plan by that plan's own end, if and only if it is never
misled about the time to it. -/
theorem endsPast_iff_countsRight (posix : PosixTime) (gid uid : Text) (type : ObssType)
    (now : Time) (is : List Input) :
    (solo posix).Each (EndsPast posix) (Solo.start gid uid type now) is ↔
      (solo posix).Each (CountsRight posix) (Solo.start gid uid type now) is := by
  have hdated : (solo posix).Each (fun c _ => c.state.obss.Dated posix)
      (Solo.start gid uid type now) is := by
    refine Machine.each_of_invariant (Obss.dated_of_none rfl) fun c i h => ?_
    exact Obss.dated_step (solo_owns posix c.state i) i.ev h
  refine Machine.each_congr hdated fun c i h => ⟨fun hends p t hev hp hrun ht => ?_,
    fun hcount p hev hp hnone => ?_⟩
  · rw [← overSecs_gt_iff]
    intro hover
    obtain ⟨t', ht', hpast⟩ := hends p hev hp ((dropped_iff h hev hp).mpr ⟨hrun, t, ht, hover⟩)
    obtain rfl := Option.some.inj (ht.symm.trans ht')
    exact hpast
  · obtain ⟨hrun, t, ht, hover⟩ := (dropped_iff h hev hp).mp hnone
    exact ⟨t, ht, (overSecs_gt_iff _ _).mpr (hcount p t hev hp hrun ht) hover⟩

/-- A clock of the year 2023 that reads the beginning of 2100. -/
def PosixTime.century : PosixTime where
  toIsoExtendedString _ := "2023-11-14T22:13:20".toList
  fromIsoExtendedString t :=
    if t = "2100-01-01T00:00:00".toList then some (4102444800 * ticksPerSecond) else none
  date _ := (2023, 11, 14)

/-- An event at that time. -/
def Event.in2023 (ev : Event) : Input := { ev.plain with now := 1700000000 }

def endlessPlan : KVAppPlan :=
  { planEnd := "2100-01-01T00:00:00".toList, exptime := .fin 10 }

/-- A plan that has the rest of the century is started, and looked at once more. -/
def longPlan : List Input :=
  [Event.in2023 (.coupleMount 1), Event.in2023 (.coupleCamera 2 "001".toList),
    Event.in2023 (.notifyPlan endlessPlan), Event.in2023 .obsplanTick, Event.in2023 .obsplanTick]

/-- The executor aborts it 76 years early. -/
theorem not_endsPast : ¬ (solo .century).Each (EndsPast .century)
    (Solo.start "001".toList "002".toList .gwac 0) longPlan := by
  intro h
  obtain ⟨t, ht, hpast⟩ := h.2.2.2.2.1 ⟨2, endlessPlan⟩ rfl (by decide +kernel) (by decide +kernel)
  obtain rfl : 4102444800 * ticksPerSecond = t := Option.some.inj ht
  exact absurd hpast (by decide +kernel)

end Gtoaes
