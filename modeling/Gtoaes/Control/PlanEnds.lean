import Gtoaes.Control.GeneralControl
import Gtoaes.Obss.PlanLife

/-!
The ends of plans, over all systems. Every guard of a system that has to do with
its plan asks whether the plan object is held by it alone. A plan that a client
has given to several systems is held by none alone: it cannot be aborted or
parked away, and the next plan takes its place without a word.

These are the only ways in which a system departs from the rule that a plan ends
once, and before the next one (`plansEnd_iff_no_clash`).
-/

namespace Gtoaes

open Lib Lib.Handler

namespace Obss

/-- The plan of the system is somebody else's, too. -/
def Shares (ctx : Ctx) (s : Obss) : Prop := ∃ p, s.plan = some p ∧ ctx.shared p.addr = true

theorem owns_of_not_shares {ctx : Ctx} {s : Obss} (h : ¬ s.Shares ctx) : s.Owns ctx := by
  intro p hp
  rw [← Bool.not_eq_true]
  exact fun hshared => h ⟨p, hp, hshared⟩

theorem Shares.unique {ctx : Ctx} {s : Obss} (h : s.Shares ctx) : s.unique ctx = false := by
  obtain ⟨p, hp, hshared⟩ := h
  simp [Obss.unique, hp, hshared]

theorem Shares.congr {ctx : Ctx} {s s' : Obss} (h : s.Shares ctx) (hv : s'.planView = s.planView) :
    s'.Shares ctx := by
  obtain ⟨p, hp, hshared⟩ := h
  obtain ⟨hplan, -⟩ := Prod.mk.inj hv
  exact ⟨p, hplan.trans hp, hshared⟩

/-- A shared plan is not closed, whatever else is done before. -/
theorem shared_closing_spec {ctx : Ctx} {s : Obss} (h : s.Shares ctx)
    (hs : List (Handler Obss Act)) (hhs : PlanInert (all hs)) (code : ℤ) :
    (all (hs ++ [when (unique ctx) (closePlan ctx code)]) s).1.planView = s.planView ∧
      planStatuses (all (hs ++ [when (unique ctx) (closePlan ctx code)]) s).2 = [] := by
  obtain ⟨s', hv, hstate, hacts⟩ := hhs.all_append_singleton
    (when (unique ctx) (closePlan ctx code)) s
  rw [when_false (h.congr hv).unique] at hstate hacts
  exact ⟨(congrArg planView hstate).trans hv, hacts⟩

theorem shared_abort_spec {ctx : Ctx} {s : Obss} (h : s.Shares ctx) :
    (abort ctx s).1.planView = s.planView ∧ planStatuses (abort ctx s).2 = [] :=
  shared_closing_spec h [_, _] (planInert_halt _ _ _ _ _ _ _ _) _

theorem shared_park_spec {ctx : Ctx} {s : Obss} (h : s.Shares ctx) :
    (park ctx s).1.planView = s.planView ∧ planStatuses (park ctx s).2 = [] :=
  shared_closing_spec h [_, _] (planInert_halt _ _ _ _ _ _ _ _) _

/-- A shared plan is replaced without being ended, unless an exposure is taken
for a manual one. -/
theorem shared_notifyPlan_spec {ctx : Ctx} {s : Obss} (h : s.Shares ctx) (p : PlanPtr) :
    (s.sysState.anyExposing = true ∧ notifyPlan ctx p s = (s, [])) ∨
    (s.sysState.anyExposing = false ∧ (notifyPlan ctx p s).1.plan = some p ∧
      (notifyPlan ctx p s).1.planState.state = some obsplanCataloged ∧
      planStatuses (notifyPlan ctx p s).2 = [(p.addr, some obsplanCataloged)]) := by
  cases hexp : s.sysState.anyExposing with
  | true => exact .inl ⟨rfl, by simp [notifyPlan, rejectsPlan, h.unique, hexp]⟩
  | false =>
      refine .inr ⟨rfl, ?_⟩
      simp only [notifyPlan, rejectsPlan, h.unique, hexp, Bool.and_false, Bool.false_eq_true,
        if_false, all_cons, all_nil, skip_apply, when_false h.unique]
      exact ⟨rfl, rfl, rfl⟩

theorem shared_camera_spec {ctx : Ctx} {s : Obss} (h : s.Shares ctx) (conn : Conn)
    (m : KVCamera) :
    (processProtocolCamera ctx conn (.camera m) s).1.planView = s.planView ∧
      planStatuses (processProtocolCamera ctx conn (.camera m) s).2 = [] := by
  have hstore := planInert_updateCamera (hasConn conn) (stored (camReport ctx m)) s
  have hcheck : (checkCameraState ctx (camReport ctx m).state (s.oldState conn)
        (storeReport conn (camReport ctx m) s).1).1.planView = s.planView ∧
      planStatuses (checkCameraState ctx (camReport ctx m).state (s.oldState conn)
        (storeReport conn (camReport ctx m) s).1).2 = [] := by
    by_cases hstop : LastStop ctx s conn m
    · obtain ⟨hnew, hold, hexp⟩ := hstop
      rw [checkCameraState_lastStop ctx (s := (storeReport conn (camReport ctx m) s).1)
        hnew hold hexp]
      obtain ⟨hv, hm⟩ := shared_closing_spec (h.congr hstore.1) [setSysState (·.leaveExpose)]
        (.cons (planInert_setSysState _) .nil) obsplanOver
      exact ⟨hv.trans hstore.1, hm⟩
    · obtain ⟨hv, hm⟩ := planInert_checkCameraState ctx
        (s := (storeReport conn (camReport ctx m) s).1) hstop
      exact ⟨hv.trans hstore.1, hm⟩
  simp only [processProtocolCamera, all_cons, all_nil, skip_apply, List.append_nil,
    planStatuses_append]
  exact ⟨hcheck.1, by rw [hcheck.2]; rfl⟩

/-- The turns in which a shared plan does harm: it survives an `Abort` or a
`Park`, or it is replaced. -/
def Clashes (ctx : Ctx) (s : Obss) (ev : Event) : Prop :=
  s.Shares ctx ∧ (ev = .abort ∨ ev = .park ∨
    ∃ plan, ev = .notifyPlan plan ∧ s.sysState.anyExposing = false)

/-- All that a step can do to a shared plan. -/
theorem step_shared {ctx : Ctx} {s : Obss} (h : s.Shares ctx) (ev : Event) :
    ((∀ plan, ev = .notifyPlan plan → s.sysState.anyExposing = true) ∧
      (step ctx ev s).1.planView = s.planView ∧ planStatuses (step ctx ev s).2 = []) ∨
    (∃ plan, ev = .notifyPlan plan ∧ s.sysState.anyExposing = false ∧
      planStatuses (step ctx ev s).2 = [(ctx.fresh, some obsplanCataloged)]) := by
  have hinert : (∀ plan, ev ≠ .notifyPlan plan) → PlanInert (step ctx ev) →
      (∀ plan, ev = .notifyPlan plan → s.sysState.anyExposing = true) ∧
        (step ctx ev s).1.planView = s.planView ∧ planStatuses (step ctx ev s).2 = [] :=
    fun hev hh => ⟨fun plan he => absurd he (hev plan), hh s⟩
  cases ev with
  | notifyPlan plan =>
      rcases shared_notifyPlan_spec h ⟨ctx.fresh, plan⟩ with ⟨hexp, heq⟩ | ⟨hexp, -, -, hm⟩
      · rw [show step ctx (.notifyPlan plan) = notifyPlan ctx ⟨ctx.fresh, plan⟩ from rfl, heq]
        exact .inl ⟨fun _ _ => hexp, rfl, rfl⟩
      · exact .inr ⟨plan, rfl, hexp, hm⟩
  | abort => exact .inl ⟨by simp, shared_abort_spec h⟩
  | park => exact .inl ⟨by simp, shared_park_spec h⟩
  | obsplanTick =>
      obtain ⟨p, hp, hshared⟩ := h
      refine .inl ⟨by simp, ?_⟩
      simp [step, threadObsplan, hp, hshared, planStatuses]
  | deviceLine conn proto =>
      cases proto with
      | camera m => exact .inl ⟨by simp, shared_camera_spec h conn m⟩
      | _ => exact .inl ⟨by simp, rfl, rfl⟩
  | coupleCamera conn cid => exact .inl (hinert (by simp) (planInert_coupleCamera ctx conn cid))
  | onTcpClose conn peer => exact .inl (hinert (by simp) (planInert_onTcpClose ctx conn peer))
  | _ => exact .inl (hinert (by simp) (Quiet.planInert (quiet_step_core ctx rfl)))

theorem step_life_of_no_clash {ctx : Ctx} {s : Obss} {ev : Event} (h : ¬ s.Clashes ctx ev) :
    Life.runs true s.life (planMarks (step ctx ev s).2) = some (step ctx ev s).1.life := by
  by_cases hshares : s.Shares ctx
  · rcases step_shared hshares ev with ⟨-, hv, hm⟩ | ⟨plan, hev, hexp, -⟩
    · rw [planMarks, hm, life_congr hv]
      rfl
    · exact absurd ⟨hshares, .inr (.inr ⟨plan, hev, hexp⟩)⟩ h
  · exact step_life (owns_of_not_shares hshares) ev

/-- In hand, and published as it should be. -/
theorem life_of_shares {ctx : Ctx} {s : Obss} (h : s.Shares ctx) :
    ∃ a, s.life = .waiting a ∨ s.life = .running a := by
  obtain ⟨p, hp, -⟩ := h
  refine ⟨p.addr, ?_⟩
  unfold life
  rw [hp]
  dsimp only
  split
  · exact .inr rfl
  · exact .inl rfl

end Obss

/-- The marks that one of the systems has left. -/
def marksOf (id : ℕ) (hist : List (ℕ × Act)) : List (ℕ × Mark) :=
  planMarks ((hist.filter fun o => o.1 == id).map Prod.snd)

@[simp] theorem marksOf_nil (id : ℕ) : marksOf id [] = [] := rfl

theorem marksOf_append_self (id : ℕ) (hist : List (ℕ × Act)) (acts : List Act) :
    marksOf id (hist ++ acts.map fun act => (id, act)) = marksOf id hist ++ planMarks acts := by
  rw [marksOf, List.filter_append, List.map_append, planMarks_append, ← marksOf]
  simp [List.filter_map, Function.comp_def]

theorem marksOf_append_other {id j : ℕ} (h : j ≠ id) (hist : List (ℕ × Act)) (acts : List Act) :
    marksOf id (hist ++ acts.map fun act => (j, act)) = marksOf id hist := by
  rw [marksOf, List.filter_append, List.map_append, planMarks_append, ← marksOf]
  simp [List.filter_map, Function.comp_def, beq_false_of_ne h]

/-- Of each system: between two plans it announces, exactly one end is published
of the first. -/
def EndsOnce (hist : List (ℕ × Act)) : Prop :=
  ∀ id ks ms ns a b, marksOf id hist = ks ++ (a, .opened) :: ms ++ (b, .opened) :: ns →
    (∀ c, (c, Mark.opened) ∉ ms) → ms.countP (fun m => m.1 == a && m.2.ends) = 1

namespace GeneralControl

/-- After an `Abort` or a `Park` the system holds no plan. -/
def LeavesNone (posix : PosixTime) (c : Config GeneralControl (ℕ × Act)) (t : Turn) : Prop :=
  ∀ id addr ev s, t.call = .system id addr ev → ev = .abort ∨ ev = .park →
    ((turns posix).next c t).state.obssVec id = some s → s.plan = none

/-- A system is given an event that clashes with its sharing its plan. -/
def Clash (posix : PosixTime) (c : Config GeneralControl (ℕ × Act)) (t : Turn) : Prop :=
  ∃ id addr ev s, t.call = .system id addr ev ∧ c.state.obssVec id = some s ∧
    s.Clashes (c.state.ctx posix t id addr) ev

/-- What each system has published makes sense and has left it with the plan it
holds. -/
structure Lives (c : Config GeneralControl (ℕ × Act)) : Prop where
  live : ∀ id s, c.state.obssVec id = some s →
    Life.runs true .idle (marksOf id c.hist) = some s.life
  past : ∀ id, ∃ l, Life.runs true .idle (marksOf id c.hist) = some l
  future : ∀ id, c.state.created ≤ id → c.state.obssVec id = none ∧ marksOf id c.hist = []

theorem lives_start : Lives start where
  live id s h := by cases h
  past id := ⟨.idle, rfl⟩
  future id _ := ⟨rfl, rfl⟩

theorem Lives.endsOnce {c : Config GeneralControl (ℕ × Act)} (h : Lives c) : EndsOnce c.hist := by
  intro id ks ms ns a b hmarks hms
  obtain ⟨l, hl⟩ := h.past id
  rw [hmarks] at hl
  obtain ⟨hone, hall⟩ := Life.ends_once hms hl
  rw [← hone]
  refine List.countP_congr fun m hm => ?_
  simp [hall m hm]

section

variable {posix : PosixTime} {c : Config GeneralControl (ℕ × Act)} {t : Turn}

/-- A turn of one system. -/
theorem next_of_system {id addr : ℕ} {ev : Event} {s : Obss} (hcall : t.call = .system id addr ev)
    (hs : c.state.obssVec id = some s) :
    (turns posix).next c t =
      { state := c.state.put id (some (Obss.step (c.state.ctx posix t id addr) ev s).1)
        hist := c.hist ++
          (Obss.step (c.state.ctx posix t id addr) ev s).2.map fun act => (id, act) } := by
  simp only [Machine.next, turns, turn, hcall, hs]

theorem lives_of_system {id addr : ℕ} {ev : Event} {s : Obss} (h : Lives c)
    (hcall : t.call = .system id addr ev) (hs : c.state.obssVec id = some s)
    (hclash : ¬ s.Clashes (c.state.ctx posix t id addr) ev) : Lives ((turns posix).next c t) := by
  rw [next_of_system hcall hs]
  have hrun : Life.runs true .idle (marksOf id (c.hist ++
      (Obss.step (c.state.ctx posix t id addr) ev s).2.map fun act => (id, act))) =
      some (Obss.step (c.state.ctx posix t id addr) ev s).1.life := by
    rw [marksOf_append_self, Life.runs_append, h.live id s hs]
    exact Obss.step_life_of_no_clash hclash
  refine ⟨fun j s' hs' => ?_, fun j => ?_, fun j hj => ?_⟩
  · by_cases hji : j = id
    · subst hji
      rw [put_self] at hs'
      obtain rfl := Option.some.inj hs'
      exact hrun
    · rw [put_other hji] at hs'
      rw [marksOf_append_other (Ne.symm hji)]
      exact h.live j s' hs'
  · by_cases hji : j = id
    · subst hji
      exact ⟨_, hrun⟩
    · rw [marksOf_append_other (Ne.symm hji)]
      exact h.past j
  · obtain ⟨hnone, hnil⟩ := h.future j hj
    have hji : j ≠ id := by
      rintro rfl
      rw [hs] at hnone
      cases hnone
    rw [marksOf_append_other (Ne.symm hji), put_other hji]
    exact ⟨hnone, hnil⟩

/-- A turn that only moves the vector. -/
theorem lives_of_vector {g : GeneralControl} (h : Lives c)
    (hvec : ∀ id s, g.obssVec id = some s →
      c.state.obssVec id = some s ∨ (c.state.created ≤ id ∧ s.plan = none))
    (hfuture : ∀ id, g.created ≤ id → c.state.created ≤ id ∧ g.obssVec id = none) :
    Lives { state := g, hist := c.hist } where
  live id s hs := by
    rcases hvec id s hs with hold | ⟨hnew, hnone⟩
    · exact h.live id s hold
    · rw [(h.future id hnew).2, Obss.life_of_none hnone]
      rfl
  past := h.past
  future id hid := by
    obtain ⟨hold, hnone⟩ := hfuture id hid
    exact ⟨hnone, (h.future id hold).2⟩

theorem lives_next (h : Lives c) (hclash : ¬ Clash posix c t) : Lives ((turns posix).next c t) := by
  have hsame : Lives { state := c.state, hist := c.hist } := h
  cases hcall : t.call with
  | system id addr ev =>
      cases hs : c.state.obssVec id with
      | none => simpa [Machine.next, turns, turn, hcall, hs] using hsame
      | some s =>
          refine lives_of_system h hcall hs fun hs' => hclash ?_
          exact ⟨id, addr, ev, s, hcall, hs, hs'⟩
  | newMessage =>
      have hnext := lives_of_vector (g := { c.state with fresh := c.state.fresh + 1 }) h
        (fun id s hs => .inl hs) (fun id hid => ⟨hid, (h.future id hid).1⟩)
      simpa [Machine.next, turns, turn, hcall] using hnext
  | create gid uid type =>
      have hnext := lives_of_vector (g := { c.state.put c.state.created
        (some (Obss.create gid uid type t.now)) with created := c.state.created + 1 }) h
        (fun id s hs => ?_) (fun id hid => ?_)
      · simpa [Machine.next, turns, turn, hcall] using hnext
      · by_cases hid : id = c.state.created
        · subst hid
          obtain rfl : Obss.create gid uid type t.now = s := by simpa using hs
          exact .inr ⟨le_rfl, rfl⟩
        · exact .inl ((put_other hid _ _).symm.trans hs)
      · have hlt : c.state.created + 1 ≤ id := hid
        refine ⟨by omega, ?_⟩
        exact (put_other (by omega) _ _).trans (h.future id (by omega)).1
  | destroy id =>
      have hnext := lives_of_vector (g := c.state.put id none) h (fun j s hs => ?_)
        (fun j hj => ⟨hj, ?_⟩)
      · simpa [Machine.next, turns, turn, hcall] using hnext
      · by_cases hji : j = id
        · subst hji
          simp at hs
        · exact .inl ((put_other hji _ _).symm.trans hs)
      · by_cases hji : j = id
        · subst hji
          exact put_self _ _ _
        · exact (put_other hji _ _).trans (h.future j hj).1

/-- A plan that takes the place of a shared one leaves that without an end. -/
theorem not_endsOnce_of_clash (h : Lives c) {id addr : ℕ} {s : Obss} {plan : KVAppPlan}
    (hcall : t.call = .system id addr (.notifyPlan plan)) (hs : c.state.obssVec id = some s)
    (hshares : s.Shares (c.state.ctx posix t id addr))
    (hexp : s.sysState.anyExposing = false) : ¬ EndsOnce ((turns posix).next c t).hist := by
  intro hends
  rw [next_of_system hcall hs] at hends
  obtain ⟨a, hlife⟩ := Obss.life_of_shares hshares
  obtain ⟨ks, ns, hmarks, hns⟩ := Life.held_since (h.live id s hs) hlife
  have hnew : planMarks (Obss.step (c.state.ctx posix t id addr) (.notifyPlan plan) s).2 =
      [(addr, .opened)] := by
    rcases Obss.step_shared hshares (.notifyPlan plan) with ⟨hrej, -⟩ | ⟨_, -, -, hm⟩
    · rw [hrej plan rfl] at hexp
      cases hexp
    · rw [planMarks, hm]
      rfl
  have hone := hends id ks ns [] a addr
    (by rw [marksOf_append_self, hmarks, hnew])
    (fun c hc => (hns _ hc).1 rfl)
  have hzero : ns.countP (fun m => m.1 == a && m.2.ends) = 0 := by
    rw [List.countP_eq_zero]
    intro m hm
    simp [(hns m hm).2]
  omega

/-- The turns that do what is asked are those without a clash. -/
theorem turn_iff (h : Lives c) :
    (EndsOnce ((turns posix).next c t).hist ∧ LeavesNone posix c t) ↔ ¬ Clash posix c t := by
  constructor
  · rintro ⟨hends, hleaves⟩ ⟨id, addr, ev, s, hcall, hs, hshares, hev⟩
    -- what stops keeps a plan that is shared, where it should leave none
    have hkept : ∀ hv : (Obss.step (c.state.ctx posix t id addr) ev s).1.planView = s.planView,
        ev = .abort ∨ ev = .park → False := by
      intro hv hstop
      obtain ⟨p, hp, -⟩ := hshares
      obtain ⟨hplan, -⟩ := Prod.mk.inj hv
      have hnone := hleaves id addr ev _ hcall hstop (by rw [next_of_system hcall hs, put_self])
      rw [hplan, hp] at hnone
      cases hnone
    rcases hev with rfl | rfl | ⟨plan, rfl, hexp⟩
    · exact hkept (Obss.shared_abort_spec hshares).1 (.inl rfl)
    · exact hkept (Obss.shared_park_spec hshares).1 (.inr rfl)
    · exact not_endsOnce_of_clash h hcall hs hshares hexp hends
  · intro hclash
    refine ⟨(lives_next h hclash).endsOnce, ?_⟩
    intro id addr ev s' hcall hstop hs'
    cases hs : c.state.obssVec id with
    | none =>
        have hnone : ((turns posix).next c t).state.obssVec id = none := by
          simp [turns, turn, hcall, hs]
        rw [hnone] at hs'
        cases hs'
    | some s =>
        have howns : s.Owns (c.state.ctx posix t id addr) := by
          refine Obss.owns_of_not_shares fun hshares => hclash ?_
          refine ⟨id, addr, ev, s, hcall, hs, hshares, ?_⟩
          exact hstop.imp_right .inl
        rw [next_of_system hcall hs, put_self] at hs'
        obtain rfl := Option.some.inj hs'
        rcases hstop with rfl | rfl
        · exact (Obss.abort_spec howns).1
        · exact (Obss.park_spec howns).1

end

/-- What is asked of a run: each system ends each plan once before it announces
the next one, and a system that is told to abort or to park holds no plan
afterwards. -/
def PlansEnd (posix : PosixTime) (cs : List Command) : Prop :=
  (generalControl posix).Always (fun c => EndsOnce c.hist) start cs ∧
    (generalControl posix).Each
      (fun c k => (turns posix).Each (LeavesNone posix) c (c.state.turnsOf k)) start cs

/-- A run does so exactly when in none of its turns a system that shares its
plan is told to abort or park, or accepts a plan. -/
theorem plansEnd_iff_no_clash (posix : PosixTime) (cs : List Command) :
    PlansEnd posix cs ↔ (generalControl posix).Each (fun c k =>
      (turns posix).Each (fun c t => ¬ Clash posix c t) c (c.state.turnsOf k)) start cs := by
  have hprefix : ∀ c (t : Turn), EndsOnce ((turns posix).next c t).hist → EndsOnce c.hist := by
    intro c t h id ks ms ns a b hmarks hms
    refine h id ks ms (ns ++ marksOf id ((turns posix).step c.state t).2) a b ?_ hms
    rw [Machine.next_hist, marksOf, List.filter_append, List.map_append, planMarks_append,
      ← marksOf, ← marksOf, hmarks]
    simp
  have halways : (generalControl posix).Always (fun c => EndsOnce c.hist) start cs ↔ _ :=
    Machine.expand_always_iff (turns posix) turnsOf hprefix
  rw [PlansEnd, halways, generalControl, Machine.expand_each_iff, Machine.expand_each_iff]
  exact Machine.always_and_each_iff lives_start (fun c h => h.endsOnce) (fun c t h => turn_iff h)
    fun c t h hclash => lives_next h hclash

/-- Two systems of one group are given one plan and then another. -/
def sharedPlan : List Command :=
  [CommandKind.findObss "001".toList "001".toList .gwac,
    .findObss "001".toList "002".toList .gwac,
    .client (.appPlan { gid := "001".toList, type := kvtypeAppgwac, planSn := "1".toList }),
    .client (.appPlan { gid := "001".toList, type := kvtypeAppgwac, planSn := "2".toList })].map
      fun kind => { now := 0, unset := (Event.plain .abort).unset, kind := kind }

theorem not_plansEnd : ¬ ∀ (posix : PosixTime) (cs : List Command), PlansEnd posix cs := by
  intro h
  have hends : EndsOnce ((generalControl .blank).exec start sharedPlan).hist :=
    (h .blank sharedPlan).1.exec
  have hmarks : marksOf 0 ((generalControl .blank).exec start sharedPlan).hist =
      [] ++ (0, .opened) :: [] ++ (1, .opened) :: [] := by
    decide +kernel
  have hone := hends 0 [] [] [] 0 1 hmarks (by simp)
  exact absurd hone (by decide)

end GeneralControl

end Gtoaes
