import Gtoaes.Control.PlanEnds
import Gtoaes.Control.Registry

/-!
Each system as one on its own. Systems meet in two places: a plan given to several of
them is one object, and whoever holds it asks who else does; and a guide given to
several of them has `op` written into it by the first. Where such messages name one
system each, nothing that is said or done to the others reaches a system, however the
commands are mixed.
-/

namespace Gtoaes

open Lib Lib.Handler

/-- The surroundings without the other systems. -/
def Ctx.alone (ctx : Ctx) : Ctx := { ctx with shared := fun _ => false }

namespace Obss

theorem owns_alone (ctx : Ctx) (s : Obss) : s.Owns ctx.alone := fun _ _ => rfl

section

variable {ctx : Ctx} {s : Obss}

theorem unique_alone (h : s.Owns ctx) : s.unique ctx = s.unique ctx.alone := by
  rw [h.unique, (owns_alone ctx s).unique]

/-- Behind handlers that leave the plan alone. -/
theorem behind_alone (h : s.Owns ctx) (hs : List (Handler Obss Act)) (hhs : PlanInert (all hs))
    {k k' : Handler Obss Act} (hk : ∀ s' : Obss, s'.Owns ctx → k s' = k' s') :
    all (hs ++ [k]) s = all (hs ++ [k']) s := by
  have hbehind := hk (all hs s).1 (h.congr (hhs s).1)
  rw [all_append_singleton, all_append_singleton, andThen_apply, andThen_apply, hbehind]

theorem when_alone (h : s.Owns ctx) {k : Handler Obss Act} :
    when (unique ctx) k s = when (unique ctx.alone) k s := by
  rw [Handler.when, Handler.when, unique_alone h]

theorem abort_alone (h : s.Owns ctx) : abort ctx s = abort ctx.alone s :=
  behind_alone h [_, _] (planInert_halt ctx _ _ _ _ _ _ _) fun _ hs => when_alone hs

theorem park_alone (h : s.Owns ctx) : park ctx s = park ctx.alone s :=
  behind_alone h [_, _] (planInert_halt ctx _ _ _ _ _ _ _) fun _ hs => when_alone hs

theorem when_abort_alone (h : s.Owns ctx) : when (unique ctx) (abort ctx) s =
    when (unique ctx.alone) (abort ctx.alone) s := by
  rw [Handler.when, Handler.when, unique_alone h, abort_alone h]

theorem notifyPlan_alone (h : s.Owns ctx) (p : PlanPtr) :
    notifyPlan ctx p s = notifyPlan ctx.alone p s := by
  rw [notifyPlan, notifyPlan, rejectsPlan, rejectsPlan, unique_alone h, all_cons, all_cons,
    when_abort_alone h]
  rfl

theorem resumePlan_alone (h : s.Owns ctx) (conn : Conn) (cid : Text) :
    resumePlan ctx conn cid s = resumePlan ctx.alone conn cid s := by
  unfold resumePlan
  split
  · rfl
  · next p hp =>
      rw [h p hp]
      rfl

theorem coupleCamera_alone (h : s.Owns ctx) (conn : Conn) (cid : Text) :
    coupleCamera ctx conn cid s = coupleCamera ctx.alone conn cid s := by
  unfold coupleCamera
  split
  · split
    · rfl
    · refine behind_alone h [_, _, _] ?_ fun _ hs => resumePlan_alone hs conn cid
      refine .cons (planInert_updateCamera _ _) (.cons (.emit fun s => ?_)
        (.cons (planInert_setSysState _) .nil))
      split <;> rfl
  · rfl

theorem checkCameraState_alone (h : s.Owns ctx) (new old : ℤ) :
    checkCameraState ctx new old s = checkCameraState ctx.alone new old s := by
  unfold checkCameraState
  split
  · rfl
  · split
    · refine behind_alone h [_] (.cons (planInert_setSysState _) .nil) fun s' hs => ?_
      rw [Handler.when, Handler.when, unique_alone hs]
      rfl
    · rfl

theorem syncLoop_alone (ctx : Ctx) (conn : Conn) (its : List CameraInfo) :
    syncLoop ctx conn its = syncLoop ctx.alone conn its := by
  induction its with
  | nil => rfl
  | cons it its ih =>
      rw [syncLoop, syncLoop, ih]
      rfl

theorem threadObsplan_alone (h : s.Owns ctx) :
    threadObsplan ctx s = threadObsplan ctx.alone s := by
  unfold threadObsplan
  split
  · rfl
  · next p hp =>
      rw [h p hp]
      simp only [Bool.false_eq_true, if_false, Ctx.alone]
      split
      · rfl
      · split
        · rw [Handler.when, Handler.when, abort_alone h]
          rfl
        · rfl

/-- A system that has its plan to itself does not see the others. -/
theorem step_alone (h : s.Owns ctx) (ev : Event) : step ctx ev s = step ctx.alone ev s := by
  cases ev with
  | notifyPlan plan => exact notifyPlan_alone h _
  | abort => exact abort_alone h
  | park => exact park_alone h
  | slewto proto =>
      show slewto ctx proto s = slewto ctx.alone proto s
      rw [slewto, slewto, unique_alone h]
      rfl
  | takeImage proto =>
      show takeImage ctx proto s = takeImage ctx.alone proto s
      rw [takeImage, takeImage, unique_alone h]
      rfl
  | coupleCamera conn cid => exact coupleCamera_alone h conn cid
  | obsplanTick => exact threadObsplan_alone h
  | deviceLine conn proto =>
      cases proto with
      | camera m =>
          exact behind_alone h [_] (.cons (planInert_updateCamera _ _) .nil)
            fun s' hs => checkCameraState_alone hs _ _
      | _ => rfl
  | focusSync proto =>
      show focusSync ctx proto s = focusSync ctx.alone proto s
      unfold focusSync
      split
      · rfl
      · next conn _ => rw [syncLoop_alone]
  | _ => rfl

end

/-- The plan after a step is the one before, none, or the one just given. -/
theorem plan_step {ctx : Ctx} {s : Obss} (h : s.Owns ctx) (ev : Event) {p : PlanPtr}
    (hp : (step ctx ev s).1.plan = some p) :
    s.plan = some p ∨ ∃ plan, ev = .notifyPlan plan ∧ p.addr = ctx.fresh := by
  rcases step_plan h ev with ⟨-, hv, -⟩ | ⟨plan, hev, hplan, -⟩ | ⟨q, -, hq, -, hplan, -⟩ |
    ⟨-, hplan, -⟩ | ⟨conn, m, -, -, hplan, -⟩
  · obtain ⟨hplan, -⟩ := Prod.mk.inj hv
    exact .inl (hplan.symm.trans hp)
  · obtain rfl := Option.some.inj (hplan.symm.trans hp)
    exact .inr ⟨plan, hev, rfl⟩
  · exact .inl (hq.trans (hplan.symm.trans hp))
  · rw [hplan] at hp
    cases hp
  · rw [hplan] at hp
    cases hp

/-- The systems that are given the message after another one find it changed. -/
theorem guide_written (ctx : Ctx) (m : KVGuide) (h : m.result = 0 → m.op = 1) :
    guide ctx { m with op := if m.result = 0 then 1 else 0 } = guide ctx m := by
  by_cases hresult : m.result = 0
  · rw [if_pos hresult, ← h hresult]
  · have hmount (k : Handler Obss Act) : when (fun _ => m.result == 0) k = skip :=
      funext fun _ => when_false (by simp [hresult]) k
    simp only [guide, hmount]

end Obss

/-- What several systems make of a message depends on the others: each may find that it
is not alone with the plan, and all but the first find `op` of the guide written. -/
def Event.Shares : Event → Prop
  | .notifyPlan _ => True
  | .guide m => m.result = 0 ∧ m.op ≠ 1
  | _ => False

theorem Obss.step_written {ev : Event} (h : ¬ ev.Shares) (ctx : Ctx) :
    step ctx ev.written = step ctx ev := by
  cases ev with
  | guide m =>
      exact guide_written ctx m fun hresult => by_contra fun hop => h ⟨hresult, hop⟩
  | _ => rfl

/-! ### One system on its own -/

/-- How many messages a command is. -/
def Command.messages (k : Command) : ℕ :=
  match k.kind with
  | .client _ | .system _ _ => 1
  | _ => 0

/-- What a command calls in a system. -/
def Command.eventFor (k : Command) (id : ℕ) (s : Obss) : Option Event :=
  match k.kind with
  | .client proto => if s.isMatched proto.base.gid proto.base.uid then clientEvent proto else none
  | .system id' ev => if id' = id then some ev else none
  | _ => none

/-- The command removes a system that nobody has been connected to for long. -/
def Command.dumps (k : Command) (s : Obss) : Bool :=
  match k.kind with
  | .dumpObss => s.lastClosedFor k.now > 300
  | _ => false

/-- A system, as long as there is one, and the address of the next message. -/
structure Lone where
  obss : Option Obss
  fresh : ℕ

/-- A system that is told what concerns it, and knows of no other. -/
def lone (posix : PosixTime) (id : ℕ) : Machine Lone Command Act where
  step x k :=
    let fresh := x.fresh + k.messages
    match x.obss with
    | none => ({ obss := none, fresh := fresh }, [])
    | some s =>
        if k.dumps s then ({ obss := none, fresh := fresh }, [])
        else
          match k.eventFor id s with
          | none => ({ obss := some s, fresh := fresh }, [])
          | some ev =>
              let r := Obss.step ⟨posix, k.now, k.unset, x.fresh, fun _ => false⟩ ev s
              ({ obss := some r.1, fresh := fresh }, r.2)

/-- What a system has sent out. -/
def actsOf (id : ℕ) (hist : List (ℕ × Act)) : List Act :=
  (hist.filter fun act => act.1 == id).map Prod.snd

/-- A plan is given by both ids, and so is a guide whose `op` is still to be written. -/
def Command.Exact (k : Command) : Prop :=
  ∀ proto ev, k.kind = .client proto → clientEvent proto = some ev → ev.Shares →
    proto.base.gid ≠ [] ∧ proto.base.uid ≠ []

@[simp] theorem actsOf_append (id : ℕ) (a b : List (ℕ × Act)) :
    actsOf id (a ++ b) = actsOf id a ++ actsOf id b := by
  rw [actsOf, List.filter_append, List.map_append]
  rfl

theorem actsOf_self (id : ℕ) (acts : List Act) : actsOf id (acts.map fun act => (id, act)) = acts := by
  simp [actsOf, List.filter_map, Function.comp_def]

theorem actsOf_other {id j : ℕ} (h : j ≠ id) (acts : List Act) :
    actsOf j (acts.map fun act => (id, act)) = [] := by
  simp [actsOf, List.filter_map, Function.comp_def, Ne.symm h]

namespace GeneralControl

/-- Nobody holds the plan of another, and the plans held have addresses below `n`. -/
structure Spread (n : ℕ) (g : GeneralControl) : Prop where
  apart : ∀ {id id' s s' p p'}, g.obssVec id = some s → g.obssVec id' = some s' →
    s.plan = some p → s'.plan = some p' → p.addr = p'.addr → id = id'
  below : ∀ {id s p}, g.obssVec id = some s → s.plan = some p → p.addr < n

theorem Spread.mono {n n' : ℕ} {g : GeneralControl} (h : g.Spread n) (hn : n ≤ n') : g.Spread n' :=
  ⟨h.apart, fun hs hp => (h.below hs hp).trans_le hn⟩

/-- Each system has its plan to itself. -/
theorem Spread.owns {n : ℕ} {g : GeneralControl} (h : g.Spread n) {id : ℕ} {s : Obss}
    (hs : g.obssVec id = some s) (posix : PosixTime) (t : Turn) (addr : ℕ) :
    s.Owns (g.ctx posix t id addr) := by
  intro p hp
  show g.shared id p.addr = false
  rw [shared, List.any_eq_false]
  intro j _ hj
  rw [Bool.and_eq_true, bne_iff_ne, Option.any_eq_true] at hj
  obtain ⟨hne, s', hs', hholds⟩ := hj
  rw [holdsPlan, Option.any_eq_true] at hholds
  obtain ⟨p', hp', haddr⟩ := hholds
  exact hne (h.apart hs' hs hp' hp (by simpa using haddr))

/-- Systems only go, or come without a plan. -/
theorem Spread.vector {n : ℕ} {g g' : GeneralControl} (h : g.Spread n)
    (hvec : ∀ id s, g'.obssVec id = some s → g.obssVec id = some s ∨ s.plan = none) :
    g'.Spread n := by
  have hold : ∀ {id s p}, g'.obssVec id = some s → s.plan = some p → g.obssVec id = some s := by
    intro id s p hs hp
    rcases hvec id s hs with hs | hnone
    · exact hs
    · rw [hnone] at hp
      cases hp
  exact ⟨fun hs hs' hp hp' haddr => h.apart (hold hs hp) (hold hs' hp') hp hp' haddr,
    fun hs hp => h.below (hold hs hp) hp⟩

section

variable {posix : PosixTime} {now : Time} {unset : Unset} {n addr id j : ℕ} {ev : Event}
  {g : GeneralControl} {hist : List (ℕ × Act)} {s : Obss}

/-- What a system on its own would find. -/
def loneCtx (posix : PosixTime) (now : Time) (unset : Unset) (addr : ℕ) : Ctx :=
  ⟨posix, now, unset, addr, fun _ => false⟩

theorem turn_system (h : g.Spread n) (hs : g.obssVec id = some s) :
    g.turn posix ⟨now, unset, .system id addr ev⟩ =
      (g.put id (some (Obss.step (loneCtx posix now unset addr) ev s).1),
        (Obss.step (loneCtx posix now unset addr) ev s).2.map fun act => (id, act)) := by
  have hstep := Obss.step_alone (h.owns hs posix ⟨now, unset, .system id addr ev⟩ addr) ev
  simp only [turn, hs]
  rw [hstep]
  rfl

/-- A turn keeps the plans apart, where a plan that is given is a new one. -/
theorem Spread.turn (h : g.Spread n) (hn : n ≤ addr ∨ ∀ plan, ev ≠ .notifyPlan plan)
    {m : ℕ} (hm : n ≤ m) (haddr : addr < m ∨ ∀ plan, ev ≠ .notifyPlan plan) :
    (g.turn posix ⟨now, unset, .system id addr ev⟩).1.Spread m := by
  cases hs : g.obssVec id with
  | none =>
      simp only [GeneralControl.turn, hs]
      exact h.mono hm
  | some s =>
      rw [turn_system h hs]
      obtain ⟨s₁, hs₁⟩ : ∃ s₁, (Obss.step (loneCtx posix now unset addr) ev s).1 = s₁ := ⟨_, rfl⟩
      rw [hs₁]
      -- the plan of the system is the one it had, or the new one
      have hplan : ∀ p, s₁.plan = some p → s.plan = some p ∨
          p.addr = addr ∧ ∃ plan, ev = .notifyPlan plan := by
        intro p hp
        rw [← hs₁] at hp
        rcases Obss.plan_step (fun _ _ => rfl : s.Owns (loneCtx posix now unset addr)) ev hp with
          hp | ⟨plan, hev, hfresh⟩
        · exact .inl hp
        · exact .inr ⟨hfresh, plan, hev⟩
      have hlook : ∀ {j s'}, (g.put id (some s₁)).obssVec j = some s' →
          j = id ∧ s' = s₁ ∨ j ≠ id ∧ g.obssVec j = some s' := by
        intro j s' hs'
        by_cases hj : j = id
        · subst hj
          exact .inl ⟨rfl, (Option.some.inj ((put_self _ _ _).symm.trans hs')).symm⟩
        · exact .inr ⟨hj, (put_other hj _ _).symm.trans hs'⟩
      -- nobody else has it
      have hapart : ∀ {j s' p p'}, j ≠ id → g.obssVec j = some s' → s'.plan = some p' →
          s₁.plan = some p → p.addr = p'.addr → False := by
        intro j s' p p' hj hs' hp' hp heq
        rcases hplan p hp with hold | ⟨hnew, plan, hev⟩
        · exact hj (h.apart hs' hs hp' hold heq.symm)
        · have hlt := h.below hs' hp'
          rcases hn with hn | hn
          · omega
          · exact hn plan hev
      refine ⟨?_, ?_⟩
      · intro j j' r r' p p' hr hr' hp hp' heq
        rcases hlook hr with ⟨rfl, rfl⟩ | ⟨hj, hold⟩
        · rcases hlook hr' with ⟨rfl, rfl⟩ | ⟨hj', hold'⟩
          · rfl
          · exact (hapart hj' hold' hp' hp heq).elim
        · rcases hlook hr' with ⟨rfl, rfl⟩ | ⟨hj', hold'⟩
          · exact (hapart hj hold hp hp' heq.symm).elim
          · exact h.apart hold hold' hp hp' heq
      · intro j r p hr hp
        rcases hlook hr with ⟨rfl, rfl⟩ | ⟨-, hother⟩
        · rcases hplan p hp with hold | ⟨hnew, plan, hev⟩
          · exact (h.below hs hold).trans_le hm
          · rcases haddr with haddr | haddr
            · omega
            · exact absurd hev (haddr plan)
        · exact (h.below hother hp).trans_le hm

/-- What the configuration is after an event has been given to some systems. -/
structure Told (ctx : Ctx) (ev : Event) (l : List ℕ) (c c' : Config GeneralControl (ℕ × Act)) :
    Prop where
  fresh : c'.state.fresh = c.state.fresh
  created : c'.state.created = c.state.created
  missing : ∀ j, c.state.obssVec j = none →
    c'.state.obssVec j = none ∧ actsOf j c'.hist = actsOf j c.hist
  other : ∀ j, j ∉ l → c'.state.obssVec j = c.state.obssVec j ∧ actsOf j c'.hist = actsOf j c.hist
  told : ∀ j s, j ∈ l → c.state.obssVec j = some s →
    c'.state.obssVec j = some (Obss.step ctx ev s).1 ∧
      actsOf j c'.hist = actsOf j c.hist ++ (Obss.step ctx ev s).2

/-- One of them. -/
theorem told_one (h : g.Spread n) :
    Told (loneCtx posix now unset addr) ev [id] ⟨g, hist⟩
      ((turns posix).next ⟨g, hist⟩ ⟨now, unset, .system id addr ev⟩) := by
  cases hs : g.obssVec id with
  | none =>
      have hnext : (turns posix).next ⟨g, hist⟩ ⟨now, unset, .system id addr ev⟩ = ⟨g, hist⟩ := by
        simp [Machine.next, turns, GeneralControl.turn, hs]
      rw [hnext]
      refine ⟨rfl, rfl, fun j hj => ⟨hj, rfl⟩, fun j _ => ⟨rfl, rfl⟩, fun j s hj hs' => ?_⟩
      obtain rfl := List.mem_singleton.mp hj
      cases hs.symm.trans hs'
  | some s =>
      have hnext : (turns posix).next ⟨g, hist⟩ ⟨now, unset, .system id addr ev⟩ =
          ⟨g.put id (some (Obss.step (loneCtx posix now unset addr) ev s).1), hist ++
            (Obss.step (loneCtx posix now unset addr) ev s).2.map fun act => (id, act)⟩ := by
        rw [Machine.next]
        simp only [turns]
        rw [turn_system h hs]
      have hother : ∀ j, j ≠ id → (g.put id
          (some (Obss.step (loneCtx posix now unset addr) ev s).1)).obssVec j = g.obssVec j ∧
          actsOf j (hist ++ (Obss.step (loneCtx posix now unset addr) ev s).2.map
            fun act => (id, act)) = actsOf j hist := by
        intro j hj
        rw [actsOf_append, actsOf_other hj, List.append_nil]
        exact ⟨put_other hj _ _, rfl⟩
      rw [hnext]
      refine ⟨rfl, rfl, fun j hj => ?_, fun j hj => ?_, fun j s' hj hs' => ?_⟩
      · have hne : j ≠ id := by
          rintro rfl
          cases hs.symm.trans hj
        exact ⟨(hother j hne).1.trans hj, (hother j hne).2⟩
      · exact hother j fun heq => hj (List.mem_singleton.mpr heq)
      · obtain rfl := List.mem_singleton.mp hj
        obtain rfl := Option.some.inj (hs.symm.trans hs')
        rw [actsOf_append, actsOf_self]
        exact ⟨put_self _ _ _, rfl⟩

/-- Several of them, one after the other. A new plan is given to one at most. -/
theorem told_all (posix : PosixTime) (now : Time) (unset : Unset)
    (hist : List (ℕ × Act)) (hreg : g.Registered) (h : g.Spread n) {l : List ℕ} (hnodup : l.Nodup)
    (hone : (∀ plan, ev ≠ .notifyPlan plan) ∨ l = [] ∨ n ≤ addr ∧ l.length ≤ 1) {m : ℕ} (hm : n ≤ m)
    (haddr : addr < m) :
    Told (loneCtx posix now unset addr) ev l ⟨g, hist⟩ ((turns posix).exec ⟨g, hist⟩
        (l.map fun id => ⟨now, unset, .system id addr ev⟩)) ∧
      ((turns posix).exec ⟨g, hist⟩
        (l.map fun id => ⟨now, unset, .system id addr ev⟩)).state.Registered ∧
      ((turns posix).exec ⟨g, hist⟩
        (l.map fun id => ⟨now, unset, .system id addr ev⟩)).state.Spread m := by
  induction l generalizing g hist n with
  | nil =>
      refine ⟨⟨rfl, rfl, fun j hj => ⟨hj, rfl⟩, fun j _ => ⟨rfl, rfl⟩, fun j s hj => ?_⟩, hreg,
        h.mono hm⟩
      cases hj
  | cons id l ih =>
      obtain ⟨hid, hl⟩ := List.nodup_cons.mp hnodup
      have hfirst : Told (loneCtx posix now unset addr) ev [id] ⟨g, hist⟩
          ((turns posix).next ⟨g, hist⟩ ⟨now, unset, .system id addr ev⟩) := told_one h
      have hplan : n ≤ addr ∨ ∀ plan, ev ≠ .notifyPlan plan := by
        rcases hone with hone | hone | hone
        · exact .inr hone
        · cases hone
        · exact .inl hone.1
      have hspread : (g.turn posix ⟨now, unset, .system id addr ev⟩).1.Spread m :=
        h.turn hplan hm (.inl haddr)
      have hrest : (∀ plan, ev ≠ .notifyPlan plan) ∨ l = [] ∨ m ≤ addr ∧ l.length ≤ 1 := by
        rcases hone with hone | hone | hone
        · exact .inl hone
        · cases hone
        · exact .inr (.inl (List.length_eq_zero_iff.mp (by simpa using hone.2)))
      obtain ⟨hlast, hreg', hspread'⟩ := ih (hist ++ (g.turn posix
        ⟨now, unset, .system id addr ev⟩).2) (hreg.follows (follows_system posix g now unset id addr ev))
        hspread hl hrest le_rfl
      refine ⟨⟨hlast.fresh.trans hfirst.fresh, hlast.created.trans hfirst.created, fun j hj => ?_,
        fun j hj => ?_, fun j s hj hs => ?_⟩, hreg', hspread'⟩
      · obtain ⟨hnone, hacts⟩ := hfirst.missing j hj
        obtain ⟨hnone', hacts'⟩ := hlast.missing j hnone
        exact ⟨hnone', hacts'.trans hacts⟩
      · rw [List.mem_cons, not_or] at hj
        obtain ⟨hsame, hacts⟩ := hfirst.other j fun hmem => hj.1 (List.mem_singleton.mp hmem)
        obtain ⟨hsame', hacts'⟩ := hlast.other j hj.2
        exact ⟨hsame'.trans hsame, hacts'.trans hacts⟩
      · by_cases hjid : j = id
        · subst hjid
          obtain ⟨hstep, hacts⟩ := hfirst.told j s List.mem_cons_self hs
          obtain ⟨hsame, hacts'⟩ := hlast.other j hid
          exact ⟨hsame.trans hstep, hacts'.trans hacts⟩
        · obtain ⟨hsame, hacts⟩ := hfirst.other j fun hmem => hjid (List.mem_singleton.mp hmem)
          have hmem : j ∈ l := (List.mem_cons.mp hj).resolve_left hjid
          obtain ⟨hstep, hacts'⟩ := hlast.told j s hmem (hsame.trans hs)
          exact ⟨hstep, hacts'.trans (congrArg (· ++ _) hacts)⟩

end

/-- Nothing that the first system writes into the message makes a difference to another. -/
theorem exec_handOut (posix : PosixTime) (now : Time) (unset : Unset) {addr : ℕ} {ev : Event}
    {l : List ℕ} (h : ¬ ev.Shares ∨ l.length ≤ 1) (c : Config GeneralControl (ℕ × Act)) :
    (turns posix).exec c ((handOut addr ev l).map fun call => ⟨now, unset, call⟩) =
      (turns posix).exec c (l.map fun id => ⟨now, unset, .system id addr ev⟩) := by
  have hwritten (hev : ¬ ev.Shares) (c : Config GeneralControl (ℕ × Act)) (id : ℕ) :
      (turns posix).next c ⟨now, unset, .system id addr ev.written⟩ =
        (turns posix).next c ⟨now, unset, .system id addr ev⟩ := by
    simp only [Machine.next, turns, GeneralControl.turn, Obss.step_written hev]
    rfl
  cases l with
  | nil => rfl
  | cons id rest =>
      rcases h with hev | hone
      · simp only [handOut, Machine.exec, List.map_cons, List.map_map, List.foldl_cons,
          List.foldl_map, Function.comp_apply, hwritten hev]
      · obtain rfl : rest = [] := List.length_eq_zero_iff.mp (by simpa using hone)
        rfl

/-- A system as it stands in the program, with what it has sent out. -/
def view (id : ℕ) (c : Config GeneralControl (ℕ × Act)) : Config Lone Act :=
  ⟨⟨c.state.obssVec id, c.state.fresh⟩, actsOf id c.hist⟩

/-- The invariant of a run in which what systems share is given by both ids. -/
structure Parted (g : GeneralControl) : Prop where
  registered : g.Registered
  spread : g.Spread g.fresh

section

variable {posix : PosixTime} {c : Config GeneralControl (ℕ × Act)} {k : Command}

theorem parted_start : Parted start.state where
  registered := registered_empty
  spread := ⟨fun hs => (by cases hs), fun hs => by cases hs⟩

/-- A message that is given to some systems. -/
theorem deliver (h : c.state.Parted) (ev : Event) {l : List ℕ}
    (hcalls : c.state.calls k = handOut c.state.fresh ev l ++ [.newMessage])
    (hnodup : l.Nodup) (hone : ¬ ev.Shares ∨ l.length ≤ 1)
    (hmessages : k.messages = 1) (hdumps : ∀ s, k.dumps s = false)
    (hfor : ∀ j < c.state.created, ∀ s, c.state.obssVec j = some s →
      j ∈ l ∧ k.eventFor j s = some ev ∨ j ∉ l ∧ k.eventFor j s = none) :
    ((generalControl posix).next c k).state.Parted ∧
      c.state.created ≤ ((generalControl posix).next c k).state.created ∧
      ∀ j < c.state.created, view j ((generalControl posix).next c k) =
        (lone posix j).next (view j c) k := by
  have hone' : (∀ plan, ev ≠ .notifyPlan plan) ∨ l = [] ∨
      c.state.fresh ≤ c.state.fresh ∧ l.length ≤ 1 := by
    refine hone.imp (fun hev plan hplan => ?_) fun h => .inr ⟨le_rfl, h⟩
    subst hplan
    exact hev trivial
  obtain ⟨htold, hreg, hspread⟩ := told_all posix k.now k.unset c.hist
    h.registered h.spread hnodup hone' (Nat.le_succ _) (Nat.lt_succ_self _)
  obtain ⟨d, hd⟩ : ∃ d, (turns posix).exec c
      (l.map fun id => ⟨k.now, k.unset, .system id c.state.fresh ev⟩) = d := ⟨_, rfl⟩
  have hnext : (generalControl posix).next c k =
      ⟨{ d.state with fresh := d.state.fresh + 1 }, d.hist⟩ := by
    rw [generalControl, Machine.expand_next, turnsOf, hcalls, List.map_append, Machine.exec_append,
      exec_handOut posix k.now k.unset hone, hd]
    simp [Machine.exec, Machine.next, turns, GeneralControl.turn]
  rw [show (turns posix).exec ⟨c.state, c.hist⟩ _ = d from hd] at htold hreg hspread
  rw [hnext]
  refine ⟨⟨⟨hreg.bound, hreg.named, hreg.distinct⟩, ?_⟩, htold.created.ge, fun j hj => ?_⟩
  · have hfresh : d.state.fresh + 1 = c.state.fresh + 1 := by rw [htold.fresh]
    exact ⟨hspread.apart, fun hs hp => (hspread.below hs hp).trans_eq hfresh.symm⟩
  · have hfresh : d.state.fresh + 1 = c.state.fresh + k.messages := by rw [htold.fresh, hmessages]
    rw [Machine.next]
    simp only [view, lone, hfresh]
    cases hs : c.state.obssVec j with
    | none =>
        obtain ⟨hnone, hacts⟩ := htold.missing j hs
        rw [hnone, hacts, List.append_nil]
    | some s =>
        simp only [hdumps s, Bool.false_eq_true, if_false]
        rcases hfor j hj s hs with ⟨hmem, hev⟩ | ⟨hmem, hev⟩
        · obtain ⟨hstep, hacts⟩ := htold.told j s hmem hs
          rw [hstep, hacts, hev]
          rfl
        · obtain ⟨hsame, hacts⟩ := htold.other j hmem
          rw [hsame, hacts, hev, List.append_nil]
          exact congrArg (fun s => (⟨⟨s, _⟩, _⟩ : Config Lone Act)) hs

/-- The destroyed systems have sent nothing. -/
theorem exec_destroy_hist (g : GeneralControl) (now : Time) (unset : Unset)
    (hist : List (ℕ × Act)) (l : List ℕ) :
    ((turns posix).exec ⟨g, hist⟩
      ((l.map Call.destroy).map fun call => ⟨now, unset, call⟩)).hist = hist := by
  induction l generalizing g with
  | nil => rfl
  | cons id l ih =>
      have hnext : (turns posix).next ⟨g, hist⟩ ⟨now, unset, .destroy id⟩ =
          ⟨g.put id none, hist⟩ := by
        rw [Machine.next]
        simp [turns, GeneralControl.turn]
      rw [List.map_cons, List.map_cons]
      show ((turns posix).exec ((turns posix).next _ _) _).hist = _
      rw [hnext, ih]

theorem Parted.next (posix : PosixTime) (h : c.state.Parted) (hexact : k.Exact) :
    ((generalControl posix).next c k).state.Parted ∧
      c.state.created ≤ ((generalControl posix).next c k).state.created ∧
      ∀ j < c.state.created, view j ((generalControl posix).next c k) =
        (lone posix j).next (view j c) k := by
  obtain ⟨now, unset, kind⟩ := k
  cases kind with
  | client proto =>
      cases hevent : clientEvent proto with
      | none =>
          refine deliver h .abort (l := []) ?_ List.nodup_nil (.inr (Nat.zero_le 1)) rfl
            (fun _ => rfl) fun j _ s _ => .inr ⟨List.not_mem_nil, ?_⟩
          · simp [calls, processProtocolClient, handOut, hevent]
          · simp [Command.eventFor, hevent]
      | some ev =>
          refine deliver h ev (l := c.state.matched proto.base.gid proto.base.uid) ?_
            ((List.nodup_range.filter _).filter _) ?_ rfl (fun _ => rfl) fun j hj s hs => ?_
          · simp [calls, processProtocolClient, hevent]
          · by_cases hshares : ev.Shares
            · obtain ⟨hgid, huid⟩ := hexact proto ev rfl hevent hshares
              exact .inr (h.registered.matched_le_one hgid huid)
            · exact .inl hshares
          · cases hmatched : s.isMatched proto.base.gid proto.base.uid with
            | true =>
                exact .inl ⟨mem_matched.mpr ⟨hj, s, hs, hmatched⟩, by
                  simp [Command.eventFor, hmatched, hevent]⟩
            | false =>
                refine .inr ⟨fun hmem => ?_, by simp [Command.eventFor, hmatched]⟩
                obtain ⟨-, s', hs', hm⟩ := mem_matched.mp hmem
                obtain rfl := Option.some.inj (hs.symm.trans hs')
                rw [hmatched] at hm
                cases hm
  | system id ev =>
      refine deliver h ev (l := [id]) rfl (List.nodup_singleton id) (.inr le_rfl) rfl
        (fun _ => rfl) fun j _ s _ => ?_
      by_cases hid : id = j
      · exact .inl ⟨List.mem_singleton.mpr hid.symm, if_pos hid⟩
      · exact .inr ⟨fun hmem => hid (List.mem_singleton.mp hmem).symm, if_neg hid⟩
  | findObss gid uid type =>
      rw [generalControl, Machine.expand_next, turnsOf, calls]
      dsimp only
      rw [findObss]
      have hsame : ∀ j, view j c = (lone posix j).next (view j c) ⟨now, unset, .findObss gid uid type⟩ := by
        intro j
        rw [Machine.next]
        simp only [view, lone]
        cases c.state.obssVec j <;> simp [Command.messages, Command.dumps, Command.eventFor]
      split
      · next hnew =>
          obtain ⟨hnone, hgid, huid⟩ := hnew
          have hnext : (turns posix).exec c [⟨now, unset, .create gid uid type⟩] =
              ⟨{ c.state.put c.state.created (some (Obss.create gid uid type now)) with
                created := c.state.created + 1 }, c.hist⟩ := by
            simp [Machine.exec, Machine.next, turns, GeneralControl.turn]
          have hptr : (c.state.findObssPtr gid uid type true now).2 =
              { c.state.put c.state.created (some (Obss.create gid uid type now)) with
                created := c.state.created + 1 } := by
            simp [findObssPtr, hnone, hgid, huid]
          rw [List.map_singleton, hnext]
          refine ⟨⟨?_, ?_⟩, Nat.le_succ _, fun j hj => ?_⟩
          · rw [← hptr]
            exact h.registered.follows (follows_findObssPtr _ gid uid type true now)
          · refine h.spread.vector fun id s hs => ?_
            by_cases hid : id = c.state.created
            · subst hid
              obtain rfl : Obss.create gid uid type now = s := by simpa using hs
              exact .inr rfl
            · exact .inl ((put_other hid _ _).symm.trans hs)
          · rw [← hsame]
            simp only [view]
            congr 2
            exact put_other hj.ne _ _
      · exact ⟨h, le_rfl, fun j _ => hsame j⟩
  | dumpObss =>
      rw [generalControl, Machine.expand_next, turnsOf, calls]
      dsimp only
      rw [dumpObss]
      obtain ⟨l, hl⟩ : ∃ l, (c.state.ids.filter fun id => (c.state.obssVec id).any fun s =>
        s.lastClosedFor now > 300) = l := ⟨_, rfl⟩
      rw [hl]
      have hnext : (turns posix).exec c ((l.map Call.destroy).map fun call => ⟨now, unset, call⟩) =
          ⟨{ c.state with obssVec := fun id => if id ∈ l then none else c.state.obssVec id },
            c.hist⟩ :=
        congrArg₂ Config.mk (exec_destroy posix c.state now unset c.hist l)
          (exec_destroy_hist c.state now unset c.hist l)
      rw [hnext]
      refine ⟨⟨h.registered.follows (follows_destroy c.state l), h.spread.vector fun id s hs => ?_⟩,
        le_rfl, fun j hj => ?_⟩
      · by_cases hid : id ∈ l
        · simp [hid] at hs
        · exact .inl (by simpa [hid] using hs)
      · rw [Machine.next]
        simp only [view, lone]
        cases hs : c.state.obssVec j with
        | none => simp [Command.messages]
        | some s =>
            have hmem : j ∈ l ↔ s.lastClosedFor now > 300 := by
              rw [← hl, List.mem_filter, mem_ids]
              simp [hs, hj]
            by_cases hold : s.lastClosedFor now > 300
            · simp [hmem.mpr hold, Command.dumps, hold, Command.messages]
            · simp [mt hmem.mp hold, Command.dumps, hold, Command.messages, Command.eventFor]

end

/-- From its creation on a system does in the program what it would do on its own, given
the commands that match its ids and the events that name it: it makes no difference
which other systems there are, what they are told and what they send, as long as the
clients give by both ids each plan and each guide whose `op` is still to be written. -/
theorem view_exec (posix : PosixTime) (before after : List Command)
    (hexact : ∀ k ∈ before ++ after, k.Exact) {id : ℕ}
    (hid : id < ((generalControl posix).exec start before).state.created) :
    view id ((generalControl posix).exec start (before ++ after)) =
      (lone posix id).exec (view id ((generalControl posix).exec start before)) after := by
  have hparted : ∀ (ks : List Command) {c : Config GeneralControl (ℕ × Act)}, c.state.Parted →
      (∀ k ∈ ks, k.Exact) → ((generalControl posix).exec c ks).state.Parted ∧
        ∀ j < c.state.created, view j ((generalControl posix).exec c ks) =
          (lone posix j).exec (view j c) ks := by
    intro ks
    induction ks with
    | nil => exact fun h _ => ⟨h, fun _ _ => rfl⟩
    | cons k ks ih =>
        intro c h hks
        obtain ⟨hk, hks⟩ := List.forall_mem_cons.mp hks
        obtain ⟨hnext, hcreated, hview⟩ := h.next posix hk
        obtain ⟨hlast, hlasts⟩ := ih hnext hks
        refine ⟨hlast, fun j hj => ?_⟩
        have hrest := hlasts j (hj.trans_le hcreated)
        rw [hview j hj] at hrest
        exact hrest
  obtain ⟨hbefore, hafter⟩ := List.forall_mem_append.mp hexact
  rw [Machine.exec_append]
  exact (hparted after (hparted before parted_start hbefore).1 hafter).2 id hid

def atZero (kind : CommandKind) : Command :=
  { now := 0, unset := (Event.plain .abort).unset, kind := kind }

/-- Two systems of one group; one is given a plan and a guide, and then both are told to
abort. -/
def twoSystems : List Command :=
  [atZero (.findObss "001".toList "001".toList .gwac),
    atZero (.findObss "001".toList "002".toList .gwac)]

def planForOne : List Command :=
  [atZero (.client (.appPlan
      { gid := "001".toList, uid := "002".toList, type := kvtypeAppgwac, planSn := "1".toList })),
    atZero (.client (.guide { gid := "001".toList, uid := "002".toList })),
    atZero (.client (.abort { gid := "001".toList }))]

theorem view_exec_twoSystems :
    view 1 ((generalControl .blank).exec start (twoSystems ++ planForOne)) =
      (lone .blank 1).exec (view 1 ((generalControl .blank).exec start twoSystems)) planForOne := by
  refine view_exec .blank twoSystems planForOne ?_ (by decide)
  simp only [twoSystems, planForOne, List.cons_append, List.nil_append, List.forall_mem_cons]
  refine ⟨?_, ?_, ?_, ?_, ?_, List.forall_mem_nil _⟩
  · rintro proto ev ⟨⟩
  · rintro proto ev ⟨⟩
  · rintro proto ev ⟨⟩ - -
    exact ⟨by decide, by decide⟩
  · rintro proto ev ⟨⟩ - -
    exact ⟨by decide, by decide⟩
  · rintro proto ev ⟨⟩ ⟨⟩ hshares
    cases hshares

end GeneralControl

end Gtoaes
