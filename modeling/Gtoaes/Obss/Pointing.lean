import Mathlib.Algebra.Order.Ring.Abs
import Mathlib.Tactic.NormNum
import Gtoaes.Obss.Retry

/-!
Where the mount points when a plan starts without a slew.

`process_new_plan` sends no slew where the plan's `ra` and `dec` are near the
target remembered from the last one. The remembered target is what the mount was
told as long as every handler that points the mount or changes its connection
keeps the two in step. Not all do: a target is kept over a change of connection,
a slew line need not carry what is remembered of it, and a retry may repeat an
older frame. A run without such steps is shown to start no plan unpointed
(`pointedAtStart_of_pointingSound`).
-/

namespace Gtoaes

open Lib Lib.Handler

/-! ### Pointing commands -/

def NonKVBody.points : NonKVBody → Bool
  | .slew _ _ | .abortSlew | .park | .findHome _ _ => true
  | _ => false

def KVMsg.points : KVMsg → Bool
  | .slewto _ | .abort _ | .park _ | .home _ => true
  | _ => false

def MountMsg.points : MountMsg → Bool
  | .frame cmd => cmd.body.points
  | .line proto => proto.points

/-- The outputs that decide where the mount points: pointing commands, and the
changes of its connection. -/
def Act.points : Act → Option Act
  | .link conn => some (.link conn)
  | .mount conn req msg => if msg.points then some (.mount conn req msg) else none
  | .plan _ _ | .focus _ _ | .camera _ _ | .flatReslew => none

def lastPointing (hist : List Act) : Option Act := (hist.filterMap Act.points).getLast?

theorem lastPointing_append (hist acts : List Act) :
    lastPointing (hist ++ acts) = (lastPointing acts).or (lastPointing hist) := by
  simp only [lastPointing, List.filterMap_append, List.getLast?_append]

theorem lastPointing_append_of_silent {hist acts : List Act} (h : acts.filterMap Act.points = []) :
    lastPointing (hist ++ acts) = lastPointing hist := by
  rw [lastPointing_append, lastPointing, h]
  rfl

/-- The frame that was last sent to point the mount. -/
def lastFrame (hist : List Act) : Option NonKVFrame :=
  match lastPointing hist with
  | some (.mount _ _ (.frame cmd)) => some cmd
  | _ => none

/-! ### What a slew is to -/

inductive Aim
  | equatorial (ra dec : Double)
  | horizontal (azi ele : Double)
  | orbit (tle1 tle2 : Text)
  deriving DecidableEq

/-- The fields that the line carries, by the branches of `KVSlewto::ToString`;
`none` where one of them has never been set. -/
def KVSlewto.aim (m : KVSlewto) : Option Aim :=
  if m.coorsys = coorsysEqua then do return .equatorial (← m.ra) (← m.dec)
  else if m.coorsys = coorsysAltaz then do return .horizontal (← m.azi) (← m.ele)
  else some (.orbit m.tle1 m.tle2)

def NonKVBody.aim : NonKVBody → Option Aim
  | .slew ra dec => some (.equatorial ra dec)
  | _ => none

def MountMsg.aim : MountMsg → Option Aim
  | .frame cmd => cmd.body.aim
  | .line (.slewto m) => m.aim
  | .line _ => none

/-- Within 5 arcseconds of each other. -/
def Near (a b : Double) : Prop := ∃ x y : ℚ, a = .fin x ∧ b = .fin y ∧ |x - y| * 3600 ≤ 5

/-- The target of a plan, in the plan's own coordinate system. -/
def Aim.Meets (p : KVAppPlan) : Aim → Prop
  | .equatorial ra dec => p.coorsys = 0 ∧ Near p.ra ra ∧ Near p.dec dec
  | .horizontal azi ele => p.coorsys = 1 ∧ azi = p.azi ∧ ele = p.ele
  | .orbit tle1 tle2 => p.coorsys ≠ 0 ∧ p.coorsys ≠ 1 ∧ tle1 = p.tle1 ∧ tle2 = p.tle2

namespace Obss

theorem near_of_not_farOff {a b : Double} (ha : a.IsFinite) (hb : b.IsFinite)
    (h : farOff a b = false) : Near a b := by
  obtain ⟨x, rfl⟩ := ha
  obtain ⟨y, rfl⟩ := hb
  refine ⟨x, y, rfl, rfl, ?_⟩
  have hle : ¬ 5 < |(x - y) * 3600| := by simpa [farOff, Double.sub, Double.scale, Double.abs,
    Double.gt] using h
  rw [abs_mul, abs_of_pos (by norm_num : (0 : ℚ) < 3600)] at hle
  exact not_lt.mp hle

/-- A target is remembered. -/
def Remembers (s : Obss) : Prop := ¬ (s.mountInfo.objra = noTarget ∧ s.mountInfo.objdec = noTarget)

instance (s : Obss) : Decidable s.Remembers := inferInstanceAs (Decidable (¬ _))

/-- What the question turns on in the state. -/
def pointView (s : Obss) : Option Conn × Double × Double :=
  (s.tcpMount, s.mountInfo.objra, s.mountInfo.objdec)

/-- Neither points the mount nor forgets where it points. -/
abbrev Steady (h : Handler Obss Act) : Prop := Inert pointView Act.points h

theorem Ashore.steady {h : Handler Obss Act} (hh : Ashore h) : Steady h := by
  refine hh.mono (g := fun m => (m.tcpMount, m.objra, m.objdec)) (k := Act.points)
    (fun _ => rfl) ?_
  intro act
  cases act <;> rfl

/-- The mount's last pointing command is a slew to the remembered target, if
there is one. -/
def Told (hist : List Act) (s : Obss) : Prop :=
  s.Remembers → ∃ conn req msg, s.tcpMount = some conn ∧
    lastPointing hist = some (.mount conn req msg) ∧
    msg.aim = some (.equatorial s.mountInfo.objra s.mountInfo.objdec) ∧
    s.mountInfo.objra.IsFinite ∧ s.mountInfo.objdec.IsFinite

/-- Keeps what the mount was told in step with what is remembered. -/
def KeepsTold (h : Handler Obss Act) : Prop :=
  ∀ hist s, Told hist s → Told (hist ++ (h s).2) (h s).1

theorem told_congr {hist hist' : List Act} {s s' : Obss} (hv : s'.pointView = s.pointView)
    (hlast : lastPointing hist' = lastPointing hist) (h : Told hist s) : Told hist' s' := by
  obtain ⟨hconn, htarget⟩ := Prod.mk.inj hv
  obtain ⟨hra, hdec⟩ := Prod.mk.inj htarget
  unfold Told Remembers
  rw [hconn, hra, hdec, hlast]
  exact h

/-- Where nothing is remembered there is nothing to keep. -/
theorem told_of_not_remembers {hist : List Act} {s : Obss} (h : ¬ s.Remembers) : Told hist s :=
  fun hs => absurd hs h

theorem Steady.keepsTold {h : Handler Obss Act} (hh : Steady h) : KeepsTold h := by
  intro hist s htold
  obtain ⟨hv, hsilent⟩ := hh s
  exact told_congr hv (lastPointing_append_of_silent hsilent) htold

theorem Ashore.keepsTold {h : Handler Obss Act} (hh : Ashore h) : KeepsTold h :=
  hh.steady.keepsTold

/-- What the first handler has brought about the others keep. -/
theorem told_cons {h : Handler Obss Act} {hs : List (Handler Obss Act)} {hist : List Act}
    {s : Obss} (hh : Told (hist ++ (h s).2) (h s).1) (hhs : KeepsTold (all hs)) :
    Told (hist ++ (all (h :: hs) s).2) (all (h :: hs) s).1 := by
  rw [all_cons, ← List.append_assoc]
  exact hhs _ _ hh

theorem KeepsTold.nil : KeepsTold (all []) := Steady.keepsTold .nil

theorem KeepsTold.cons {h : Handler Obss Act} {hs : List (Handler Obss Act)}
    (hh : KeepsTold h) (hhs : KeepsTold (all hs)) : KeepsTold (all (h :: hs)) :=
  fun hist s htold => told_cons (hh hist s htold) hhs

theorem KeepsTold.when {b : Obss → Bool} {h : Handler Obss Act} (hh : KeepsTold h) :
    KeepsTold (when b h) := by
  intro hist s htold
  rcases when_cases b h s with ⟨-, heq⟩ | ⟨-, heq⟩
  · rw [heq]
    exact hh hist s htold
  · rw [heq]
    simpa using htold

/-! ### What the handlers do to it -/

/-- A command that does not point the mount. -/
theorem steady_mountCommand (ctx : Ctx) (req : Request) {body : NonKVBody}
    (hbody : body.points = false) {line : Option KVMsg}
    (hline : ∀ proto ∈ line, proto.points = false) :
    Steady (mountCommand ctx req (NonKVProtocol.encode body) line) := by
  intro s
  unfold mountCommand
  split
  · exact ⟨rfl, rfl⟩
  · exact ⟨rfl, by simp [Act.points, MountMsg.points, hbody]⟩
  · exact ⟨rfl, by simp [Act.points, MountMsg.points, hline _ rfl]⟩
  · exact ⟨rfl, rfl⟩

theorem steady_focusCommand (ctx : Ctx) (conn : Conn)
    (encode : NonKVProtocol → Time → NonKVFrame × NonKVProtocol) :
    Steady (focusCommand ctx conn encode) := fun _ => ⟨rfl, rfl⟩

theorem steady_updateCamera (f : CameraInfo → Bool) (g : CameraInfo → CameraInfo) :
    Steady (updateCamera f g) := .update fun _ => by rfl

theorem steady_focus (ctx : Ctx) (proto : KVFocus) : Steady (focus ctx proto) := by
  intro s
  unfold focus
  split
  · exact ⟨rfl, rfl⟩
  · split
    · exact Inert.cons (steady_updateCamera _ _) (.cons (steady_focusCommand ctx _ _) .nil) s
    · exact ⟨rfl, rfl⟩

theorem steady_syncLoop (ctx : Ctx) (conn : Conn) (its : List CameraInfo) :
    Steady (syncLoop ctx conn its) := by
  induction its with
  | nil => exact .skip
  | cons it its ih => exact (steady_focusCommand ctx conn _).andThen ih

theorem steady_focusSync (ctx : Ctx) (proto : KVFocusSync) : Steady (focusSync ctx proto) := by
  intro s
  unfold focusSync
  split
  · exact ⟨rfl, rfl⟩
  · exact Inert.cons (.update fun _ => by rfl) (.cons (steady_syncLoop ctx _ _) .nil) s

theorem steady_notifyFWHM (ctx : Ctx) (proto : KVFWHM) : Steady (notifyFWHM ctx proto) := by
  intro s
  unfold notifyFWHM
  split
  · dsimp only
    split
    · exact Inert.cons (steady_updateCamera _ _) (.cons (steady_focusCommand ctx _ _) .nil) s
    · exact ⟨rfl, rfl⟩
  · exact ⟨rfl, rfl⟩

theorem steady_guide (ctx : Ctx) (proto : KVGuide) : Steady (guide ctx proto) := by
  refine .cons (.when (steady_mountCommand ctx .guide rfl ?_))
    (.cons (ashore_write2camera _ _).steady .nil)
  rintro _ ⟨⟩
  rfl

/-- `Abort`, `Park` and `FindHome` point the mount away and forget its target. -/
theorem keepsTold_reset (ctx : Ctx) (req : Request)
    (encode : NonKVProtocol → Time → NonKVFrame × NonKVProtocol) (line : Option KVMsg) :
    KeepsTold (all [mountCommand ctx req encode line, setTarget noTarget noTarget]) := by
  intro hist s _
  exact told_of_not_remembers fun h => h ⟨rfl, rfl⟩

theorem keepsTold_abort (ctx : Ctx) : KeepsTold (abort ctx) :=
  .cons (.when (keepsTold_reset ctx .abort _ _))
    (.cons (.when (ashore_write2camera _ _).keepsTold)
      (.cons (.when (ashore_closePlan ctx _).keepsTold) .nil))

theorem keepsTold_park (ctx : Ctx) : KeepsTold (park ctx) :=
  .cons (.when (keepsTold_reset ctx .park _ _))
    (.cons (.when (ashore_write2camera _ _).keepsTold)
      (.cons (.when (ashore_closePlan ctx _).keepsTold) .nil))

theorem keepsTold_notifyPlan (ctx : Ctx) (p : PlanPtr) : KeepsTold (notifyPlan ctx p) := by
  intro hist s htold
  unfold notifyPlan
  split
  · simpa using htold
  · refine KeepsTold.cons (.when (keepsTold_abort ctx)) (.cons (Steady.keepsTold ?_) .nil)
      hist s htold
    exact fun _ => ⟨rfl, rfl⟩

/-- A slew to a mount on-line is sent as one message. -/
theorem mountCommand_slew (ctx : Ctx) (req : Request) {ra dec : Double} {proto : KVSlewto}
    {s : Obss} {conn : Conn} (hconn : s.tcpMount = some conn)
    (haim : s.obssType = .gft → proto.aim = some (.equatorial ra dec)) :
    ∃ s' msg, mountCommand ctx req (NonKVProtocol.slew ra dec) (some (.slewto proto)) s =
        (s', [.mount conn req msg]) ∧
      s'.tcpMount = some conn ∧ msg.points = true ∧ msg.aim = some (.equatorial ra dec) := by
  unfold mountCommand
  cases htype : s.obssType with
  | gwac =>
      rw [hconn]
      exact ⟨_, _, rfl, rfl, rfl, rfl⟩
  | gft =>
      rw [hconn]
      exact ⟨_, _, rfl, hconn, rfl, haim htype⟩

/-- A slew that carries what is remembered of it. -/
theorem told_slew {ctx : Ctx} {req : Request} {ra dec : Double} {proto : KVSlewto} {s : Obss}
    (honline : s.mountOnline = true) (hra : ra.IsFinite) (hdec : dec.IsFinite)
    (haim : s.obssType = .gft → proto.aim = some (.equatorial ra dec)) (hist : List Act) :
    Told (hist ++ (all [mountCommand ctx req (NonKVProtocol.slew ra dec) (some (.slewto proto)),
        setTarget ra dec] s).2)
      (all [mountCommand ctx req (NonKVProtocol.slew ra dec) (some (.slewto proto)),
        setTarget ra dec] s).1 := by
  obtain ⟨conn, hconn⟩ := Option.isSome_iff_exists.mp honline
  obtain ⟨s', msg, heq, hconn', hpoints, hmsg⟩ := mountCommand_slew ctx req hconn haim
  intro _
  rw [all_cons, heq]
  refine ⟨conn, req, msg, hconn', ?_, hmsg, hra, hdec⟩
  simp [lastPointing, setTarget, all_cons, Act.points, hpoints]

/-! ### Starting a plan -/

/-- The plan that a round of `thread_obsplan` starts. -/
def started (ctx : Ctx) (s : Obss) : Option PlanPtr :=
  s.plan.filter fun p =>
    !ctx.shared p.addr && s.planState.state == some obsplanCataloged && s.readyToRun

/-- A round of the thread starts a plan, aborts one or does nothing. -/
theorem threadObsplan_cases (ctx : Ctx) (s : Obss) :
    (∃ p, s.started ctx = some p ∧
      threadObsplan ctx s = all [processNewPlan ctx p, setTmend ctx p.plan] s) ∨
    (s.started ctx = none ∧ (threadObsplan ctx s = (s, []) ∨ threadObsplan ctx s = abort ctx s)) := by
  -- the guards of the round and those of `started` are the same
  unfold threadObsplan started
  split
  · rename_i hplan
    exact .inr ⟨by simp [hplan], .inl rfl⟩
  · rename_i p hplan
    split
    · rename_i hshared
      exact .inr ⟨by simp [hplan, hshared], .inl rfl⟩
    · rename_i hshared
      split
      · rename_i hcat
        rcases when_cases readyToRun (all [processNewPlan ctx p, setTmend ctx p.plan]) s with
          ⟨hready, heq⟩ | ⟨hready, heq⟩
        · exact .inl ⟨p, by simp [hplan, hshared, hcat, hready], heq⟩
        · exact .inr ⟨by simp [hplan, hready], .inl heq⟩
      · rename_i hcat
        refine .inr ⟨by simp [hplan, hcat], ?_⟩
        split
        · rcases when_cases (overdue ctx · p.plan) (abort ctx) s with ⟨-, heq⟩ | ⟨-, heq⟩
          · exact .inr heq
          · exact .inl heq
        · exact .inl rfl

theorem mountOnline_of_started {ctx : Ctx} {s : Obss} {p : PlanPtr} (h : s.started ctx = some p) :
    s.mountOnline = true := by
  have hready := (Option.filter_eq_some_iff.mp h).2
  simp only [readyToRun, Bool.and_eq_true] at hready
  exact hready.2.1.1

/-- `CoupleMount` takes the connection. -/
def couples (conn : Conn) (s : Obss) : Bool :=
  match s.obssType with
  | .gwac => s.tcpMount != some conn
  | .gft => s.tcpMount.isNone

/-- A slew command whose target is remembered as it is sent. -/
def SlewsSoundly (ctx : Ctx) (s : Obss) (proto : KVSlewto) : Prop :=
  (proto.ra.getD (ctx.unset.dbl "ra".toList)).IsFinite ∧
  (proto.dec.getD (ctx.unset.dbl "dec".toList)).IsFinite ∧
  (s.obssType = .gft → proto.coorsys = coorsysEqua ∧ proto.ra.isSome ∧ proto.dec.isSome)

instance (ctx : Ctx) (s : Obss) (proto : KVSlewto) : Decidable (s.SlewsSoundly ctx proto) :=
  inferInstanceAs (Decidable (_ ∧ _ ∧ _))

/-- A plan whose target is remembered as it is sent, or is the one remembered. -/
def StartsSoundly (s : Obss) (p : KVAppPlan) : Prop :=
  p.ra.IsFinite ∧ p.dec.IsFinite ∧
  if s.slewReq p then s.obssType = .gwac else p.coorsys = 0 ∧ s.Remembers

instance (s : Obss) (p : KVAppPlan) : Decidable (s.StartsSoundly p) :=
  inferInstanceAs (Decidable (_ ∧ _ ∧ _))

/-- The step keeps the remembered target in step with what the mount is told. -/
def PointingSound (ctx : Ctx) (hist : List Act) (s : Obss) : Event → Prop
  | .coupleMount conn => s.couples conn = true → ¬ s.Remembers
  | .decoupleMount ptr => s.tcpMount = ptr → ¬ s.Remembers
  | .slewto proto => s.unique ctx = false → s.mountOnline = true → s.SlewsSoundly ctx proto
  | .obsplanTick => ∀ p ∈ s.started ctx, needsPointing p.plan = true → s.StartsSoundly p.plan
  | .rewriteTick stale =>
      s.Remembers → ∀ it ∈ s.resent stale, it.devtype = 0 → it.cmd.body.points = true →
        lastFrame hist = some it.cmd
  | _ => True

instance (ctx : Ctx) (hist : List Act) (s : Obss) (ev : Event) :
    Decidable (s.PointingSound ctx hist ev) := by
  cases ev <;> dsimp only [PointingSound] <;> infer_instance

/-- A plan that is started without a slew, though it needs pointing, finds the
mount on the present connection sent to its target, by the last of all pointing
commands and changes of connection. -/
def PointedAtStart (ctx : Ctx) (hist : List Act) (s : Obss) (ev : Event) : Prop :=
  ev = .obsplanTick → ∀ p ∈ s.started ctx, needsPointing p.plan = true →
    s.slewReq p.plan = false →
      ∃ conn req msg aim, s.tcpMount = some conn ∧
        lastPointing hist = some (.mount conn req msg) ∧ msg.aim = some aim ∧ aim.Meets p.plan

/-! ### What a sound step keeps -/

theorem told_coupleMount {hist : List Act} {s : Obss} {conn : Conn} (htold : Told hist s)
    (h : s.couples conn = true → ¬ s.Remembers) :
    Told (hist ++ (coupleMount conn s).2) (coupleMount conn s).1 := by
  rw [show coupleMount conn s = if s.couples conn = true then _ else _ from rfl]
  split
  · rename_i hcouples
    exact told_of_not_remembers (h hcouples)
  · simpa using htold

theorem told_decoupleMount (ctx : Ctx) {hist : List Act} {s : Obss} {ptr : Option Conn}
    (htold : Told hist s) (h : s.tcpMount = ptr → ¬ s.Remembers) :
    Told (hist ++ (decoupleMount ctx ptr s).2) (decoupleMount ctx ptr s).1 := by
  unfold decoupleMount
  split
  · rename_i hptr
    exact told_of_not_remembers (h hptr)
  · simpa using htold

theorem told_slewto {ctx : Ctx} {hist : List Act} {s : Obss} {proto : KVSlewto}
    (htold : Told hist s)
    (h : s.unique ctx = false → s.mountOnline = true → s.SlewsSoundly ctx proto) :
    Told (hist ++ (slewto ctx proto s).2) (slewto ctx proto s).1 := by
  unfold slewto
  split
  · simpa using htold
  · rename_i hunique
    dsimp only
    rcases when_cases mountOnline (all [mountCommand ctx (.slewto proto) _ _, setTarget _ _]) s with
      ⟨honline, heq⟩ | ⟨-, heq⟩
    · rw [heq]
      obtain ⟨hra, hdec, hgft⟩ := h (by simpa using hunique) honline
      refine told_slew honline hra hdec (fun htype => ?_) hist
      obtain ⟨hequa, hra, hdec⟩ := hgft htype
      obtain ⟨ra, hra⟩ := Option.isSome_iff_exists.mp hra
      obtain ⟨dec, hdec⟩ := Option.isSome_iff_exists.mp hdec
      simp [KVSlewto.aim, hequa, hra, hdec]
    · rw [heq]
      simpa using htold

theorem told_processNewPlan {ctx : Ctx} {hist : List Act} {s : Obss} {p : PlanPtr}
    (htold : Told hist s) (honline : s.mountOnline = true)
    (h : needsPointing p.plan = true → s.StartsSoundly p.plan) :
    Told (hist ++ (processNewPlan ctx p s).2) (processNewPlan ctx p s).1 := by
  have hrest : KeepsTold (all [write2camera (.appPlan p.plan) [],
      when (fun _ => !s.slewReq p.plan) (expose2camera expStart 0 []), publishRunning ctx p]) :=
    .cons (ashore_write2camera _ _).keepsTold (.cons (.when (ashore_write2camera _ _).keepsTold)
      (.cons (ashore_publishRunning ctx p).keepsTold .nil))
  refine told_cons ?_ hrest
  rcases when_cases (slewReq · p.plan) (all [mountCommand ctx (.plan p.plan) _ _, setTarget _ _]) s
    with ⟨hslew, heq⟩ | ⟨-, heq⟩
  · rw [heq]
    have hneeds : needsPointing p.plan = true := by
      simp only [slewReq, Bool.and_eq_true] at hslew
      exact hslew.1
    obtain ⟨hra, hdec, hgwac⟩ := h hneeds
    rw [if_pos hslew] at hgwac
    exact told_slew honline hra hdec (fun hgft => by simp [hgwac] at hgft) hist
  · rw [heq]
    simpa using htold

theorem told_threadObsplan {ctx : Ctx} {hist : List Act} {s : Obss} (htold : Told hist s)
    (h : ∀ p ∈ s.started ctx, needsPointing p.plan = true → s.StartsSoundly p.plan) :
    Told (hist ++ (threadObsplan ctx s).2) (threadObsplan ctx s).1 := by
  rcases threadObsplan_cases ctx s with ⟨p, hp, heq⟩ | ⟨-, heq | heq⟩
  · rw [heq]
    exact told_cons (told_processNewPlan htold (mountOnline_of_started hp) (h p hp))
      (.cons (Steady.keepsTold (.update fun _ => by rfl)) .nil)
  · rw [heq]
    simpa using htold
  · rw [heq]
    exact keepsTold_abort ctx hist s htold

theorem rewriteItem_points (it : NonKVProtoItem) (s : Obss) :
    (rewriteItem it s).2.filterMap Act.points = [] ∨
    ∃ conn, it.devtype = 0 ∧ it.cmd.body.points = true ∧ s.tcpMount = some conn ∧
      (rewriteItem it s).2 = [.mount conn .rewrite (.frame it.cmd)] := by
  unfold rewriteItem mountOnline
  rw [emit_apply]
  dsimp only
  split
  · rename_i h
    obtain ⟨conn, hconn⟩ := Option.isSome_iff_exists.mp h.2
    rw [hconn]
    cases hpoints : it.cmd.body.points with
    | true => exact .inr ⟨conn, h.1, rfl, rfl, rfl⟩
    | false => exact .inl (by simp [Act.points, MountMsg.points, hpoints])
  · refine .inl ?_
    split
    · exact filterMap_map_of_mute (fun _ => rfl) _
    · rfl

theorem pointView_rewriteTick (ctx : Ctx) (s : Obss) (stale : NonKVProtoItem) :
    (step ctx (.rewriteTick stale) s).1.pointView = s.pointView := by
  rw [show step ctx (.rewriteTick stale) s =
    when (fun s => s.obssType == .gwac) (threadRewrite stale) s from rfl]
  rcases when_cases (fun s : Obss => s.obssType == .gwac) (threadRewrite stale) s with
    ⟨-, heq⟩ | ⟨-, heq⟩
  · rw [heq]
    unfold threadRewrite
    split
    · rfl
    · split <;> rfl
  · rw [heq]

/-- A retry is silent or sends the entry that is up. -/
theorem rewriteTick_points (ctx : Ctx) (s : Obss) (stale : NonKVProtoItem) :
    (step ctx (.rewriteTick stale) s).2.filterMap Act.points = [] ∨
    ∃ it conn, s.resent stale = some it ∧ it.devtype = 0 ∧ it.cmd.body.points = true ∧
      s.tcpMount = some conn ∧
      (step ctx (.rewriteTick stale) s).2 = [.mount conn .rewrite (.frame it.cmd)] := by
  rw [show step ctx (.rewriteTick stale) s =
    when (fun s => s.obssType == .gwac) (threadRewrite stale) s from rfl]
  rcases when_cases (fun s : Obss => s.obssType == .gwac) (threadRewrite stale) s with
    ⟨-, heq⟩ | ⟨-, heq⟩
  · rw [heq, threadRewrite_acts]
    cases hit : s.resent stale with
    | none => exact .inl rfl
    | some it =>
        rcases rewriteItem_points it s with hsilent | ⟨conn, h⟩
        · exact .inl hsilent
        · exact .inr ⟨it, conn, rfl, h⟩
  · rw [heq]
    exact .inl rfl

theorem told_rewriteTick (ctx : Ctx) {hist : List Act} {s : Obss} {stale : NonKVProtoItem}
    (htold : Told hist s) (h : s.PointingSound ctx hist (.rewriteTick stale)) :
    Told (hist ++ (step ctx (.rewriteTick stale) s).2) (step ctx (.rewriteTick stale) s).1 := by
  have hview := pointView_rewriteTick ctx s stale
  rcases rewriteTick_points ctx s stale with hsilent | ⟨it, conn, hit, hdev, hpoints, hconn, hacts⟩
  · exact told_congr hview (lastPointing_append_of_silent hsilent) htold
  · obtain ⟨htcp, htarget⟩ := Prod.mk.inj hview
    obtain ⟨hra, hdec⟩ := Prod.mk.inj htarget
    intro hrem
    unfold Remembers at hrem
    rw [hra, hdec] at hrem ⊢
    obtain ⟨conn', req, msg, -, hlast, haim, hfin⟩ := htold hrem
    -- the frame that goes out again is the one that was last to point the mount
    have hframe := h hrem it hit hdev hpoints
    have hmsg : msg = .frame it.cmd := by
      rw [lastFrame, hlast] at hframe
      cases msg with
      | frame cmd => rw [Option.some.inj hframe]
      | line proto => cases hframe
    refine ⟨conn, .rewrite, msg, htcp.trans hconn, ?_, haim, hfin⟩
    rw [hacts, hmsg, lastPointing_append]
    simp [lastPointing, Act.points, MountMsg.points, hpoints]

/-- A sound step keeps what is remembered in step with what the mount is told. -/
theorem told_step {ctx : Ctx} {hist : List Act} {s : Obss} {ev : Event} (htold : Told hist s)
    (h : s.PointingSound ctx hist ev) : Told (hist ++ (step ctx ev s).2) (step ctx ev s).1 := by
  cases ev with
  | notifyPlan plan => exact keepsTold_notifyPlan ctx _ hist s htold
  | abort => exact keepsTold_abort ctx hist s htold
  | slewto proto => exact told_slewto htold h
  | park => exact keepsTold_park ctx hist s htold
  | guide proto => exact (steady_guide ctx proto).keepsTold hist s htold
  | track =>
      exact (steady_mountCommand ctx .track rfl (by simp)).keepsTold.when hist s htold
  | trackVel proto =>
      exact (steady_mountCommand ctx .trackVel rfl (by simp)).keepsTold.when hist s htold
  | findHome => exact (keepsTold_reset ctx .findHome _ _).when hist s htold
  | focus proto => exact (steady_focus ctx proto).keepsTold hist s htold
  | focusSync proto => exact (steady_focusSync ctx proto).keepsTold hist s htold
  | notifyFWHM proto => exact (steady_notifyFWHM ctx proto).keepsTold hist s htold
  | coupleMount conn => exact told_coupleMount htold h
  | decoupleMount ptr => exact told_decoupleMount ctx htold h
  | obsplanTick => exact told_threadObsplan htold h
  | rewriteTick stale => exact told_rewriteTick ctx htold h
  | _ => exact (ashore_step ctx rfl).keepsTold hist s htold

/-- What is remembered decides the skipping of a slew. -/
theorem pointedAtStart_of_told {ctx : Ctx} {hist : List Act} {s : Obss} {ev : Event}
    (htold : Told hist s) (h : s.PointingSound ctx hist ev) : s.PointedAtStart ctx hist ev := by
  rintro rfl p hp hneeds hskip
  obtain ⟨hra, hdec, hplan⟩ := h p hp hneeds
  rw [if_neg (by simp [hskip])] at hplan
  obtain ⟨hsys, hrem⟩ := hplan
  obtain ⟨conn, req, msg, hconn, hlast, haim, hobjra, hobjdec⟩ := htold hrem
  have hnear : farOff p.plan.ra s.mountInfo.objra = false ∧
      farOff p.plan.dec s.mountInfo.objdec = false := by
    simpa [slewReq, hneeds] using hskip
  exact ⟨conn, req, msg, _, hconn, hlast, haim, hsys, near_of_not_farOff hra hobjra hnear.1,
    near_of_not_farOff hdec hobjdec hnear.2⟩

end Obss

namespace Solo

open Obss

/-- In a run whose steps keep the remembered target in step with what the mount
is told, every plan that is started without a slew finds the mount sent to its
target. -/
theorem pointedAtStart_of_pointingSound (posix : PosixTime) (gid uid : Text) (type : ObssType)
    (now : Time) (is : List Input)
    (h : (solo posix).Each
      (fun c i => c.state.obss.PointingSound (c.state.ctx posix i) c.hist i.ev)
      (start gid uid type now) is) :
    (solo posix).Each (fun c i => c.state.obss.PointedAtStart (c.state.ctx posix i) c.hist i.ev)
      (start gid uid type now) is := by
  have hstart : Told (start gid uid type now).hist (start gid uid type now).state.obss :=
    told_of_not_remembers fun h => h ⟨rfl, rfl⟩
  have hrun := h.with_invariant (P := fun c : Config Solo Act => Told c.hist c.state.obss) hstart
    fun c i htold hsound => told_step htold hsound
  exact hrun.mono fun c i hboth => pointedAtStart_of_told hboth.1 hboth.2

/-- A plan of a field of the sky. -/
def fieldPlan (sn : String) : KVAppPlan where
  planSn := sn.toList
  imgtype := "object".toList
  ra := .fin 10
  dec := .fin 20

/-- The field is observed, and a second plan of it is taken. -/
def fieldVisit (between : List Event) : List Input :=
  ([Event.coupleMount 1, .coupleCamera 2 "001".toList, .notifyPlan (fieldPlan "1"), .obsplanTick,
    .deviceLine 2 (.camera { cid := "001".toList, state := some camctlExposing }),
    .deviceLine 2 (.camera { cid := "001".toList, state := some camctlIdle })] ++ between ++
    [Event.notifyPlan (fieldPlan "2")]).map Event.plain

theorem pointedAtStart_fieldVisit :
    (solo .blank).Each (fun c i => c.state.obss.PointedAtStart (c.state.ctx .blank i) c.hist i.ev)
      (start "001".toList "001".toList .gwac 0) (fieldVisit [] ++ [Event.plain .obsplanTick]) :=
  pointedAtStart_of_pointingSound .blank "001".toList "001".toList .gwac 0
    (fieldVisit [] ++ [Event.plain .obsplanTick]) (by decide +kernel)

/-- Before the second plan the mount has come back on another connection. -/
theorem not_pointedAtStart : ¬ ∀ (posix : PosixTime) (gid uid : Text) (type : ObssType)
    (now : Time) (is : List Input),
    (solo posix).Each (fun c i => c.state.obss.PointedAtStart (c.state.ctx posix i) c.hist i.ev)
      (start gid uid type now) is := by
  intro h
  let visit := fieldVisit [.decoupleMount (some 1), .coupleMount 3]
  let c := (solo .blank).exec (start "001".toList "001".toList .gwac 0) visit
  have hlast := (Machine.each_append.mp (h .blank "001".toList "001".toList .gwac 0
    (visit ++ [Event.plain .obsplanTick]))).2.1
  have hstarted : c.state.obss.started (c.state.ctx .blank (Event.plain .obsplanTick)) =
      some ⟨8, fieldPlan "2"⟩ := by
    decide +kernel
  have hskip : c.state.obss.slewReq (fieldPlan "2") = false := by
    decide +kernel
  have hpoint : lastPointing c.hist = some (.link (some 3)) := by
    decide +kernel
  obtain ⟨_, _, _, _, -, hmount, -⟩ := hlast rfl _ hstarted (by decide) hskip
  rw [hpoint] at hmount
  cases hmount

end Solo

end Gtoaes
