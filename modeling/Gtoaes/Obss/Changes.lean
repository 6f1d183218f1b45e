import Mathlib.Order.Defs.Unbundled
import Gtoaes.Obss.Wiring

/-!
What the handlers do to a system beyond its cameras and plans. Most of them only queue
commands: each is encoded and put behind those that wait, with no retry counted, and ids,
type, connections and the count of images stay what they are. The others are the four
that plug connections, the answers and the retries, and the image that is given a number.
-/

namespace Gtoaes

open Lib Lib.Handler

/-- Who a system is and which connections it holds. -/
structure Ends where
  gid : Text
  uid : Text
  obssType : ObssType
  tcpMount : Option Conn
  tcpFocus : Option Conn

def Obss.ends (s : Obss) : Ends where
  gid := s.gid
  uid := s.uid
  obssType := s.obssType
  tcpMount := s.tcpMount
  tcpFocus := s.tcpFocus

/-- The commands with neither a number nor a camera of the request in them. -/
def NonKVBody.plain : NonKVBody → Bool
  | .guide _ _ | .fwhm _ _ _ | .focus _ _ | .focusSync _ => false
  | _ => true

namespace Event

/-- Whether an event couples or decouples mount or focuser. -/
def plugs : Event → Bool
  | .coupleMount _ | .decoupleMount _ | .coupleFocus _ | .decoupleFocus _ => true
  | _ => false

/-- Whether an event takes commands out of the buffer. -/
def unqueues : Event → Bool
  | .notifyResponse _ | .decoupleMount _ | .decoupleFocus _ | .rewriteTick _ => true
  | _ => false

end Event

namespace Obss

/-- Keeps ids, type and the connections of mount and focuser. -/
abbrev FixesEnds (h : Handler Obss Act) : Prop := Fixes ends h

theorem WireInert.fixesEnds {h : Handler Obss Act} (hh : WireInert h) : FixesEnds h :=
  hh.fixes.mono (g := fun w => ⟨w.gid, w.uid, w.obssType, w.tcpMount, w.tcpFocus⟩) fun _ => rfl

/-- What commands leave alone. -/
def fixtures (s : Obss) : Ends × Text × Text × ℤ × ℤ := (s.ends, s.imageCount)

theorem ends_of_fixtures {s s' : Obss} (h : s'.fixtures = s.fixtures) : s'.ends = s.ends :=
  congrArg Prod.fst h

theorem imageCount_of_fixtures {s s' : Obss} (h : s'.fixtures = s.fixtures) :
    s'.imageCount = s.imageCount := congrArg Prod.snd h

/-- One state comes from another by queueing commands that meet `Q`, each as soon as
it is encoded. -/
inductive Changes (Q : NonKVBody → Prop) : Obss → Obss → Prop
  | keep {s s' : Obss} (hfixtures : s'.fixtures = s.fixtures)
      (hproto : s'.nonkvproto = s.nonkvproto) (hbuff : s'.nonkvProtoBuff = s.nonkvProtoBuff) :
      Changes Q s s'
  | command {s s' : Obss} (body : NonKVBody) (utc : Time) (devtype : ℤ) (hbody : Q body)
      (hfixtures : s'.fixtures = s.fixtures)
      (hproto : s'.nonkvproto = (NonKVProtocol.encode body s.nonkvproto utc).2)
      (hbuff : s'.nonkvProtoBuff =
        s.nonkvProtoBuff.push devtype (NonKVProtocol.encode body s.nonkvproto utc).1) :
      Changes Q s s'
  | trans {s t s' : Obss} (h : Changes Q s t) (h' : Changes Q t s') : Changes Q s s'

variable {Q : NonKVBody → Prop}

instance : IsPreorder Obss (Changes Q) where
  refl _ := .keep rfl rfl rfl
  trans _ _ _ := .trans

theorem Changes.fixtures {s s' : Obss} (h : Changes Q s s') : s'.fixtures = s.fixtures := by
  induction h with
  | keep hfixtures => exact hfixtures
  | command body utc devtype hbody hfixtures => exact hfixtures
  | trans h h' ih ih' => exact ih'.trans ih

/-- Commands are queued behind those that wait. -/
theorem Changes.buff {s s' : Obss} (h : Changes Q s s') :
    ∃ news, s'.nonkvProtoBuff = s.nonkvProtoBuff ++ news := by
  induction h with
  | keep hfixtures hproto hbuff => exact ⟨[], by rw [hbuff, List.append_nil]⟩
  | command body utc devtype hbody hfixtures hproto hbuff => exact ⟨_, hbuff⟩
  | trans h h' ih ih' =>
      obtain ⟨news, hnews⟩ := ih
      obtain ⟨news', hnews'⟩ := ih'
      exact ⟨news ++ news', by rw [hnews', hnews, List.append_assoc]⟩

theorem Still.changes {h : Handler Obss Act} (hh : Still h) : Relates (Changes Q) h := by
  intro s
  have hwiring : (h s).1.wiring = s.wiring := (hh.wireInert s).1
  have hcount : (h s).1.imageCount = s.imageCount := congrArg Prod.snd (hh s).1
  exact .keep (Prod.ext (hh.wireInert.fixesEnds s) hcount) (congrArg Wiring.nonkvproto hwiring)
    (congrArg Wiring.nonkvProtoBuff hwiring)

/-! ### Commands -/

/-- An encoder of commands that meet `Q`. -/
def EncodesIn (Q : NonKVBody → Prop)
    (encode : NonKVProtocol → Time → NonKVFrame × NonKVProtocol) : Prop :=
  ∃ body, encode = NonKVProtocol.encode body ∧ Q body

theorem changes_mountCommand (ctx : Ctx) (req : Request)
    {encode : NonKVProtocol → Time → NonKVFrame × NonKVProtocol} (h : EncodesIn Q encode)
    (line : Option KVMsg) : Relates (Changes Q) (mountCommand ctx req encode line) := by
  obtain ⟨body, rfl, hbody⟩ := h
  intro s
  unfold mountCommand
  split
  · exact .keep rfl rfl rfl
  · exact .command body ctx.now 0 hbody rfl rfl rfl
  · exact .keep rfl rfl rfl
  · exact .keep rfl rfl rfl

theorem changes_focusCommand (ctx : Ctx) (conn : Conn)
    {encode : NonKVProtocol → Time → NonKVFrame × NonKVProtocol} (h : EncodesIn Q encode) :
    Relates (Changes Q) (focusCommand ctx conn encode) := by
  obtain ⟨body, rfl, hbody⟩ := h
  exact fun _ => .command body ctx.now 1 hbody rfl rfl rfl

/-- A command and the target it leaves the mount with. -/
theorem changes_pointing (ctx : Ctx) (req : Request)
    {encode : NonKVProtocol → Time → NonKVFrame × NonKVProtocol} (h : EncodesIn Q encode)
    (line : Option KVMsg) (ra dec : Double) :
    Relates (Changes Q) (all [mountCommand ctx req encode line, setTarget ra dec]) :=
  .cons (changes_mountCommand ctx req h line) (.cons (fun _ => .keep rfl rfl rfl) .nil)

/-- `Abort` and `Park`. -/
theorem changes_halt {a b : Obss → Bool} (ctx : Ctx) (req : Request)
    {encode : NonKVProtocol → Time → NonKVFrame × NonKVProtocol} (h : EncodesIn Q encode)
    (line : Option KVMsg) (ra dec : Double) (proto : KVMsg) (cid : Text) (code : ℤ) :
    Relates (Changes Q) (all [when a (all [mountCommand ctx req encode line, setTarget ra dec]),
      when b (write2camera proto cid), when (unique ctx) (closePlan ctx code)]) :=
  .cons (.when (changes_pointing ctx req h line ra dec))
    (.cons (.when (still_write2camera proto cid).changes)
      (.cons (.when (still_closePlan ctx code).changes) .nil))

section Plain

variable (hplain : ∀ body : NonKVBody, body.plain = true → Q body)
include hplain

theorem encodesIn_plain {body : NonKVBody} (h : body.plain = true) :
    EncodesIn Q (NonKVProtocol.encode body) := ⟨body, rfl, hplain body h⟩

theorem changes_abort (ctx : Ctx) : Relates (Changes Q) (abort ctx) :=
  changes_halt ctx .abort (encodesIn_plain hplain rfl) _ _ _ _ _ _

theorem changes_park (ctx : Ctx) : Relates (Changes Q) (park ctx) :=
  changes_halt ctx .park (encodesIn_plain hplain rfl) _ _ _ _ _ _

theorem changes_notifyPlan (ctx : Ctx) (p : PlanPtr) : Relates (Changes Q) (notifyPlan ctx p) := by
  intro s
  unfold notifyPlan
  split
  · exact .keep rfl rfl rfl
  · exact Relates.cons (.when (changes_abort hplain ctx))
      (.cons (fun _ => .keep rfl rfl rfl) .nil) s

theorem changes_slewto (ctx : Ctx) (proto : KVSlewto) :
    Relates (Changes Q) (slewto ctx proto) := by
  intro s
  unfold slewto
  split
  · exact .keep rfl rfl rfl
  · exact Relates.when (changes_pointing ctx _ (encodesIn_plain hplain rfl) _ _ _) s

theorem changes_processNewPlan (ctx : Ctx) (p : PlanPtr) :
    Relates (Changes Q) (processNewPlan ctx p) := by
  intro s
  exact Relates.cons (.when (changes_pointing ctx _ (encodesIn_plain hplain rfl) _ _ _))
    (.cons (still_write2camera _ _).changes
      (.cons (.when (still_write2camera _ _).changes)
        (.cons (still_publishRunning ctx p).changes .nil))) s

theorem changes_threadObsplan (ctx : Ctx) : Relates (Changes Q) (threadObsplan ctx) := by
  intro s
  unfold threadObsplan
  split
  · exact .keep rfl rfl rfl
  · split
    · exact .keep rfl rfl rfl
    · split
      · exact Relates.when (.cons (changes_processNewPlan hplain ctx _)
          (.cons (still_setTmend ctx _).changes .nil)) s
      · split
        · exact Relates.when (changes_abort hplain ctx) s
        · exact .keep rfl rfl rfl

end Plain

theorem changes_guide (ctx : Ctx) {proto : KVGuide} (h : Q (.guide proto.ra proto.dec)) :
    Relates (Changes Q) (guide ctx proto) :=
  .cons (.when (changes_mountCommand ctx .guide ⟨_, rfl, h⟩ _))
    (.cons (still_write2camera _ _).changes .nil)

theorem changes_focus (ctx : Ctx) {proto : KVFocus} {s : Obss}
    (h : ∀ it, s.camInfoVec.find? (hasCid proto.cid) = some it →
      Q (.focus proto.cid proto.relPos)) : Changes Q s (focus ctx proto s).1 := by
  unfold focus
  split
  · exact .keep rfl rfl rfl
  · split
    · next hcond =>
        obtain ⟨it, hfind⟩ := Option.isSome_iff_exists.mp hcond.2.2
        exact Relates.cons (fun _ => .keep rfl rfl rfl)
          (.cons (changes_focusCommand ctx _ ⟨_, rfl, h it hfind⟩) .nil) s
    · exact .keep rfl rfl rfl

theorem changes_syncLoop (ctx : Ctx) (conn : Conn) {its : List CameraInfo}
    (h : ∀ it ∈ its, Q (.focusSync it.info.cid)) :
    Relates (Changes Q) (syncLoop ctx conn its) := by
  induction its with
  | nil => exact .nil
  | cons it its ih =>
      rw [List.forall_mem_cons] at h
      exact (changes_focusCommand ctx conn ⟨_, rfl, h.1⟩).andThen (ih h.2)

theorem changes_focusSync (ctx : Ctx) (proto : KVFocusSync) {s : Obss}
    (h : ∀ it ∈ s.camInfoVec, Q (.focusSync it.info.cid)) :
    Changes Q s (focusSync ctx proto s).1 := by
  unfold focusSync
  split
  · exact .keep rfl rfl rfl
  · refine Relates.cons (fun _ => .keep rfl rfl rfl)
      (.cons (changes_syncLoop ctx _ fun it hit => ?_) .nil) s
    exact h it (List.mem_of_mem_filter hit)

theorem changes_notifyFWHM (ctx : Ctx) {proto : KVFWHM} {s : Obss}
    (h : ∀ it utc value, s.camInfoVec.find? (hasCid proto.cid) = some it →
      Q (.fwhm proto.cid (tmobs utc) value)) : Changes Q s (notifyFWHM ctx proto s).1 := by
  unfold notifyFWHM
  split
  · next conn utc it _ _ hfind =>
      dsimp only
      split
      · exact Relates.cons (fun _ => .keep rfl rfl rfl)
          (.cons (changes_focusCommand ctx _ ⟨_, rfl, h it utc _ hfind⟩) .nil) s
      · exact .keep rfl rfl rfl
  · exact .keep rfl rfl rfl

/-- Whatever the handler of an event encodes meets `Q`. -/
structure Encodable (Q : NonKVBody → Prop) (s : Obss) (ev : Event) : Prop where
  plain : ∀ body : NonKVBody, body.plain = true → Q body
  guide : ∀ proto, ev = .guide proto → Q (.guide proto.ra proto.dec)
  focus : ∀ proto it, ev = .focus proto → s.camInfoVec.find? (hasCid proto.cid) = some it →
    Q (.focus proto.cid proto.relPos)
  fwhm : ∀ proto it utc value, ev = .notifyFWHM proto →
    s.camInfoVec.find? (hasCid proto.cid) = some it → Q (.fwhm proto.cid (tmobs utc) value)
  focusSync : ∀ it ∈ s.camInfoVec, Q (.focusSync it.info.cid)

theorem encodable_true (s : Obss) (ev : Event) : Encodable (fun _ => True) s ev :=
  ⟨fun _ _ => trivial, fun _ _ => trivial, fun _ _ _ _ => trivial, fun _ _ _ _ _ _ => trivial,
    fun _ _ => trivial⟩

/-! ### What an event does -/

/-- Most events only queue commands. -/
theorem changes_step (ctx : Ctx) {ev : Event} {s : Obss} (hplugs : ev.plugs = false)
    (hunqueues : ev.unqueues = false) (hnumber : numbersImage ev = false) (h : Encodable Q s ev) :
    Changes Q s (step ctx ev s).1 := by
  have hplain : ∀ {body : NonKVBody}, body.plain = true → EncodesIn Q (NonKVProtocol.encode body) :=
    fun hb => ⟨_, rfl, h.plain _ hb⟩
  cases hwireless : ev.wireless with
  | true => exact (still_step ctx hwireless hnumber).changes s
  | false =>
      cases ev with
      | notifyPlan plan => exact changes_notifyPlan h.plain ctx _ s
      | abort => exact changes_abort h.plain ctx s
      | slewto proto => exact changes_slewto h.plain ctx proto s
      | park => exact changes_park h.plain ctx s
      | guide proto => exact changes_guide ctx (h.guide proto rfl) s
      | track => exact Relates.when (changes_mountCommand ctx .track (hplain rfl) _) s
      | trackVel proto =>
          exact Relates.when (changes_mountCommand ctx .trackVel (hplain rfl) _) s
      | findHome => exact Relates.when (changes_pointing ctx .findHome (hplain rfl) _ _ _) s
      | focus proto => exact changes_focus ctx fun it => h.focus proto it rfl
      | focusSync proto => exact changes_focusSync ctx proto h.focusSync
      | notifyFWHM proto =>
          exact changes_notifyFWHM ctx fun it utc value => h.fwhm proto it utc value rfl
      | obsplanTick => exact changes_threadObsplan h.plain ctx s
      | coupleMount | decoupleMount | coupleFocus | decoupleFocus => cases hplugs
      | notifyResponse | rewriteTick => cases hunqueues
      | homeSync | takeImage | coupleCamera | notifyMountState | notifyMountPosition
      | notifyFocus | onTcpClose | deviceLine | onFlatReslew => cases hwireless

/-- A connection comes or goes. What waits for a device that has gone is dropped. -/
structure Plugged (ev : Event) (s s' : Obss) : Prop where
  gid : s'.gid = s.gid
  uid : s'.uid = s.uid
  obssType : s'.obssType = s.obssType
  imageCount : s'.imageCount = s.imageCount
  nonkvproto : s'.nonkvproto = s.nonkvproto
  buff : s'.nonkvProtoBuff.Sublist s.nonkvProtoBuff
  queue : ev.unqueues = false → s'.nonkvProtoBuff = s.nonkvProtoBuff

theorem plugged_step (ctx : Ctx) {ev : Event} (h : ev.plugs = true) (s : Obss) :
    Plugged ev s (step ctx ev s).1 := by
  have hkept : ∀ {ev s'}, s'.gid = s.gid → s'.uid = s.uid → s'.obssType = s.obssType →
      s'.imageCount = s.imageCount → s'.nonkvproto = s.nonkvproto →
      s'.nonkvProtoBuff = s.nonkvProtoBuff → Plugged ev s s' :=
    fun hgid huid htype hcount hproto hbuff => ⟨hgid, huid, htype, hcount, hproto,
      hbuff ▸ List.Sublist.refl _, fun _ => hbuff⟩
  cases ev with
  | coupleMount conn =>
      show Plugged _ s (coupleMount conn s).1
      unfold coupleMount
      dsimp only
      split
      all_goals split <;> exact hkept rfl rfl rfl rfl rfl rfl
  | decoupleMount ptr =>
      show Plugged _ s (decoupleMount ctx ptr s).1
      unfold decoupleMount
      split
      · exact ⟨rfl, rfl, rfl, rfl, rfl, List.filter_sublist, Bool.noConfusion⟩
      · exact hkept rfl rfl rfl rfl rfl rfl
  | coupleFocus conn => exact hkept rfl rfl rfl rfl rfl rfl
  | decoupleFocus ptr =>
      show Plugged _ s (if s.tcpFocus = ptr then _ else s)
      split
      · exact ⟨rfl, rfl, rfl, rfl, rfl, List.filter_sublist, Bool.noConfusion⟩
      · exact hkept rfl rfl rfl rfl rfl rfl
  | _ => cases h

/-- Answers and retries concern the commands that wait alone. -/
theorem fixtures_of_unqueues (ctx : Ctx) {ev : Event} (h : ev.unqueues = true)
    (hplugs : ev.plugs = false) (s : Obss) : (step ctx ev s).1.fixtures = s.fixtures := by
  have hrewrite (stale : NonKVProtoItem) : Fixes fixtures (threadRewrite stale) := by
    intro s
    unfold threadRewrite
    split
    · rfl
    · split <;> rfl
  cases ev with
  | notifyResponse rsp => rfl
  | rewriteTick stale => exact Fixes.when (hrewrite stale) s
  | decoupleMount | decoupleFocus => cases hplugs
  | _ => cases h

end Obss

end Gtoaes
