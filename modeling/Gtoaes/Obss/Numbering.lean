import Gtoaes.Obss.MountSide

/-!
The order of frames. Whatever an event has the system send to a GWAC mount is
numbered in the order it was issued, upward from what was issued before; only
the retry thread sends old frames.
-/

namespace Gtoaes

open Lib Lib.Handler

/-- The place of a frame sent to the mount. -/
def Act.issueNo : Act → Option ℕ
  | .mount _ _ (.frame cmd) => some cmd.no
  | _ => none

namespace Obss

/-- How many frames the system has issued. -/
def issued (s : Obss) : ℕ := s.nonkvproto.issued

/-- Frames sent to the mount are new, and numbered as they are issued. -/
abbrev Numbered (h : Handler Obss Act) : Prop := Numbers issued Act.issueNo h

/-- A handler of the encoders. -/
def Encodes (encode : NonKVProtocol → Time → NonKVFrame × NonKVProtocol) : Prop :=
  ∃ body, encode = NonKVProtocol.encode body

theorem numbered_mountCommand (ctx : Ctx) (req : Request)
    {encode : NonKVProtocol → Time → NonKVFrame × NonKVProtocol} (h : Encodes encode)
    (line : Option KVMsg) : Numbered (mountCommand ctx req encode line) := by
  obtain ⟨body, rfl⟩ := h
  intro s
  unfold mountCommand
  split
  · exact numbers_of_none le_rfl rfl
  · -- one frame goes out, with the next number
    refine ⟨Nat.le_succ _, List.pairwise_singleton _ _, fun n hn => ?_⟩
    obtain rfl : n = s.issued := List.mem_singleton.mp hn
    exact ⟨le_rfl, Nat.lt_succ_self _⟩
  · exact numbers_of_none le_rfl rfl
  · exact numbers_of_none le_rfl rfl

theorem numbered_focusCommand (ctx : Ctx) (conn : Conn)
    {encode : NonKVProtocol → Time → NonKVFrame × NonKVProtocol} (h : Encodes encode) :
    Numbered (focusCommand ctx conn encode) := by
  obtain ⟨body, rfl⟩ := h
  exact fun s => numbers_of_none (Nat.le_succ _) rfl

/-- Neither encodes a frame nor writes to the mount. -/
abbrev Unnumbered (h : Handler Obss Act) : Prop := Inert issued Act.issueNo h

theorem unnumbered_update {f : Obss → Obss} (hf : ∀ s, (f s).nonkvproto = s.nonkvproto) :
    Unnumbered (update f) := .update fun s => congrArg NonKVProtocol.issued (hf s)

theorem Ashore.unnumbered {h : Handler Obss Act} (hh : Ashore h) : Unnumbered h := by
  refine hh.mono (g := fun m => m.nonkvproto.issued) (k := Act.issueNo) (fun _ => rfl) ?_
  intro act
  cases act <;> rfl

theorem unnumbered_write2camera (proto : KVMsg) (cid : Text) :
    Unnumbered (write2camera proto cid) := (ashore_write2camera proto cid).unnumbered

/-- A command and the target it leaves the mount with. -/
theorem numbered_pointing (ctx : Ctx) (req : Request)
    {encode : NonKVProtocol → Time → NonKVFrame × NonKVProtocol} (h : Encodes encode)
    (line : Option KVMsg) (ra dec : Double) :
    Numbered (all [mountCommand ctx req encode line, setTarget ra dec]) :=
  .cons (numbered_mountCommand ctx req h line) (.cons (.update fun _ => le_rfl) .nil)

theorem numbered_abort (ctx : Ctx) : Numbered (abort ctx) :=
  .cons (.when (numbered_pointing ctx .abort ⟨_, rfl⟩ _ _ _))
    (.cons (.when (unnumbered_write2camera _ _).numbers)
      (.cons (.when (ashore_closePlan ctx _).unnumbered.numbers) .nil))

theorem numbered_park (ctx : Ctx) : Numbered (park ctx) :=
  .cons (.when (numbered_pointing ctx .park ⟨_, rfl⟩ _ _ _))
    (.cons (.when (unnumbered_write2camera _ _).numbers)
      (.cons (.when (ashore_closePlan ctx _).unnumbered.numbers) .nil))

theorem numbered_notifyPlan (ctx : Ctx) (p : PlanPtr) : Numbered (notifyPlan ctx p) := by
  intro s
  unfold notifyPlan
  split
  · exact numbers_of_none le_rfl rfl
  · refine Numbers.cons (.when (numbered_abort ctx)) (.cons (Inert.numbers ?_) .nil) s
    exact fun _ => ⟨rfl, rfl⟩

theorem numbered_slewto (ctx : Ctx) (proto : KVSlewto) : Numbered (slewto ctx proto) := by
  intro s
  unfold slewto
  split
  · exact numbers_of_none le_rfl rfl
  · exact Numbers.when (numbered_pointing ctx (.slewto proto) ⟨_, rfl⟩ _ _ _) s

theorem numbered_guide (ctx : Ctx) (proto : KVGuide) : Numbered (guide ctx proto) :=
  .cons (.when (numbered_mountCommand ctx .guide ⟨_, rfl⟩ _))
    (.cons (unnumbered_write2camera _ _).numbers .nil)

theorem numbered_focus (ctx : Ctx) (proto : KVFocus) : Numbered (focus ctx proto) := by
  intro s
  unfold focus
  split
  · exact numbers_of_none le_rfl rfl
  · split
    · exact Numbers.cons (unnumbered_update fun _ => by rfl).numbers
        (.cons (numbered_focusCommand ctx _ ⟨_, rfl⟩) .nil) s
    · exact numbers_of_none le_rfl rfl

theorem numbered_syncLoop (ctx : Ctx) (conn : Conn) (its : List CameraInfo) :
    Numbered (syncLoop ctx conn its) := by
  induction its with
  | nil => exact Inert.skip.numbers
  | cons it its ih => exact (numbered_focusCommand ctx conn ⟨_, rfl⟩).andThen ih

theorem numbered_focusSync (ctx : Ctx) (proto : KVFocusSync) : Numbered (focusSync ctx proto) := by
  intro s
  unfold focusSync
  split
  · exact numbers_of_none le_rfl rfl
  · exact Numbers.cons (unnumbered_update fun _ => by rfl).numbers
      (.cons (numbered_syncLoop ctx _ _) .nil) s

theorem numbered_notifyFWHM (ctx : Ctx) (proto : KVFWHM) : Numbered (notifyFWHM ctx proto) := by
  intro s
  unfold notifyFWHM
  split
  · dsimp only
    split
    · exact Numbers.cons (unnumbered_update fun _ => by rfl).numbers
        (.cons (numbered_focusCommand ctx _ ⟨_, rfl⟩) .nil) s
    · exact numbers_of_none le_rfl rfl
  · exact numbers_of_none le_rfl rfl

theorem unnumbered_coupleMount (conn : Conn) : Unnumbered (coupleMount conn) := by
  intro s
  unfold coupleMount
  dsimp only
  split
  all_goals split <;> exact ⟨rfl, rfl⟩

theorem unnumbered_decoupleMount (ctx : Ctx) (ptr : Option Conn) :
    Unnumbered (decoupleMount ctx ptr) := by
  intro s
  unfold decoupleMount
  split <;> exact ⟨rfl, rfl⟩

theorem numbered_processNewPlan (ctx : Ctx) (p : PlanPtr) : Numbered (processNewPlan ctx p) := by
  intro s
  refine Numbers.cons (.when (numbered_pointing ctx (.plan p.plan) ⟨_, rfl⟩ _ _ _))
    (.cons (unnumbered_write2camera _ _).numbers
      (.cons (.when (unnumbered_write2camera _ _).numbers) (.cons (Inert.numbers ?_) .nil))) s
  exact fun _ => ⟨rfl, rfl⟩

theorem numbered_threadObsplan (ctx : Ctx) : Numbered (threadObsplan ctx) := by
  intro s
  unfold threadObsplan
  split
  · exact numbers_of_none le_rfl rfl
  · split
    · exact numbers_of_none le_rfl rfl
    · split
      · exact Numbers.when (.cons (numbered_processNewPlan ctx _)
          (.cons (unnumbered_update fun _ => by rfl).numbers .nil)) s
      · split
        · exact Numbers.when (numbered_abort ctx) s
        · exact numbers_of_none le_rfl rfl

/-- Whatever happens but a retry, the frames sent are numbered as issued. -/
theorem numbered_step (ctx : Ctx) {ev : Event} (h : ∀ stale, ev ≠ .rewriteTick stale) :
    Numbered (step ctx ev) := by
  cases ev with
  | notifyPlan plan => exact numbered_notifyPlan ctx _
  | abort => exact numbered_abort ctx
  | slewto proto => exact numbered_slewto ctx proto
  | park => exact numbered_park ctx
  | guide proto => exact numbered_guide ctx proto
  | track => exact .when (numbered_mountCommand ctx .track ⟨_, rfl⟩ _)
  | trackVel proto => exact .when (numbered_mountCommand ctx .trackVel ⟨_, rfl⟩ _)
  | findHome => exact .when (numbered_pointing ctx .findHome ⟨_, rfl⟩ _ _ _)
  | focus proto => exact numbered_focus ctx proto
  | focusSync proto => exact numbered_focusSync ctx proto
  | notifyFWHM proto => exact numbered_notifyFWHM ctx proto
  | coupleMount conn => exact (unnumbered_coupleMount conn).numbers
  | decoupleMount ptr => exact (unnumbered_decoupleMount ctx ptr).numbers
  | obsplanTick => exact numbered_threadObsplan ctx
  | rewriteTick stale => exact absurd rfl (h stale)
  | _ => exact (ashore_step ctx rfl).unnumbered.numbers

end Obss

end Gtoaes
