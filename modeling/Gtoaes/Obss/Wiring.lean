import Gtoaes.Obss.Frame

/-!
What a system is wired up with: its ids and type, the connections of mount and
focuser, the target remembered for the mount, the encoder of frames and the
commands that wait for an answer. Cameras and plans come and go without touching
it, and without touching the count of the images that have no number.
-/

namespace Gtoaes

open Lib Lib.Handler

structure Wiring where
  gid : Text
  uid : Text
  obssType : ObssType
  nonkvproto : NonKVProtocol
  tcpMount : Option Conn
  objra : Double
  objdec : Double
  tcpFocus : Option Conn
  nonkvProtoBuff : NonKVProtoBuff
  deriving DecidableEq

def Obss.wiring (s : Obss) : Wiring where
  gid := s.gid
  uid := s.uid
  obssType := s.obssType
  nonkvproto := s.nonkvproto
  tcpMount := s.tcpMount
  objra := s.mountInfo.objra
  objdec := s.mountInfo.objdec
  tcpFocus := s.tcpFocus
  nonkvProtoBuff := s.nonkvProtoBuff

/-- What counts the images, and the ids they are numbered under. -/
def Obss.imageCount (s : Obss) : Text × Text × ℤ × ℤ := (s.gid, s.uid, s.oldDay, s.planSN)

/-- The outputs that concern the mount. -/
def Act.atMount : Act → Option Act
  | .link conn => some (.link conn)
  | .mount conn req msg => some (.mount conn req msg)
  | .plan _ _ | .focus _ _ | .camera _ _ | .flatReslew => none

/-- Whether an event leaves the wiring alone. -/
def Event.wireless : Event → Bool
  | .homeSync _ | .takeImage _ | .coupleCamera _ _ | .notifyMountState _ | .notifyMountPosition _
  | .notifyFocus _ _ | .onTcpClose _ _ | .deviceLine _ _ | .onFlatReslew => true
  | _ => false

namespace Obss

/-- Whether an event takes an image that has no number yet. -/
def numbersImage : Event → Bool
  | .takeImage proto => proto.planSn == []
  | _ => false

/-- Inert in the wiring, and silent about the mount. -/
abbrev WireInert (h : Handler Obss Act) : Prop := Inert wiring Act.atMount h

/-- And inert in the count of images. -/
abbrev Still (h : Handler Obss Act) : Prop :=
  Inert (fun s => (s.wiring, s.imageCount)) Act.atMount h

theorem Still.wireInert {h : Handler Obss Act} (hh : Still h) : WireInert h :=
  hh.mono (g := Prod.fst) (k := some) (fun _ => rfl)
    fun act => (Option.bind_fun_some act.atMount).symm

theorem still_update {f : Obss → Obss}
    (hf : ∀ s, ((f s).wiring, (f s).imageCount) = (s.wiring, s.imageCount)) :
    Still (update f) := .update hf

theorem still_write2camera (proto : KVMsg) (cid : Text) :
    Still (write2camera proto cid) := by
  refine .emit fun s => ?_
  have hnone : ∀ l : List Conn, (l.map fun conn => Act.camera conn proto).filterMap Act.atMount
      = [] := filterMap_map_of_mute fun _ => rfl
  split
  · exact hnone _
  · split
    · exact hnone _
    · rfl

theorem still_closePlan (ctx : Ctx) (code : ℤ) : Still (closePlan ctx code) := by
  intro s
  unfold closePlan
  split <;> exact ⟨rfl, rfl⟩

theorem still_coupleCamera (ctx : Ctx) (conn : Conn) (cid : Text) :
    Still (coupleCamera ctx conn cid) := by
  intro s
  unfold coupleCamera
  split
  · split
    · exact ⟨rfl, rfl⟩
    · refine Inert.cons (still_update fun _ => by rfl) (.cons (.emit fun s => ?_)
        (.cons (still_update fun _ => by rfl) (.cons ?_ .nil))) s
      · split <;> rfl
      · intro s
        unfold resumePlan
        split
        · exact ⟨rfl, rfl⟩
        · split
          · exact ⟨rfl, rfl⟩
          · exact Inert.cons (.emit fun _ => rfl) (.cons (.when (still_write2camera _ _)) .nil) s
  · exact Inert.cons (still_update fun _ => by rfl)
      (.cons (still_update fun _ => by rfl) .nil) s

theorem still_notifyMountState (ctx : Ctx) (state : ℤ) :
    Still (notifyMountState ctx state) := by
  intro s
  unfold notifyMountState
  split
  · exact ⟨rfl, rfl⟩
  · split
    · refine Inert.cons (fun s => ?_) (.cons (still_update fun _ => by rfl) .nil) s
      unfold mountArrived
      split
      · split
        · exact still_write2camera _ _ s
        · split
          · exact still_write2camera _ _ s
          · exact ⟨rfl, rfl⟩
      · exact ⟨rfl, rfl⟩
    · exact ⟨rfl, rfl⟩

theorem still_notifyFocus (cid : Text) (pos : ℤ) : Still (notifyFocus cid pos) := by
  intro s
  unfold notifyFocus
  split
  · exact ⟨rfl, rfl⟩
  · refine Inert.cons (still_update fun _ => by rfl) (.cons (.emit fun s => ?_) .nil) s
    split
    · exact filterMap_map_of_mute (fun _ => rfl) _
    · rfl

theorem still_onTcpClose (ctx : Ctx) (conn : Conn) (peer : PeerType) :
    Still (onTcpClose ctx conn peer) := by
  intro s
  unfold onTcpClose
  split
  · split
    · exact ⟨rfl, rfl⟩
    · exact Inert.cons (.when (still_update fun _ => by rfl))
        (.cons (still_update fun _ => by rfl)
          (.cons (still_update fun _ => by rfl)
            (.cons (still_update fun _ => by rfl) .nil))) s
  · exact ⟨rfl, rfl⟩

theorem still_checkCameraState (ctx : Ctx) (new old : ℤ) :
    Still (checkCameraState ctx new old) := by
  unfold checkCameraState
  split
  · exact .skip
  · split
    · exact .cons (still_update fun _ => by rfl) (.cons (.when (still_closePlan ctx _)) .nil)
    · split
      · exact still_update fun _ => by rfl
      · split
        · exact .cons (still_update fun _ => by rfl) (.cons (.when (.emit fun _ => rfl)) .nil)
        · split
          · exact still_update fun _ => by rfl
          · exact .skip

theorem still_processProtocolCamera (ctx : Ctx) (conn : Conn) (proto : KVMsg) :
    Still (processProtocolCamera ctx conn proto) := by
  intro s
  unfold processProtocolCamera
  split
  · exact Inert.cons (still_update fun _ => by rfl)
      (.cons (still_checkCameraState ctx _ _) .nil) s
  · exact ⟨rfl, rfl⟩

theorem still_publishRunning (ctx : Ctx) (p : PlanPtr) : Still (publishRunning ctx p) :=
  fun _ => ⟨rfl, rfl⟩

theorem still_setTmend (ctx : Ctx) (p : KVAppPlan) : Still (setTmend ctx p) :=
  .update fun _ => rfl

/-- An image that comes with its number leaves the count alone. -/
theorem still_takeImage (ctx : Ctx) {proto : KVAppPlan} (h : proto.planSn ≠ []) :
    Still (takeImage ctx proto) := by
  intro s
  unfold takeImage
  rw [if_neg h]
  split
  · exact ⟨rfl, rfl⟩
  · exact Inert.cons (still_write2camera _ _) (.cons (still_write2camera _ _) .nil) _

/-- An image without a number moves the count and nothing else. -/
theorem wireInert_takeImage (ctx : Ctx) (proto : KVAppPlan) : WireInert (takeImage ctx proto) := by
  intro s
  have hcamera : ∀ proto cid, WireInert (write2camera proto cid) :=
    fun proto cid => (still_write2camera proto cid).wireInert
  unfold takeImage
  split
  · exact ⟨rfl, rfl⟩
  · dsimp only
    split
    · exact Inert.cons (hcamera _ _) (.cons (hcamera _ _) .nil) _
    · exact Inert.cons (hcamera _ _) (.cons (hcamera _ _) .nil) _

theorem still_step (ctx : Ctx) {ev : Event} (h : ev.wireless = true)
    (hnumber : numbersImage ev = false) : Still (step ctx ev) := by
  cases ev with
  | homeSync proto => exact .skip
  | takeImage proto => exact still_takeImage ctx fun hsn => by simp [numbersImage, hsn] at hnumber
  | coupleCamera conn cid => exact still_coupleCamera ctx conn cid
  | notifyMountState state => exact still_notifyMountState ctx state
  | notifyMountPosition pos => exact still_update fun _ => by rfl
  | notifyFocus cid pos => exact still_notifyFocus cid pos
  | onTcpClose conn peer => exact still_onTcpClose ctx conn peer
  | deviceLine conn proto => exact still_processProtocolCamera ctx conn proto
  | onFlatReslew => exact .skip
  | _ => cases h

theorem wireInert_of_numbersImage (ctx : Ctx) {ev : Event} (h : numbersImage ev = true) :
    WireInert (step ctx ev) := by
  cases ev with
  | takeImage proto => exact wireInert_takeImage ctx proto
  | _ => cases h

/-- The frame rule of the wiring. -/
theorem wireInert_step (ctx : Ctx) {ev : Event} (h : ev.wireless = true) :
    WireInert (step ctx ev) := by
  cases hnumber : numbersImage ev with
  | false => exact (still_step ctx h hnumber).wireInert
  | true => exact wireInert_of_numbersImage ctx hnumber

end Obss

end Gtoaes
