import Gtoaes.Obss.Wiring

/-!
What has to do with the mount. Most events neither write to the mount nor touch
its connection, the target remembered for it or the encoder of its frames.
-/

namespace Gtoaes

open Lib Lib.Handler

structure MountSide where
  tcpMount : Option Conn
  objra : Double
  objdec : Double
  nonkvproto : NonKVProtocol
  deriving DecidableEq

def Obss.mountSide (s : Obss) : MountSide where
  tcpMount := s.tcpMount
  objra := s.mountInfo.objra
  objdec := s.mountInfo.objdec
  nonkvproto := s.nonkvproto

/-- Whether an event leaves the mount alone. -/
def Event.ashore : Event → Bool
  | .homeSync _ | .takeImage _ | .coupleFocus _ | .decoupleFocus _ | .coupleCamera _ _
  | .notifyMountState _ | .notifyMountPosition _ | .notifyFocus _ _ | .notifyResponse _
  | .onTcpClose _ _ | .deviceLine _ _ | .onFlatReslew => true
  | _ => false

namespace Obss

/-- Leaves the mount and all that is kept about it alone. -/
abbrev Ashore (h : Handler Obss Act) : Prop := Inert mountSide Act.atMount h

theorem WireInert.ashore {h : Handler Obss Act} (hh : WireInert h) : Ashore h :=
  hh.mono (g := fun w => ⟨w.tcpMount, w.objra, w.objdec, w.nonkvproto⟩) (k := some)
    (fun _ => rfl) fun act => (Option.bind_fun_some act.atMount).symm

theorem ashore_write2camera (proto : KVMsg) (cid : Text) : Ashore (write2camera proto cid) :=
  (still_write2camera proto cid).wireInert.ashore

theorem ashore_closePlan (ctx : Ctx) (code : ℤ) : Ashore (closePlan ctx code) :=
  (still_closePlan ctx code).wireInert.ashore

theorem ashore_publishRunning (ctx : Ctx) (p : PlanPtr) : Ashore (publishRunning ctx p) :=
  (still_publishRunning ctx p).wireInert.ashore

theorem ashore_step (ctx : Ctx) {ev : Event} (h : ev.ashore = true) : Ashore (step ctx ev) := by
  cases hwireless : ev.wireless with
  | true => exact (wireInert_step ctx hwireless).ashore
  | false =>
      cases ev with
      | coupleFocus conn => exact .update fun _ => rfl
      | decoupleFocus ptr =>
          refine .update fun s => ?_
          split <;> rfl
      | notifyResponse rsp => exact .update fun _ => rfl
      | homeSync | takeImage | coupleCamera | notifyMountState | notifyMountPosition
      | notifyFocus | onTcpClose | deviceLine | onFlatReslew => cases hwireless
      | _ => cases h

end Obss

end Gtoaes
