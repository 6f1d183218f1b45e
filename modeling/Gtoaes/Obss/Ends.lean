import Gtoaes.Obss.Cameras
import Gtoaes.Obss.Changes

/-!
Who a system is and which connections it holds. Its ids and its type never
change, and connections come and go by the couplings and closes alone, whatever
else the system does.
-/

namespace Gtoaes

open Lib Lib.Handler

namespace Obss

/-- The frame rule of the ends. -/
theorem fixesEnds_step (ctx : Ctx) {ev : Event} (h : ev.plugs = false) :
    FixesEnds (step ctx ev) := by
  intro s
  cases hnumber : numbersImage ev with
  | true => exact (wireInert_of_numbersImage ctx hnumber).fixesEnds s
  | false =>
      cases hunqueues : ev.unqueues with
      | true => exact ends_of_fixtures (fixtures_of_unqueues ctx hunqueues h s)
      | false =>
          have hchanges := changes_step ctx h hunqueues hnumber (encodable_true s ev)
          exact ends_of_fixtures hchanges.fixtures

/-- Who the system is. -/
def ident (s : Obss) : Text × Text × ObssType := (s.gid, s.uid, s.obssType)

/-- Whatever happens to a system, it stays the one it is. -/
theorem fixes_ident (ctx : Ctx) (ev : Event) : Fixes ident (step ctx ev) := by
  cases hplugs : ev.plugs with
  | false =>
      exact (fixesEnds_step ctx hplugs).mono (g := fun e => (e.gid, e.uid, e.obssType))
        fun _ => rfl
  | true =>
      intro s
      have hplugged := plugged_step ctx hplugs s
      exact Prod.ext hplugged.gid (Prod.ext hplugged.uid hplugged.obssType)

/-- The connections of the cameras. -/
def ptrs (s : Obss) : List (Option Conn) := s.camInfoVec.map (·.ptrTcp)

theorem ptrs_core (s : Obss) : s.ptrs = s.core.cameras.map (·.ptrTcp) := by
  rw [ptrs, core, List.map_map]
  rfl

/-- Connections after the first entry found has changed. -/
theorem ptrs_update {s s' : Obss} {p : CameraInfo → Bool} {f : CameraInfo → CameraInfo}
    (h : s'.core.cameras = (updateFirst p f s.camInfoVec).map CameraInfo.core) :
    s'.ptrs = (updateFirst p f s.camInfoVec).map (·.ptrTcp) := by
  rw [ptrs_core, h, List.map_map]
  rfl

/-- The frame rule of the camera connections. -/
theorem fixes_ptrs (ctx : Ctx) {ev : Event} (hcouple : ∀ conn cid, ev ≠ .coupleCamera conn cid)
    (hclose : ∀ conn peer, ev ≠ .onTcpClose conn peer) : Fixes ptrs (step ctx ev) := by
  by_cases hreport : ∃ conn m, ev = .deviceLine conn (.camera m)
  · obtain ⟨conn, m, rfl⟩ := hreport
    intro s
    have hview := congrArg Prod.fst (report_cameras ctx s conn m).1
    rw [show (step ctx (.deviceLine conn (.camera m)) s).1.ptrs = _ from ptrs_update hview, ptrs,
      map_updateFirst_iff]
    exact fun _ _ => rfl
  · have hinert : CamInert (step ctx ev) :=
      camInert_step ctx hcouple hclose fun conn m he => hreport ⟨conn, m, he⟩
    exact hinert.fixes.mono (g := fun view => view.1.map (·.ptrTcp)) ptrs_core

end Obss

end Gtoaes
