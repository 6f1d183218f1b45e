import Mathlib.Data.Multiset.UnionInter
import Gtoaes.Obss.Ends

/-!
The connections a system holds, and how each event changes them. The cameras are
taken as a multiset: which entry a connection is in is settled by the id of the
camera, and all that matters here is that it is in one.
-/

namespace Gtoaes

open Lib Lib.Handler

structure Links where
  obssType : ObssType
  tcpMount : Option Conn
  tcpFocus : Option Conn
  cams : Multiset Conn
  deriving DecidableEq

namespace Links

/-- The system holds the connection, as mount, focuser or camera. -/
def Holds (l : Links) (conn : Conn) : Prop :=
  l.tcpMount = some conn ∨ l.tcpFocus = some conn ∨ conn ∈ l.cams

/-- Nothing has been added. -/
structure Within (l' l : Links) : Prop where
  mount : l'.tcpMount = none ∨ l'.tcpMount = l.tcpMount
  focus : l'.tcpFocus = none ∨ l'.tcpFocus = l.tcpFocus
  cams : l'.cams ≤ l.cams

theorem Within.refl (l : Links) : l.Within l := ⟨.inr rfl, .inr rfl, le_rfl⟩

end Links

/-- Whether an event couples or decouples anything. -/
def Event.links : Event → Bool
  | .coupleCamera _ _ | .onTcpClose _ _ => true
  | ev => ev.plugs

def PeerType.isCamera : PeerType → Bool
  | .cameraGWAC | .cameraGFT => true
  | _ => false

namespace Obss

/-- Whether `CoupleCamera` couples a camera: it turns one away whose entry is
on-line. -/
def takesCamera (s : Obss) (cid : Text) : Bool :=
  match s.camInfoVec.find? (hasCid cid) with
  | some it => it.ptrTcp.isNone
  | none => true

/-- Whether `CoupleMount` couples a mount. -/
def takesMount (s : Obss) (ptr : Option Conn) : Bool :=
  match s.obssType with
  | .gwac => s.tcpMount != ptr
  | .gft => s.tcpMount.isNone

def links (s : Obss) : Links where
  obssType := s.obssType
  tcpMount := s.tcpMount
  tcpFocus := s.tcpFocus
  cams := s.camInfoVec.filterMap (·.ptrTcp)

/-- The connections after an event. -/
def linksAfter (s : Obss) : Event → Links
  | .coupleMount conn =>
      if s.takesMount (some conn) then { s.links with tcpMount := some conn } else s.links
  | .decoupleMount ptr =>
      if s.tcpMount = ptr then { s.links with tcpMount := none } else s.links
  | .coupleFocus conn => { s.links with tcpFocus := some conn }
  | .decoupleFocus ptr =>
      if s.tcpFocus = ptr then { s.links with tcpFocus := none } else s.links
  | .coupleCamera conn cid =>
      if s.takesCamera cid then { s.links with cams := conn ::ₘ s.links.cams } else s.links
  | .onTcpClose conn peer =>
      if peer.isCamera then { s.links with cams := s.links.cams.erase conn } else s.links
  | _ => s.links

/-- The view is that of the ends and of the camera connections. -/
theorem links_of (s : Obss) : s.links =
    ⟨s.ends.obssType, s.ends.tcpMount, s.ends.tcpFocus, s.ptrs.filterMap id⟩ := by
  rw [links, ptrs, List.filterMap_map]
  rfl

theorem links_congr {s s' : Obss} (hends : s'.ends = s.ends) (hptrs : s'.ptrs = s.ptrs) :
    s'.links = s.links := by
  rw [links_of, links_of, hends, hptrs]

/-- Connections of the cameras, where nothing else has changed. -/
theorem links_cams {s s' : Obss} {cams : Multiset Conn} (hends : s'.ends = s.ends)
    (hcams : (s'.ptrs.filterMap id : Multiset Conn) = cams) :
    s'.links = { s.links with cams := cams } := by
  rw [links_of, hends, hcams]
  rfl

theorem cams_ptrs (s : Obss) : (s.ptrs.filterMap id : Multiset Conn) = s.links.cams := by
  rw [links_of]

theorem links_coupleCamera (ctx : Ctx) (s : Obss) (conn : Conn) (cid : Text) :
    (coupleCamera ctx conn cid s).1.links = s.linksAfter (.coupleCamera conn cid) := by
  have hends : (coupleCamera ctx conn cid s).1.ends = s.ends :=
    (still_coupleCamera ctx conn cid).wireInert.fixesEnds s
  obtain ⟨it, hfind, hon, hview⟩ | ⟨it, hfind, hoff, hview⟩ | ⟨hfind, hview⟩ :=
    coupleCamera_cameras ctx s conn cid
  · have hrefused : s.takesCamera cid = false := by
      rw [takesCamera, hfind]
      exact Option.isNone_eq_false_iff.mpr hon
    have hcams : (coupleCamera ctx conn cid s).1.core.cameras = s.core.cameras :=
      congrArg Prod.fst hview
    rw [linksAfter, hrefused, if_neg Bool.false_ne_true]
    exact links_congr hends (by rw [ptrs_core, ptrs_core, hcams])
  · have htaken : s.takesCamera cid = true := by simp [takesCamera, hfind, hoff]
    rw [linksAfter, htaken, if_pos rfl]
    apply links_cams hends
    -- the connection is put where there was none
    obtain ⟨as, bs, hvec, hupd⟩ := updateFirst_of_find? (f := recoupled conn) hfind
    rw [ptrs_update (congrArg Prod.fst hview), hupd, links, hvec]
    simp [recoupled, hoff]
  · have htaken : s.takesCamera cid = true := by simp [takesCamera, hfind]
    rw [linksAfter, htaken, if_pos rfl]
    apply links_cams hends
    have hcams := congrArg Prod.fst hview
    rw [ptrs_core, show (coupleCamera ctx conn cid s).1.core.cameras = _ from hcams,
      List.map_append, ← ptrs_core, List.filterMap_append, ← Multiset.coe_add, cams_ptrs]
    exact (Multiset.add_comm _ _).trans (Multiset.singleton_add conn s.links.cams)

theorem links_onTcpClose (ctx : Ctx) (s : Obss) (conn : Conn) (peer : PeerType) :
    (onTcpClose ctx conn peer s).1.links = s.linksAfter (.onTcpClose conn peer) := by
  have hends : (onTcpClose ctx conn peer s).1.ends = s.ends :=
    (still_onTcpClose ctx conn peer).wireInert.fixesEnds s
  have hcamera : (peer = .cameraGFT ∨ peer = .cameraGWAC) ↔ peer.isCamera = true := by
    cases peer <;> simp [PeerType.isCamera]
  obtain ⟨hnone, hview⟩ | ⟨it, hpeer, hfind, hview⟩ := onTcpClose_cameras ctx s conn peer
  · have hcams : (onTcpClose ctx conn peer s).1.core.cameras = s.core.cameras :=
      congrArg Prod.fst hview
    have hsame : (onTcpClose ctx conn peer s).1.links = s.links :=
      links_congr hends (by rw [ptrs_core, ptrs_core, hcams])
    rw [hsame, linksAfter]
    split
    · next hpeer =>
        -- a connection of a camera would have been found
        have hnot : conn ∉ s.links.cams := by
          intro hmem
          obtain ⟨it, hit, hconn⟩ := List.mem_filterMap.mp (Multiset.mem_coe.mp hmem)
          have hsome : (s.camInfoVec.find? (hasConn conn)).isSome = true :=
            List.find?_isSome.mpr ⟨it, hit, by simpa [hasConn] using hconn⟩
          obtain ⟨it', hfind⟩ := Option.isSome_iff_exists.mp hsome
          exact hnone it' (hcamera.mpr hpeer) hfind
        rw [Multiset.erase_of_notMem hnot]
    · rfl
  · rw [linksAfter, if_pos (hcamera.mp hpeer)]
    apply links_cams hends
    obtain ⟨as, bs, hvec, hupd⟩ := updateFirst_of_find? (f := closed) hfind
    have hconn : it.ptrTcp = some conn := by simpa [hasConn] using List.find?_some hfind
    have hcams : s.links.cams =
        conn ::ₘ (as.filterMap (·.ptrTcp) ++ bs.filterMap (·.ptrTcp) : List Conn) := by
      rw [links, hvec]
      simp [hconn]
    rw [hcams, Multiset.erase_cons_head, ptrs_update (congrArg Prod.fst hview), hupd]
    simp [closed]

theorem linksAfter_of_quiet (s : Obss) {ev : Event} (h : ev.links = false) :
    s.linksAfter ev = s.links := by
  cases ev <;> first | rfl | cases h

/-- What each event does to the connections. -/
theorem links_step (ctx : Ctx) (ev : Event) (s : Obss) :
    (step ctx ev s).1.links = s.linksAfter ev := by
  by_cases hlinks : ev.links = true
  · cases ev with
    | coupleCamera conn cid => exact links_coupleCamera ctx s conn cid
    | onTcpClose conn peer => exact links_onTcpClose ctx s conn peer
    | coupleMount conn =>
        show (if s.takesMount (some conn) = true then _ else (s, [])).1.links =
          if s.takesMount (some conn) = true then _ else s.links
        split <;> rfl
    | decoupleMount ptr =>
        show (if s.tcpMount = ptr then _ else (s, [])).1.links =
          if s.tcpMount = ptr then _ else s.links
        split <;> rfl
    | coupleFocus conn => rfl
    | decoupleFocus ptr =>
        show (if s.tcpFocus = ptr then _ else s).links = if s.tcpFocus = ptr then _ else s.links
        split <;> rfl
    | _ => cases hlinks
  · have hplugs : ev.plugs = false := by
      cases ev <;> first | rfl | exact absurd rfl hlinks
    have hcouple : ∀ conn cid, ev ≠ .coupleCamera conn cid := by
      rintro conn cid rfl
      exact hlinks rfl
    have hclose : ∀ conn peer, ev ≠ .onTcpClose conn peer := by
      rintro conn peer rfl
      exact hlinks rfl
    rw [linksAfter_of_quiet s (Bool.not_eq_true _ ▸ hlinks)]
    exact links_congr (fixesEnds_step ctx hplugs s) (fixes_ptrs ctx hcouple hclose s)

end Obss

end Gtoaes
