import Mathlib.Data.List.Forall2
import Gtoaes.Obss.Cameras

/-!
The ids of the cameras. An entry is made under the id that its camera registers
with, and no second one is made under an equal id; but the first line of the
camera already replaces the whole record, id and all, by what the line says. So
the entries keep their ids as long as every camera signs its lines with its own.
-/

namespace Gtoaes

open Lib Lib.Handler

/-- A system with the id that the connection of each entry was coupled under. -/
structure Roster where
  obss : Obss
  names : List Text := []

namespace Obss

/-- Those ids after an event. -/
def coupledUnder (s : Obss) (names : List Text) : Event → List Text
  | .coupleCamera _ cid =>
      match s.camInfoVec.find? (hasCid cid) with
      | none => names ++ [cid]
      | some it => if it.ptrTcp.isSome then names else setFirst (hasCid cid) cid s.camInfoVec names
  | _ => names

end Obss

/-- A system in any surroundings. -/
def roster : Machine Roster (Ctx × Event) Act where
  step r i :=
    ({ obss := (Obss.step i.1 i.2 r.obss).1, names := r.obss.coupledUnder r.names i.2 },
      (Obss.step i.1 i.2 r.obss).2)

/-- A system as `Create` and `Start` leave it. -/
def Roster.start (gid uid : Text) (type : ObssType) (now : Time) : Config Roster Act where
  state := { obss := Obss.create gid uid type now }
  hist := []

/-- Each entry has an id of its own, the one its connection was coupled under. So
a camera that comes back under its id finds its entry, and what is addressed to
an id goes to the one camera that has it, if to any. -/
structure Roster.CidsKept (r : Roster) : Prop where
  distinct : r.obss.camInfoVec.Pairwise fun a b => iequals a.info.cid b.info.cid = false
  own : List.Forall₂ (fun it name => iequals it.info.cid name = true) r.obss.camInfoVec r.names
  finds : ∀ it ∈ r.obss.camInfoVec, ∀ cid, iequals it.info.cid cid = true →
    r.obss.camInfoVec.find? (Obss.hasCid cid) = some it
  addresses : ∀ proto cid, cid ≠ [] → ∀ act ∈ (Obss.write2camera proto cid r.obss).2,
    ∃ it ∈ r.obss.camInfoVec, iequals it.info.cid cid = true ∧
      (∃ conn, it.ptrTcp = some conn ∧ (Obss.write2camera proto cid r.obss).2 = [.camera conn proto])
      ∧ ∀ other ∈ r.obss.camInfoVec, iequals other.info.cid cid = true → other = it

/-- A camera line signed with the id of the connection's entry. -/
def Event.Signed (s : Obss) : Event → Prop
  | .deviceLine conn (.camera m) => ∀ it, s.camInfoVec.find? (Obss.hasConn conn) = some it →
      iequals m.cid it.info.cid = true
  | _ => True

namespace Obss

/-- The ids of the entries, up to case. -/
def cids (s : Obss) : List Text := s.camInfoVec.map fun it => upper it.info.cid

theorem cids_core (s : Obss) : s.cids = s.core.cameras.map fun it => upper it.info.cid := by
  rw [cids, core, List.map_map]
  rfl

theorem cids_congr {s s' : Obss} (h : s'.camView = s.camView) : s'.cids = s.cids := by
  have hcams : s'.core.cameras = s.core.cameras := congrArg Prod.fst h
  rw [cids_core, cids_core, hcams]

/-- Ids after the first entry found has changed. -/
theorem cids_update {s s' : Obss} {p : CameraInfo → Bool} {f : CameraInfo → CameraInfo}
    (h : s'.core.cameras = (updateFirst p f s.camInfoVec).map CameraInfo.core) :
    s'.cids = (updateFirst p f s.camInfoVec).map fun it => upper it.info.cid := by
  rw [cids_core, h, List.map_map]
  rfl

/-- A camera line leaves the ids as they are just if it is signed. -/
theorem cids_report (ctx : Ctx) (s : Obss) (conn : Conn) (m : KVCamera) :
    (step ctx (.deviceLine conn (.camera m)) s).1.cids = s.cids ↔
      (Event.deviceLine conn (.camera m)).Signed s := by
  have hview := congrArg Prod.fst (report_cameras ctx s conn m).1
  rw [show (step ctx (.deviceLine conn (.camera m)) s).1.cids = _ from cids_update hview, cids,
    map_updateFirst_iff]
  apply forall₂_congr
  intro it _
  exact iequals_iff_upper.symm

theorem cids_onTcpClose (ctx : Ctx) (s : Obss) (conn : Conn) (peer : PeerType) :
    (onTcpClose ctx conn peer s).1.cids = s.cids := by
  obtain ⟨-, hview⟩ | ⟨it, -, -, hview⟩ := onTcpClose_cameras ctx s conn peer
  · exact cids_congr hview
  · rw [cids_update (congrArg Prod.fst hview), cids, map_updateFirst_iff]
    exact fun _ _ => rfl

end Obss

/-- The ids of the entries are those they were coupled under, all different. -/
structure Roster.Even (r : Roster) : Prop where
  same : r.obss.cids = r.names.map upper
  nodup : (r.names.map upper).Nodup

theorem Roster.even_couple {r : Roster} (h : r.Even) (ctx : Ctx) (conn : Conn) (cid : Text) :
    Roster.Even ⟨(Obss.coupleCamera ctx conn cid r.obss).1,
      r.obss.coupledUnder r.names (.coupleCamera conn cid)⟩ := by
  -- the camera is connected, comes back, or is new
  obtain ⟨it, hfind, hon, hview⟩ | ⟨it, hfind, hoff, hview⟩ | ⟨hfind, hview⟩ :=
    Obss.coupleCamera_cameras ctx r.obss conn cid
  · have hnames : r.obss.coupledUnder r.names (.coupleCamera conn cid) = r.names := by
      simp [Obss.coupledUnder, hfind, hon]
    rw [hnames]
    exact ⟨(Obss.cids_congr hview).trans h.same, h.nodup⟩
  · have hnames : (r.obss.coupledUnder r.names (.coupleCamera conn cid)).map upper =
        r.names.map upper := by
      simp only [Obss.coupledUnder, hfind, hoff, Option.isSome_none, Bool.false_eq_true, if_false]
      refine map_setFirst h.same fun a ha => ?_
      have hcid : Obss.hasCid cid a = true := List.find?_some ha
      exact iequals_iff_upper.mp hcid
    have hcids : (Obss.coupleCamera ctx conn cid r.obss).1.cids = r.obss.cids := by
      rw [Obss.cids_update (congrArg Prod.fst hview), Obss.cids, map_updateFirst_iff]
      exact fun _ _ => rfl
    exact ⟨(hcids.trans h.same).trans hnames.symm, hnames.symm ▸ h.nodup⟩
  · have hnames : r.obss.coupledUnder r.names (.coupleCamera conn cid) = r.names ++ [cid] := by
      simp [Obss.coupledUnder, hfind]
    have hcids : (Obss.coupleCamera ctx conn cid r.obss).1.cids = r.obss.cids ++ [upper cid] := by
      have hcams := congrArg Prod.fst hview
      rw [Obss.cids_core, show (Obss.coupleCamera ctx conn cid r.obss).1.core.cameras = _ from hcams,
        List.map_append, ← Obss.cids_core]
      rfl
    -- no entry was found under the id, so none has an equal one
    have hnew : upper cid ∉ r.names.map upper := by
      rw [← h.same]
      intro hmem
      obtain ⟨it, hit, hcid⟩ := List.mem_map.mp hmem
      exact List.find?_eq_none.mp hfind it hit (iequals_iff_upper.mpr hcid)
    rw [hnames]
    refine ⟨?_, ?_⟩
    · show (Obss.coupleCamera ctx conn cid r.obss).1.cids = _
      rw [hcids, h.same, List.map_append]
      rfl
    · rw [List.map_append, List.map_singleton]
      refine List.nodup_append.mpr ⟨h.nodup, List.pairwise_singleton _ _, ?_⟩
      rintro a ha b hb rfl
      exact hnew (List.mem_singleton.mp hb ▸ ha)

/-- A step keeps the ids, or it is a line that is not signed. -/
theorem Roster.even_next_iff {c : Config Roster Act} (h : c.state.Even) (i : Ctx × Event) :
    (roster.next c i).state.Even ↔ i.2.Signed c.state.obss := by
  obtain ⟨ctx, ev⟩ := i
  have hkeep : ∀ {s : Obss}, s.cids = c.state.obss.cids → Roster.Even ⟨s, c.state.names⟩ :=
    fun hs => ⟨hs.trans h.same, h.nodup⟩
  cases ev with
  | coupleCamera conn cid => exact iff_of_true (Roster.even_couple h ctx conn cid) trivial
  | onTcpClose conn peer =>
      exact iff_of_true (hkeep (Obss.cids_onTcpClose ctx _ conn peer)) trivial
  | deviceLine conn proto =>
      cases proto with
      | camera m =>
          rw [← Obss.cids_report ctx]
          exact ⟨fun hnext => hnext.same.trans h.same.symm, hkeep⟩
      | _ => exact iff_of_true h trivial
  | _ =>
      refine iff_of_true (hkeep (Obss.cids_congr (Obss.camInert_step ctx ?_ ?_ ?_ _).1)) trivial
      all_goals simp

/-- The ids are kept just where they are even. -/
theorem Roster.cidsKept_iff {r : Roster} : r.CidsKept ↔ r.Even := by
  constructor
  · rintro ⟨hdistinct, hown, -, -⟩
    have hsame : r.obss.cids = r.names.map upper := by
      rw [Obss.cids, ← List.forall₂_eq_eq_eq, List.forall₂_map_left_iff, List.forall₂_map_right_iff]
      exact hown.imp fun _ _ heq => iequals_iff_upper.mp heq
    refine ⟨hsame, hsame ▸ ?_⟩
    rw [Obss.cids, List.Nodup, List.pairwise_map]
    exact hdistinct.imp fun hne heq => by simp [iequals_iff_upper.mpr heq] at hne
  · rintro ⟨hsame, hnodup⟩
    rw [← hsame] at hnodup
    -- two entries with equal ids are one
    have honly : ∀ it ∈ r.obss.camInfoVec, ∀ other ∈ r.obss.camInfoVec, ∀ cid,
        iequals it.info.cid cid = true → iequals other.info.cid cid = true → other = it := by
      intro it hit other hother cid hcid hcid'
      refine List.inj_on_of_nodup_map hnodup hother hit ?_
      exact (iequals_iff_upper.mp hcid').trans (iequals_iff_upper.mp hcid).symm
    refine ⟨?_, ?_, fun it hit cid hcid => ?_, fun proto cid hne act hact => ?_⟩
    · have hpair := hnodup
      rw [Obss.cids, List.Nodup, List.pairwise_map] at hpair
      refine hpair.imp fun {a b} hne => ?_
      rw [Bool.eq_false_iff]
      exact fun heq => hne (iequals_iff_upper.mp heq)
    · rw [Obss.cids, ← List.forall₂_eq_eq_eq, List.forall₂_map_left_iff,
        List.forall₂_map_right_iff] at hsame
      exact hsame.imp fun _ _ heq => iequals_iff_upper.mpr heq
    · refine find?_of_nodup hnodup hit fun other => ?_
      rw [Obss.hasCid, iequals_iff_upper, ← iequals_iff_upper.mp hcid]
    · rw [show (Obss.write2camera proto cid r.obss).2 = _ from if_neg hne] at hact ⊢
      cases hfind : r.obss.camInfoVec.find? fun it =>
          it.ptrTcp.isSome && iequals it.info.cid cid with
      | none =>
          rw [hfind] at hact
          cases hact
      | some it =>
          have hit := List.mem_of_find?_eq_some hfind
          have hboth := List.find?_some hfind
          rw [Bool.and_eq_true] at hboth
          obtain ⟨conn, hconn⟩ := Option.isSome_iff_exists.mp hboth.1
          refine ⟨it, hit, hboth.2, ⟨conn, hconn, ?_⟩, fun other hother hcid => ?_⟩
          · simp only [hconn]
            rfl
          · exact honly it hit other hother cid hboth.2 hcid

/-- In a run the ids are kept if and only if every line a camera sends is signed
with the id of its entry. -/
theorem cidsKept_iff_signed (gid uid : Text) (type : ObssType) (now : Time)
    (is : List (Ctx × Event)) :
    roster.Always (fun c => c.state.CidsKept) (Roster.start gid uid type now) is ↔
      roster.Each (fun c i => i.2.Signed c.state.obss) (Roster.start gid uid type now) is := by
  refine Machine.always_iff_each Machine.each_true (Roster.cidsKept_iff.mpr ⟨rfl, List.nodup_nil⟩)
    fun c i _ h => ?_
  rw [Roster.cidsKept_iff]
  exact Roster.even_next_iff (Roster.cidsKept_iff.mp h) i

/-- Camera 001 comes, and reports without its id. -/
def unsignedLine : List (Ctx × Event) :=
  [(.blank, .coupleCamera 1 "001".toList), (.blank, .deviceLine 1 (.camera { state := some 1 }))]

theorem not_cidsKept : ¬ roster.Always (fun c => c.state.CidsKept)
    (Roster.start "001".toList "002".toList .gwac 0) unsignedLine := by
  intro h
  have hown := h.exec.own
  obtain ⟨hid, -⟩ := List.forall₂_cons.mp hown
  exact absurd hid (by decide)

end Gtoaes
