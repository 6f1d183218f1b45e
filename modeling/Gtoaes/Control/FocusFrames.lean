import Gtoaes.Control.Reports
import Gtoaes.Control.WiredStep
import Gtoaes.Obss.FocusFrame
import Gtoaes.Proto.FocusReadings

/-!
A focus frame on its way to the cameras of a unit. The frame names some of the five
cameras; `process_protocol_focus` reports a position to each of them, for those that are
not named the number that stands for none.
-/

namespace Gtoaes

open Lib NonKVProtocol

namespace Server

/-- The calls of `NotifyFocus` for a focus frame. -/
def focusTurns (m : Moment) (id addr : ℕ) (unit : ℤ) (pos : List ℤ) (ks : List ℕ) : List Turn :=
  ks.map fun k => ⟨m.now, m.unset, .system id addr (Obss.labelReport unit pos k)⟩

/-- The system that a message is for. -/
def foundFor (v : Server) (m : Moment) (proto : NonKVMsg) : Option ℕ × GeneralControl :=
  v.control.findObssPtr proto.gid proto.uid .gwac (m.starts proto.gid proto.uid) m.now

/-- What the systems send out while a focus frame is handled. -/
def focusSends (m : Moment) (conn : Conn) (proto : NonKVMsg) (v : Server) : List (ℕ × Act) :=
  match (v.foundFor m proto).1, proto.kind, stoi proto.uid with
  | some id, .focus pos, .ok unit =>
      let w := { v with control := (v.foundFor m proto).2 }.coupleFocus m id
        (find v.tcpCliDevice conn)
      ((turns m.posix).exec { state := w.control, hist := [] }
        (focusTurns m id w.control.fresh unit pos (List.range 5))).hist
  | _, _, _ => []

/-- The calls, one after the other, are turns of the program. -/
theorem foldl_tell (m : Moment) (id : ℕ) (unit : ℤ) (pos : List ℤ) (ks : List ℕ) (v : Server)
    (hist : List (ℕ × Act)) :
    ks.foldl (fun v k => v.tell m id (Obss.labelReport unit pos k)) v =
      { v with control := ((turns m.posix).exec { state := v.control, hist := hist }
          (focusTurns m id v.control.fresh unit pos ks)).state } := by
  induction ks generalizing v hist with
  | nil => rfl
  | cons k ks ih =>
      have hfresh : (v.tell m id (Obss.labelReport unit pos k)).control.fresh =
          v.control.fresh := by
        show (GeneralControl.turn _ _ _).1.fresh = _
        rw [GeneralControl.turn]
        dsimp only
        split <;> rfl
      rw [List.foldl_cons, ih _ (hist ++ (v.control.turn m.posix
        ⟨m.now, m.unset, .system id v.control.fresh (Obss.labelReport unit pos k)⟩).2), hfresh]
      rfl

/-- In the system they are for they come to the reports of the labels. -/
theorem exec_focusTurns (m : Moment) (ctx : Ctx) {id : ℕ} (addr : ℕ) (unit : ℤ) (pos : List ℤ)
    {g : GeneralControl} {s : Obss} (hs : g.obssVec id = some s) (hist : List (ℕ × Act))
    (ks : List ℕ) :
    ((turns m.posix).exec { state := g, hist := hist }
        (focusTurns m id addr unit pos ks)).state.obssVec =
      (g.put id (some (Obss.reportLabels ctx unit pos ks s).1)).obssVec ∧
    ((turns m.posix).exec { state := g, hist := hist } (focusTurns m id addr unit pos ks)).hist =
      hist ++ (Obss.reportLabels ctx unit pos ks s).2.map fun act => (id, act) := by
  induction ks generalizing g s hist with
  | nil =>
      refine ⟨funext fun j => ?_, (List.append_nil hist).symm⟩
      by_cases hj : j = id
      · rw [hj, GeneralControl.put_self]
        exact hs
      · rw [GeneralControl.put_other hj]
        rfl
  | cons k ks ih =>
      -- a turn is a step of the one system, and leaves the others
      have hturn : (turns m.posix).next { state := g, hist := hist }
          ⟨m.now, m.unset, .system id addr (Obss.labelReport unit pos k)⟩ =
          { state := g.put id (some (Obss.step ctx (Obss.labelReport unit pos k) s).1)
            hist := hist ++ (Obss.step ctx (Obss.labelReport unit pos k) s).2.map
              fun act => (id, act) } := by
        rw [Machine.next]
        show (⟨(GeneralControl.turn _ _ _).1, _ ++ (GeneralControl.turn _ _ _).2⟩ : Config _ _) = _
        rw [GeneralControl.turn]
        dsimp only
        rw [hs]
        rfl
      obtain ⟨hstate, hhist⟩ := ih (g := g.put id _)
        (s := (Obss.step ctx (Obss.labelReport unit pos k) s).1) (GeneralControl.put_self ..)
        (hist ++ (Obss.step ctx (Obss.labelReport unit pos k) s).2.map fun act => (id, act))
      rw [focusTurns, List.map_cons]
      show ((turns m.posix).exec ((turns m.posix).next _ _) _).state.obssVec = _ ∧
        ((turns m.posix).exec ((turns m.posix).next _ _) _).hist = _
      rw [hturn]
      refine ⟨hstate.trans (funext fun j => ?_), hhist.trans ?_⟩
      · by_cases hj : j = id
        · rw [hj, GeneralControl.put_self, GeneralControl.put_self]
          rfl
        · rw [GeneralControl.put_other hj, GeneralControl.put_other hj, GeneralControl.put_other hj]
      · rw [List.append_assoc, ← List.map_append]
        rfl

/-- Coupling the focuser leaves the cameras of the system alone. -/
theorem coupleFocus_obssVec (m : Moment) {id : ℕ} (ptr : Option Conn) {v : Server} {s : Obss}
    (hs : v.control.obssVec id = some s) :
    (v.coupleFocus m id ptr).control.obssVec =
      (v.control.put id (some { s with tcpFocus := ptr })).obssVec := by
  cases ptr with
  | none =>
      show (v.control.put id ((v.control.obssVec id).map _)).obssVec = _
      rw [hs]
      rfl
  | some conn =>
      show (GeneralControl.turn _ _ _).1.obssVec = _
      rw [GeneralControl.turn]
      dsimp only
      rw [hs]
      rfl

theorem obssVec_of_foundFor {v : Server} (hwired : v.Wired []) {m : Moment} {proto : NonKVMsg}
    {id : ℕ} (hfound : (v.foundFor m proto).1 = some id) :
    (∃ s, v.control.obssVec id = some s ∧ (v.foundFor m proto).2 = v.control) ∨
      (v.control.obssVec id = none ∧ ∃ s, (v.foundFor m proto).2.obssVec =
        (v.control.put id (some s)).obssVec) := by
  rw [foundFor, GeneralControl.findObssPtr] at hfound ⊢
  cases hmatched : (v.control.matched proto.gid proto.uid).head? with
  | some j =>
      rw [hmatched] at hfound
      obtain rfl := Option.some.inj hfound
      obtain ⟨-, s, hs, -⟩ := GeneralControl.mem_matched.mp (List.mem_of_mem_head? hmatched)
      exact .inl ⟨s, hs, rfl⟩
  | none =>
      rw [hmatched] at hfound
      dsimp only at hfound ⊢
      split at hfound
      · rename_i hstarts
        obtain rfl := Option.some.inj hfound
        refine .inr ⟨?_, Obss.create proto.gid proto.uid .gwac m.now, by rw [if_pos hstarts]⟩
        by_contra hsome
        obtain ⟨s, hs⟩ := Option.ne_none_iff_exists'.mp hsome
        exact absurd (hwired.bound (GeneralControl.links_eq_some.mpr ⟨s, hs, rfl⟩)) (lt_irrefl _)
      · cases hfound

/-- A frame is for no system, or what it does to its system is the reports of the five
labels, which come behind the coupling of the focuser. -/
theorem onFrameLine_focus {m : Moment} {conn : Conn} {line : Text} {v v' : Server}
    {proto : NonKVMsg} {pos : List ℤ} (hport : v.peer conn = some .focus)
    (hres : NonKVProtocol.resolve line = .ok (some proto)) (hkind : proto.kind = .focus pos)
    (hok : v.onFrameLine m conn line = .ok v') :
    ((v.foundFor m proto).1 = none ∧ v'.control = v.control ∧ v.focusSends m conn proto = []) ∨
    ∃ id unit, (v.foundFor m proto).1 = some id ∧ stoi proto.uid = .ok unit ∧
      ∀ s, (v.foundFor m proto).2.obssVec id = some s →
        v'.control.obssVec = ((v.foundFor m proto).2.put id (some (Obss.reportLabels .blank unit pos
          (List.range 5) { s with tcpFocus := find v.tcpCliDevice conn }).1)).obssVec ∧
        v.focusSends m conn proto = (Obss.reportLabels .blank unit pos (List.range 5)
          { s with tcpFocus := find v.tcpCliDevice conn }).2.map fun act => (id, act) := by
  have hreport : v.processProtocolFocus m conn proto = .ok v' := by
    rw [onFrameLine, if_pos (.inr hport), hres] at hok
    dsimp only at hok
    rw [onReport, hport] at hok
    dsimp only at hok
    split at hok
    · cases hok
    · rename_i w hw
      rw [hw, ← Except.ok.inj hok]
  rw [processProtocolFocus, withObss] at hreport
  rw [focusSends]
  cases hfound : (v.foundFor m proto).1 with
  | none =>
      rw [foundFor] at hfound
      rw [hfound] at hreport
      obtain rfl := Except.ok.inj hreport
      refine .inl ⟨rfl, ?_, rfl⟩
      rw [GeneralControl.findObssPtr] at hfound ⊢
      dsimp only at hfound ⊢
      split at hfound
      · cases hfound
      · rename_i hmatched
        split at hfound
        · cases hfound
        · rename_i hstarts
          rw [if_neg hstarts]
  | some id =>
      rw [foundFor] at hfound
      rw [hfound, hkind] at hreport
      dsimp only at hreport
      cases hunit : stoi proto.uid with
      | error e =>
          rw [hunit] at hreport
          cases hreport
      | ok unit =>
          rw [hunit] at hreport
          refine .inr ⟨id, unit, rfl, rfl, fun s hs => ?_⟩
          -- the system takes the focuser first, then the five reports follow
          have hcoupled := coupleFocus_obssVec m (find v.tcpCliDevice conn)
            (v := { v with control := (v.foundFor m proto).2 }) hs
          have hat : ({ v with control := (v.foundFor m proto).2 }.coupleFocus m id
              (find v.tcpCliDevice conn)).control.obssVec id =
              some { s with tcpFocus := find v.tcpCliDevice conn } := by
            rw [hcoupled, GeneralControl.put_self]
          obtain ⟨hstate, hhist⟩ := exec_focusTurns m .blank
            ({ v with control := (v.foundFor m proto).2 }.coupleFocus m id
              (find v.tcpCliDevice conn)).control.fresh unit pos hat [] (List.range 5)
          rw [hkind]
          refine ⟨?_, hhist⟩
          have hv' := Except.ok.inj hreport
          rw [show (fun (v : Server) (i : ℕ) => v.tell m id (.notifyFocus
            (zeroPad 3 (unit * 10 + 1 + i)) (pos.getD i 0))) = fun v k =>
              v.tell m id (Obss.labelReport unit pos k) from rfl, foldl_tell m id unit pos
            (List.range 5) _ []] at hv'
          rw [← hv']
          refine hstate.trans (funext fun j => ?_)
          by_cases hj : j = id
          · rw [hj, GeneralControl.put_self, GeneralControl.put_self]
          · rw [GeneralControl.put_other hj, GeneralControl.put_other hj]
            show (coupleFocus m id _ _).control.obssVec j = _
            rw [hcoupled, GeneralControl.put_other hj]

/-- The entry belongs to a camera of the frame's unit whose label occurs in the frame. -/
def LabelFinds (m : Moment) (line : Text) (proto : NonKVMsg) (v : Server) (id : ℕ) (s : Obss)
    (i : ℕ) : Prop :=
  (v.foundFor m proto).1 = some id ∧ ∃ unit k, stoi proto.uid = .ok unit ∧ k < 5 ∧
    LabelOccurs line k ∧ s.camIndex (Obss.focusCid unit k) = some i

/-- An entry is as it was, and what its system has sent out was for other cameras. -/
structure EntryLeft (sends : List (ℕ × Act)) (id : ℕ) (s : Obss) (after : Option Obss) (i : ℕ) :
    Prop where
  same : (after.bind fun s' => s'.camInfoVec[i]?) = s.camInfoVec[i]?
  untold : ∀ act, (id, act) ∈ sends →
    ∃ conn msg, act = .camera conn (.focus msg) ∧ s.camIndex msg.cid ≠ some i

/-- Every entry is left alone, unless its label occurs in the frame. -/
def LeavesOthers (m : Moment) (conn : Conn) (line : Text) (proto : NonKVMsg) (v v' : Server) :
    Prop :=
  ∀ id s, v.control.obssVec id = some s → ∀ i, ¬ v.LabelFinds m line proto id s i →
    EntryLeft (v.focusSends m conn proto) id s (v'.control.obssVec id) i

/-- Each camera of the frame's unit whose label is missing from the frame has no entry, or
a focuser that has settled where no label has put it. -/
def MissingSettled (m : Moment) (line : Text) (proto : NonKVMsg) (v : Server) : Prop :=
  ∀ id s unit k, (v.foundFor m proto).1 = some id → v.control.obssVec id = some s →
    stoi proto.uid = .ok unit → k < 5 → ¬ LabelOccurs line k →
      ∀ it, s.camInfoVec.find? (Obss.hasCid (Obss.focusCid unit k)) = some it →
        it.focPos = intMax ∧ it.focState = 0

end Server

namespace Obss

variable {s : Obss} {unit : ℤ} {pos : List ℤ} {line : Text} {id i : ℕ}

/-- A camera whose label is missing stays as it is just if it has settled there. -/
theorem reportLabels_missing_iff (hpos : ∀ k < 5, pos.getD k 0 = (labelReading line k).getD intMax)
    {k : ℕ} (hk : k < 5) (hmissing : ¬ LabelOccurs line k) {it : CameraInfo}
    (hi : s.camIndex (focusCid unit k) = some i) (hit : s.camInfoVec[i]? = some it) :
    (reportLabels .blank unit pos (List.range 5) s).1.camInfoVec[i]? = s.camInfoVec[i]? ↔
      it.focPos = intMax ∧ it.focState = 0 := by
  rw [reportLabels_of_label _ List.nodup_range (List.mem_range.mpr hk) hi, hit, hpos k hk,
    labelReading_eq_none hmissing]
  exact Option.some_inj.trans focusReport_eq_self_iff

/-- In the system of the frame. -/
theorem entryLeft_iff (s : Obss) (unit : ℤ) (id : ℕ)
    (hpos : ∀ k < 5, pos.getD k 0 = (labelReading line k).getD intMax) (ptr : Option Conn) :
    (∀ i, (¬ ∃ k < 5, LabelOccurs line k ∧ s.camIndex (focusCid unit k) = some i) →
      Server.EntryLeft ((reportLabels .blank unit pos (List.range 5)
        { s with tcpFocus := ptr }).2.map fun act => (id, act)) id s
        (some (reportLabels .blank unit pos (List.range 5) { s with tcpFocus := ptr }).1) i) ↔
    ∀ k < 5, ¬ LabelOccurs line k → ∀ it, s.camInfoVec.find? (hasCid (focusCid unit k)) = some it →
      it.focPos = intMax ∧ it.focState = 0 := by
  constructor
  · intro h k hk hmissing it hfind
    obtain ⟨i, hi, hit⟩ := camIndex_eq_some hfind
    -- no other label finds the entry
    have hunlabelled : ¬ ∃ k < 5, LabelOccurs line k ∧ s.camIndex (focusCid unit k) = some i := by
      rintro ⟨k', -, hoccurs, hi'⟩
      exact hmissing (label_unique hi hi' ▸ hoccurs)
    exact (reportLabels_missing_iff (s := { s with tcpFocus := ptr }) hpos hk hmissing hi hit).mp
      (h i hunlabelled).same
  · intro h i hunlabelled
    have hmissing : ∀ k < 5, s.camIndex (focusCid unit k) = some i → ∀ it,
        s.camInfoVec[i]? = some it → ¬ LabelOccurs line k ∧ it.focPos = intMax ∧ it.focState = 0 := by
      intro k hk hi it hit
      have hnot : ¬ LabelOccurs line k := fun hoccurs => hunlabelled ⟨k, hk, hoccurs, hi⟩
      exact ⟨hnot, h k hk hnot it ((find?_of_camIndex hi).trans hit)⟩
    refine ⟨?_, fun act hact => ?_⟩
    · show (reportLabels .blank unit pos (List.range 5)
        { s with tcpFocus := ptr }).1.camInfoVec[i]? = s.camInfoVec[i]?
      by_cases hfound : s.FoundBy unit (List.range 5) i
      · obtain ⟨k, hk, hi⟩ := hfound
        have hk : k < 5 := List.mem_range.mp hk
        obtain ⟨hlt, -⟩ := List.findIdx?_eq_some_iff_getElem.mp hi
        have hit := List.getElem?_eq_getElem hlt
        obtain ⟨hnot, hsettled⟩ := hmissing k hk hi _ hit
        exact (reportLabels_missing_iff (s := { s with tcpFocus := ptr }) hpos hk hnot hi hit).mpr
          hsettled
      · exact reportLabels_of_not_foundBy (s := { s with tcpFocus := ptr }) .blank hfound
    · obtain ⟨act', hact', heq⟩ := List.mem_map.mp hact
      obtain ⟨-, rfl⟩ := Prod.mk.inj heq
      obtain ⟨conn, msg, k, j, it, rfl, hk, hcid, hj, hit, htold⟩ :=
        reportLabels_sends .blank List.nodup_range hact'
      refine ⟨conn, msg, rfl, ?_⟩
      rw [hcid]
      intro hi
      obtain rfl : j = i := Option.some.inj (hj.symm.trans hi)
      obtain ⟨-, -, hsettled⟩ := hmissing k (List.mem_range.mp hk) hi it hit
      rw [not_settles_of_eq_self hsettled] at htold
      cases htold

end Obss

/-- A focus frame changes, and has told, only cameras whose labels occur in it: exactly
if each camera of the unit whose label is missing has no entry, or has settled where no
label has put it. -/
theorem leavesOthers_iff (is : List (Moment × ServerEvent)) (m : Moment) (conn : Conn) (line : Text)
    (proto : NonKVMsg) (pos : List ℤ) (v' : Server)
    (hport : (server.exec Server.start is).state.peer conn = some .focus)
    (hres : NonKVProtocol.resolve line = .ok (some proto)) (hkind : proto.kind = .focus pos)
    (hok : (server.exec Server.start is).state.onFrameLine m conn line = .ok v') :
    (server.exec Server.start is).state.LeavesOthers m conn line proto v' ↔
      (server.exec Server.start is).state.MissingSettled m line proto := by
  have hwired : (server.exec Server.start is).state.Wired [] := (Server.wired_always is).exec
  generalize (server.exec Server.start is).state = v at *
  have hpos : ∀ k < 5, pos.getD k 0 = (labelReading line k).getD intMax :=
    fun k hk => getD_of_resolve hres hkind hk
  obtain ⟨hnone, hcontrol, hsends⟩ | ⟨id, unit, hfound, hunit, hframe⟩ :=
    Server.onFrameLine_focus hport hres hkind hok
  · -- nothing is done
    refine iff_of_true (fun id s hs i _ => ⟨?_, fun act hact => ?_⟩) ?_
    · rw [hcontrol, hs]
      rfl
    · rw [hsends] at hact
      cases hact
    · intro id s unit k hfound
      rw [hnone] at hfound
      cases hfound
  · -- a system that the frame is not for keeps its entries and is sent nothing
    have hleft : ∀ {j s}, j ≠ id → v.control.obssVec j = some s → v'.control.obssVec j = some s →
        (∃ acts : List Act, v.focusSends m conn proto = acts.map fun act => (id, act)) → ∀ i,
        Server.EntryLeft (v.focusSends m conn proto) j s (v'.control.obssVec j) i := by
      rintro j s hj - hs ⟨acts, hacts⟩ i
      refine ⟨by rw [hs]; rfl, fun act hact => ?_⟩
      rw [hacts] at hact
      obtain ⟨act', -, heq⟩ := List.mem_map.mp hact
      exact absurd (Prod.mk.inj heq).1.symm hj
    obtain ⟨s₀, hs₀, hcontrol⟩ | ⟨hnew, s₀, hcontrol⟩ := Server.obssVec_of_foundFor hwired hfound
    · obtain ⟨hvec, hsends⟩ := hframe s₀ (by rw [hcontrol, hs₀])
      rw [hcontrol] at hvec
      have hiff := Obss.entryLeft_iff s₀ unit id hpos (Server.find v.tcpCliDevice conn)
      rw [← hsends] at hiff
      constructor
      · intro h id' s unit' k hid' hs hunit' hk hmissing
        obtain rfl := Option.some.inj (hfound.symm.trans hid')
        obtain rfl := Option.some.inj (hs₀.symm.trans hs)
        obtain rfl := Except.ok.inj (hunit.symm.trans hunit')
        refine hiff.mp (fun i hi => ?_) k hk hmissing
        have hentry := h id s₀ hs₀ i fun ⟨_, unit', k, hunit', hk, hoccurs, hat⟩ => hi (by
          obtain rfl := Except.ok.inj (hunit.symm.trans hunit')
          exact ⟨k, hk, hoccurs, hat⟩)
        rwa [hvec, GeneralControl.put_self] at hentry
      · intro h j s hs i hi
        by_cases hj : j = id
        · subst hj
          obtain rfl := Option.some.inj (hs₀.symm.trans hs)
          rw [hvec, GeneralControl.put_self]
          refine hiff.mpr (fun k hk hmissing => h j s₀ unit k hfound hs₀ hunit hk hmissing) i ?_
          rintro ⟨k, hk, hoccurs, hat⟩
          exact hi ⟨hfound, unit, k, hunit, hk, hoccurs, hat⟩
        · exact hleft hj hs (by rw [hvec, GeneralControl.put_other hj, hs]) ⟨_, hsends⟩ i
    · -- the system is a new one, which has no cameras
      obtain ⟨hvec, hsends⟩ := hframe s₀ (by rw [hcontrol, GeneralControl.put_self])
      refine iff_of_true (fun j s hs i _ => ?_) fun id' s unit' k hid' hs => ?_
      · have hj : j ≠ id := by
          rintro rfl
          rw [hnew] at hs
          cases hs
        refine hleft hj hs ?_ ⟨_, hsends⟩ i
        rw [hvec, GeneralControl.put_other hj, hcontrol, GeneralControl.put_other hj, hs]
      · obtain rfl := Option.some.inj (hfound.symm.trans hid')
        rw [hnew] at hs
        cases hs

/-- Camera 061 of unit 006 and the focuser of that unit. -/
def unit6 : List (Moment × ServerEvent) :=
  [.accept 1 .cameraGWAC, .accept 2 .focus,
    .line 1 (.camera { gid := "002".toList, uid := "006".toList, cid := "061".toList })].map
      fun ev => (.blank, ev)

/-- The position of camera 061 alone, and that of camera 062 alone. -/
def es10 : Text := "g#002006focuses+0010%2024-03-29%13:07:26%7%".toList

def ws10 : Text := "g#002006focusws+0010%2024-03-29%13:07:26%7%".toList

theorem leavesOthers_es10 : ∃ proto v',
    NonKVProtocol.resolve es10 = .ok (some proto) ∧
      (server.exec Server.start unit6).state.onFrameLine .blank 2 es10 = .ok v' ∧
      (server.exec Server.start unit6).state.LeavesOthers .blank 2 es10 proto v' := by
  have hres : NonKVProtocol.resolve es10 = .ok (some ⟨"002".toList, "006".toList,
      "2024-03-29T13:07:26".toList, 7, .focus (10 :: List.replicate 9 intMax)⟩) := by
    decide +kernel
  have hok : ((server.exec Server.start unit6).state.onFrameLine .blank 2
      es10).toOption.isSome = true := by decide +kernel
  obtain ⟨v', hv'⟩ := Option.isSome_iff_exists.mp hok
  cases hline : (server.exec Server.start unit6).state.onFrameLine .blank 2 es10 with
  | error e =>
      rw [hline] at hv'
      cases hv'
  | ok v' =>
      refine ⟨_, v', hres, rfl,
        (leavesOthers_iff unit6 .blank 2 es10 _ _ v' rfl hres rfl hline).mpr ?_⟩
      intro id s unit k hfound hs hunit hk hmissing it hfind
      obtain rfl : 0 = id := Option.some.inj hfound
      obtain rfl : 6 = unit := Except.ok.inj hunit
      obtain rfl := Option.some.inj hs
      have hoccurs : LabelOccurs es10 0 :=
        ⟨("es".toList, "+0010".toList), by decide +kernel, by decide⟩
      -- cameras 062 to 065 have no entry
      have hk0 : k ≠ 0 := fun h => hmissing (h ▸ hoccurs)
      have hnone : ∀ k < 5, k ≠ 0 →
          ([Obss.newCamera Ctx.blank 1 "061".toList]).find? (Obss.hasCid (Obss.focusCid 6 k)) =
            none := by decide
      exact absurd (hfind.symm.trans (hnone k hk hk0)) (by simp)

/-- Camera 061 is moved to no position by a frame that does not name it. -/
theorem not_leavesOthers : ¬ ∀ (is : List (Moment × ServerEvent)) (m : Moment) (conn : Conn)
    (line : Text) (proto : NonKVMsg) (pos : List ℤ) (v' : Server),
    (server.exec Server.start is).state.peer conn = some .focus →
    NonKVProtocol.resolve line = .ok (some proto) → proto.kind = .focus pos →
    (server.exec Server.start is).state.onFrameLine m conn line = .ok v' →
    (server.exec Server.start is).state.LeavesOthers m conn line proto v' := by
  intro h
  have hres : NonKVProtocol.resolve ws10 = .ok (some ⟨"002".toList, "006".toList,
      "2024-03-29T13:07:26".toList, 7, .focus (intMax :: 10 :: List.replicate 8 intMax)⟩) := by
    decide +kernel
  have hmoved : (((server.exec Server.start unit6).state.onFrameLine .blank 2
      ws10).toOption.bind fun v => (v.control.obssVec 0).bind fun s =>
        s.camInfoVec[0]?.map (·.focPos)) = some intMax := by decide +kernel
  cases hline : (server.exec Server.start unit6).state.onFrameLine .blank 2 ws10 with
  | error e =>
      rw [hline] at hmoved
      cases hmoved
  | ok v' =>
      rw [hline] at hmoved
      -- the frame has a label for the second camera only
      have hunnamed : ¬ LabelOccurs ws10 0 := by
        rintro ⟨g, hg, hlabel⟩
        have hpairs : pairsOf ws10 8 = [("ws".toList, "+0010".toList)] := by decide +kernel
        rw [hpairs, List.mem_singleton] at hg
        subst hg
        exact absurd hlabel (by decide)
      have hentry := h unit6 .blank 2 ws10 _ _ v' rfl hres rfl hline 0 _ rfl 0 ?_
      · have hsame := hentry.same
        cases hafter : v'.control.obssVec 0 with
        | none =>
            rw [hafter] at hsame
            cases hsame
        | some s' =>
            rw [hafter] at hsame
            simp only [Except.toOption, Option.bind_some, hafter] at hmoved
            rw [show s'.camInfoVec[0]? = _ from hsame] at hmoved
            exact absurd hmoved (by decide)
      · rintro ⟨-, unit, k, hunit, -, hoccurs, hindex⟩
        obtain rfl : 6 = unit := Except.ok.inj hunit
        have hzero : k = 0 := Obss.label_unique hindex rfl
        exact hunnamed (hzero ▸ hoccurs)

end Gtoaes
