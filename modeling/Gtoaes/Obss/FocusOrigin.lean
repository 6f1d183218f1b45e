import Gtoaes.Lib.CString
import Gtoaes.Obss.FocusFrame
import Gtoaes.Proto.FocusReadings

/-!
Where the position comes from that a `Focus` reckons with. It is stored by the reports of
the focus frames and by nothing else, but a frame also reports a number for the labels it
does not have, and an entry begins with another one that stands for no position at all.
-/

namespace Gtoaes

open Lib Lib.Handler NonKVProtocol

def Event.isReport : Event → Bool
  | .notifyFocus _ _ => true
  | _ => false

namespace Obss

/-- The unit and the positions of a focus frame that is for the system. -/
def frameFor (s : Obss) (line : Text) : Option (ℤ × List ℤ) :=
  match NonKVProtocol.resolve line with
  | .ok (some proto) =>
      match proto.kind, stoi proto.uid with
      | .focus pos, .ok unit => if s.isMatched proto.gid proto.uid then some (unit, pos) else none
      | _, _ => none
  | _ => none

/-- What the system does with a line on the focus port, whose connection is `sp`. -/
def onFocusFrame (sp : Option Conn) (line : Text) : Handler Obss Act := fun s =>
  match s.frameFor line with
  | some (unit, pos) => reportLabels .blank unit pos (List.range 5) { s with tcpFocus := sp }
  | none => (s, [])

/-- What a line on the focus port says about an entry: nothing, or that a position goes
with its label, or that its label is missing. -/
def readingAt (s : Obss) (i : ℕ) (line : Text) : Option (Option ℤ) :=
  match s.frameFor line with
  | some (unit, _) =>
      ((List.range 5).find? fun k => s.camIndex (focusCid unit k) == some i).map (labelReading line)
  | none => none

/-- The stored position of an entry. -/
def posAt (s : Obss) (i : ℕ) : Option ℤ := s.camInfoVec[i]?.map (·.focPos)

variable {s : Obss} {i : ℕ} {line : Text}

theorem posAt_eq (s : Obss) (i : ℕ) : s.posAt i = (s.focuserAt i).map (·.focPos) := by
  rw [focuserAt, Option.map_map]
  rfl

theorem exists_posAt_of_camIndex {cid : Text} (h : s.camIndex cid = some i) :
    ∃ it, s.camInfoVec[i]? = some it := by
  obtain ⟨hlt, -⟩ := List.findIdx?_eq_some_iff_getElem.mp h
  exact ⟨_, List.getElem?_eq_getElem hlt⟩

theorem focusReport_focPos (pos : ℤ) (it : CameraInfo) : (focusReport pos it).1.focPos = pos := by
  obtain ⟨-, heq⟩ | ⟨hpos, -, -, heq⟩ | ⟨hpos, -, -, heq⟩ | ⟨hpos, -, heq⟩ :=
    focusReport_cases pos it
  · rw [heq]
  all_goals
    rw [heq]
    exact hpos.symm

theorem pos_of_frameFor {unit : ℤ} {pos : List ℤ} (h : s.frameFor line = some (unit, pos)) {k : ℕ}
    (hk : k < 5) : pos.getD k 0 = (labelReading line k).getD intMax := by
  rw [frameFor] at h
  split at h
  · rename_i proto hres
    split at h
    · rename_i hkind _
      split at h
      · obtain ⟨-, rfl⟩ := Prod.mk.inj (Option.some.inj h)
        exact getD_of_resolve hres hkind hk
      · cases h
    · cases h
  · cases h

/-- A line stores what it says. -/
theorem posAt_onFocusFrame (sp : Option Conn) (s : Obss) (i : ℕ) (line : Text) :
    (onFocusFrame sp line s).1.posAt i =
      match s.readingAt i line with
      | some r => some (r.getD intMax)
      | none => s.posAt i := by
  rw [onFocusFrame, readingAt]
  cases hframe : s.frameFor line with
  | none => rfl
  | some frame =>
      obtain ⟨unit, pos⟩ := frame
      dsimp only
      -- at most one of the five labels leads to the entry
      cases hfind : (List.range 5).find? fun k => s.camIndex (focusCid unit k) == some i with
      | none =>
          have hfree : ¬ ({ s with tcpFocus := sp } : Obss).FoundBy unit (List.range 5) i := by
            rintro ⟨k, hk, hi⟩
            exact absurd (beq_iff_eq.mpr hi) (List.find?_eq_none.mp hfind k hk)
          rw [posAt, reportLabels_of_not_foundBy .blank hfree]
          rfl
      | some k =>
          have hk : k ∈ List.range 5 := List.mem_of_find?_eq_some hfind
          have hi : s.camIndex (focusCid unit k) = some i :=
            beq_iff_eq.mp (List.find?_some (p := fun k => s.camIndex (focusCid unit k) == some i) hfind)
          obtain ⟨it, hit⟩ := exists_posAt_of_camIndex hi
          rw [posAt, reportLabels_of_label (s := { s with tcpFocus := sp }) .blank List.nodup_range
            hk hi, hit, pos_of_frameFor hframe (List.mem_range.mp hk)]
          exact congrArg some (focusReport_focPos _ it)

theorem reportAt_of_not_isReport {ev : Event} (h : ev.isReport = false) :
    s.reportAt i ev = none := by
  cases ev <;> first | rfl | cases h

/-- Nothing else stores a position, but the beginning of an entry. -/
theorem posAt_step (ctx : Ctx) {ev : Event} (hev : ev.isReport = false) (s : Obss) (i : ℕ) :
    (step ctx ev s).1.posAt i = s.posAt i ∨
      (s.posAt i = none ∧ (step ctx ev s).1.posAt i = some 999999) := by
  have hmap : ∀ f : CameraInfo → Focuser, (∀ it, (f it).focPos = it.focPos) →
      (s.camInfoVec[i]?.map f).map (·.focPos) = s.posAt i := by
    intro f hf
    rw [posAt, Option.map_map]
    exact Option.map_congr fun it _ => hf it
  rw [posAt_eq, posAt_eq s]
  obtain ⟨pos, hreport, -⟩ | ⟨proto, -, -, hat⟩ | ⟨-, hat⟩ | ⟨-, -, hsame | ⟨hnone, hnew⟩⟩ :=
    focuserAt_step ctx s i ev
  · rw [reportAt_of_not_isReport hev] at hreport
    cases hreport
  · rw [hat, hmap _ fun _ => rfl, posAt_eq]
    exact .inl rfl
  · rw [hat, Option.map_map]
    exact .inl rfl
  · rw [hsame]
    exact .inl rfl
  · rw [hnew, hnone]
    exact .inr ⟨rfl, rfl⟩

/-- The frame of an accepted `Focus` is written out, and of no other. -/
theorem focus_sends_iff (ctx : Ctx) (proto : KVFocus) (s : Obss) :
    (step ctx (.focus proto) s).2 ≠ [] ↔ (s.focusTarget proto).isSome = true := by
  rw [step, focus, focusTarget]
  cases hfocus : s.tcpFocus with
  | none => simp
  | some conn =>
      cases hfind : s.camInfoVec.find? (hasCid proto.cid) with
      | none => simp [camIndex_eq_none hfind]
      | some it =>
          obtain ⟨j, hj, -⟩ := camIndex_eq_some hfind
          by_cases hop : proto.opType = 1 ∧ proto.relPos ≠ 0
          · simp [hop, hj, all_cons, updateCamera, focusCommand]
          · simp [hop]

end Obss

/-! ### Runs -/

/-- A line on the focus port, or anything else. -/
inductive FocusInput
  | frame (sp : Option Conn) (line : Text)
  | event (input : Input)

/-- A system on its own. About the entry at one place it is known what the latest frame
has said, and which positions frames have given it. -/
structure Located where
  system : Solo
  latest : Option (Option ℤ) := none
  seen : List ℤ := []

/-- The system with an eye on the entry at `i`. A position is reported in a frame only. -/
def locate (posix : PosixTime) (i : ℕ) : Machine Located FocusInput Act where
  step w
    | .frame sp line =>
        let r := w.system.obss.readingAt i line
        ({ system := { w.system with obss := (Obss.onFocusFrame sp line w.system.obss).1 }
           latest := r.or w.latest
           seen := r.join.toList ++ w.seen }, (Obss.onFocusFrame sp line w.system.obss).2)
    | .event input =>
        if input.ev.isReport then (w, [])
        else ({ w with system := ((solo posix).step w.system input).1 },
          ((solo posix).step w.system input).2)

def Located.start (gid uid : Text) (type : ObssType) (now : Time) : Config Located Act where
  state := { system := { obss := Obss.create gid uid type now } }
  hist := []

/-- A `Focus` for the entry that is accepted reckons with a position that has been
reported, and the target that it comes to is an `int`. -/
def FocusSound (i : ℕ) (w : Located) (input : FocusInput) : Prop :=
  ∀ now unset proto, input = .event ⟨now, unset, .focus proto⟩ →
    w.system.obss.focusTarget proto = some i →
      ∀ p, w.system.obss.posAt i = some p → p ∈ w.seen ∧ IsInt (p + proto.relPos)

/-- A `Focus` for the entry that is accepted comes when the latest frame has the label of
the camera, or the number for a missing label has been reported as well; from that
position the way to go leads to an `int`. -/
def NamedLast (i : ℕ) (w : Located) (input : FocusInput) : Prop :=
  ∀ now unset proto, input = .event ⟨now, unset, .focus proto⟩ →
    w.system.obss.focusTarget proto = some i →
      ∃ r, w.latest = some r ∧ (r = none → intMax ∈ w.seen) ∧
        IsInt (r.getD intMax + proto.relPos)

/-- The stored position is what the latest frame has said. -/
structure Located.Traced (i : ℕ) (w : Located) : Prop where
  absent : w.system.obss.posAt i = none → w.latest = none
  stored : ∀ p, w.system.obss.posAt i = some p → p = w.latest.elim 999999 fun r => r.getD intMax
  unseen : w.latest = none → w.seen = []
  seen : ∀ q, w.latest = some (some q) → q ∈ w.seen

theorem Located.traced_frame {posix : PosixTime} {i : ℕ} {c : Config Located Act}
    (h : c.state.Traced i) (sp : Option Conn) (line : Text) :
    ((locate posix i).next c (.frame sp line)).state.Traced i := by
  have hpos := Obss.posAt_onFocusFrame sp c.state.system.obss i line
  -- a frame says something about the entry, or is not about it
  obtain hnone | ⟨r, hr⟩ := Option.eq_none_or_eq_some (c.state.system.obss.readingAt i line)
  · have hnext : ((locate posix i).next c (.frame sp line)).state =
        { c.state with
          system := { c.state.system with
            obss := (Obss.onFocusFrame sp line c.state.system.obss).1 } } := by
      show ({ system := _, latest := _, seen := _ } : Located) = _
      rw [hnone]
      rfl
    rw [hnone] at hpos
    rw [hnext]
    exact ⟨fun habsent => h.absent (hpos.symm.trans habsent),
      fun p hp => h.stored p (hpos.symm.trans hp), h.unseen, h.seen⟩
  · have hnext : ((locate posix i).next c (.frame sp line)).state =
        { system := { c.state.system with obss := (Obss.onFocusFrame sp line c.state.system.obss).1 }
          latest := some r
          seen := r.toList ++ c.state.seen } := by
      show ({ system := _, latest := _, seen := _ } : Located) = _
      rw [hr]
      rfl
    rw [hr] at hpos
    rw [hnext]
    refine ⟨fun habsent => ?_, fun p hp => ?_, fun hunseen => ?_, fun q hq => ?_⟩
    · exact absurd (hpos.symm.trans habsent) (by simp)
    · exact Option.some.inj (hp.symm.trans hpos)
    · cases hunseen
    · obtain rfl := Option.some.inj hq
      exact List.mem_append_left _ (List.mem_singleton.mpr rfl)

theorem Located.traced_next {posix : PosixTime} {i : ℕ} {c : Config Located Act}
    (h : c.state.Traced i) (input : FocusInput) : ((locate posix i).next c input).state.Traced i := by
  cases input with
  | frame sp line => exact traced_frame h sp line
  | event input =>
      cases hev : input.ev.isReport with
      | true =>
          have hnext : ((locate posix i).next c (.event input)).state = c.state := by
            show (if input.ev.isReport = true then _ else _ : Located × List Act).1 = _
            rw [if_pos hev]
          rwa [hnext]
      | false =>
          have hnext : ((locate posix i).next c (.event input)).state =
              { c.state with system := ((solo posix).step c.state.system input).1 } := by
            show (if input.ev.isReport = true then _ else _ : Located × List Act).1 = _
            rw [if_neg (by simp [hev])]
          rw [hnext]
          have hstep := Obss.posAt_step (c.state.system.ctx posix input) hev c.state.system.obss i
          obtain hsame | ⟨hnone, hnew⟩ := hstep
          · exact ⟨fun habsent => h.absent (hsame.symm.trans habsent),
              fun p hp => h.stored p (hsame.symm.trans hp), h.unseen, h.seen⟩
          · have hlatest := h.absent hnone
            refine ⟨fun _ => hlatest, fun p hp => ?_, h.unseen, h.seen⟩
            rw [← Option.some.inj (hnew.symm.trans hp), hlatest]
            rfl

/-- What is accepted is sound just where the latest frame has the label. -/
theorem Located.focusSound_iff {i : ℕ} {w : Located} (h : w.Traced i) (input : FocusInput) :
    FocusSound i w input ↔ NamedLast i w input := by
  refine forall₅_congr fun now unset proto _ htarget => ?_
  have hindex : w.system.obss.camIndex proto.cid = some i := by
    rw [Obss.focusTarget] at htarget
    split at htarget
    · exact htarget
    · cases htarget
  obtain ⟨it, hit⟩ := Obss.exists_posAt_of_camIndex hindex
  have hpos : w.system.obss.posAt i = some it.focPos := by
    rw [Obss.posAt, hit]
    rfl
  -- the camera of an accepted `Focus` has an entry, whose position is traced
  have hstored := h.stored _ hpos
  rw [hpos]
  simp only [Option.some.injEq, forall_eq']
  obtain hlatest | ⟨r, hlatest⟩ := Option.eq_none_or_eq_some w.latest
  · rw [hlatest, h.unseen hlatest]
    simp
  · rw [hlatest] at hstored ⊢
    have hvalue : it.focPos = r.getD intMax := hstored
    rw [hvalue]
    simp only [Option.some.injEq, exists_eq_left']
    refine and_congr_left fun _ => ?_
    cases r with
    | none => simp
    | some q => exact iff_of_true (h.seen q hlatest) (by simp)

/-- In a run every accepted `Focus` reckons with a reported position, and comes to an
`int`, if and only if each finds its camera's label in the latest frame, and does not
lead further from there than an `int` goes. -/
theorem focusSound_iff_namedLast (posix : PosixTime) (gid uid : Text) (type : ObssType)
    (now : Time) (i : ℕ) (is : List FocusInput) :
    (locate posix i).Each (fun c input => FocusSound i c.state input)
        (Located.start gid uid type now) is ↔
      (locate posix i).Each (fun c input => NamedLast i c.state input)
        (Located.start gid uid type now) is := by
  have hstart : (Located.start gid uid type now).state.Traced i :=
    { absent := fun _ => rfl
      stored := by
        intro p hp
        cases hp
      unseen := fun _ => rfl
      seen := by
        intro q hq
        cases hq }
  have htraced : (locate posix i).Each (fun c _ => c.state.Traced i)
      (Located.start gid uid type now) is :=
    Machine.each_of_invariant hstart fun c input h => Located.traced_next h input
  exact Machine.each_congr htraced fun c input h => Located.focusSound_iff h input

/-- Focuser and camera come, and no frame yet, when the camera is told to move. -/
def focusUnreported : List FocusInput :=
  [.coupleFocus 2, .coupleCamera 1 "061".toList,
    .focus { cid := "061".toList, opType := 1, relPos := 10 }].map fun ev =>
      .event (Event.plain ev)

/-- The move is reckoned from 999999. -/
theorem not_focusSound : ¬ ∀ (posix : PosixTime) (gid uid : Text) (type : ObssType) (now : Time)
    (i : ℕ) (is : List FocusInput),
    (locate posix i).Each (fun c input => FocusSound i c.state input)
      (Located.start gid uid type now) is := by
  intro h
  obtain ⟨-, -, hfocus, -⟩ := h .blank "002".toList "006".toList .gwac 0 0 focusUnreported
  obtain ⟨hseen, -⟩ := hfocus _ _ _ rfl rfl 999999 rfl
  exact List.not_mem_nil hseen

end Gtoaes
