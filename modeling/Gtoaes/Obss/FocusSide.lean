import Gtoaes.Obss.Apart

/-!
What is kept of the focuser of a camera, entry by entry, and the five events that
touch it: a report of its position, the three commands about it, and the coupling of a
camera that has no entry yet.
-/

namespace Gtoaes

open Lib Lib.Handler

/-- The part of a camera entry that is about its focuser. -/
structure Focuser where
  focState : ℤ := -1
  focPos : ℤ := 999999
  focTar : ℤ := 999999
  rep : ℤ := 0
  deriving DecidableEq

/-- What `FocusSync` and `FWHM` do to it. -/
def Focuser.reset (f : Focuser) : Focuser := { f with focState := -1 }

def CameraInfo.focuser (it : CameraInfo) : Focuser where
  focState := it.focState
  focPos := it.focPos
  focTar := it.focTar
  rep := it.rep

/-- The word to a camera that its focuser has settled, and who it goes to. -/
def Act.settled : Act → Option (Conn × KVFocus)
  | .camera conn (.focus m) => some (conn, m)
  | _ => none

/-- Whether an event is about a focuser, or may bring one. -/
def Event.focusing : Event → Bool
  | .focus _ | .focusSync _ | .notifyFWHM _ | .coupleCamera _ _ | .notifyFocus _ _ => true
  | _ => false

namespace Obss

def foci (s : Obss) : List Focuser := s.camInfoVec.map CameraInfo.focuser

/-- The focuser of an entry, by its place. -/
def focuserAt (s : Obss) (i : ℕ) : Option Focuser := s.camInfoVec[i]?.map CameraInfo.focuser

theorem focuserAt_eq (s : Obss) (i : ℕ) : s.focuserAt i = s.foci[i]? :=
  (List.getElem?_map ..).symm

theorem focuserAt_congr {s s' : Obss} (h : s'.foci = s.foci) (i : ℕ) :
    s'.focuserAt i = s.focuserAt i := by
  rw [focuserAt_eq, focuserAt_eq, h]

/-- The place of the first entry of that name. -/
def camIndex (s : Obss) (cid : Text) : Option ℕ := s.camInfoVec.findIdx? (hasCid cid)

theorem find?_of_camIndex {s : Obss} {cid : Text} {i : ℕ} (h : s.camIndex cid = some i) :
    s.camInfoVec.find? (hasCid cid) = s.camInfoVec[i]? := find?_of_findIdx? h

theorem camIndex_eq_none {s : Obss} {cid : Text}
    (h : s.camInfoVec.find? (hasCid cid) = none) : s.camIndex cid = none :=
  List.findIdx?_eq_none_iff.mpr fun it hit => by simpa using List.find?_eq_none.mp h it hit

theorem camIndex_eq_some {s : Obss} {cid : Text} {it : CameraInfo}
    (h : s.camInfoVec.find? (hasCid cid) = some it) :
    ∃ i, s.camIndex cid = some i ∧ s.camInfoVec[i]? = some it := by
  cases hindex : s.camIndex cid with
  | none =>
      have hnone := List.findIdx?_eq_none_iff.mp hindex it (List.mem_of_find?_eq_some h)
      rw [show hasCid cid it = true from List.find?_some h] at hnone
      cases hnone
  | some i => exact ⟨i, rfl, (find?_of_camIndex hindex).symm.trans h⟩

/-! ### Events that are not about focusers -/

/-- Leaves the focusers alone, and says nothing about them. -/
abbrev FociInert (h : Handler Obss Act) : Prop := Inert foci Act.settled h

theorem apart_foci : Apart foci Act.settled where
  frames _ _ _ := rfl
  target _ _ _ := rfl
  counters _ _ := rfl
  plan _ _ _ := rfl
  numbers _ _ _ := rfl
  silent act h := by
    cases act with
    | camera conn proto => cases proto <;> first | rfl | cases h
    | _ => rfl

theorem fociInert_updateCamera (p : CameraInfo → Bool) (f : CameraInfo → CameraInfo)
    (hf : ∀ it, (f it).focuser = it.focuser) : FociInert (updateCamera p f) :=
  .update fun _ => map_updateFirst hf p _

theorem fociInert_onTcpClose (ctx : Ctx) (conn : Conn) (peer : PeerType) :
    FociInert (onTcpClose ctx conn peer) := by
  intro s
  have hclosed : FociInert (updateCamera (hasConn conn) closed) :=
    fociInert_updateCamera _ _ fun _ => rfl
  have htime : FociInert (update fun s => { s with lastClosed := ctx.now }) :=
    .update fun _ => rfl
  rw [onTcpClose]
  split
  · split
    · exact ⟨rfl, rfl⟩
    · exact Inert.cons (.when (apart_foci.setSysState _)) (.cons (apart_foci.setSysState _)
        (.cons hclosed (.cons htime .nil))) s
  · exact ⟨rfl, rfl⟩

theorem fociInert_processProtocolCamera (ctx : Ctx) (conn : Conn) (proto : KVMsg) :
    FociInert (processProtocolCamera ctx conn proto) := by
  intro s
  cases proto with
  | camera m =>
      have hstore : FociInert (storeReport conn (camReport ctx m)) :=
        fociInert_updateCamera _ _ fun _ => rfl
      exact Inert.cons hstore (.cons (apart_foci.checkCameraState ctx _ _) .nil) s
  | _ => exact ⟨rfl, rfl⟩

theorem fociInert_notifyMountState (ctx : Ctx) (state : ℤ) :
    FociInert (notifyMountState ctx state) := by
  intro s
  rw [notifyMountState]
  split
  · exact ⟨rfl, rfl⟩
  · split
    · exact Inert.cons (apart_foci.mountArrived state) (.cons (.update fun _ => rfl) .nil) s
    · exact ⟨rfl, rfl⟩

/-- The link of a mount is not news about a focuser. -/
theorem fociInert_coupleMount (conn : Conn) : FociInert (coupleMount conn) := by
  intro s
  unfold coupleMount
  dsimp only
  split
  all_goals
    split
    · exact ⟨rfl, rfl⟩
    · exact ⟨rfl, rfl⟩

theorem fociInert_decoupleMount (ctx : Ctx) (ptr : Option Conn) :
    FociInert (decoupleMount ctx ptr) := by
  intro s
  rw [decoupleMount]
  split
  · exact ⟨rfl, rfl⟩
  · exact ⟨rfl, rfl⟩

/-- The frame rule of the focusers. -/
theorem fociInert_step (ctx : Ctx) {ev : Event} (h : ev.focusing = false) :
    FociInert (step ctx ev) := by
  cases hdistant : ev.distant with
  | true => exact apart_foci.step_distant ctx hdistant
  | false =>
      cases ev with
      | coupleMount conn => exact fociInert_coupleMount conn
      | decoupleMount ptr => exact fociInert_decoupleMount ctx ptr
      | coupleFocus conn => exact .update fun _ => rfl
      | decoupleFocus ptr =>
          refine .update fun s => ?_
          split <;> rfl
      | notifyMountState state => exact fociInert_notifyMountState ctx state
      | notifyMountPosition pos => exact .update fun _ => rfl
      | onTcpClose conn peer => exact fociInert_onTcpClose ctx conn peer
      | deviceLine conn proto => exact fociInert_processProtocolCamera ctx conn proto
      | obsplanTick => exact apart_foci.threadObsplan (fun _ _ => rfl) ctx
      | focus | focusSync | notifyFWHM | coupleCamera | notifyFocus => cases h
      | _ => cases hdistant

/-! ### The events that are -/

/-- A camera that couples finds its focuser as it was, or brings a new one. -/
theorem coupleCamera_foci (ctx : Ctx) (conn : Conn) (cid : Text) (s : Obss) :
    (step ctx (.coupleCamera conn cid) s).1.foci = s.foci ∨
      (step ctx (.coupleCamera conn cid) s).1.foci = s.foci ++ [({} : Focuser)] := by
  rw [step, coupleCamera]
  split
  · split
    · exact .inl rfl
    · rename_i it _ _
      have hrecouple : FociInert (updateCamera (hasCid cid) (recoupled conn)) :=
        fociInert_updateCamera _ _ fun _ => rfl
      have hresume := (apart_foci.resumePlan ctx conn cid).fixes
      have hrest : Fixes foci (all
          [updateCamera (hasCid cid) (recoupled conn),
           emit fun s => if it.focState = 0 then [.camera conn (focusNotice s cid it)] else [],
           setSysState (·.cameraOnline true), resumePlan ctx conn cid]) :=
        .cons hrecouple.fixes (.cons (fun _ => rfl)
          (.cons (apart_foci.setSysState _).fixes (.cons hresume .nil)))
      exact .inl (hrest s)
  · exact .inr (by
      simp only [all_cons, all_nil, skip_apply, update_apply, setSysState, foci, List.map_append]
      rfl)

/-- A report is about the first entry of its name. -/
theorem notifyFocus_getElem? (ctx : Ctx) (cid : Text) (pos : ℤ) (s : Obss) (i : ℕ) :
    (step ctx (.notifyFocus cid pos) s).1.camInfoVec[i]? =
      if s.camIndex cid = some i then s.camInfoVec[i]?.map fun it => (focusReport pos it).1
      else s.camInfoVec[i]? := by
  rw [step, notifyFocus]
  split
  · rename_i hnone
    rw [if_neg (by simp [camIndex_eq_none hnone])]
  · exact getElem?_updateFirst (hasCid cid) _ s.camInfoVec i

/-- The camera is told just what its entry says. -/
theorem notifyFocus_settled (ctx : Ctx) (cid : Text) (pos : ℤ) (s : Obss) :
    (step ctx (.notifyFocus cid pos) s).2.filterMap Act.settled =
      match s.camInfoVec.find? (hasCid cid) with
      | none => []
      | some it => if (focusReport pos it).2 then
            it.ptrTcp.toList.map fun conn => (conn,
              { gid := s.gid, uid := s.uid, cid := cid, pos := pos, posTar := it.focTar })
          else [] := by
  rw [step, notifyFocus]
  cases hfind : s.camInfoVec.find? (hasCid cid) with
  | none => rfl
  | some it =>
      simp only [all_cons, all_nil, skip_apply, emit_apply, updateCamera, update_apply,
        List.nil_append, List.append_nil]
      cases (focusReport pos it).2 with
      | false => rfl
      | true => cases it.ptrTcp <;> rfl

/-- The entry that a `Focus` is carried out for. -/
def focusTarget (s : Obss) (proto : KVFocus) : Option ℕ :=
  if s.tcpFocus.isSome = true ∧ proto.opType = 1 ∧ proto.relPos ≠ 0 then s.camIndex proto.cid
  else none

/-- The entry of a camera whose focuser is told to move. -/
def moved (proto : KVFocus) (it : CameraInfo) : CameraInfo :=
  { it with focUtc := proto.utc, focTar := it.focPos + proto.relPos, focState := 1, rep := 0 }

theorem focus_getElem? (ctx : Ctx) (proto : KVFocus) (s : Obss) (i : ℕ) :
    (step ctx (.focus proto) s).1.camInfoVec[i]? =
      if s.focusTarget proto = some i then s.camInfoVec[i]?.map (moved proto)
      else s.camInfoVec[i]? := by
  cases hfocus : s.tcpFocus with
  | none =>
      have hnone : s.focusTarget proto = none := if_neg (by simp [hfocus])
      rw [step, focus, hfocus, hnone, if_neg (by simp)]
  | some conn =>
      by_cases hop : proto.opType = 1 ∧ proto.relPos ≠ 0
      · have htarget : s.focusTarget proto = s.camIndex proto.cid :=
          if_pos ⟨by simp [hfocus], hop⟩
        rw [step, focus, hfocus, htarget]
        dsimp only
        cases hfind : s.camInfoVec.find? (hasCid proto.cid) with
        | none => simp [camIndex_eq_none hfind]
        | some it =>
            rw [if_pos ⟨hop.1, hop.2, rfl⟩]
            exact getElem?_updateFirst (hasCid proto.cid) (moved proto) s.camInfoVec i
      · have hnone : s.focusTarget proto = none := if_neg fun h => hop h.2
        rw [step, focus, hfocus, hnone, if_neg (by simp)]
        dsimp only
        rw [if_neg fun h => hop ⟨h.1, h.2.1⟩]

/-- Whether a `FocusSync` resets the focuser of an entry. -/
def syncsAt (s : Obss) (proto : KVFocusSync) (i : ℕ) : Bool :=
  s.tcpFocus.isSome && s.camInfoVec[i]?.any (syncs proto)

theorem syncLoop_camInfoVec (ctx : Ctx) (conn : Conn) (its : List CameraInfo) :
    Fixes Obss.camInfoVec (syncLoop ctx conn its) := by
  induction its with
  | nil => exact fun _ => rfl
  | cons it its ih => exact Fixes.andThen (fun _ => rfl) ih

theorem focusSync_getElem? (ctx : Ctx) (proto : KVFocusSync) (s : Obss) (i : ℕ) :
    (step ctx (.focusSync proto) s).1.camInfoVec[i]? =
      if s.syncsAt proto i then s.camInfoVec[i]?.map fun it => { it with focState := -1 }
      else s.camInfoVec[i]? := by
  rw [step, focusSync, syncsAt]
  cases hfocus : s.tcpFocus with
  | none => simp
  | some conn =>
      have hloop := syncLoop_camInfoVec ctx conn (s.camInfoVec.filter (syncs proto))
        { s with camInfoVec := s.camInfoVec.map (resetFocus proto) }
      simp only [all_cons, all_nil, skip_apply, update_apply, hloop, List.getElem?_map]
      cases s.camInfoVec[i]? with
      | none => simp
      | some it => cases hsync : syncs proto it <;> simp [resetFocus, hsync]

/-- The value that an `FWHM` brings. -/
def fwhmValue (ctx : Ctx) (proto : KVFWHM) : Double :=
  proto.value.getD (ctx.unset.dbl "value".toList)

/-- The entry whose focuser is told of an `FWHM`. -/
def fwhmTarget (ctx : Ctx) (s : Obss) (proto : KVFWHM) : Option ℕ :=
  if s.tcpFocus.isSome = true ∧ proto.cid ≠ [] ∧
      (ctx.posix.fromIsoExtendedString proto.tmimg).isSome = true ∧
      (s.camInfoVec.find? (hasCid proto.cid)).any (fun it => (fwhmValue ctx proto).neq it.fwhm)
  then s.camIndex proto.cid
  else none

theorem notifyFWHM_getElem? (ctx : Ctx) (proto : KVFWHM) (s : Obss) (i : ℕ) :
    (step ctx (.notifyFWHM proto) s).1.camInfoVec[i]? =
      if s.fwhmTarget ctx proto = some i then
        s.camInfoVec[i]?.map fun it => { it with fwhm := fwhmValue ctx proto, focState := -1 }
      else s.camInfoVec[i]? := by
  have hrefused : s.fwhmTarget ctx proto = none →
      (step ctx (.notifyFWHM proto) s).1.camInfoVec = s.camInfoVec →
      (step ctx (.notifyFWHM proto) s).1.camInfoVec[i]? =
        if s.fwhmTarget ctx proto = some i then
          s.camInfoVec[i]?.map fun it => { it with fwhm := fwhmValue ctx proto, focState := -1 }
        else s.camInfoVec[i]? := by
    intro htarget hsame
    rw [htarget, hsame, if_neg (by simp)]
  cases hfocus : s.tcpFocus with
  | none =>
      exact hrefused (if_neg (by simp [hfocus])) (by rw [step, notifyFWHM, hfocus])
  | some conn =>
      cases htime : ctx.posix.fromIsoExtendedString proto.tmimg with
      | none =>
          exact hrefused (if_neg (by simp [htime])) (by rw [step, notifyFWHM, hfocus, htime])
      | some utc =>
          cases hfind : s.camInfoVec.find? (hasCid proto.cid) with
          | none =>
              exact hrefused (if_neg (by simp [hfind]))
                (by rw [step, notifyFWHM, hfocus, htime, hfind])
          | some it =>
              have hstep : step ctx (.notifyFWHM proto) s =
                  if proto.cid ≠ [] ∧ (fwhmValue ctx proto).neq it.fwhm = true then
                    all
                      [updateCamera (hasCid proto.cid) fun it =>
                        { it with fwhm := fwhmValue ctx proto, focState := -1 },
                       focusCommand ctx conn (NonKVProtocol.fwhm proto.cid (tmobs utc)
                        (fwhmValue ctx proto))] s
                  else (s, []) := by
                rw [step, notifyFWHM, hfocus, htime, hfind]
                rfl
              by_cases hnew : proto.cid ≠ [] ∧ (fwhmValue ctx proto).neq it.fwhm = true
              · have htarget : s.fwhmTarget ctx proto = s.camIndex proto.cid :=
                  if_pos ⟨by simp [hfocus], hnew.1, by simp [htime], by simpa [hfind] using hnew.2⟩
                rw [hstep, if_pos hnew, htarget]
                exact getElem?_updateFirst (hasCid proto.cid) _ s.camInfoVec i
              · refine hrefused (if_neg fun h => hnew ⟨h.2.1, ?_⟩) (by rw [hstep, if_neg hnew])
                simpa [hfind] using h.2.2.2

/-- The position that an event reports for the focuser of an entry. -/
def reportAt (s : Obss) (i : ℕ) : Event → Option ℤ
  | .notifyFocus cid pos => if s.camIndex cid = some i then some pos else none
  | _ => none

/-- Whether an event is an accepted `FocusSync` or `FWHM` for the entry. -/
def resetsAt (ctx : Ctx) (s : Obss) (i : ℕ) : Event → Bool
  | .focusSync proto => s.syncsAt proto i
  | .notifyFWHM proto => s.fwhmTarget ctx proto == some i
  | _ => false

/-- Whether an event is an accepted command for the focuser of the entry. -/
def commandsAt (ctx : Ctx) (s : Obss) (i : ℕ) : Event → Bool
  | .focus proto => s.focusTarget proto == some i
  | ev => s.resetsAt ctx i ev

/-- Everything a step can do to the focuser of an entry: report its position, move it,
reset it, or leave it alone, unless it comes with a new entry. -/
theorem focuserAt_step (ctx : Ctx) (s : Obss) (i : ℕ) (ev : Event) :
    (∃ pos, s.reportAt i ev = some pos ∧ (step ctx ev s).1.focuserAt i =
      s.camInfoVec[i]?.map fun it => (focusReport pos it).1.focuser) ∨
    (∃ proto, ev = .focus proto ∧ s.focusTarget proto = some i ∧
      (step ctx ev s).1.focuserAt i = s.camInfoVec[i]?.map fun it => (moved proto it).focuser) ∨
    (s.resetsAt ctx i ev = true ∧
      (step ctx ev s).1.focuserAt i = (s.focuserAt i).map Focuser.reset) ∨
    (s.reportAt i ev = none ∧ s.commandsAt ctx i ev = false ∧
      ((step ctx ev s).1.focuserAt i = s.focuserAt i ∨
        (s.focuserAt i = none ∧ (step ctx ev s).1.focuserAt i = some {}))) := by
  have hmap : ∀ (b : Prop) [Decidable b] (f : CameraInfo → CameraInfo),
      (step ctx ev s).1.camInfoVec[i]? =
        (if b then s.camInfoVec[i]?.map f else s.camInfoVec[i]?) →
      (b ∧ (step ctx ev s).1.focuserAt i = s.camInfoVec[i]?.map fun it => (f it).focuser) ∨
        (¬ b ∧ (step ctx ev s).1.focuserAt i = s.focuserAt i) := by
    intro b _ f h
    rw [focuserAt, h]
    by_cases hb : b
    · rw [if_pos hb, Option.map_map]
      exact .inl ⟨hb, rfl⟩
    · rw [if_neg hb]
      exact .inr ⟨hb, rfl⟩
  have hreset : ∀ f : CameraInfo → CameraInfo, (∀ it, (f it).focuser = it.focuser.reset) →
      (s.camInfoVec[i]?.map fun it => (f it).focuser) = (s.focuserAt i).map Focuser.reset := by
    intro f hf
    rw [focuserAt, Option.map_map]
    exact Option.map_congr fun it _ => hf it
  cases hev : ev.focusing with
  | false =>
      refine .inr (.inr (.inr ⟨?_, ?_, .inl (focuserAt_congr (fociInert_step ctx hev s).1 i)⟩))
      · cases ev <;> first | rfl | cases hev
      · cases ev <;> first | rfl | cases hev
  | true =>
      cases ev with
      | notifyFocus cid pos =>
          obtain ⟨hi, hat⟩ | ⟨hi, hat⟩ := hmap _ _ (notifyFocus_getElem? ctx cid pos s i)
          · exact .inl ⟨pos, if_pos hi, hat⟩
          · exact .inr (.inr (.inr ⟨if_neg hi, rfl, .inl hat⟩))
      | focus proto =>
          obtain ⟨hi, hat⟩ | ⟨hi, hat⟩ := hmap _ _ (focus_getElem? ctx proto s i)
          · exact .inr (.inl ⟨proto, rfl, hi, hat⟩)
          · exact .inr (.inr (.inr ⟨rfl, by simpa [commandsAt] using hi, .inl hat⟩))
      | focusSync proto =>
          obtain ⟨hi, hat⟩ | ⟨hi, hat⟩ := hmap _ _ (focusSync_getElem? ctx proto s i)
          · exact .inr (.inr (.inl ⟨hi, hat.trans (hreset _ fun _ => rfl)⟩))
          · exact .inr (.inr (.inr ⟨rfl, by simpa [commandsAt, resetsAt] using hi, .inl hat⟩))
      | notifyFWHM proto =>
          obtain ⟨hi, hat⟩ | ⟨hi, hat⟩ := hmap _ _ (notifyFWHM_getElem? ctx proto s i)
          · exact .inr (.inr (.inl ⟨by simpa [resetsAt] using hi, hat.trans (hreset _ fun _ => rfl)⟩))
          · exact .inr (.inr (.inr ⟨rfl, by simpa [commandsAt, resetsAt] using hi, .inl hat⟩))
      | coupleCamera conn cid =>
          refine .inr (.inr (.inr ⟨rfl, rfl, ?_⟩))
          obtain hsame | hnew := coupleCamera_foci ctx conn cid s
          · exact .inl (focuserAt_congr hsame i)
          · rw [focuserAt_eq, focuserAt_eq, hnew]
            obtain hlt | rfl | hgt := Nat.lt_trichotomy i s.foci.length
            · exact .inl (List.getElem?_append_left hlt)
            · exact .inr ⟨List.getElem?_eq_none le_rfl, by simp⟩
            · have hbehind : (s.foci ++ [({} : Focuser)]).length ≤ i := by
                rw [List.length_append, List.length_singleton]
                omega
              rw [List.getElem?_eq_none hbehind, List.getElem?_eq_none hgt.le]
              exact .inl rfl
      | _ => cases hev

/-- No command tells a camera that its focuser has settled. -/
theorem settled_of_command (ctx : Ctx) {ev : Event} (s : Obss) (hev : ev.focusing = true)
    (hcouple : ∀ conn cid, ev ≠ .coupleCamera conn cid)
    (hreport : ∀ cid pos, ev ≠ .notifyFocus cid pos) :
    (step ctx ev s).2.filterMap Act.settled = [] := by
  -- each command stores something in the entries and then writes to the focuser
  have hcommand : ∀ (f : Obss → List CameraInfo) (h : Handler Obss Act),
      FociInert h → (all [update fun s => { s with camInfoVec := f s }, h] s).2.filterMap
        Act.settled = [] := by
    intro f h hinert
    rw [all_cons, update_apply, List.nil_append]
    exact (Inert.cons hinert .nil _).2
  cases ev with
  | focus proto =>
      rw [step, focus]
      split
      · rfl
      · split
        · exact hcommand _ _ (apart_foci.focusCommand _ _ _)
        · rfl
  | focusSync proto =>
      rw [step, focusSync]
      split
      · rfl
      · exact hcommand _ _ (apart_foci.syncLoop _ _ _)
  | notifyFWHM proto =>
      rw [step, notifyFWHM]
      split
      · dsimp only
        split
        · exact hcommand _ _ (apart_foci.focusCommand _ _ _)
        · rfl
      · rfl
  | coupleCamera conn cid => exact absurd rfl (hcouple conn cid)
  | notifyFocus cid pos => exact absurd rfl (hreport cid pos)
  | _ => cases hev

end Obss

end Gtoaes
