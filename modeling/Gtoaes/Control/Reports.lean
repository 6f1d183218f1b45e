import Gtoaes.Control.Server
import Gtoaes.Lib.Fallible
import Gtoaes.Proto.NonKVArrays

/-!
Lines on the ports of the GWAC mounts and focusers, from the line itself on. An
exception that is thrown on the way is caught by nobody: it comes from an
acknowledgement too short for the ids that are read from it, or from a focus report
whose unit is no number.
-/

namespace Gtoaes

open Lib NonKVProtocol

/-- What a line may come to grief on. -/
inductive LineFault
  | resolve (e : NonKVFault)
  | server (e : ServerFault)
  deriving DecidableEq

/-- `on_tcp_receive`, for one line on a port of the frame protocol. -/
def Server.onFrameLine (m : Moment) (conn : Conn) (s : Text) (v : Server) :
    Except LineFault Server :=
  if v.peer conn = some .mountGWAC ∨ v.peer conn = some .focus then
    match NonKVProtocol.resolve s with
    | .error e => .error (.resolve e)
    | .ok none => .ok v
    | .ok (some proto) =>
        match v.onReport m conn proto with
        | .error e => .error (.server e)
        | .ok v => .ok v
  else .ok v

/-- What is thrown: by `string_ref::at`, or by `std::stoi` for a unit. -/
def LineFault.IsException (e : LineFault) : Prop :=
  e = .resolve .outOfRange ∨ e = .server .badUid

/-- The line is taken in without an exception. -/
def NoException : Except LineFault Server → Prop := Meets (fun _ => True) fun e => ¬ e.IsException

/-! ### Exceptions of `Resolve` -/

/-- An acknowledgement too short for its ids. -/
def ShortResponse (s : Text) : Prop :=
  s.length < 8 ∧ ∃ pos, keywordOf s = some (.response, pos)

/-- The group and the unit of a focus report. -/
def reportIds (s : Text) : Text × Text := idsBefore s 8

/-- A focus report that is read to its end: its labels are known and its fields fit. -/
def FocusReport (s : Text) : Prop :=
  keywordOf s = some (.focus, 8) ∧ 0 ≤ lastIndex (pairsClosed s 8) (-1) (pairsOf s 8) ∧
    ArraysFit s ∧ fieldAt (behind s 13) 3 ≠ []

theorem readFields_ne_outOfRange {gid uid t : Text} {kind : NonKVKind} :
    readFields gid uid t kind ≠ .error .outOfRange := by
  rw [readFields_eq]
  split_ifs <;> simp

theorem resolve_outOfRange_iff (s : Text) :
    NonKVProtocol.resolve s = .error .outOfRange ↔ ShortResponse s := by
  rw [ShortResponse]
  cases hkey : keywordOf s with
  | none =>
      rw [NonKVProtocol.resolve, resolveHead_eq, hkey]
      simp
  | some x =>
      obtain ⟨k, pos⟩ := x
      -- only an acknowledgement reads at fixed places
      cases k with
      | response =>
          rw [resolve_response hkey]
          by_cases hlen : 8 ≤ s.length
          · rw [if_pos hlen]
            exact iff_of_false readFields_ne_outOfRange fun h => by omega
          · rw [if_neg hlen]
            exact iff_of_true rfl ⟨by omega, pos, rfl⟩
      | finished =>
          rw [resolve_of_keywordOf hkey, branch]
          simp
      | status =>
          rw [resolve_status hkey]
          refine iff_of_false ?_ (by simp)
          split_ifs <;> first | exact readFields_ne_outOfRange | simp
      | currentpos =>
          rw [resolve_currentpos hkey]
          refine iff_of_false ?_ (by simp)
          split_ifs <;> first | exact readFields_ne_outOfRange | simp
      | focus =>
          obtain ⟨-, herr⟩ | ⟨-, positions, hok⟩ := resolve_focus_cases hkey
          · rw [herr]
            simp
          · rw [hok]
            refine iff_of_false ?_ (by simp)
            split_ifs <;> first | exact readFields_ne_outOfRange | simp

/-- Only a focus report gives a message of that kind, with its ids. -/
theorem focusReport_of_resolve {s : Text} {proto : NonKVMsg} {pos : List ℤ}
    (h : NonKVProtocol.resolve s = .ok (some proto)) (hkind : proto.kind = .focus pos) :
    FocusReport s ∧ (proto.gid, proto.uid) = reportIds s := by
  have hfits : ArraysFit s := (resolve_ne_overrun_iff s).mp (by rw [h]; simp)
  have hother : ∀ {gid uid t kind}, readFields gid uid t kind = .ok (some proto) →
      kind = .focus pos := by
    intro gid uid t kind hread
    obtain ⟨-, rfl⟩ := readFields_eq_some_iff.mp hread
    exact hkind
  cases hkey : keywordOf s with
  | none =>
      rw [NonKVProtocol.resolve, resolveHead_eq, hkey] at h
      cases h
  | some x =>
      obtain ⟨k, place⟩ := x
      cases k with
      | response =>
          rw [resolve_response hkey, array_eq_some_iff] at h
          cases hother h.2
      | finished =>
          rw [resolve_of_keywordOf hkey, branch] at h
          cases h
      | status =>
          rw [resolve_status hkey, array_eq_some_iff, guard_eq_some_iff] at h
          cases hother h.2.2
      | currentpos =>
          rw [resolve_currentpos hkey, array_eq_some_iff, guard_eq_some_iff] at h
          cases hother h.2.2
      | focus =>
          obtain ⟨-, herr⟩ | ⟨-, positions, hok⟩ := resolve_focus_cases hkey
          · rw [herr] at h
            cases h
          · rw [hok, guard_eq_some_iff] at h
            obtain ⟨⟨hindex, rfl⟩, hread⟩ := h
            obtain ⟨⟨-, hne⟩, rfl⟩ := readFields_eq_some_iff.mp hread
            exact ⟨⟨hkey, hindex, hfits, hne⟩, rfl⟩

theorem exists_of_focusReport {s : Text} (h : FocusReport s) :
    ∃ proto pos, NonKVProtocol.resolve s = .ok (some proto) ∧ proto.kind = .focus pos := by
  obtain ⟨hkey, hindex, hfits, hne⟩ := h
  have hsafe := (resolve_ne_overrun_iff s).mpr hfits
  obtain ⟨-, herr⟩ | ⟨-, positions, hok⟩ := resolve_focus_cases hkey
  · exact absurd herr hsafe
  · rw [if_pos ⟨hindex, rfl⟩] at hok
    have hlen : (fieldAt (afterField (behind s (8 + 5))) 2).length < 20 := by
      rw [ArraysFit, hkey] at hfits
      exact hfits.2 ⟨hindex, rfl⟩
    exact ⟨_, positions, hok.trans (readFields_eq_some_iff.mpr ⟨⟨hlen, hne⟩, rfl⟩), rfl⟩

/-! ### Exceptions of the handlers -/

namespace Server

variable {m : Moment} {conn : Conn} {proto : NonKVMsg} {v : Server}

theorem withObss_meets {gid uid : Text} {type : ObssType}
    {k : ℕ → Server → Except ServerFault Server} {E : ServerFault → Prop}
    (hk : ∀ id v, Meets (fun _ => True) E (k id v)) :
    Meets (fun _ => True) E (v.withObss m gid uid type k) := by
  rw [withObss]
  split
  · trivial
  · exact hk _ _

theorem coupleMount_meets {id : ℕ} {ptr : Option Conn} :
    Meets (fun _ => True) (· ≠ .badUid) (v.coupleMount m id ptr) := by
  rw [coupleMount]
  split
  · trivial
  · split
    · split <;> first | trivial | exact ServerFault.noConfusion
    · trivial

/-- Nothing is thrown for a line of a mount. -/
theorem processProtocolMountGwac_meets :
    Meets (fun _ => True) (· ≠ .badUid) (v.processProtocolMountGwac m conn proto) := by
  rw [processProtocolMountGwac]
  split
  · refine Meets.foldlM (fun v i _ => withObss_meets fun id v => ?_) _ trivial
    exact coupleMount_meets.bind fun _ _ => trivial
  · exact withObss_meets fun _ _ => trivial
  · exact withObss_meets fun _ _ => trivial
  · trivial

/-- The system of a report is there, or it can be created. -/
def Finds (v : Server) (m : Moment) (gid uid : Text) : Prop :=
  (v.control.findObssPtr gid uid .gwac (m.starts gid uid) m.now).1.isSome = true

theorem processProtocolFocus_badUid_iff :
    v.processProtocolFocus m conn proto = .error .badUid ↔
      (∃ pos, proto.kind = .focus pos) ∧ v.Finds m proto.gid proto.uid ∧
        ∃ e, stoi proto.uid = .error e := by
  rw [processProtocolFocus, Finds]
  simp only [withObss]
  cases hfind : (v.control.findObssPtr proto.gid proto.uid .gwac (m.starts proto.gid proto.uid)
      m.now).1 with
  | none => simp
  | some id =>
      cases hkind : proto.kind with
      | focus pos =>
          cases hstoi : stoi proto.uid with
          | error e => simp
          | ok unit => simp
      | response =>
          dsimp only
          split <;> simp
      | status state => simp
      | position body => simp

end Server

/-- Behind `Resolve` only a unit that is no number throws. -/
theorem noException_server_iff {r : Except ServerFault Server} :
    NoException (match r with
      | .error e => .error (.server e)
      | .ok v => .ok v) ↔ r ≠ .error .badUid := by
  cases r with
  | error e =>
      show ¬ (_ ∨ _) ↔ _
      simp
  | ok v => exact iff_of_true trivial (by simp)

/-- No exception is thrown: exactly if the line is no acknowledgement that is too short
for its ids, and in a focus report, where its system is found, the unit is a number. -/
theorem noException_iff (m : Moment) (conn : Conn) (s : Text) (v : Server) :
    NoException (v.onFrameLine m conn s) ↔
      (v.peer conn = some .mountGWAC ∨ v.peer conn = some .focus → ¬ ShortResponse s) ∧
      (v.peer conn = some .focus → FocusReport s →
        v.Finds m (reportIds s).1 (reportIds s).2 → ∃ n, stoi (reportIds s).2 = .ok n) := by
  rw [Server.onFrameLine]
  by_cases hport : v.peer conn = some .mountGWAC ∨ v.peer conn = some .focus
  · rw [if_pos hport, imp_iff_right hport, ← resolve_outOfRange_iff]
    cases hres : NonKVProtocol.resolve s with
    | error e =>
        have hnone : ¬ FocusReport s := fun h => by
          obtain ⟨proto, pos, hok, -⟩ := exists_of_focusReport h
          rw [hres] at hok
          cases hok
        rw [and_iff_left fun _ h => absurd h hnone]
        show ¬ (_ ∨ _) ↔ _
        simp
    | ok message =>
        rw [and_iff_right (by simp)]
        cases message with
        | none =>
            refine iff_of_true trivial fun _ h => ?_
            obtain ⟨proto, pos, hok, -⟩ := exists_of_focusReport h
            rw [hres] at hok
            cases hok
        | some proto =>
            refine noException_server_iff.trans ?_
            rw [Server.onReport]
            -- the mount port never looks at a unit as a number
            obtain hpeer | hpeer := hport
            · simp only [hpeer, Option.some.injEq, reduceCtorEq, false_imp_iff, iff_true]
              intro hbad
              have hmeets : Meets (fun _ => True) (· ≠ ServerFault.badUid)
                  (v.processProtocolMountGwac m conn proto) :=
                Server.processProtocolMountGwac_meets
              rw [hbad] at hmeets
              exact hmeets rfl
            · simp only [hpeer, true_imp_iff, ne_eq, Server.processProtocolFocus_badUid_iff]
              constructor
              · intro hgood hreport hfinds
                obtain ⟨proto', pos, hok, hkind⟩ := exists_of_focusReport hreport
                obtain rfl := Option.some.inj (Except.ok.inj (hres.symm.trans hok))
                obtain ⟨-, hids⟩ := focusReport_of_resolve hres hkind
                rw [← hids] at hfinds ⊢
                cases hstoi : stoi proto.uid with
                | ok n => exact ⟨n, rfl⟩
                | error e => exact absurd ⟨⟨pos, hkind⟩, hfinds, e, hstoi⟩ hgood
              · rintro hgood ⟨⟨pos, hkind⟩, hfinds, e, herr⟩
                obtain ⟨hreport, hids⟩ := focusReport_of_resolve hres hkind
                rw [← hids] at hgood
                obtain ⟨n, hn⟩ := hgood hreport hfinds
                rw [hn] at herr
                cases herr
  · rw [if_neg hport]
    exact iff_of_true trivial ⟨fun h => absurd h hport, fun h => absurd (.inr h) hport⟩

/-- Six characters that pass for an acknowledgement. -/
def bareRec : Text := "g#Rec%".toList

/-- A server with a mount connected. -/
def mountPort : Server := { peer := fun _ => some .mountGWAC }

/-- The unit is read from behind the end of the line. -/
theorem onFrameLine_bareRec :
    ¬ NoException (mountPort.onFrameLine .blank 0 bareRec) := by
  have hthrow : mountPort.onFrameLine .blank 0 bareRec = .error (.resolve .outOfRange) := rfl
  rw [hthrow]
  exact fun h => h (.inl rfl)

end Gtoaes
