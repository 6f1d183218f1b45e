import Gtoaes.Control.Registration

/-!
The status frames of the mounts. A frame has a digit for each unit of its group, the
first one for unit 1. The loop over the units counts from where the group begins and
takes the digit whose place has the number of the unit, which is the digit of the next
one, if there is a next one.
-/

namespace Gtoaes

open Lib

/-- A round of the loop: the unit, the connection that it is coupled with, and the state
that it is notified of. -/
structure StatusCall where
  unit : ℕ
  ptr : Option Conn
  state : ℤ

namespace Server

/-- The rounds for a status frame. -/
def statusCalls (ptr : Option Conn) (gid : Text) (state : List ℤ) : List StatusCall :=
  (unitsOf gid state.length).map fun i => { unit := i, ptr := ptr, state := state.getD i 0 }

def runStatus (m : Moment) (gid : Text) (v : Server) (call : StatusCall) :
    Except ServerFault Server :=
  v.withObss m gid (zeroPad 3 call.unit) .gwac fun id v => do
    let v ← v.coupleMount m id call.ptr
    return v.tell m id (.notifyMountState call.state)

/-- The first and the last unit of a group. -/
def unitsIn (gid : Text) : ℕ × ℕ := if iequals gid "001".toList then (1, 4) else (5, 10)

/-- A unit of the group that the frame has a digit for. -/
def Reported (gid : Text) (state : List ℤ) (k : ℕ) : Prop :=
  (unitsIn gid).1 ≤ k ∧ k ≤ (unitsIn gid).2 ∧ k ≤ state.length

instance (gid : Text) (state : List ℤ) (k : ℕ) : Decidable (Reported gid state k) :=
  inferInstanceAs (Decidable (_ ∧ _))

/-- Every system is as it was before, or is that of some unit. -/
def TouchesOnly (gid : Text) (units : ℕ → Prop) (v w : Server) : Prop :=
  ∀ id, w.control.obssVec id = v.control.obssVec id ∨
    ∃ s k, w.control.obssVec id = some s ∧ units k ∧ s.isMatched gid (zeroPad 3 k) = true

/-- A status frame is dealt with unit by unit: each one that is reported is notified of
its digit and coupled with the connection, and nothing happens to other systems. -/
structure StatusDealt (m : Moment) (conn : Conn) (proto : NonKVMsg) (state : List ℤ) (v : Server) :
    Prop where
  notified : ∀ k d, (∃ call ∈ statusCalls (find v.tcpCliDevice conn) proto.gid state,
      call.unit = k ∧ call.state = d) ↔ Reported proto.gid state k ∧ state[k - 1]? = some d
  coupled : ∀ k ptr, (∃ call ∈ statusCalls (find v.tcpCliDevice conn) proto.gid state,
      call.unit = k ∧ call.ptr = ptr) ↔
    Reported proto.gid state k ∧ ptr = find v.tcpCliDevice conn
  others : Meets (TouchesOnly proto.gid (Reported proto.gid state) v) (fun _ => True)
    (v.processProtocolMountGwac m conn proto)

/-- The digits leave no difference between a unit and the next one, and end where the
loop does; or they end before the group begins. -/
def Shifts (lo hi : ℕ) (state : List ℤ) : Prop :=
  state.length < lo ∨ hi < state.length ∧ (hi < 10 → state.length = hi + 1) ∧
    ∀ k, lo ≤ k → k ≤ hi → state[k]? = state[k - 1]?

variable {m : Moment} {v w : Server} {gid : Text} {state : List ℤ} {units : ℕ → Prop}

theorem processProtocolMountGwac_status (m : Moment) (conn : Conn) {proto : NonKVMsg}
    (h : proto.kind = .status state) (v : Server) :
    v.processProtocolMountGwac m conn proto =
      (statusCalls (find v.tcpCliDevice conn) proto.gid state).foldlM
        (runStatus m proto.gid) v := by
  rw [processProtocolMountGwac, h, statusCalls, List.foldlM_map]
  rfl

/-! ### The rounds -/

theorem mem_unitsOf {n k : ℕ} : k ∈ unitsOf gid n ↔ (unitsIn gid).1 ≤ k ∧ k ≤ 10 ∧ k < n := by
  rw [unitsOf, unitsIn, List.mem_filter, List.mem_range, Bool.and_eq_true, decide_eq_true_iff,
    decide_eq_true_iff]
  split
  · rw [if_neg (by omega)]
    omega
  · rw [if_neg (by omega)]
    omega

theorem notified_iff (ptr : Option Conn) (k : ℕ) (d : ℤ) :
    (∃ call ∈ statusCalls ptr gid state, call.unit = k ∧ call.state = d) ↔
      (unitsIn gid).1 ≤ k ∧ k ≤ 10 ∧ state[k]? = some d := by
  constructor
  · rintro ⟨call, hcall, rfl, rfl⟩
    obtain ⟨i, hi, rfl⟩ := List.mem_map.mp hcall
    obtain ⟨hlo, hhi, hlt⟩ := mem_unitsOf.mp hi
    refine ⟨hlo, hhi, ?_⟩
    show state[i]? = some (state.getD i 0)
    rw [List.getD_eq_getElem?_getD, List.getElem?_eq_getElem hlt]
    rfl
  · rintro ⟨hlo, hhi, hd⟩
    obtain ⟨hlt, -⟩ := List.getElem?_eq_some_iff.mp hd
    refine ⟨_, List.mem_map_of_mem (mem_unitsOf.mpr ⟨hlo, hhi, hlt⟩), rfl, ?_⟩
    show state.getD k 0 = d
    rw [List.getD_eq_getElem?_getD, hd]
    rfl

theorem coupled_iff (ptr : Option Conn) (k : ℕ) (ptr' : Option Conn) :
    (∃ call ∈ statusCalls ptr gid state, call.unit = k ∧ call.ptr = ptr') ↔
      ((unitsIn gid).1 ≤ k ∧ k ≤ 10 ∧ k < state.length) ∧ ptr' = ptr := by
  constructor
  · rintro ⟨call, hcall, rfl, rfl⟩
    obtain ⟨i, hi, rfl⟩ := List.mem_map.mp hcall
    exact ⟨mem_unitsOf.mp hi, rfl⟩
  · rintro ⟨hk, rfl⟩
    exact ⟨_, List.mem_map_of_mem (mem_unitsOf.mpr hk), rfl, rfl⟩

/-- Digits taken one place further on are the right ones just where nothing comes of
it. -/
theorem shifts_iff {lo hi : ℕ} (hlo : 1 ≤ lo) (hle : lo ≤ hi) (hhi : hi ≤ 10) (state : List ℤ) :
    (∀ k d, lo ≤ k ∧ k ≤ 10 ∧ state[k]? = some d ↔
      (lo ≤ k ∧ k ≤ hi ∧ k ≤ state.length) ∧ state[k - 1]? = some d) ↔ Shifts lo hi state := by
  constructor
  · intro h
    by_cases hshort : state.length < lo
    · exact .inl hshort
    -- what has a digit of its own has one further on
    have hnext : ∀ k, lo ≤ k → k ≤ hi → k ≤ state.length → state[k]? = state[k - 1]? := by
      intro k hk hk' hlen
      have hlt : k - 1 < state.length := by omega
      have hown := List.getElem?_eq_getElem hlt
      obtain ⟨-, -, hd⟩ := (h k _).mpr ⟨⟨hk, hk', hlen⟩, hown⟩
      rw [hd, hown]
    -- from the first unit on, each digit has another one behind it
    have hlong : ∀ j, lo + j ≤ hi → lo + j < state.length := by
      intro j
      induction j with
      | zero =>
          intro hj
          have hlt : lo - 1 < state.length := by omega
          have hd := hnext lo le_rfl hj (by omega)
          rw [List.getElem?_eq_getElem hlt] at hd
          obtain ⟨hlen, -⟩ := List.getElem?_eq_some_iff.mp hd
          exact hlen
      | succ j ih =>
          intro hj
          have hlt := ih (by omega)
          have hd := hnext (lo + (j + 1)) (by omega) hj (by omega)
          rw [show lo + (j + 1) - 1 = lo + j by omega, List.getElem?_eq_getElem hlt] at hd
          obtain ⟨hlen, -⟩ := List.getElem?_eq_some_iff.mp hd
          exact hlen
    have hend : hi < state.length := by
      have hlast := hlong (hi - lo) (by omega)
      omega
    refine .inr ⟨hend, fun hten => ?_, fun k hk hk' => hnext k hk hk' (by omega)⟩
    by_contra hne
    -- the digit behind the one that the last unit is given goes to another group
    have hlt : hi + 1 < state.length := by omega
    obtain ⟨⟨-, hbad, -⟩, -⟩ :=
      (h (hi + 1) _).mp ⟨by omega, by omega, List.getElem?_eq_getElem hlt⟩
    omega
  · rintro (hshort | ⟨hlong, hend, hsame⟩) k d
    · constructor
      · rintro ⟨hk, -, hd⟩
        obtain ⟨hlt, -⟩ := List.getElem?_eq_some_iff.mp hd
        omega
      · rintro ⟨⟨hk, -, hlen⟩, -⟩
        omega
    · constructor
      · rintro ⟨hk, hten, hd⟩
        obtain ⟨hlt, -⟩ := List.getElem?_eq_some_iff.mp hd
        have hk' : k ≤ hi := by
          by_cases hlast : hi < 10
          · have hlen := hend hlast
            omega
          · omega
        exact ⟨⟨hk, hk', hlt.le⟩, (hsame k hk hk').symm.trans hd⟩
      · rintro ⟨⟨hk, hk', -⟩, hd⟩
        exact ⟨hk, hk'.trans hhi, (hsame k hk hk').trans hd⟩

/-! ### The systems -/

theorem TouchesOnly.refl (v : Server) : TouchesOnly gid units v v := fun _ => .inl rfl

/-- A change of the system of a unit. -/
theorem TouchesOnly.change {u : Server} (h : TouchesOnly gid units u v) {id k : ℕ} {s : Obss}
    (hk : units k) (hs : s.isMatched gid (zeroPad 3 k) = true) (hat : w.control.obssVec id = some s)
    (hrest : ∀ j ≠ id, w.control.obssVec j = v.control.obssVec j) : TouchesOnly gid units u w := by
  intro j
  by_cases hj : j = id
  · exact .inr ⟨s, k, hj ▸ hat, hk, hs⟩
  · rw [hrest j hj]
    exact h j

theorem isMatched_congr {s s' : Obss} (h : s'.ident = s.ident) (gid uid : Text) :
    s'.isMatched gid uid = s.isMatched gid uid := by
  have hgid : s'.gid = s.gid := congrArg Prod.fst h
  have huid : s'.uid = s.uid := congrArg (fun i => i.2.1) h
  rw [Obss.isMatched, Obss.isMatched, hgid, huid]

/-- Coupling changes the system at most. -/
theorem coupleMount_at (m : Moment) {id : ℕ} (ptr : Option Conn) {s : Obss}
    (hs : v.control.obssVec id = some s) :
    Meets (fun w => (∃ s', w.control.obssVec id = some s' ∧ s'.ident = s.ident) ∧
      ∀ j ≠ id, w.control.obssVec j = v.control.obssVec j) (fun _ => True)
      (v.coupleMount m id ptr) := by
  have htell : ∀ conn (u : Server), u.control.obssVec = v.control.obssVec →
      (∃ s', (u.tell m id (.coupleMount conn)).control.obssVec id = some s' ∧
        s'.ident = s.ident) ∧
      ∀ j ≠ id, (u.tell m id (.coupleMount conn)).control.obssVec j = v.control.obssVec j := by
    intro conn u hu
    obtain ⟨s', hident, -, hvec⟩ := obssVec_tell m (.coupleMount conn) ((congrFun hu id).trans hs)
    refine ⟨⟨s', (hvec id).trans (if_pos rfl), hident⟩, fun j hj => ?_⟩
    rw [hvec, if_neg hj, hu]
  rw [coupleMount, hs]
  dsimp only
  split
  · split
    · exact htell _ v rfl
    · exact ⟨⟨_, GeneralControl.put_self .., rfl⟩, fun j hj => GeneralControl.put_other hj ..⟩
    · exact htell _ (v.registerRead _ id .mountGFT) rfl
    · trivial
  · exact ⟨⟨s, hs, rfl⟩, fun _ _ => rfl⟩

/-- A round has to do with the system of its unit only. -/
theorem TouchesOnly.runStatus {u : Server} (h : TouchesOnly gid units u v) (m : Moment)
    {call : StatusCall} (hunit : units call.unit) :
    Meets (TouchesOnly gid units u) (fun _ => True) (runStatus m gid v call) := by
  have hround : ∀ (w : Server) id s, TouchesOnly gid units u w → w.control.obssVec id = some s →
      s.isMatched gid (zeroPad 3 call.unit) = true →
      Meets (TouchesOnly gid units u) (fun _ => True) (do
        let w ← w.coupleMount m id call.ptr
        return w.tell m id (.notifyMountState call.state)) := by
    intro w id s hw hs hmatched
    refine (coupleMount_at m call.ptr hs).bind fun w' ⟨⟨s', hs', hident⟩, hrest⟩ => ?_
    obtain ⟨s'', hident', -, hvec⟩ := obssVec_tell m (.notifyMountState call.state) hs'
    refine hw.change hunit ?_ ((hvec id).trans (if_pos rfl)) fun j hj => ?_
    · rw [isMatched_congr (hident'.trans hident)]
      exact hmatched
    · rw [hvec, if_neg hj, hrest j hj]
  rw [Server.runStatus]
  obtain ⟨id, s, -, hs, hmatched, heq⟩ | ⟨-, heq | ⟨hgid, huid, heq⟩⟩ :=
    withObss_cases m gid (zeroPad 3 call.unit) .gwac (v := v) fun id v => do
      let v ← v.coupleMount m id call.ptr
      return v.tell m id (.notifyMountState call.state)
  · rw [heq]
    exact hround v id s h hs hmatched
  · rw [heq]
    exact h
  · -- the unit has no system yet
    rw [heq]
    have hmatched : (Obss.create gid (zeroPad 3 call.unit) .gwac m.now).isMatched gid
        (zeroPad 3 call.unit) = true :=
      (GeneralControl.isMatched_iff hgid huid).mpr ⟨iequals_refl gid, iequals_refl _⟩
    have hnew := GeneralControl.put_self v.control.created
      (some (Obss.create gid (zeroPad 3 call.unit) .gwac m.now)) v.control
    refine hround _ _ _ (h.change hunit hmatched hnew fun j hj => ?_) hnew hmatched
    exact GeneralControl.put_other hj ..

/-- The rounds have to do with the systems of their units. -/
theorem touchesOnly_runStatus (m : Moment) {calls : List StatusCall}
    (hcalls : ∀ call ∈ calls, units call.unit) (v : Server) :
    Meets (TouchesOnly gid units v) (fun _ => True) (calls.foldlM (runStatus m gid) v) := by
  refine Meets.foldlM_mem calls (fun call hcall w hw => ?_) (.refl v)
  exact hw.runStatus m (hcalls call hcall)

/-- A status frame is dealt with as it should be if and only if its digits make no
difference between a unit and the next. -/
theorem statusDealt_iff_shifts (m : Moment) (conn : Conn) {proto : NonKVMsg} {state : List ℤ}
    (h : proto.kind = .status state) (v : Server) :
    StatusDealt m conn proto state v ↔
      Shifts (unitsIn proto.gid).1 (unitsIn proto.gid).2 state := by
  obtain ⟨hlo, hle, hhi⟩ : 1 ≤ (unitsIn proto.gid).1 ∧
      (unitsIn proto.gid).1 ≤ (unitsIn proto.gid).2 ∧ (unitsIn proto.gid).2 ≤ 10 := by
    rw [unitsIn]
    split <;> decide
  constructor
  · intro hdealt
    refine (shifts_iff hlo hle hhi state).mp fun k d => ?_
    exact (notified_iff _ k d).symm.trans (hdealt.notified k d)
  · intro hshifts
    have hiff := (shifts_iff hlo hle hhi state).mpr hshifts
    -- the rounds are those of the reported units
    have hunits : ∀ k, (unitsIn proto.gid).1 ≤ k ∧ k ≤ 10 ∧ k < state.length ↔
        Reported proto.gid state k := by
      intro k
      constructor
      · rintro ⟨hk, hten, hlt⟩
        exact ((hiff k _).mp ⟨hk, hten, List.getElem?_eq_getElem hlt⟩).1
      · rintro ⟨hk, hlast, hlen⟩
        have hlt : k - 1 < state.length := by omega
        obtain ⟨-, hten, hd⟩ :=
          (hiff k _).mpr ⟨⟨hk, hlast, hlen⟩, List.getElem?_eq_getElem hlt⟩
        exact ⟨hk, hten, (List.getElem?_eq_some_iff.mp hd).1⟩
    refine ⟨fun k d => (notified_iff _ k d).trans (hiff k d),
      fun k ptr => (coupled_iff _ k ptr).trans (and_congr_left' (hunits k)), ?_⟩
    rw [processProtocolMountGwac_status m conn h]
    refine touchesOnly_runStatus m (fun call hcall => ?_) v
    obtain ⟨i, hi, rfl⟩ := List.mem_map.mp hcall
    exact (hunits i).mp (mem_unitsOf.mp hi)

/-- The mounts have connected. -/
def mountsOnline : Server := ({} : Server).tcpAccept 0 .mountGWAC

/-- Four mounts of group 001 that all track, and a fifth digit. -/
def allTracking : NonKVMsg where
  gid := "001".toList
  uid := []
  utc := "2024-03-29T13:07:26".toList
  sn := 1
  kind := .status (List.replicate 5 7)

theorem statusDealt_allTracking :
    StatusDealt .blank 0 allTracking (List.replicate 5 7) mountsOnline := by
  refine (statusDealt_iff_shifts .blank 0 rfl mountsOnline).mpr
    (.inr ⟨by decide, fun _ => rfl, fun k _ hk => ?_⟩)
  have hk : k ≤ 4 := hk
  rw [List.getElem?_replicate_of_lt (by omega), List.getElem?_replicate_of_lt (by omega)]

/-- The ten mounts of group 002, with the digits `0000555755`. -/
def tenMounts : NonKVMsg where
  gid := "002".toList
  uid := []
  utc := "2024-03-29T13:07:26".toList
  sn := 32846
  kind := .status [0, 0, 0, 0, 5, 5, 5, 7, 5, 5]

/-- Unit 10 is not notified. -/
theorem not_statusDealt : ¬ ∀ (m : Moment) (conn : Conn) (proto : NonKVMsg) (state : List ℤ)
    (v : Server), proto.kind = .status state → StatusDealt m conn proto state v := by
  intro h
  have hdealt := h .blank 0 tenMounts _ mountsOnline rfl
  obtain ⟨call, hcall, hunit, -⟩ := (hdealt.notified 10 5).mpr ⟨by decide, rfl⟩
  obtain ⟨i, hi, rfl⟩ := List.mem_map.mp hcall
  obtain rfl : i = 10 := hunit
  exact absurd hi (by decide)

end Server

end Gtoaes
