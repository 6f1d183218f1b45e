import Gtoaes.Control.WiredStep

/-!
Which system a device is coupled to when it registers. `find_obss` looks with the
matcher of client commands, for which an empty id stands for any, and the port of
the device counts only where a system has to be made.
-/

namespace Gtoaes

open Lib

/-- The line by which a camera or a GFT mount registers: its group and unit, and
the type its port stands for. -/
def ServerEvent.registration (v : Server) : ServerEvent → Option (Conn × Text × Text × ObssType)
  | .line conn (.mount mount) =>
      if v.peer conn = some .mountGFT then some (conn, mount.gid, mount.uid, .gft) else none
  | .line conn (.camera camera) =>
      match v.peer conn with
      | some .cameraGWAC => some (conn, camera.gid, camera.uid, .gwac)
      | some .cameraGFT => some (conn, camera.gid, camera.uid, .gft)
      | _ => none
  | _ => none

/-- The system `id` has been given a connection. -/
def Server.Couples (v w : Server) (conn : Conn) (id : ℕ) (s : Obss) : Prop :=
  w.control.obssVec id = some s ∧ s.holds conn = true ∧
    ∀ s₀, v.control.obssVec id = some s₀ → s₀.holds conn = false

/-- What registers, is coupled to the system of its ids and its port; if it does
not give both ids, to none. -/
structure Server.CoupledRightly (v w : Server) (conn : Conn) (gid uid : Text) (type : ObssType) :
    Prop where
  exactly : ∀ id s, v.Couples w conn id s →
    iequals gid s.gid = true ∧ iequals uid s.uid = true ∧ s.obssType = type
  needsIds : gid = [] ∨ uid = [] → ∀ id s, ¬ v.Couples w conn id s

/-- Whether the line's device is coupled by a system, if it is handed one. -/
def Obss.takes (s : Obss) (conn : Conn) : ServerEvent → Bool
  | .line _ (.camera camera) => s.takesCamera camera.cid
  | _ => s.takesMount (some conn)

/-- The first system that matches turns the device away or holds it already, or is
of the type of its port while the line gives both ids. -/
def ServerEvent.RegistersRightly (v : Server) (ev : ServerEvent) : Prop :=
  ∀ conn gid uid type, ev.registration v = some (conn, gid, uid, type) →
    conn ∈ v.tcpCliDevice → ∀ id s, (v.control.matched gid uid).head? = some id →
      v.control.obssVec id = some s →
      s.takes conn ev = false ∨ s.holds conn = true ∨ (s.obssType = type ∧ gid ≠ [] ∧ uid ≠ [])

namespace Server

variable {v w : Server} {conn : Conn} {ev : ServerEvent}

/-- What is done with the system that a registering device finds. -/
def hands (m : Moment) (conn : Conn) (ev : ServerEvent) (id : ℕ) (v : Server) :
    Except ServerFault Server :=
  match ev with
  | .line _ (.camera camera) =>
      (v.popDevice conn).2.coupleCamera m id (v.popDevice conn).1 camera.cid
  | _ => (v.popDevice conn).2.coupleMount m id (v.popDevice conn).1

/-- Registering is looking up a system and handing it the connection. -/
theorem handle_registration (m : Moment) {gid uid : Text} {type : ObssType}
    (h : ev.registration v = some (conn, gid, uid, type)) :
    v.handle m ev = v.withObss m gid uid type (hands m conn ev) := by
  cases ev with
  | line conn' proto =>
      cases proto with
      | mount mount =>
          rw [ServerEvent.registration] at h
          split at h
          · next hport =>
              cases h
              unfold Server.handle Server.onLine
              dsimp only
              rw [hport]
              rfl
          · cases h
      | camera camera =>
          rw [ServerEvent.registration] at h
          split at h
          all_goals cases h
          all_goals
            next hport =>
              unfold Server.handle Server.onLine
              dsimp only
              rw [hport]
              rfl
      | _ => cases h
  | _ => cases h

theorem holds_of_plugMount {s s' : Obss} (hlinks : s'.links = s.linksAfter (.coupleMount conn))
    (htakes : s.takesMount (some conn) = true) : s'.holds conn = true := by
  rw [Obss.linksAfter, if_pos htakes] at hlinks
  exact Obss.holds_iff.mpr (hlinks ▸ .inl rfl)

theorem holds_of_plugCamera {s s' : Obss} {cid : Text}
    (hlinks : s'.links = s.linksAfter (.coupleCamera conn cid))
    (htakes : s.takesCamera cid = true) : s'.holds conn = true := by
  rw [Obss.linksAfter, if_pos htakes] at hlinks
  refine Obss.holds_iff.mpr (.inr (.inr ?_))
  rw [hlinks]
  exact Multiset.mem_cons_self conn s.links.cams

theorem popDevice_mem (h : conn ∈ v.tcpCliDevice) : (v.popDevice conn).1 = some conn := if_pos h

theorem popDevice_notMem (h : conn ∉ v.tcpCliDevice) : (v.popDevice conn).1 = none := if_neg h

/-- A device that has been handed to a system and taken. -/
theorem hands_taken (m : Moment) {id : ℕ} {s : Obss} (hs : v.control.obssVec id = some s)
    (hpool : conn ∈ v.tcpCliDevice) (htakes : s.takes conn ev = true) :
    ∃ w s', hands m conn ev id v = .ok w ∧ s'.ident = s.ident ∧ s'.holds conn = true ∧
      ∀ j, w.control.obssVec j = if j = id then some s' else v.control.obssVec j := by
  -- popping the connection from the pool leaves the systems
  have hpopped : (v.popDevice conn).2.control.obssVec id = some s := hs
  have hmount : s.takesMount (some conn) = true →
      ∃ w s', (v.popDevice conn).2.coupleMount m id (v.popDevice conn).1 = .ok w ∧
        s'.ident = s.ident ∧ s'.holds conn = true ∧
        ∀ j, w.control.obssVec j = if j = id then some s' else v.control.obssVec j := by
    intro htakes
    rw [popDevice_mem hpool]
    unfold Server.coupleMount
    rw [hpopped]
    dsimp only
    rw [if_pos htakes]
    cases s.obssType with
    | gwac =>
        obtain ⟨s', hident, hlinks, hvec⟩ := obssVec_tell m (.coupleMount conn) hpopped
        exact ⟨_, s', rfl, hident, holds_of_plugMount hlinks htakes, hvec⟩
    | gft =>
        obtain ⟨s', hident, hlinks, hvec⟩ := obssVec_tell m (.coupleMount conn)
          (v := (v.popDevice conn).2.registerRead conn id .mountGFT) hpopped
        exact ⟨_, s', rfl, hident, holds_of_plugMount hlinks htakes, hvec⟩
  unfold hands
  split
  · next cam =>
      have htakes : s.takesCamera cam.cid = true := htakes
      rw [popDevice_mem hpool]
      unfold Server.coupleCamera
      rw [hpopped]
      dsimp only
      rw [if_pos htakes]
      obtain ⟨s', hident, hlinks, hvec⟩ := obssVec_tell m (.coupleCamera conn cam.cid)
        (v := (v.popDevice conn).2.registerRead conn id s.cameraPeer) hpopped
      exact ⟨_, s', rfl, hident, holds_of_plugCamera hlinks htakes, hvec⟩
  · next hnot =>
      refine hmount ?_
      unfold Obss.takes at htakes
      split at htakes
      · exact absurd rfl (hnot _ _)
      · exact htakes

/-- A device that has been handed to a system and turned away. -/
theorem hands_refused (m : Moment) {id : ℕ} {s : Obss} (hs : v.control.obssVec id = some s)
    (hpool : conn ∈ v.tcpCliDevice) (htakes : s.takes conn ev = false) :
    ∃ w, hands m conn ev id v = .ok w ∧ w.control = v.control := by
  have hpopped : (v.popDevice conn).2.control.obssVec id = some s := hs
  have hmount : s.takesMount (some conn) = false →
      ∃ w, (v.popDevice conn).2.coupleMount m id (v.popDevice conn).1 = .ok w ∧
        w.control = v.control := by
    intro htakes
    refine ⟨(v.popDevice conn).2, ?_, rfl⟩
    rw [popDevice_mem hpool]
    unfold Server.coupleMount
    rw [hpopped]
    dsimp only
    rw [htakes, if_neg Bool.false_ne_true]
  unfold hands
  split
  · next cam =>
      have htakes : s.takesCamera cam.cid = false := htakes
      refine ⟨(v.popDevice conn).2, ?_, rfl⟩
      rw [popDevice_mem hpool]
      unfold Server.coupleCamera
      rw [hpopped]
      dsimp only
      rw [htakes, if_neg Bool.false_ne_true]
  · next hnot =>
      refine hmount ?_
      unfold Obss.takes at htakes
      split at htakes
      · exact absurd rfl (hnot _ _)
      · exact htakes

/-- Where the connection has left the pool, nobody is given one. -/
theorem hands_null (m : Moment) {id : ℕ} (hpool : conn ∉ v.tcpCliDevice)
    (hw : hands m conn ev id v = .ok w) {j : ℕ} {t : Obss} (ht : w.control.obssVec j = some t)
    (hheld : t.holds conn = true) :
    ∃ t₀, v.control.obssVec j = some t₀ ∧ t₀.holds conn = true := by
  -- a null pointer can only unplug what was there
  have hmount : (v.popDevice conn).2.coupleMount m id (v.popDevice conn).1 = .ok w →
      ∃ t₀, v.control.obssVec j = some t₀ ∧ t₀.holds conn = true := by
    intro hw
    rw [popDevice_notMem hpool] at hw
    unfold Server.coupleMount at hw
    split at hw
    · obtain rfl := Except.ok.inj hw
      exact ⟨t, ht, hheld⟩
    · next s hs =>
        split at hw
        · split at hw
          · next heq => cases heq
          · obtain rfl := Except.ok.inj hw
            by_cases hj : j = id
            · subst hj
              obtain rfl := Option.some.inj ((GeneralControl.put_self ..).symm.trans ht)
              refine ⟨s, hs, ?_⟩
              have hlinks := Obss.holds_iff.mp hheld
              refine Obss.holds_iff.mpr ?_
              rcases hlinks with hc | hc
              · cases hc
              · exact .inr hc
            · exact ⟨t, (GeneralControl.put_other hj ..).symm.trans ht, hheld⟩
          · next heq => cases heq
          · cases hw
        · obtain rfl := Except.ok.inj hw
          exact ⟨t, ht, hheld⟩
  unfold hands at hw
  split at hw
  · rw [popDevice_notMem hpool] at hw
    unfold Server.coupleCamera at hw
    split at hw
    · obtain rfl := Except.ok.inj hw
      exact ⟨t, ht, hheld⟩
    · split at hw
      · cases hw
      · obtain rfl := Except.ok.inj hw
        exact ⟨t, ht, hheld⟩
  · exact hmount hw

/-- Nobody is given a connection where everyone who holds it did before. -/
theorem coupledRightly_of_held {gid uid : Text} {type : ObssType}
    (h : ∀ id s, w.control.obssVec id = some s → s.holds conn = true →
      ∃ s₀, v.control.obssVec id = some s₀ ∧ s₀.holds conn = true) :
    v.CoupledRightly w conn gid uid type := by
  have hnone : ∀ id s, ¬ v.Couples w conn id s := by
    rintro id s ⟨hs, hheld, hnew⟩
    obtain ⟨s₀, hs₀, hheld₀⟩ := h id s hs hheld
    exact Bool.false_ne_true ((hnew s₀ hs₀).symm.trans hheld₀)
  exact ⟨fun id s hc => absurd hc (hnone id s), fun _ => hnone⟩

theorem coupledRightly_of_control {gid uid : Text} {type : ObssType}
    (h : w.control.obssVec = v.control.obssVec) : v.CoupledRightly w conn gid uid type :=
  coupledRightly_of_held fun _ s hs hheld => ⟨s, h ▸ hs, hheld⟩

/-- A system has been given the connection, and is the only one. -/
theorem coupledRightly_iff {gid uid : Text} {type : ObssType} {id : ℕ} {s s' : Obss}
    (hs : v.control.obssVec id = some s) (hfree : s.holds conn = false)
    (hident : s'.ident = s.ident) (hheld : s'.holds conn = true)
    (hvec : ∀ j, w.control.obssVec j = if j = id then some s' else v.control.obssVec j) :
    v.CoupledRightly w conn gid uid type ↔
      (iequals gid s.gid = true ∧ iequals uid s.uid = true ∧ s.obssType = type) ∧
        gid ≠ [] ∧ uid ≠ [] := by
  have hcouples : v.Couples w conn id s' := by
    refine ⟨(hvec id).trans (if_pos rfl), hheld, fun s₀ hs₀ => ?_⟩
    obtain rfl := Option.some.inj (hs.symm.trans hs₀)
    exact hfree
  -- no other system gets the connection
  have honly : ∀ j t, v.Couples w conn j t → t = s' := by
    rintro j t ⟨ht, htheld, hnew⟩
    rw [hvec] at ht
    by_cases hj : j = id
    · rw [if_pos hj] at ht
      exact (Option.some.inj ht).symm
    · rw [if_neg hj] at ht
      exact absurd htheld (Bool.eq_false_iff.mp (hnew t ht))
  have hgid : s'.gid = s.gid := congrArg Prod.fst hident
  have huid : s'.uid = s.uid := congrArg (fun i => i.2.1) hident
  have htype : s'.obssType = s.obssType := congrArg (fun i => i.2.2) hident
  constructor
  · rintro ⟨hexact, hids⟩
    refine ⟨?_, fun h => hids (.inl h) id s' hcouples, fun h => hids (.inr h) id s' hcouples⟩
    rw [← hgid, ← huid, ← htype]
    exact hexact id s' hcouples
  · rintro ⟨hexact, hgid', huid'⟩
    refine ⟨fun j t ht => ?_, fun h => ?_⟩
    · rw [honly j t ht, hgid, huid, htype]
      exact hexact
    · exact absurd h (not_or.mpr ⟨hgid', huid'⟩)

/-- A device that finds a system is coupled rightly just where the system turns it
away or holds it already, or is the one it should be. -/
theorem hands_rightly_iff (m : Moment) {gid uid : Text} {type : ObssType} {id : ℕ} {s : Obss}
    (hs : v.control.obssVec id = some s) (hmatched : s.isMatched gid uid = true)
    (hw : hands m conn ev id v = .ok w) :
    v.CoupledRightly w conn gid uid type ↔
      (conn ∈ v.tcpCliDevice → s.takes conn ev = false ∨ s.holds conn = true ∨
        (s.obssType = type ∧ gid ≠ [] ∧ uid ≠ [])) := by
  by_cases hpool : conn ∈ v.tcpCliDevice
  · rw [imp_iff_right hpool]
    cases htakes : s.takes conn ev with
    | false =>
        obtain ⟨w', hw', hcontrol⟩ := hands_refused m hs hpool htakes
        obtain rfl := Except.ok.inj (hw.symm.trans hw')
        exact iff_of_true (coupledRightly_of_control (hcontrol ▸ rfl)) (.inl rfl)
    | true =>
        obtain ⟨w', s', hw', hident, hheld, hvec⟩ := hands_taken m hs hpool htakes
        obtain rfl := Except.ok.inj (hw.symm.trans hw')
        cases hfree : s.holds conn with
        | true =>
            refine iff_of_true (coupledRightly_of_held fun j t ht htheld => ?_) (.inr (.inl rfl))
            rw [hvec] at ht
            by_cases hj : j = id
            · exact ⟨s, hj ▸ hs, hfree⟩
            · exact ⟨t, (if_neg hj).symm.trans ht, htheld⟩
        | false =>
            rw [coupledRightly_iff hs hfree hident hheld hvec]
            constructor
            · rintro ⟨⟨-, -, htype⟩, hids⟩
              exact .inr (.inr ⟨htype, hids⟩)
            · rintro (hrefuse | hhold | ⟨htype, hgid, huid⟩)
              · cases hrefuse
              · cases hhold
              · obtain ⟨hg, hu⟩ := (GeneralControl.isMatched_iff hgid huid).mp hmatched
                exact ⟨⟨hg, hu, htype⟩, hgid, huid⟩
  · -- the pool has nothing to hand over but a null pointer
    refine iff_of_true (coupledRightly_of_held fun j t ht htheld => ?_) fun h => absurd h hpool
    exact hands_null m hpool hw ht htheld

/-- A connection of the pool can always be handed to a system. -/
theorem hands_ok (m : Moment) {id : ℕ} {s : Obss} (hs : v.control.obssVec id = some s)
    (hpool : conn ∈ v.tcpCliDevice) : ∃ w, hands m conn ev id v = .ok w := by
  cases htakes : s.takes conn ev with
  | false =>
      obtain ⟨w, hw, -⟩ := hands_refused m hs hpool htakes
      exact ⟨w, hw⟩
  | true =>
      obtain ⟨w, -, hw, -⟩ := hands_taken m hs hpool htakes
      exact ⟨w, hw⟩

/-- What comes of a registration: the first system that matches is handed the
connection, or one is made for it, or nothing happens. -/
theorem withObss_cases (m : Moment) (gid uid : Text) (type : ObssType)
    (k : ℕ → Server → Except ServerFault Server) :
    (∃ id s, (v.control.matched gid uid).head? = some id ∧ v.control.obssVec id = some s ∧
      s.isMatched gid uid = true ∧ v.withObss m gid uid type k = k id v) ∨
    (v.control.matched gid uid).head? = none ∧
      (v.withObss m gid uid type k = .ok v ∨
        gid ≠ [] ∧ uid ≠ [] ∧ v.withObss m gid uid type k = k v.control.created
          { v with control := { v.control.put v.control.created
              (some (Obss.create gid uid type m.now)) with created := v.control.created + 1 } }) := by
  unfold withObss GeneralControl.findObssPtr
  dsimp only
  cases hhead : (v.control.matched gid uid).head? with
  | some id =>
      obtain ⟨-, s, hs, hmatched⟩ := GeneralControl.mem_matched.mp (List.mem_of_head? hhead)
      exact .inl ⟨id, s, rfl, hs, hmatched, rfl⟩
  | none =>
      refine .inr ⟨rfl, ?_⟩
      by_cases hids : gid ≠ [] ∧ uid ≠ [] ∧ m.starts gid uid = true
      · simp only [if_pos hids]
        exact .inr ⟨hids.1, hids.2.1, trivial⟩
      · simp only [if_neg hids]
        exact .inl trivial

/-- A system that has just been made for the device is the right one. -/
theorem made_rightly (m : Moment) {gid uid : Text} {type : ObssType} (hgid : gid ≠ [])
    (huid : uid ≠ [])
    (hw : hands m conn ev v.control.created { v with control := { v.control.put v.control.created
      (some (Obss.create gid uid type m.now)) with created := v.control.created + 1 } } = .ok w) :
    v.CoupledRightly w conn gid uid type := by
  have hnew : (v.control.put v.control.created (some (Obss.create gid uid type m.now))).obssVec
      v.control.created = some (Obss.create gid uid type m.now) := GeneralControl.put_self ..
  have hmatched : (Obss.create gid uid type m.now).isMatched gid uid = true :=
    (GeneralControl.isMatched_iff hgid huid).mpr ⟨iequals_refl gid, iequals_refl uid⟩
  obtain ⟨hexact, hids⟩ := (hands_rightly_iff m hnew hmatched hw).mpr fun _ =>
    .inr (.inr ⟨rfl, hgid, huid⟩)
  refine ⟨fun id s hc => hexact id s ⟨hc.1, hc.2.1, fun s₀ hs₀ => ?_⟩, fun h => ?_⟩
  · by_cases hid : id = v.control.created
    · subst hid
      obtain rfl := Option.some.inj (hnew.symm.trans hs₀)
      rfl
    · exact hc.2.2 s₀ ((GeneralControl.put_other hid ..).symm.trans hs₀)
  · exact absurd h (not_or.mpr ⟨hgid, huid⟩)

/-- A registration that has been carried out. -/
theorem registration_iff (m : Moment) {gid uid : Text} {type : ObssType}
    (hw : v.withObss m gid uid type (hands m conn ev) = .ok w) :
    v.CoupledRightly w conn gid uid type ↔
      (conn ∈ v.tcpCliDevice → ∀ id s, (v.control.matched gid uid).head? = some id →
        v.control.obssVec id = some s →
        s.takes conn ev = false ∨ s.holds conn = true ∨ (s.obssType = type ∧ gid ≠ [] ∧ uid ≠ [])) := by
  rcases v.withObss_cases m gid uid type (hands m conn ev) with
    ⟨id, s, hhead, hs, hmatched, heq⟩ | ⟨hhead, heq | ⟨hgid, huid, heq⟩⟩
  · rw [heq] at hw
    rw [hands_rightly_iff m hs hmatched hw]
    refine imp_congr_right fun _ => ⟨fun h id' s' hhead' hs' => ?_, fun h => h id s hhead hs⟩
    obtain rfl := Option.some.inj (hhead.symm.trans hhead')
    obtain rfl := Option.some.inj (hs.symm.trans hs')
    exact h
  · obtain rfl := Except.ok.inj (heq.symm.trans hw)
    refine iff_of_true (coupledRightly_of_control rfl) fun _ id s hhead' => ?_
    rw [hhead] at hhead'
    cases hhead'
  · rw [heq] at hw
    refine iff_of_true (made_rightly m hgid huid hw) fun _ id s hhead' => ?_
    rw [hhead] at hhead'
    cases hhead'

/-- A registration ends the program only where the connection has left the pool. -/
theorem registration_ok (m : Moment) (gid uid : Text) (type : ObssType)
    (hpool : conn ∈ v.tcpCliDevice) :
    ∃ w, v.withObss m gid uid type (hands m conn ev) = .ok w := by
  rcases v.withObss_cases m gid uid type (hands m conn ev) with
    ⟨id, s, -, hs, -, heq⟩ | ⟨-, heq | ⟨-, -, heq⟩⟩
  · rw [heq]
    exact hands_ok m hs hpool
  · exact ⟨v, heq⟩
  · rw [heq]
    exact hands_ok m (GeneralControl.put_self ..) hpool

end Server

/-- Whatever systems there are, a device that registers is coupled to the system
of its ids and its port, and to none without both ids, if and only if the first
system that matches is that system, or turns the device away, or holds it. -/
theorem coupledRightly_iff_registersRightly (c : Config Server ServerFault)
    (i : Moment × ServerEvent) :
    (∀ conn gid uid type, i.2.registration c.state = some (conn, gid, uid, type) →
      c.state.CoupledRightly (server.next c i).state conn gid uid type) ↔
    (c.state.enabled i.2 = true → i.2.RegistersRightly c.state) := by
  have hone : ∀ conn gid uid type, i.2.registration c.state = some (conn, gid, uid, type) →
      (c.state.CoupledRightly (server.next c i).state conn gid uid type ↔
        (c.state.enabled i.2 = true → conn ∈ c.state.tcpCliDevice → ∀ id s,
          (c.state.control.matched gid uid).head? = some id → c.state.control.obssVec id = some s →
          s.takes conn i.2 = false ∨ s.holds conn = true ∨
            (s.obssType = type ∧ gid ≠ [] ∧ uid ≠ []))) := by
    intro conn gid uid type hreg
    have hhandle := Server.handle_registration i.1 hreg
    rcases Server.next_cases c i with ⟨hoff, hnext⟩ | ⟨hen, w, hw, hnext⟩ | ⟨hen, fault, hfault, hnext⟩
    · rw [hnext]
      exact iff_of_true (Server.coupledRightly_of_control rfl) fun hon => by simp [hoff] at hon
    · rw [hnext, imp_iff_right hen]
      exact Server.registration_iff i.1 (hhandle.symm.trans hw)
    · rw [hnext, imp_iff_right hen]
      refine iff_of_true (Server.coupledRightly_of_control rfl) fun hpool => ?_
      obtain ⟨w, hw⟩ : ∃ w, c.state.withObss i.1 gid uid type (Server.hands i.1 conn i.2) = .ok w :=
        Server.registration_ok i.1 gid uid type hpool
      rw [← hhandle, hfault] at hw
      cases hw
  constructor
  · intro h hen conn gid uid type hreg
    exact (hone conn gid uid type hreg).mp (h conn gid uid type hreg) hen
  · intro h conn gid uid type hreg
    exact (hone conn gid uid type hreg).mpr fun hen => h hen conn gid uid type hreg

/-- A camera of GWAC comes to a group that has a system of the other type only, and
does not say which unit it belongs to. -/
def strayCamera : List (Moment × ServerEvent) :=
  [.accept 1 .mountGFT, .line 1 (.mount { gid := "G".toList, uid := "U".toList }),
    .accept 2 .cameraGWAC].map fun ev => (.blank, ev)

def strayLine : ServerEvent :=
  .line 2 (.camera { gid := "G".toList, cid := "1".toList })

theorem not_coupledRightly :
    ¬ ∀ conn gid uid type,
      strayLine.registration (server.exec Server.start strayCamera).state =
        some (conn, gid, uid, type) →
      (server.exec Server.start strayCamera).state.CoupledRightly
        (server.next (server.exec Server.start strayCamera) (.blank, strayLine)).state
        conn gid uid type := by
  intro h
  have hright := h 2 "G".toList [] .gwac (by decide)
  have hs : ∃ s, (server.next (server.exec Server.start strayCamera)
      (.blank, strayLine)).state.control.obssVec 0 = some s ∧ s.holds 2 = true := ⟨_, rfl, by decide⟩
  obtain ⟨s, hs, hheld⟩ := hs
  refine hright.needsIds (.inr rfl) 0 s ⟨hs, hheld, fun s₀ hs₀ => ?_⟩
  have hfree : ∀ s₀, (server.exec Server.start strayCamera).state.control.obssVec 0 = some s₀ →
      s₀.holds 2 = false := by
    rintro s₀ ⟨⟩
    decide
  exact hfree s₀ hs₀

end Gtoaes
