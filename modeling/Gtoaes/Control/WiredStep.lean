import Gtoaes.Control.Wired

/-!
The steps of the server keep its connections wired: every line, every close and
every round of a thread, whatever loop handles it.
-/

namespace Gtoaes

open Lib

namespace Server

variable {gone : List Conn} {v : Server} {conn : Conn}

/-! ### Lines -/

/-- What every step of the handling of a line keeps, from the server `u` at its
start: the connections, the port each was accepted on, and that none closes. -/
structure Steady (gone : List Conn) (u v : Server) : Prop where
  wired : v.Wired gone
  peer : v.peer = u.peer
  closed : v.closed = u.closed

variable {u : Server} {E : ServerFault → Prop}

/-- Steps that leave the ports and the closed connections alone. -/
theorem Steady.step (h : Steady gone u v) {w : Server} (hw : w.Wired gone)
    (hpeer : w.peer = v.peer) (hclosed : w.closed = v.closed) : Steady gone u w :=
  ⟨hw, hpeer.trans h.peer, hclosed.trans h.closed⟩

theorem Steady.tell (h : Steady gone u v) (m : Moment) (id : ℕ) {ev : Event}
    (hev : ev.links = false) : Steady gone u (v.tell m id ev) :=
  h.step (h.wired.tell_quiet m id hev) rfl rfl

theorem Steady.withObss (h : Steady gone u v) (m : Moment) (gid uid : Text) (type : ObssType)
    {k : ℕ → Server → Except ServerFault Server}
    (hk : ∀ id v, Steady gone u v → Meets (Steady gone u) E (k id v)) :
    Meets (Steady gone u) E (v.withObss m gid uid type k) := by
  have hfound : Steady gone u { v with
      control := (v.control.findObssPtr gid uid type (m.starts gid uid) m.now).2 } :=
    h.step (h.wired.findObssPtr ..) rfl rfl
  unfold Server.withObss
  dsimp only
  split
  · exact hfound
  · exact hk _ _ hfound

theorem mem_readers {id : ℕ} {p : PeerType} {c : Conn} {r : ℕ × PeerType}
    (h : r ∈ (v.registerRead conn id p).readers c) : c = conn ∧ r = (id, p) ∨ r ∈ v.readers c := by
  unfold registerRead at h
  dsimp only at h
  split at h
  · next hc => exact (List.mem_cons.mp h).imp_left fun hr => ⟨hc, hr⟩
  · exact .inr h

/-- A system that reads from its mount itself. -/
theorem Wired.registerMount (h : v.Wired gone) (hconn : v.IsMount conn) (id : ℕ) :
    (v.registerRead conn id .mountGFT).Wired gone := by
  have hcamera : ∀ c, v.IsCamera c → c ≠ conn := by
    rintro c ⟨p, hp, hcam⟩ rfl
    rcases hconn with hm | hm
    all_goals
      obtain rfl := Option.some.inj (hp.symm.trans hm)
      cases hcam
  have hreaders : ∀ c, v.IsCamera c → (v.registerRead conn id .mountGFT).readers c = v.readers c :=
    fun c hc => if_neg (hcamera c hc)
  refine ⟨h.bound, fun hl => ?_, h.distinct, h.known, h.shared, fun c r hr => ?_, fun c hc hcam => ?_⟩
  · obtain ⟨hmount, hfocus, hcam, hnodup, hreleased⟩ := h.fits hl
    refine ⟨hmount, hfocus, fun c hc => ?_, hnodup, hreleased⟩
    obtain ⟨hport, hpool, hread⟩ := hcam c hc
    exact ⟨hport, hpool, (hreaders c hport).symm ▸ hread⟩
  · rcases mem_readers hr with ⟨rfl, rfl⟩ | hr
    · rcases hconn with hm | hm
      all_goals exact ⟨_, hm, fun hcam => by cases hcam⟩
    · exact h.reader c r hr
  · exact (hreaders c hcam).trans (h.unread c hc hcam)

theorem Wired.plugMount (h : v.Wired gone) (hconn : v.IsMount conn) (hgone : conn ∉ gone)
    (m : Moment) (id : ℕ) : (v.tell m id (.coupleMount conn)).Wired gone := by
  refine h.tell m fun s _ hs => ?_
  rw [Obss.linksAfter]
  split
  · exact hs.plugMount hconn hgone
  · exact hs

theorem Wired.plugFocus (h : v.Wired gone) (hconn : v.peer conn = some .focus)
    (hgone : conn ∉ gone) (m : Moment) (id : ℕ) : (v.tell m id (.coupleFocus conn)).Wired gone :=
  h.tell m fun _ _ hs => hs.plugFocus hconn hgone

/-- A system that loses some of what it holds. -/
theorem Wired.put (h : v.Wired gone) {id : ℕ} {s s' : Obss} (hs : v.control.obssVec id = some s)
    (hlinks : s'.links.Within s.links) : (v.put id (some s')).Wired gone := by
  refine h.shrink rfl fun {j l'} hl' => ?_
  rw [GeneralControl.links_put] at hl'
  by_cases hj : j = id
  · obtain rfl := Option.some.inj ((if_pos hj).symm.trans hl')
    exact ⟨s.links, hj ▸ GeneralControl.links_eq_some.mpr ⟨s, hs, rfl⟩, hlinks⟩
  · exact ⟨l', (if_neg hj).symm.trans hl', .refl l'⟩

theorem Steady.coupleMount (h : Steady gone u v) (m : Moment) (id : ℕ) {ptr : Option Conn}
    (hptr : ∀ c, ptr = some c → v.IsMount c ∧ c ∉ gone) :
    Meets (Steady gone u) (· ≠ .nullCamera) (v.coupleMount m id ptr) := by
  unfold Server.coupleMount
  split
  · exact h
  · next s hs =>
      split
      · split
        · next conn _ _ =>
            obtain ⟨hconn, hgone⟩ := hptr conn rfl
            exact h.step (h.wired.plugMount hconn hgone m id) rfl rfl
        · exact h.step (h.wired.put hs ⟨.inl rfl, .inr rfl, le_rfl⟩) rfl rfl
        · next conn _ _ =>
            obtain ⟨hconn, hgone⟩ := hptr conn rfl
            exact h.step ((h.wired.registerMount hconn id).plugMount hconn hgone m id) rfl rfl
        · exact ServerFault.noConfusion
      · exact h

theorem Steady.coupleFocus (h : Steady gone u v) (m : Moment) (id : ℕ) {ptr : Option Conn}
    (hptr : ∀ c, ptr = some c → v.peer c = some .focus ∧ c ∉ gone) :
    Steady gone u (v.coupleFocus m id ptr) := by
  unfold Server.coupleFocus
  split
  · next conn =>
      obtain ⟨hconn, hgone⟩ := hptr conn rfl
      exact h.step (h.wired.plugFocus hconn hgone m id) rfl rfl
  · refine h.step (h.wired.shrink rfl fun {j l'} hl' => ?_) rfl rfl
    rw [GeneralControl.links_put] at hl'
    by_cases hj : j = id
    · subst hj
      rw [if_pos rfl, Option.map_map] at hl'
      obtain ⟨s, hs, rfl⟩ := Option.map_eq_some_iff.mp hl'
      exact ⟨s.links, GeneralControl.links_eq_some.mpr ⟨s, hs, rfl⟩, .inr rfl, .inl rfl, le_rfl⟩
    · exact ⟨l', (if_neg hj).symm.trans hl', .refl l'⟩

theorem find_eq_some {pool : List Conn} {conn c : Conn} (h : find pool conn = some c) :
    c = conn := by
  unfold find at h
  split at h
  · exact (Option.some.inj h).symm
  · cases h

theorem Steady.processProtocolMountGwac (h : Steady gone u v) (m : Moment) {conn : Conn}
    (hconn : u.peer conn = some .mountGWAC) (hgone : conn ∉ gone) (proto : NonKVMsg) :
    Meets (Steady gone u) (· ≠ .nullCamera) (v.processProtocolMountGwac m conn proto) := by
  unfold Server.processProtocolMountGwac
  dsimp only
  split
  · refine Meets.foldlM (fun w i hw => hw.withObss m _ _ _ fun id w hw => ?_) _ h
    refine (hw.coupleMount m id fun c hc => ?_).bind fun w hw => hw.tell m id rfl
    obtain rfl := find_eq_some hc
    exact ⟨.inl (hw.peer ▸ hconn), hgone⟩
  · exact h.withObss m _ _ _ fun id w hw => hw.tell m id rfl
  · exact h.withObss m _ _ _ fun id w hw => hw.tell m id rfl
  · exact h

theorem Steady.processProtocolFocus (h : Steady gone u v) (m : Moment) {conn : Conn}
    (hconn : u.peer conn = some .focus) (hgone : conn ∉ gone) (proto : NonKVMsg) :
    Meets (Steady gone u) (· ≠ .nullCamera) (v.processProtocolFocus m conn proto) := by
  unfold Server.processProtocolFocus
  refine h.withObss m _ _ _ fun id w hw => ?_
  split
  · split
    · exact ServerFault.noConfusion
    · refine foldl_keeps (fun w i hw => hw.tell m id rfl) _ (hw.coupleFocus m id fun c hc => ?_)
      obtain rfl := find_eq_some hc
      exact ⟨hw.peer ▸ hconn, hgone⟩
  · dsimp only
    split
    · exact ServerFault.noConfusion
    · exact (hw.step (hw.wired.findObssPtr ..) rfl rfl).tell m _ rfl
  · exact hw

/-- A connection that is not shared with the pool may leave it. -/
theorem Wired.popDevice (h : v.Wired gone) (hmount : v.peer conn ≠ some .mountGWAC)
    (hfocus : v.peer conn ≠ some .focus) : (v.popDevice conn).2.Wired gone where
  bound := h.bound
  fits hl := by
    obtain ⟨hmount, hfocus, hcam, hnodup, hreleased⟩ := h.fits hl
    refine ⟨hmount, hfocus, fun c hc => ?_, hnodup, hreleased⟩
    obtain ⟨hport, hpool, hread⟩ := hcam c hc
    exact ⟨hport, fun hmem => hpool (List.mem_of_mem_erase hmem), hread⟩
  distinct := h.distinct.erase conn
  known c hc := h.known c (hc.imp_left List.mem_of_mem_erase)
  shared c hc hopen := by
    have hne : c ≠ conn := by
      rintro rfl
      exact hc.elim hmount hfocus
    exact (List.mem_erase_of_ne hne).mpr (h.shared c hc hopen)
  reader := h.reader
  unread c hc := h.unread c (List.mem_of_mem_erase hc)

theorem Steady.processProtocolMountGft (h : Steady gone u v) (m : Moment) {conn : Conn}
    (hconn : u.peer conn = some .mountGFT) (hgone : conn ∉ gone) (proto : KVMsg) :
    Meets (Steady gone u) (· ≠ .nullCamera) (v.processProtocolMountGft m conn proto) := by
  unfold Server.processProtocolMountGft
  split
  · refine h.withObss m _ _ _ fun id w hw => ?_
    have hport : w.peer conn = some .mountGFT := hw.peer ▸ hconn
    have hpopped : Steady gone u (w.popDevice conn).2 :=
      hw.step (hw.wired.popDevice (by rw [hport]; decide) (by rw [hport]; decide)) rfl rfl
    refine hpopped.coupleMount m id fun c hc => ?_
    obtain rfl := find_eq_some hc
    exact ⟨.inr hport, hgone⟩
  · exact h

/-- A system that reads from a camera it has just been handed. -/
theorem Wired.registerCamera (h : v.Wired gone) (hconn : v.IsCamera conn)
    (hpool : conn ∉ v.tcpCliDevice) (hnew : ∀ {id l}, v.links id = some l → conn ∉ l.cams)
    (id : ℕ) (p : PeerType) : (v.registerRead conn id p).Wired gone := by
  have hreaders : ∀ {c}, c ≠ conn → (v.registerRead conn id p).readers c = v.readers c :=
    fun hc => if_neg hc
  refine ⟨h.bound, fun hl => ?_, h.distinct, h.known, h.shared, fun c r hr => ?_, fun c hc hcam => ?_⟩
  · obtain ⟨hmount, hfocus, hcam, hnodup, hreleased⟩ := h.fits hl
    refine ⟨hmount, hfocus, fun c hc => ?_, hnodup, hreleased⟩
    obtain ⟨hport, hout, hread⟩ := hcam c hc
    have hne : c ≠ conn := fun heq => hnew hl (heq ▸ hc)
    exact ⟨hport, hout, (hreaders hne).symm ▸ hread⟩
  · rcases mem_readers hr with ⟨rfl, rfl⟩ | hr
    · obtain ⟨q, hq, hqcam⟩ := hconn
      exact ⟨q, hq, fun _ => hqcam⟩
    · exact h.reader c r hr
  · have hne : c ≠ conn := fun heq => hpool (heq ▸ hc)
    exact (hreaders hne).trans (h.unread c hc hcam)

/-- A camera goes from the pool to a system that takes it. -/
theorem Wired.handOver (h : v.Wired gone) (hconn : v.IsCamera conn) (hpool : conn ∈ v.tcpCliDevice)
    (hgone : conn ∉ gone) (m : Moment) (id : ℕ) (p : PeerType) (cid : Text) :
    (((v.popDevice conn).2.registerRead conn id p).tell m id (.coupleCamera conn cid)).Wired
      gone := by
  have hport : v.peer conn ≠ some .mountGWAC ∧ v.peer conn ≠ some .focus := by
    obtain ⟨q, hq, hqcam⟩ := hconn
    rw [hq]
    constructor
    all_goals
      rintro ⟨⟩
      cases hqcam
  have hnew : ∀ {j l}, v.links j = some l → conn ∉ l.cams := fun hl => h.notMem_cams hpool hl
  have hout : conn ∉ (v.popDevice conn).2.tcpCliDevice := h.distinct.not_mem_erase
  have hwired := (h.popDevice hport.1 hport.2).registerCamera hconn hout hnew id p
  refine hwired.tell m fun s hs hfits => ?_
  rw [Obss.linksAfter]
  split
  · refine hfits.plugCamera hconn hout ?_ (hnew hs) hgone
    show ((ite (conn = conn) _ _ : List _)).map Prod.fst = [id]
    rw [if_pos rfl, show (v.popDevice conn).2.readers conn = [] from h.unread conn hpool hconn]
    rfl
  · exact hfits

theorem Steady.processProtocolCamera (h : Steady gone u v) (m : Moment) {conn : Conn}
    {p : PeerType} (hconn : u.peer conn = some p) (hp : p.isCamera = true) (hgone : conn ∉ gone)
    (proto : KVMsg) :
    Meets (Steady gone u) (fun _ => True) (v.processProtocolCamera m conn proto p) := by
  unfold Server.processProtocolCamera
  split
  · refine h.withObss m _ _ _ fun id w hw => ?_
    have hport : w.peer conn = some p := hw.peer ▸ hconn
    -- what leaves the pool is a camera, and so is not shared with it
    have hpopped : Steady gone u (w.popDevice conn).2 := by
      refine hw.step (hw.wired.popDevice ?_ ?_) rfl rfl
      all_goals
        rw [hport]
        rintro ⟨⟩
        cases hp
    dsimp only
    unfold Server.coupleCamera
    split
    · exact hpopped
    · split
      · split
        · next c hptr =>
            obtain rfl := find_eq_some hptr
            have hpool : c ∈ w.tcpCliDevice := by
              by_contra hnot
              rw [show (w.popDevice c).1 = none from if_neg hnot] at hptr
              cases hptr
            exact hw.step (hw.wired.handOver ⟨p, hport, hp⟩ hpool hgone m id _ _) rfl rfl
        · trivial
      · exact hpopped
  · exact h

end Server

/-! ### Clients, rounds and destroyed systems -/

/-- A call that leaves all connections as they are. -/
def Call.quiet : Call → Bool
  | .system _ _ ev => !ev.links
  | .newMessage => true
  | _ => false

theorem clientEvent_quiet {proto : KVMsg} {ev : Event} (h : clientEvent proto = some ev) :
    ev.links = false := by
  unfold clientEvent at h
  repeat' split at h
  all_goals cases h
  all_goals rfl

theorem links_written (ev : Event) : ev.written.links = ev.links := by
  cases ev with
  | _ => rfl

namespace GeneralControl

theorem quiet_processProtocolClient (g : GeneralControl) (proto : KVMsg) :
    ∀ call ∈ g.processProtocolClient proto, call.quiet = true := by
  intro call hcall
  rw [processProtocolClient] at hcall
  split at hcall
  · obtain rfl := List.mem_singleton.mp hcall
    rfl
  · next ev hev =>
      rcases List.mem_append.mp hcall with hcall | hcall
      · obtain ⟨id, -, rfl | rfl⟩ := mem_handOut hcall
        · simp [Call.quiet, clientEvent_quiet hev]
        · simp [Call.quiet, links_written, clientEvent_quiet hev]
      · obtain rfl := List.mem_singleton.mp hcall
        rfl

theorem quiet_turn (posix : PosixTime) (g : GeneralControl) (now : Time) (unset : Unset)
    {call : Call} (h : call.quiet = true) :
    (g.turn posix ⟨now, unset, call⟩).1.links = g.links ∧
      (g.turn posix ⟨now, unset, call⟩).1.created = g.created := by
  cases call with
  | system id addr ev =>
      refine ⟨?_, turn_created ..⟩
      have hev : ev.links = false := by simpa [Call.quiet] using h
      ext1 j
      rw [links_turn]
      by_cases hj : j = id
      · rw [if_pos hj, hj, links]
        exact congrArg (fun f => Option.map f _) (funext fun s => Obss.linksAfter_of_quiet s hev)
      · rw [if_neg hj]
  | newMessage => exact ⟨rfl, rfl⟩
  | create | destroy => cases h

theorem quiet_exec (posix : PosixTime) (now : Time) (unset : Unset) (calls : List Call)
    (h : ∀ call ∈ calls, call.quiet = true) (c : Config GeneralControl (ℕ × Act)) :
    ((turns posix).exec c (calls.map fun call => ⟨now, unset, call⟩)).state.links = c.state.links ∧
      ((turns posix).exec c (calls.map fun call => ⟨now, unset, call⟩)).state.created =
        c.state.created := by
  induction calls generalizing c with
  | nil => exact ⟨rfl, rfl⟩
  | cons call calls ih =>
      obtain ⟨hlinks, hcreated⟩ := ih (fun call' h' => h call' (List.mem_cons_of_mem _ h'))
        ((turns posix).next c ⟨now, unset, call⟩)
      obtain ⟨hlinks₀, hcreated₀⟩ :=
        quiet_turn posix c.state now unset (h call List.mem_cons_self)
      exact ⟨hlinks.trans hlinks₀, hcreated.trans hcreated₀⟩

end GeneralControl

namespace Server

variable {gone : List Conn} {u v : Server} {conn : Conn}

theorem Steady.processProtocolClient (h : Steady gone u v) (m : Moment) (proto : KVMsg) :
    Steady gone u (v.processProtocolClient m proto) := by
  obtain ⟨hlinks, hcreated⟩ := GeneralControl.quiet_exec m.posix m.now m.unset _
    (v.control.quiet_processProtocolClient proto) { state := v.control, hist := [] }
  refine h.step (h.wired.shrink hcreated fun {j l'} hl' => ?_) rfl rfl
  exact ⟨l', (congrFun hlinks j).symm.trans hl', .refl l'⟩

theorem Steady.dumpObss (h : Steady gone u v) (m : Moment) : Meets (Steady gone u)
    (fun _ => False) (v.handle m .dumpObss) := by
  show Steady gone u { v with control := _ }
  rw [GeneralControl.dumpObss, GeneralControl.exec_destroy]
  refine h.step (h.wired.shrink rfl fun {j l'} hl' => ⟨l', ?_, .refl l'⟩) rfl rfl
  obtain ⟨s, hs, rfl⟩ := GeneralControl.links_eq_some.mp hl'
  refine GeneralControl.links_eq_some.mpr ⟨s, ?_, rfl⟩
  dsimp only at hs
  split at hs
  · cases hs
  · exact hs

theorem Tick.quiet (tick : Tick) : tick.event.links = false := by
  cases tick <;> rfl

theorem tcpAccept_peer (conn : Conn) (p : PeerType) (v : Server) (c : Conn) :
    (v.tcpAccept conn p).peer c = if c = conn then some p else v.peer c := by
  unfold tcpAccept
  split <;> rfl

theorem tcpAccept_pool (conn : Conn) (p : PeerType) (v : Server) :
    (v.tcpAccept conn p).tcpCliDevice =
      if p = .client then v.tcpCliDevice else v.tcpCliDevice ++ [conn] := by
  unfold tcpAccept
  split
  · rfl
  · next hp => exact (if_neg hp).symm

theorem mem_tcpAccept_pool {p : PeerType} {c : Conn} : c ∈ (v.tcpAccept conn p).tcpCliDevice ↔
    c ∈ v.tcpCliDevice ∨ p ≠ .client ∧ c = conn := by
  rw [tcpAccept_pool]
  split
  · next hp => simp [hp]
  · next hp => rw [List.mem_append, List.mem_singleton, and_iff_right hp]

theorem tcpAccept_rest (conn : Conn) (p : PeerType) (v : Server) :
    (v.tcpAccept conn p).control = v.control ∧ (v.tcpAccept conn p).readers = v.readers ∧
      (v.tcpAccept conn p).closed = v.closed := by
  unfold tcpAccept
  split <;> exact ⟨rfl, rfl, rfl⟩

/-- A connection that nobody knows yet is accepted. -/
theorem Wired.tcpAccept (h : v.Wired gone) (hnew : v.peer conn = none) (p : PeerType) :
    (v.tcpAccept conn p).Wired gone := by
  obtain ⟨hcontrol, hreaders, hclosed⟩ := tcpAccept_rest conn p v
  have hown : (v.tcpAccept conn p).peer conn = some p := by rw [tcpAccept_peer, if_pos rfl]
  have hother : ∀ {c}, c ≠ conn → (v.tcpAccept conn p).peer c = v.peer c := by
    intro c hne
    rw [tcpAccept_peer, if_neg hne]
  -- a connection that was known keeps its port, for the new one was not
  have hport : ∀ {c q}, v.peer c = some q → (v.tcpAccept conn p).peer c = some q := by
    intro c q hq
    have hne : c ≠ conn := by
      rintro rfl
      rw [hnew] at hq
      cases hq
    rw [hother hne, hq]
  have hout : conn ∉ v.tcpCliDevice := by
    intro hmem
    have hsome := h.known conn (.inl hmem)
    rw [hnew] at hsome
    cases hsome
  have hunread : v.readers conn = [] := by
    refine List.eq_nil_iff_forall_not_mem.mpr fun r hr => ?_
    obtain ⟨q, hq, -⟩ := h.reader conn r hr
    rw [hnew] at hq
    cases hq
  constructor
  · intro id l hl
    rw [Server.links, hcontrol] at hl
    exact hcontrol ▸ h.bound hl
  · intro id l hl
    rw [Server.links, hcontrol] at hl
    obtain ⟨hmount, hfocus, hcam, hnodup, hreleased⟩ := h.fits hl
    refine ⟨fun c hc => (hmount c hc).imp hport hport, fun c hc => hport (hfocus c hc),
      fun c hc => ?_, hnodup, hreleased⟩
    obtain ⟨⟨q, hq, hqcam⟩, hnot, hread⟩ := hcam c hc
    refine ⟨⟨q, hport hq, hqcam⟩, fun hmem => ?_, hreaders ▸ hread⟩
    rcases mem_tcpAccept_pool.mp hmem with hmem | ⟨-, rfl⟩
    · exact hnot hmem
    · rw [hnew] at hq
      cases hq
  · rw [tcpAccept_pool]
    split
    · exact h.distinct
    · exact List.nodup_append.mpr ⟨h.distinct, List.nodup_singleton conn, by
        rintro a ha b hb rfl
        exact hout (List.mem_singleton.mp hb ▸ ha)⟩
  · intro c hc
    rw [mem_tcpAccept_pool, hclosed] at hc
    by_cases heq : c = conn
    · rw [heq, hown]
      rfl
    · have hsome := h.known c (by tauto)
      obtain ⟨q, hq⟩ := Option.isSome_iff_exists.mp hsome
      rw [hport hq]
      rfl
  · intro c hc hopen
    rw [mem_tcpAccept_pool]
    rw [hclosed] at hopen
    by_cases heq : c = conn
    · refine .inr ⟨?_, heq⟩
      rintro rfl
      rw [heq, hown] at hc
      rcases hc with hc | hc <;> cases hc
    · rw [hother heq] at hc
      exact .inl (h.shared c hc hopen)
  · intro c r hr
    rw [hreaders] at hr
    obtain ⟨q, hq, hqcam⟩ := h.reader c r hr
    exact ⟨q, hport hq, hqcam⟩
  · rintro c hc ⟨q, hq, hqcam⟩
    rw [hreaders]
    by_cases heq : c = conn
    · rw [heq, hunread]
    · rw [hother heq] at hq
      exact h.unread c ((mem_tcpAccept_pool.mp hc).resolve_right fun hc => heq hc.2) ⟨q, hq, hqcam⟩

/-! ### Closes -/

theorem decoupleMount_within (s : Obss) (ptr : Option Conn) :
    (s.linksAfter (.decoupleMount ptr)).Within s.links := by
  rw [Obss.linksAfter]
  split
  · exact ⟨.inl rfl, .inr rfl, le_rfl⟩
  · exact .refl s.links

theorem decoupleFocus_within (s : Obss) (ptr : Option Conn) :
    (s.linksAfter (.decoupleFocus ptr)).Within s.links := by
  rw [Obss.linksAfter]
  split
  · exact ⟨.inr rfl, .inl rfl, le_rfl⟩
  · exact .refl s.links

/-- What an event brings about in each system, it has brought about in all those
that were told. -/
theorem links_tellAll {P : Links → Prop} (m : Moment) {ev : Event}
    (hP : ∀ s : Obss, P (s.linksAfter ev)) (ids : List ℕ) {j : ℕ}
    (hj : j ∈ ids ∨ ∀ l, v.links j = some l → P l) {l : Links}
    (hl : (v.tellAll m ids ev).links j = some l) : P l := by
  induction ids generalizing v with
  | nil => exact (hj.resolve_left List.not_mem_nil) l hl
  | cons id ids ih =>
      refine ih (v := v.tell m id ev) ?_ hl
      by_cases hmem : j ∈ ids
      · exact .inl hmem
      · refine .inr fun l hl => ?_
        rcases links_tell_some hl with ⟨s, -, -, rfl⟩ | ⟨hne, hold⟩
        · exact hP s
        · have hids : j ∉ id :: ids := by simp [hne, hmem]
          exact hj.resolve_left hids l hold

theorem tellAll_markClosed (m : Moment) (ids : List ℕ) (ev : Event) (conn : Conn) (v : Server) :
    (v.tellAll m ids ev).markClosed conn = (v.markClosed conn).tellAll m ids ev := by
  induction ids generalizing v with
  | nil => rfl
  | cons id ids ih => exact ih (v.tell m id ev)

/-- A closed connection may leave the pool whoever it is. -/
theorem Wired.drop (h : v.Wired gone) (hsome : (v.peer conn).isSome = true) :
    ((v.popDevice conn).2.markClosed conn).Wired gone where
  bound := h.bound
  fits hl := by
    obtain ⟨hmount, hfocus, hcam, hnodup, hreleased⟩ := h.fits hl
    refine ⟨hmount, hfocus, fun c hc => ?_, hnodup, hreleased⟩
    obtain ⟨hport, hpool, hread⟩ := hcam c hc
    exact ⟨hport, fun hmem => hpool (List.mem_of_mem_erase hmem), hread⟩
  distinct := h.distinct.erase conn
  known c hc := by
    rcases hc with hc | hc
    · exact h.known c (.inl (List.mem_of_mem_erase hc))
    · rcases List.mem_cons.mp hc with rfl | hc
      · exact hsome
      · exact h.known c (.inr hc)
  shared c hc hopen := by
    obtain ⟨hne, hopen⟩ := not_or.mp (List.mem_cons.not.mp hopen)
    exact (List.mem_erase_of_ne hne).mpr (h.shared c hc hopen)
  reader := h.reader
  unread c hc := h.unread c (List.mem_of_mem_erase hc)

theorem Wired.markClosed (h : v.Wired gone) (hsome : (v.peer conn).isSome = true) :
    (v.markClosed conn).Wired gone where
  bound := h.bound
  fits hl := by
    obtain ⟨hmount, hfocus, hcam, hnodup, hreleased⟩ := h.fits hl
    exact ⟨hmount, hfocus, hcam, hnodup, hreleased⟩
  distinct := h.distinct
  known c hc := by
    rcases hc with hc | hc
    · exact h.known c (.inl hc)
    · rcases List.mem_cons.mp hc with rfl | hc
      · exact hsome
      · exact h.known c (.inr hc)
  shared c hc hopen := h.shared c hc fun hmem => hopen (List.mem_cons_of_mem conn hmem)
  reader := h.reader
  unread := h.unread

/-- `GeneralControl` closes a connection. -/
theorem Wired.close (h : v.Wired gone) (m : Moment) (hsome : (v.peer conn).isSome = true) :
    ((v.onTcpClose m conn).markClosed conn).Wired gone := by
  unfold Server.onTcpClose
  split
  · have hkept := h.markClosed hsome
    exact ⟨hkept.bound, fun hl => ⟨(hkept.fits hl).mount, (hkept.fits hl).focus,
      (hkept.fits hl).camera, (hkept.fits hl).nodup, (hkept.fits hl).released⟩, hkept.distinct,
      hkept.known, hkept.shared, hkept.reader, hkept.unread⟩
  · dsimp only
    rw [tellAll_markClosed]
    exact (h.drop hsome).tellAll m _ fun s => decoupleMount_within s _
  · dsimp only
    rw [tellAll_markClosed]
    exact (h.drop hsome).tellAll m _ fun s => decoupleFocus_within s _
  · exact h.drop hsome

/-- A system closes a connection it reads from. -/
theorem Wired.obssClose (h : v.Wired gone) (m : Moment) {id : ℕ} {p : PeerType}
    (hread : (id, p) ∈ v.readers conn) :
    ((v.tell m id (.onTcpClose conn p)).markClosed conn).Wired gone := by
  obtain ⟨q, hq, -⟩ := h.reader conn _ hread
  have hsome : (v.peer conn).isSome = true := by
    rw [hq]
    rfl
  refine Wired.markClosed (h.tell m fun s _ hs => hs.within ?_) hsome
  rw [Obss.linksAfter]
  split
  · exact ⟨.inr rfl, .inr rfl, Multiset.erase_le _ _⟩
  · exact .refl _

/-! ### Runs -/

theorem receives_iff {v : Server} {conn : Conn} : v.receives conn = true ↔
    v.alive = true ∧ (v.peer conn).isSome = true ∧ conn ∉ v.closed ∧
      (conn ∈ v.tcpCliClient ∨ conn ∈ v.tcpCliDevice ∨ v.held conn = true) := by
  simp [receives, and_assoc, or_assoc]

end Server

/-- The handling of a close. -/
def ServerEvent.closes : ServerEvent → Bool
  | .close _ | .obssClose _ _ _ => true
  | _ => false

/-- A line by which a camera registers. -/
def ServerEvent.registersCamera (v : Server) : ServerEvent → Prop
  | .line conn (.camera _) => v.IsCamera conn
  | _ => False

namespace Server

variable {gone : List Conn} {v : Server} {conn : Conn}

theorem Wired.onLine (h : v.Wired gone) (hgone : conn ∉ gone) (m : Moment) (proto : KVMsg) :
    Meets (Steady gone v)
      (fun fault => fault = .nullCamera → ServerEvent.registersCamera v (.line conn proto))
      (v.onLine m conn proto) := by
  have hv : Steady gone v v := ⟨h, rfl, rfl⟩
  have hcamera : ∀ {p : PeerType}, v.peer conn = some p → p.isCamera = true →
      Meets (Steady gone v)
        (fun fault => fault = .nullCamera → ServerEvent.registersCamera v (.line conn proto))
        (v.processProtocolCamera m conn proto p) := by
    intro p hpeer hp
    cases proto with
    | camera camera =>
        exact (hv.processProtocolCamera m hpeer hp hgone _).mono (fun _ => id) fun _ _ _ =>
          ⟨p, hpeer, hp⟩
    | _ => exact hv
  unfold Server.onLine
  split
  · exact hv.processProtocolClient m proto
  · next hpeer =>
      exact (hv.processProtocolMountGft m hpeer hgone proto).mono (fun _ => id)
        fun _ hne heq => absurd heq hne
  · next hpeer => exact hcamera hpeer rfl
  · next hpeer => exact hcamera hpeer rfl
  · exact hv

theorem Wired.onReport (h : v.Wired gone) (hgone : conn ∉ gone) (m : Moment) (proto : NonKVMsg) :
    Meets (Steady gone v) (· ≠ .nullCamera) (v.onReport m conn proto) := by
  have hv : Steady gone v v := ⟨h, rfl, rfl⟩
  unfold Server.onReport
  split
  · next hpeer => exact hv.processProtocolMountGwac m hpeer hgone proto
  · next hpeer => exact hv.processProtocolFocus m hpeer hgone proto
  · exact hv

/-- What is no close keeps the connections wired, and closes none. -/
theorem Wired.handle (h : v.Wired gone) (hgone : ∀ c ∈ gone, c ∈ v.closed) (m : Moment)
    {ev : ServerEvent} (hen : v.enabled ev = true) (hev : ev.closes = false) :
    Meets (fun w => w.Wired gone ∧ w.closed = v.closed)
      (fun fault => fault = .nullCamera → ev.registersCamera v) (v.handle m ev) := by
  have hv : Steady gone v v := ⟨h, rfl, rfl⟩
  have hopen : ∀ {conn}, v.receives conn = true → conn ∉ gone :=
    fun hrec hmem => (receives_iff.mp hrec).2.2.1 (hgone _ hmem)
  have hsteady : ∀ w, Steady gone v w → w.Wired gone ∧ w.closed = v.closed :=
    fun w hw => ⟨hw.wired, hw.closed⟩
  cases ev with
  | accept conn peer =>
      have hnew : v.peer conn = none := by
        simp only [enabled, Bool.and_eq_true] at hen
        exact Option.isNone_iff_eq_none.mp hen.1.2
      exact ⟨h.tcpAccept hnew peer, (tcpAccept_rest conn peer v).2.2⟩
  | line conn proto => exact (h.onLine (hopen hen) m proto).mono hsteady fun _ => id
  | report conn proto =>
      exact (h.onReport (hopen hen) m proto).mono hsteady fun _ hne heq => absurd heq hne
  | obssLine id conn proto => exact hsteady _ (hv.tell m id rfl)
  | tick id tick => exact hsteady _ (hv.tell m id (Tick.quiet tick))
  | dumpObss => exact (hv.dumpObss m).mono hsteady fun _ hfalse => hfalse.elim
  | close | obssClose => cases hev

/-- The program stops, and everything else is as it was. -/
theorem Wired.stop (h : v.Wired gone) : ({ v with alive := false } : Server).Wired gone where
  bound := h.bound
  fits hl := ⟨(h.fits hl).mount, (h.fits hl).focus, (h.fits hl).camera, (h.fits hl).nodup,
    (h.fits hl).released⟩
  distinct := h.distinct
  known := h.known
  shared := h.shared
  reader := h.reader
  unread := h.unread

/-- The state after a step. -/
theorem next_cases (c : Config Server ServerFault) (i : Moment × ServerEvent) :
    (c.state.enabled i.2 = false ∧ server.next c i = { c with hist := c.hist ++ [] }) ∨
    (c.state.enabled i.2 = true ∧ ∃ v, c.state.handle i.1 i.2 = .ok v ∧
      server.next c i = { state := v, hist := c.hist ++ [] }) ∨
    (c.state.enabled i.2 = true ∧ ∃ fault, c.state.handle i.1 i.2 = .error fault ∧
      server.next c i = { state := { c.state with alive := false }, hist := c.hist ++ [fault] }) := by
  unfold Machine.next server
  dsimp only
  cases hen : c.state.enabled i.2 with
  | false => exact .inl ⟨rfl, rfl⟩
  | true =>
      refine .inr ?_
      cases hres : c.state.handle i.1 i.2 with
      | ok v => exact .inl ⟨rfl, v, rfl, rfl⟩
      | error fault => exact .inr ⟨rfl, fault, rfl, rfl⟩

/-- The close of a connection leaves no fault. -/
theorem Wired.handle_close (h : v.Wired gone) (m : Moment) {ev : ServerEvent}
    (hen : v.enabled ev = true) (hev : ev.closes = true) :
    Meets (Wired gone) (fun _ => False) (v.handle m ev) := by
  cases ev with
  | close conn =>
      simp only [enabled, Bool.and_eq_true] at hen
      exact h.close m hen.1.2
  | obssClose id conn peer =>
      simp only [enabled, Bool.and_eq_true, List.contains_iff_mem] at hen
      exact h.obssClose m hen.1.2
  | accept | line | report | obssLine | tick | dumpObss => cases hev

/-- Every step keeps the connections wired. -/
theorem Wired.next {c : Config Server ServerFault} (h : c.state.Wired [])
    (i : Moment × ServerEvent) : (server.next c i).state.Wired [] := by
  have hmeets : c.state.enabled i.2 = true →
      Meets (Wired []) (fun _ => True) (c.state.handle i.1 i.2) := by
    intro hen
    cases hev : i.2.closes with
    | true => exact (h.handle_close i.1 hen hev).mono (fun _ => id) fun _ _ => trivial
    | false =>
        exact (h.handle (fun c hc => absurd hc List.not_mem_nil) i.1 hen hev).mono
          (fun _ hw => hw.1) fun _ _ => trivial
  rcases next_cases c i with ⟨-, hnext⟩ | ⟨hen, v, hv, hnext⟩ | ⟨-, fault, -, hnext⟩
  · rw [hnext]
    exact h
  · rw [hnext]
    have hwired := hmeets hen
    rwa [hv] at hwired
  · rw [hnext]
    exact h.stop

theorem wired_start : Server.start.state.Wired [] where
  bound hl := by cases hl
  fits hl := by cases hl
  distinct := List.nodup_nil
  known c hc := by rcases hc with hc | hc <;> cases hc
  shared c hc := by rcases hc with hc | hc <;> cases hc
  reader c r hr := by cases hr
  unread c hc := by cases hc

/-- In every run the connections are wired. -/
theorem wired_always (is : List (Moment × ServerEvent)) :
    server.Always (fun c => c.state.Wired []) Server.start is :=
  Machine.always_of_invariant wired_start fun _ i h => Wired.next h i

end Server

end Gtoaes
