import Gtoaes.Control.WiredStep

/-!
Whether a closed connection is let go of. `GeneralControl` decouples a mount or a
focuser of GWAC, and a system resets the entry of a camera. Nobody decouples a GFT
mount, nor a camera whose close has come to `GeneralControl`, as it does where it
was posted before the first line of the camera had been handled.
-/

namespace Gtoaes

open Lib

/-- No system holds a connection whose close has been handled, so a system whose
mount has been closed takes any other connection of its mount. -/
structure Server.Freed (v : Server) : Prop where
  released : ∀ id s conn, v.control.obssVec id = some s → s.holds conn = true → conn ∉ v.closed
  recoupled : ∀ id s, v.control.obssVec id = some s → (∀ c, s.tcpMount = some c → c ∈ v.closed) →
    ∀ conn, (Obss.coupleMount conn s).1.tcpMount = some conn

/-- No system holds a connection. -/
def Server.Unheld (v : Server) (conn : Conn) : Prop :=
  ∀ id s, v.control.obssVec id = some s → s.holds conn = false

/-- The loop that handles a close is the one that decouples the device, or no
system holds the connection. -/
def ServerEvent.Frees (v : Server) : ServerEvent → Prop
  | .close conn =>
      v.peer conn = some .mountGWAC ∨ v.peer conn = some .focus ∨ v.Unheld conn
  | .obssClose _ conn peer => peer.isCamera = true ∨ v.Unheld conn
  | _ => True

theorem Obss.recouples {s : Obss} (h : s.tcpMount = none) (conn : Conn) :
    (coupleMount conn s).1.tcpMount = some conn := by
  unfold coupleMount
  cases s.obssType <;> simp [h]

namespace Server

variable {gone : List Conn} {v : Server} {conn : Conn}

theorem unheld_iff : v.Unheld conn ↔ ∀ id l, v.links id = some l → ¬ l.Holds conn := by
  constructor
  · intro h id l hl hholds
    obtain ⟨s, hs, rfl⟩ := GeneralControl.links_eq_some.mp hl
    exact Bool.false_ne_true ((h id s hs).symm.trans (Obss.holds_iff.mpr hholds))
  · intro h id s hs
    rw [Bool.eq_false_iff]
    exact fun hholds => h id _ (GeneralControl.links_eq_some.mpr ⟨s, hs, rfl⟩) (Obss.holds_iff.mp hholds)

theorem Wired.anyGone (h : v.Wired gone) {gone' : List Conn}
    (hgone : ∀ {id l c}, v.links id = some l → l.Holds c → c ∉ gone') : v.Wired gone' where
  bound := h.bound
  fits hl := ⟨(h.fits hl).mount, (h.fits hl).focus, (h.fits hl).camera, (h.fits hl).nodup,
    fun _ hc => hgone hl hc⟩
  distinct := h.distinct
  known := h.known
  shared := h.shared
  reader := h.reader
  unread := h.unread

/-- To let go of all closed connections is to be wired without them. -/
theorem Wired.freed_iff (h : v.Wired gone) : v.Freed ↔ v.Wired v.closed := by
  constructor
  · intro hfreed
    refine h.anyGone fun {id l c} hl hc => ?_
    obtain ⟨s, hs, rfl⟩ := GeneralControl.links_eq_some.mp hl
    exact hfreed.released id s c hs (Obss.holds_iff.mpr hc)
  · intro hwired
    have hreleased : ∀ id s conn, v.control.obssVec id = some s → s.holds conn = true →
        conn ∉ v.closed := by
      intro id s conn hs hholds
      have hl : v.links id = some s.links := GeneralControl.links_eq_some.mpr ⟨s, hs, rfl⟩
      exact (hwired.fits hl).released conn (Obss.holds_iff.mp hholds)
    refine ⟨hreleased, fun id s hs hmount conn => Obss.recouples ?_ conn⟩
    rw [Option.eq_none_iff_forall_ne_some]
    intro c hc
    exact hreleased id s c hs (Obss.holds_iff.mpr (.inl hc)) (hmount c hc)

theorem wired_cons : v.Wired (conn :: gone) ↔ v.Wired gone ∧ v.Unheld conn := by
  rw [unheld_iff]
  constructor
  · intro h
    refine ⟨h.anyGone fun hl hc hmem => ?_, fun id l hl hc => ?_⟩
    · exact (h.fits hl).released _ hc (List.mem_cons_of_mem conn hmem)
    · exact (h.fits hl).released conn hc List.mem_cons_self
  · rintro ⟨h, hunheld⟩
    refine h.anyGone fun {id l c} hl hc hmem => ?_
    rcases List.mem_cons.mp hmem with rfl | hmem
    · exact hunheld id l hl hc
    · exact (h.fits hl).released c hc hmem

/-- A connection is held as what it was accepted as. -/
theorem Wired.holds_cases (h : v.Wired gone) {id : ℕ} {l : Links} (hl : v.links id = some l)
    (hc : l.Holds conn) : (v.IsMount conn ∧ l.tcpMount = some conn) ∨
      (v.peer conn = some .focus ∧ l.tcpFocus = some conn) ∨ (v.IsCamera conn ∧ conn ∈ l.cams) := by
  have hfits := h.fits hl
  rcases hc with hc | hc | hc
  · exact .inl ⟨hfits.mount conn hc, hc⟩
  · exact .inr (.inl ⟨hfits.focus conn hc, hc⟩)
  · exact .inr (.inr ⟨(hfits.camera conn hc).1, hc⟩)

theorem tellAll_rest (m : Moment) (ids : List ℕ) (ev : Event) (v : Server) :
    (v.tellAll m ids ev).closed = v.closed ∧ (v.tellAll m ids ev).peer = v.peer := by
  induction ids generalizing v with
  | nil => exact ⟨rfl, rfl⟩
  | cons id ids ih => exact ih (v.tell m id ev)

theorem onTcpClose_rest (m : Moment) (conn : Conn) (v : Server) :
    (v.onTcpClose m conn).closed = v.closed ∧ (v.onTcpClose m conn).peer = v.peer := by
  unfold Server.onTcpClose
  split
  · exact ⟨rfl, rfl⟩
  · exact tellAll_rest ..
  · exact tellAll_rest ..
  · exact ⟨rfl, rfl⟩

theorem Wired.mem_ids (h : v.Wired gone) {id : ℕ} {l : Links} (hl : v.links id = some l) :
    id ∈ v.control.ids := by
  obtain ⟨s, hs, -⟩ := GeneralControl.links_eq_some.mp hl
  exact GeneralControl.mem_ids.mpr ⟨h.bound hl, s, hs⟩

/-- What all systems have been told. -/
theorem links_told {P : Links → Prop} (m : Moment) {ev : Event}
    (hP : ∀ s : Obss, P (s.linksAfter ev)) {ids : List ℕ}
    (hids : ∀ {id l}, v.links id = some l → id ∈ ids) {id : ℕ} {l : Links}
    (hl : (v.tellAll m ids ev).links id = some l) : P l := by
  refine links_tellAll m hP ids ?_ hl
  by_cases hid : id ∈ ids
  · exact .inl hid
  · exact .inr fun l hl => absurd (hids hl) hid

theorem decoupleMount_ne (s : Obss) (conn : Conn) :
    (s.linksAfter (.decoupleMount (some conn))).tcpMount ≠ some conn := by
  rw [Obss.linksAfter]
  split
  · exact Option.some_ne_none conn ∘ Eq.symm
  · next hne => exact hne

theorem decoupleFocus_ne (s : Obss) (conn : Conn) :
    (s.linksAfter (.decoupleFocus (some conn))).tcpFocus ≠ some conn := by
  rw [Obss.linksAfter]
  split
  · exact Option.some_ne_none conn ∘ Eq.symm
  · next hne => exact hne

/-- After a close, a system could hold the connection only as what it was accepted as. -/
theorem Wired.closed_cases (h : v.Wired gone) (m : Moment) {p : PeerType}
    (hport : v.peer conn = some p) {id : ℕ} {l : Links}
    (hl : (v.onTcpClose m conn).links id = some l) (hc : l.Holds conn) :
    ((p = .mountGWAC ∨ p = .mountGFT) ∧ l.tcpMount = some conn) ∨
      (p = .focus ∧ l.tcpFocus = some conn) ∨ (p.isCamera = true ∧ conn ∈ l.cams) := by
  have hwired : ((v.onTcpClose m conn).markClosed conn).Wired gone :=
    h.close m (by rw [hport]; rfl)
  have hpeer : ((v.onTcpClose m conn).markClosed conn).peer conn = some p :=
    (congrFun (onTcpClose_rest m conn v).2 conn).trans hport
  rcases hwired.holds_cases hl hc with ⟨hmount, hheld⟩ | ⟨hfocus, hheld⟩ | ⟨⟨q, hq, hcam⟩, hheld⟩
  · rw [IsMount, hpeer] at hmount
    exact .inl ⟨hmount.imp Option.some.inj Option.some.inj, hheld⟩
  · exact .inr (.inl ⟨Option.some.inj (hpeer.symm.trans hfocus), hheld⟩)
  · obtain rfl := Option.some.inj (hpeer.symm.trans hq)
    exact .inr (.inr ⟨hcam, hheld⟩)

/-- Every system has been told to decouple a mount of GWAC. -/
theorem Wired.unheld_mount (h : v.Wired gone) (m : Moment) (hport : v.peer conn = some .mountGWAC)
    (hopen : conn ∉ v.closed) : ((v.onTcpClose m conn).markClosed conn).Unheld conn := by
  have hpooled : find v.tcpCliDevice conn = some conn := if_pos (h.shared conn (.inl hport) hopen)
  have hclose : v.onTcpClose m conn =
      (v.popDevice conn).2.tellAll m v.control.ids (.decoupleMount (some conn)) := by
    unfold Server.onTcpClose Server.popDevice
    rw [hport, hpooled]
  refine unheld_iff.mpr fun id l hl hc => ?_
  rcases h.closed_cases m hport hl hc with ⟨-, hheld⟩ | ⟨hfocus, -⟩ | ⟨hcamera, -⟩
  · have hlinks : (v.onTcpClose m conn).links id = some l := hl
    rw [hclose] at hlinks
    exact links_told (P := fun l => l.tcpMount ≠ some conn) m (decoupleMount_ne · conn)
      (v := (v.popDevice conn).2) h.mem_ids hlinks hheld
  · cases hfocus
  · cases hcamera

/-- Every system has been told to decouple a focuser. -/
theorem Wired.unheld_focus (h : v.Wired gone) (m : Moment) (hport : v.peer conn = some .focus)
    (hopen : conn ∉ v.closed) : ((v.onTcpClose m conn).markClosed conn).Unheld conn := by
  have hpooled : find v.tcpCliDevice conn = some conn := if_pos (h.shared conn (.inr hport) hopen)
  have hclose : v.onTcpClose m conn =
      (v.popDevice conn).2.tellAll m v.control.ids (.decoupleFocus (some conn)) := by
    unfold Server.onTcpClose Server.popDevice
    rw [hport, hpooled]
  refine unheld_iff.mpr fun id l hl hc => ?_
  rcases h.closed_cases m hport hl hc with ⟨hmount, -⟩ | ⟨-, hheld⟩ | ⟨hcamera, -⟩
  · rcases hmount with hmount | hmount <;> cases hmount
  · have hlinks : (v.onTcpClose m conn).links id = some l := hl
    rw [hclose] at hlinks
    exact links_told (P := fun l => l.tcpFocus ≠ some conn) m (decoupleFocus_ne · conn)
      (v := (v.popDevice conn).2) h.mem_ids hlinks hheld
  · cases hcamera

/-- After `GeneralControl` has handled a close, nobody holds the connection if it
was shared with the pool, or if nobody held it before. -/
theorem Wired.unheld_close (h : v.Wired gone) (m : Moment) (hopen : conn ∉ v.closed) :
    ((v.onTcpClose m conn).markClosed conn).Unheld conn ↔ (ServerEvent.close conn).Frees v := by
  by_cases hmount : v.peer conn = some .mountGWAC
  · exact iff_of_true (h.unheld_mount m hmount hopen) (.inl hmount)
  · by_cases hfocus : v.peer conn = some .focus
    · exact iff_of_true (h.unheld_focus m hfocus hopen) (.inr (.inl hfocus))
    · have hsame : (v.onTcpClose m conn).control = v.control := by
        unfold Server.onTcpClose
        split
        · rfl
        · next hport => exact absurd hport hmount
        · next hport => exact absurd hport hfocus
        · rfl
      rw [ServerEvent.Frees, or_iff_right hmount, or_iff_right hfocus]
      unfold Unheld
      rw [show ((v.onTcpClose m conn).markClosed conn).control = v.control from hsame]

/-- After a system has handled a close, nobody holds the connection if it is that
of a camera, or if nobody held it before. -/
theorem Wired.unheld_obssClose (h : v.Wired gone) (m : Moment) {id : ℕ} {p : PeerType}
    (hread : (id, p) ∈ v.readers conn) :
    ((v.tell m id (.onTcpClose conn p)).markClosed conn).Unheld conn ↔
      (ServerEvent.obssClose id conn p).Frees v := by
  have hwired := h.obssClose m hread
  obtain ⟨q, hq, hcam⟩ := h.reader conn _ hread
  rw [ServerEvent.Frees]
  -- only a camera is taken out of its entry; a mount stays where it is
  cases hp : p.isCamera with
  | true =>
      refine iff_of_true (unheld_iff.mpr fun j l hl hc => ?_) (.inl rfl)
      have hqcam := hcam hp
      rcases hwired.holds_cases hl hc with ⟨hmount, -⟩ | ⟨hfocus, -⟩ | ⟨-, hheld⟩
      · rcases hmount with hmount | hmount
        all_goals
          obtain rfl := Option.some.inj (hq.symm.trans hmount)
          cases hqcam
      · obtain rfl := Option.some.inj (hq.symm.trans hfocus)
        cases hqcam
      · rcases links_tell_some hl with ⟨s, rfl, hs, rfl⟩ | ⟨hne, hold⟩
        · -- its entry has been reset, and it had only one
          rw [Obss.linksAfter, if_pos hp] at hheld
          exact (h.fits hs).nodup.notMem_erase hheld
        · have hmem : id ∈ (v.readers conn).map Prod.fst := List.mem_map_of_mem hread
          rw [((h.fits hold).camera conn hheld).2.2] at hmem
          exact hne (List.mem_singleton.mp hmem).symm
  | false =>
      have hsame : ∀ j, (v.tell m id (.onTcpClose conn p)).links j = v.links j := by
        intro j
        rw [links_tell]
        by_cases hj : j = id
        · rw [if_pos hj, hj]
          refine congrArg (fun f => Option.map f _) (funext fun s => ?_)
          rw [Obss.linksAfter, if_neg (by simp [hp])]
        · rw [if_neg hj]
      rw [or_iff_right Bool.false_ne_true, unheld_iff, unheld_iff]
      exact forall_congr' fun j => by rw [← hsame j]; rfl

/-- A handled close frees its connection just where `Frees` says so. -/
theorem Wired.freed_close (h : v.Wired v.closed) (m : Moment) {ev : ServerEvent}
    (hen : v.enabled ev = true) (hev : ev.closes = true) {w : Server}
    (hw : v.handle m ev = .ok w) : w.Freed ↔ ev.Frees v := by
  have hkept := h.handle_close m hen hev
  rw [hw] at hkept
  cases ev with
  | close conn =>
      simp only [enabled, Bool.and_eq_true, Bool.not_eq_true', List.contains_eq_mem,
        decide_eq_false_iff_not] at hen
      obtain rfl : _ = w := Except.ok.inj hw
      have hclosed : ((v.onTcpClose m conn).markClosed conn).closed = conn :: v.closed :=
        congrArg (conn :: ·) (onTcpClose_rest m conn v).1
      rw [hkept.freed_iff, hclosed, wired_cons, ← h.unheld_close m hen.2]
      exact and_iff_right hkept
  | obssClose id conn p =>
      simp only [enabled, Bool.and_eq_true, List.contains_iff_mem] at hen
      obtain rfl : _ = w := Except.ok.inj hw
      have hclosed : ((v.tell m id (.onTcpClose conn p)).markClosed conn).closed =
          conn :: v.closed := rfl
      rw [hkept.freed_iff, hclosed, wired_cons, ← h.unheld_obssClose m hen.1.2]
      exact and_iff_right hkept
  | accept | line | report | obssLine | tick | dumpObss => cases hev

theorem frees_of_not_closes (v : Server) {ev : ServerEvent} (h : ev.closes = false) : ev.Frees v := by
  cases ev with
  | close | obssClose => cases h
  | accept | line | report | obssLine | tick | dumpObss => trivial

/-- A step keeps the closed connections free just where the close it handles, if
it handles one, comes to the loop that decouples the device. -/
theorem Wired.freed_next_iff {c : Config Server ServerFault} (h : c.state.Wired [])
    (hfreed : c.state.Freed) (i : Moment × ServerEvent) :
    (server.next c i).state.Freed ↔ (c.state.enabled i.2 = true → i.2.Frees c.state) := by
  have hwired := h.freed_iff.mp hfreed
  rcases next_cases c i with ⟨hoff, hnext⟩ | ⟨hen, w, hw, hnext⟩ | ⟨hen, fault, hfault, hnext⟩
  · rw [hnext, hoff]
    exact iff_of_true hfreed fun hon => absurd hon Bool.false_ne_true
  · rw [hnext, imp_iff_right hen]
    cases hev : i.2.closes with
    | true => exact hwired.freed_close i.1 hen hev hw
    | false =>
        refine iff_of_true ?_ (frees_of_not_closes c.state hev)
        have hmeets := hwired.handle (fun _ hc => hc) i.1 hen hev
        rw [hw] at hmeets
        obtain ⟨hkept, hclosed⟩ := hmeets
        exact hkept.freed_iff.mpr (hclosed.symm ▸ hkept)
  · rw [hnext, imp_iff_right hen]
    refine iff_of_true (hwired.stop.freed_iff.mpr hwired.stop) ?_
    cases hev : i.2.closes with
    | true =>
        have hmeets := hwired.handle_close i.1 hen hev
        rw [hfault] at hmeets
        exact hmeets.elim
    | false => exact frees_of_not_closes c.state hev

end Server

/-- In a run no system ever holds a closed connection if and only if every close
that is handled comes to the loop that decouples the device, or is that of a
connection nobody holds. -/
theorem freed_iff_frees (is : List (Moment × ServerEvent)) :
    server.Always (fun c => c.state.Freed) Server.start is ↔
      server.Each (fun c i => c.state.enabled i.2 = true → i.2.Frees c.state) Server.start is := by
  refine Machine.always_iff_each (Server.wired_always is).each ?_ fun c i h hfreed => ?_
  · exact Server.wired_start.freed_iff.mpr Server.wired_start
  · exact Server.Wired.freed_next_iff h hfreed i

/-- A GFT mount registers, and its connection closes. -/
def mountLeaves : List (Moment × ServerEvent) :=
  [.accept 1 .mountGFT, .line 1 (.mount { gid := "G".toList, uid := "U".toList }),
    .obssClose 0 1 .mountGFT].map fun ev => (.blank, ev)

theorem not_freed : ¬ server.Always (fun c => c.state.Freed) Server.start mountLeaves := by
  intro h
  have hreleased := h.exec.released
  have hs : ∃ s, (server.exec Server.start mountLeaves).state.control.obssVec 0 = some s ∧
      s.holds 1 = true := ⟨_, rfl, by decide⟩
  obtain ⟨s, hs, hholds⟩ := hs
  have hopen := hreleased 0 s 1 hs hholds
  exact hopen (by decide)

end Gtoaes
