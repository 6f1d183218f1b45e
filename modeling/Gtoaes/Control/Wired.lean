import Gtoaes.Control.Server
import Gtoaes.Lib.Fallible

/-!
Who holds which connection. A mount and a focuser may be held by many systems; a
camera is held in one place: the pool, or one entry of the one system that reads
from it. This is an invariant of all runs. `Wired gone` says besides that nobody
holds a connection from the list `gone`.
-/

namespace Gtoaes

open Lib

theorem Obss.holds_iff {s : Obss} {conn : Conn} : s.holds conn = true ↔ s.links.Holds conn := by
  simp [holds, Links.Holds, links, or_assoc]

def GeneralControl.links (g : GeneralControl) (id : ℕ) : Option Links :=
  (g.obssVec id).map Obss.links

theorem GeneralControl.links_eq_some {g : GeneralControl} {id : ℕ} {l : Links} :
    g.links id = some l ↔ ∃ s, g.obssVec id = some s ∧ s.links = l := Option.map_eq_some_iff

namespace Server

def links (v : Server) (id : ℕ) : Option Links := v.control.links id

/-- Accepted on one of the camera ports. -/
def IsCamera (v : Server) (conn : Conn) : Prop := ∃ p, v.peer conn = some p ∧ p.isCamera = true

/-- Accepted on one of the mount ports. -/
def IsMount (v : Server) (conn : Conn) : Prop :=
  v.peer conn = some .mountGWAC ∨ v.peer conn = some .mountGFT

/-- A system may hold these connections. -/
structure Fits (gone : List Conn) (v : Server) (id : ℕ) (l : Links) : Prop where
  mount : ∀ c, l.tcpMount = some c → v.IsMount c
  focus : ∀ c, l.tcpFocus = some c → v.peer c = some .focus
  camera : ∀ c ∈ l.cams,
    v.IsCamera c ∧ c ∉ v.tcpCliDevice ∧ (v.readers c).map Prod.fst = [id]
  nodup : l.cams.Nodup
  released : ∀ c, l.Holds c → c ∉ gone

structure Wired (gone : List Conn) (v : Server) : Prop where
  bound : ∀ {id l}, v.links id = some l → id < v.control.created
  fits : ∀ {id l}, v.links id = some l → v.Fits gone id l
  distinct : v.tcpCliDevice.Nodup
  known : ∀ c, c ∈ v.tcpCliDevice ∨ c ∈ v.closed → (v.peer c).isSome = true
  shared : ∀ c, v.peer c = some .mountGWAC ∨ v.peer c = some .focus → c ∉ v.closed →
    c ∈ v.tcpCliDevice
  reader : ∀ c, ∀ r ∈ v.readers c, ∃ p, v.peer c = some p ∧ (r.2.isCamera = true → p.isCamera = true)
  unread : ∀ c ∈ v.tcpCliDevice, v.IsCamera c → v.readers c = []

variable {gone : List Conn} {v : Server} {id : ℕ} {l l' : Links} {conn : Conn}

theorem Fits.within (h : v.Fits gone id l) (hl : l'.Within l) : v.Fits gone id l' where
  mount c hc := h.mount c (by simpa [hc, eq_comm] using hl.mount)
  focus c hc := h.focus c (by simpa [hc, eq_comm] using hl.focus)
  camera c hc := h.camera c (Multiset.mem_of_le hl.cams hc)
  nodup := Multiset.nodup_of_le hl.cams h.nodup
  released c hc := by
    rcases hc with hc | hc | hc
    · exact h.released c (.inl (by simpa [hc, eq_comm] using hl.mount))
    · exact h.released c (.inr (.inl (by simpa [hc, eq_comm] using hl.focus)))
    · exact h.released c (.inr (.inr (Multiset.mem_of_le hl.cams hc)))

theorem Fits.empty (type : ObssType) : v.Fits gone id ⟨type, none, none, 0⟩ where
  mount c hc := by cases hc
  focus c hc := by cases hc
  camera c hc := absurd hc (Multiset.notMem_zero c)
  nodup := Multiset.nodup_zero
  released c hc := by
    rcases hc with hc | hc | hc
    · cases hc
    · cases hc
    · exact absurd hc (Multiset.notMem_zero c)

theorem Fits.plugMount (h : v.Fits gone id l) (hconn : v.IsMount conn) (hgone : conn ∉ gone) :
    v.Fits gone id { l with tcpMount := some conn } where
  mount c hc := by
    obtain rfl := Option.some.inj hc
    exact hconn
  focus := h.focus
  camera := h.camera
  nodup := h.nodup
  released c hc := by
    rcases hc with hc | hc
    · obtain rfl := Option.some.inj hc
      exact hgone
    · exact h.released c (.inr hc)

theorem Fits.plugFocus (h : v.Fits gone id l) (hconn : v.peer conn = some .focus)
    (hgone : conn ∉ gone) : v.Fits gone id { l with tcpFocus := some conn } where
  mount := h.mount
  focus c hc := by
    obtain rfl := Option.some.inj hc
    exact hconn
  camera := h.camera
  nodup := h.nodup
  released c hc := by
    rcases hc with hc | hc | hc
    · exact h.released c (.inl hc)
    · obtain rfl := Option.some.inj hc
      exact hgone
    · exact h.released c (.inr (.inr hc))

theorem Fits.plugCamera (h : v.Fits gone id l) (hconn : v.IsCamera conn)
    (hpool : conn ∉ v.tcpCliDevice) (hreaders : (v.readers conn).map Prod.fst = [id])
    (hnew : conn ∉ l.cams) (hgone : conn ∉ gone) :
    v.Fits gone id { l with cams := conn ::ₘ l.cams } where
  mount := h.mount
  focus := h.focus
  camera c hc := by
    rcases Multiset.mem_cons.mp hc with rfl | hc
    · exact ⟨hconn, hpool, hreaders⟩
    · exact h.camera c hc
  nodup := Multiset.nodup_cons.mpr ⟨hnew, h.nodup⟩
  released c hc := by
    rcases hc with hc | hc | hc
    · exact h.released c (.inl hc)
    · exact h.released c (.inr (.inl hc))
    · rcases Multiset.mem_cons.mp hc with rfl | hc
      · exact hgone
      · exact h.released c (.inr (.inr hc))

/-- A camera in the pool is held by no system. -/
theorem Wired.notMem_cams (h : v.Wired gone) (hconn : conn ∈ v.tcpCliDevice)
    (hl : v.links id = some l) : conn ∉ l.cams :=
  fun hc => ((h.fits hl).camera conn hc).2.1 hconn

/-- A camera is held by one system at most. -/
theorem Wired.holder_unique (h : v.Wired gone) {id' : ℕ} (hl : v.links id = some l)
    (hl' : v.links id' = some l') (hc : conn ∈ l.cams) (hc' : conn ∈ l'.cams) : id = id' := by
  have hread := ((h.fits hl).camera conn hc).2.2
  rw [((h.fits hl').camera conn hc').2.2] at hread
  exact (List.singleton_inj.mp hread).symm

/-- Only the systems change. -/
theorem Wired.control (h : v.Wired gone) {g : GeneralControl}
    (hbound : ∀ {id l}, g.links id = some l → id < g.created)
    (hfits : ∀ {id l}, g.links id = some l → v.Fits gone id l) :
    ({ v with control := g } : Server).Wired gone where
  bound := hbound
  fits hl := ⟨(hfits hl).mount, (hfits hl).focus, (hfits hl).camera, (hfits hl).nodup,
    (hfits hl).released⟩
  distinct := h.distinct
  known := h.known
  shared := h.shared
  reader := h.reader
  unread := h.unread

/-- Nobody takes up anything. -/
theorem Wired.shrink (h : v.Wired gone) {g : GeneralControl} (hcreated : g.created = v.control.created)
    (hlinks : ∀ {id l'}, g.links id = some l' → ∃ l, v.links id = some l ∧ l'.Within l) :
    ({ v with control := g } : Server).Wired gone := by
  refine h.control (fun hl' => ?_) (fun hl' => ?_)
  · obtain ⟨l, hl, -⟩ := hlinks hl'
    exact hcreated ▸ h.bound hl
  · obtain ⟨l, hl, hwithin⟩ := hlinks hl'
    exact (h.fits hl).within hwithin

end Server

namespace GeneralControl

theorem links_put (g : GeneralControl) (id : ℕ) (s : Option Obss) (j : ℕ) :
    (g.put id s).links j = if j = id then s.map Obss.links else g.links j := by
  unfold links
  by_cases hj : j = id
  · rw [hj, put_self, if_pos rfl]
  · rw [put_other hj, if_neg hj]

theorem turn_created (posix : PosixTime) (g : GeneralControl) (now : Time) (unset : Unset)
    (id addr : ℕ) (ev : Event) :
    (g.turn posix ⟨now, unset, .system id addr ev⟩).1.created = g.created := by
  rw [turn]
  dsimp only
  split <;> rfl

/-- What an event at a system does to the connections of all. -/
theorem links_turn (posix : PosixTime) (g : GeneralControl) (now : Time) (unset : Unset)
    (id addr : ℕ) (ev : Event) (j : ℕ) :
    (g.turn posix ⟨now, unset, .system id addr ev⟩).1.links j =
      if j = id then (g.obssVec id).map fun s => s.linksAfter ev else g.links j := by
  rw [turn]
  dsimp only
  cases hs : g.obssVec id with
  | none =>
      show g.links j = _
      by_cases hj : j = id
      · rw [hj, if_pos rfl, links, hs]
        rfl
      · rw [if_neg hj]
  | some s =>
      show (g.put id _).links j = _
      rw [links_put]
      show (if j = id then some (Obss.step _ ev s).1.links else _) = _
      rw [Obss.links_step]
      rfl

end GeneralControl

namespace Server

variable {gone : List Conn} {v : Server} {conn : Conn}

theorem links_tell (m : Moment) (id : ℕ) (ev : Event) (v : Server) (j : ℕ) :
    (v.tell m id ev).links j =
      if j = id then (v.control.obssVec id).map fun s => s.linksAfter ev else v.links j :=
  GeneralControl.links_turn ..

/-- The system that an event has come to, and the others. -/
theorem obssVec_tell (m : Moment) {id : ℕ} (ev : Event) {s : Obss}
    (hs : v.control.obssVec id = some s) :
    ∃ s' : Obss, s'.ident = s.ident ∧ s'.links = s.linksAfter ev ∧
      ∀ j, (v.tell m id ev).control.obssVec j =
        if j = id then some s' else v.control.obssVec j := by
  let ctx := v.control.ctx m.posix ⟨m.now, m.unset, .system id v.control.fresh ev⟩ id v.control.fresh
  refine ⟨_, Obss.fixes_ident ctx ev s, Obss.links_step ctx ev s, fun j => ?_⟩
  unfold tell GeneralControl.turn
  dsimp only
  rw [hs]
  rfl

theorem links_tell_some {m : Moment} {id j : ℕ} {ev : Event} {l : Links}
    (h : (v.tell m id ev).links j = some l) :
    (∃ s : Obss, j = id ∧ v.links id = some s.links ∧ l = s.linksAfter ev) ∨
      j ≠ id ∧ v.links j = some l := by
  rw [links_tell] at h
  by_cases hj : j = id
  · obtain ⟨s, hs, hafter⟩ := Option.map_eq_some_iff.mp ((if_pos hj).symm.trans h)
    exact .inl ⟨s, hj, GeneralControl.links_eq_some.mpr ⟨s, hs, rfl⟩, hafter.symm⟩
  · exact .inr ⟨hj, (if_neg hj).symm.trans h⟩

theorem Wired.tell (h : v.Wired gone) (m : Moment) {id : ℕ} {ev : Event}
    (hfits : ∀ s : Obss, v.links id = some s.links → v.Fits gone id s.links →
      v.Fits gone id (s.linksAfter ev)) : (v.tell m id ev).Wired gone := by
  refine h.control (fun {j l} hl => ?_) (fun {j l} hl => ?_)
  · rw [GeneralControl.turn_created]
    rcases links_tell_some hl with ⟨s, rfl, hs, -⟩ | ⟨-, hl⟩
    · exact h.bound hs
    · exact h.bound hl
  · rcases links_tell_some hl with ⟨s, rfl, hs, rfl⟩ | ⟨-, hl⟩
    · exact hfits s hs (h.fits hs)
    · exact h.fits hl

/-- Most events leave the connections as they are. -/
theorem Wired.tell_quiet (h : v.Wired gone) (m : Moment) (id : ℕ) {ev : Event}
    (hev : ev.links = false) : (v.tell m id ev).Wired gone := by
  refine h.tell m fun s _ hs => ?_
  rwa [Obss.linksAfter_of_quiet s hev]

/-- So do the rounds over all systems in which each one lets go. -/
theorem Wired.tellAll (h : v.Wired gone) (m : Moment) (ids : List ℕ) {ev : Event}
    (hev : ∀ s : Obss, (s.linksAfter ev).Within s.links) : (v.tellAll m ids ev).Wired gone :=
  foldl_keeps (P := Wired gone)
    (fun _ _ hv => hv.tell m fun s _ hs => hs.within (hev s)) ids h

theorem Wired.findObssPtr (h : v.Wired gone) (gid uid : Text) (type : ObssType) (starts : Bool)
    (now : Time) :
    ({ v with control := (v.control.findObssPtr gid uid type starts now).2 } : Server).Wired
      gone := by
  rcases v.control.findObssPtr_cases gid uid type starts now with hsame | ⟨-, -, -, hnew⟩
  · rw [hsame]
    exact h
  · have hlinks : ∀ j, (v.control.findObssPtr gid uid type starts now).2.links j =
        if j = v.control.created then some ⟨type, none, none, 0⟩ else v.links j := by
      intro j
      rw [hnew]
      exact GeneralControl.links_put ..
    refine h.control (fun {j l} hl => ?_) (fun {j l} hl => ?_)
    · rw [hlinks] at hl
      rw [hnew]
      by_cases hj : j = v.control.created
      · exact hj ▸ Nat.lt_succ_self _
      · exact (h.bound ((if_neg hj).symm.trans hl)).trans (Nat.lt_succ_self _)
    · rw [hlinks] at hl
      by_cases hj : j = v.control.created
      · obtain rfl := Option.some.inj ((if_pos hj).symm.trans hl)
        exact .empty type
      · exact h.fits ((if_neg hj).symm.trans hl)

end Server

end Gtoaes
