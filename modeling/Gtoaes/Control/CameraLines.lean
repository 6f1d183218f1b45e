import Gtoaes.Control.WiredStep

/-!
The lines of a camera that `GeneralControl` handles. The first one that finds its
system takes the connection out of the pool, and the loop goes on reading the
connection's buffer. The next one hands the system a null pointer, which does no
harm only where the system turns the camera away.
-/

namespace Gtoaes

open Lib

/-- No null pointer has been coupled as a camera, and each connection is in one
entry of one system at most. -/
structure CamerasSafe (c : Config Server ServerFault) : Prop where
  neverNull : ServerFault.nullCamera ∉ c.hist
  onePlace : ∀ id id' (s s' : Obss) (k k' : ℕ) (it it' : CameraInfo) conn, c.state.control.obssVec id = some s →
    c.state.control.obssVec id' = some s' → s.camInfoVec[k]? = some it →
    s'.camInfoVec[k']? = some it' → it.ptrTcp = some conn → it'.ptrTcp = some conn →
    id = id' ∧ k = k'

/-- A camera line on a connection that has already left the pool comes to a system
that turns it away, as an entry under the line's id is on-line, or to none at all. -/
def ServerEvent.RepeatsSafely (m : Moment) (v : Server) : ServerEvent → Prop
  | .line conn (.camera camera) => v.IsCamera conn → conn ∉ v.tcpCliDevice →
      match (v.control.matched camera.gid camera.uid).head? with
      | some id => ∃ s, v.control.obssVec id = some s ∧ s.takesCamera camera.cid = false
      | none => camera.gid = [] ∨ camera.uid = [] ∨ m.starts camera.gid camera.uid = false
  | _ => True

namespace Server

variable {gone : List Conn} {v : Server} {conn : Conn}

theorem Wired.onePlace (h : v.Wired gone) {id id' : ℕ} {s s' : Obss} {k k' : ℕ}
    {it it' : CameraInfo} (hs : v.control.obssVec id = some s)
    (hs' : v.control.obssVec id' = some s') (hit : s.camInfoVec[k]? = some it)
    (hit' : s'.camInfoVec[k']? = some it') (hconn : it.ptrTcp = some conn)
    (hconn' : it'.ptrTcp = some conn) : id = id' ∧ k = k' := by
  have hl : v.links id = some s.links := GeneralControl.links_eq_some.mpr ⟨s, hs, rfl⟩
  have hl' : v.links id' = some s'.links := GeneralControl.links_eq_some.mpr ⟨s', hs', rfl⟩
  have hmem : ∀ {s : Obss} {k : ℕ} {it : CameraInfo}, s.camInfoVec[k]? = some it →
      it.ptrTcp = some conn → conn ∈ s.links.cams :=
    fun hit hconn => List.mem_filterMap.mpr ⟨_, List.mem_of_getElem? hit, hconn⟩
  obtain rfl := h.holder_unique hl hl' (hmem hit hconn) (hmem hit' hconn')
  obtain rfl : s = s' := Option.some.inj (hs.symm.trans hs')
  exact ⟨rfl, index_unique (Multiset.coe_nodup.mp (h.fits hl).nodup) hit hit' hconn hconn'⟩

/-- What `CoupleCamera` is called on comes to a null pointer. -/
theorem coupleCamera_null {m : Moment} {id : ℕ} {ptr : Option Conn} {cid : Text} {s : Obss}
    (hs : v.control.obssVec id = some s) :
    v.coupleCamera m id ptr cid = .error .nullCamera ↔ ptr = none ∧ s.takesCamera cid = true := by
  unfold Server.coupleCamera
  rw [hs]
  dsimp only
  cases s.takesCamera cid with
  | false => simp
  | true => cases ptr <;> simp

theorem popDevice_null : (v.popDevice conn).1 = none ↔ conn ∉ v.tcpCliDevice := by
  unfold popDevice find
  dsimp only
  split
  · next hmem => exact iff_of_false (Option.some_ne_none conn) (not_not_intro hmem)
  · next hmem => exact iff_of_true rfl hmem

/-- The lines that end in a null pointer. -/
theorem camera_null_iff (m : Moment) {p : PeerType} (hport : v.peer conn = some p)
    (hp : p.isCamera = true) (camera : KVCamera) :
    v.processProtocolCamera m conn (.camera camera) p = .error .nullCamera ↔
      ¬ (ServerEvent.line conn (.camera camera)).RepeatsSafely m v := by
  have hcamera : v.IsCamera conn := ⟨p, hport, hp⟩
  rw [ServerEvent.RepeatsSafely, forall_prop_of_true hcamera]
  unfold Server.processProtocolCamera withObss GeneralControl.findObssPtr
  dsimp only
  cases hhead : (v.control.matched camera.gid camera.uid).head? with
  | some id =>
      obtain ⟨-, s, hs, -⟩ := GeneralControl.mem_matched.mp (List.mem_of_head? hhead)
      show (v.popDevice conn).2.coupleCamera m id (v.popDevice conn).1 camera.cid = _ ↔ _
      rw [coupleCamera_null (v := (v.popDevice conn).2) hs, popDevice_null, Classical.not_imp]
      refine and_congr_right fun _ => ?_
      simp [hs]
  | none =>
      by_cases hids : camera.gid ≠ [] ∧ camera.uid ≠ [] ∧ m.starts camera.gid camera.uid = true
      · -- a system has just been made, and it has no cameras
        have hnew : ((v.control.put v.control.created (some
            (Obss.create camera.gid camera.uid (portType p) m.now))).obssVec v.control.created) =
            some (Obss.create camera.gid camera.uid (portType p) m.now) := GeneralControl.put_self ..
        simp only [if_pos hids]
        rw [coupleCamera_null hnew, popDevice_null, Classical.not_imp]
        refine and_congr_right fun _ => iff_of_true rfl ?_
        simp [hids.1, hids.2.1, hids.2.2]
      · simp only [if_neg hids]
        refine iff_of_false (fun heq => by cases heq) (not_not_intro fun _ => ?_)
        rwa [not_and_or, not_and_or, not_not, not_not, Bool.not_eq_true] at hids

/-- An event comes to a null camera just where it is a line that repeats unsafely. -/
theorem Wired.handle_null_iff (h : v.Wired gone) (hgone : ∀ c ∈ gone, c ∈ v.closed) (m : Moment)
    {ev : ServerEvent} (hen : v.enabled ev = true) :
    v.handle m ev = .error .nullCamera ↔ ¬ ev.RepeatsSafely m v := by
  by_cases hreg : ev.registersCamera v
  · cases ev with
    | line conn proto =>
        cases proto with
        | camera camera =>
            obtain ⟨p, hport, hp⟩ := hreg
            rw [← camera_null_iff m hport hp camera]
            unfold Server.handle Server.onLine
            dsimp only
            rw [hport]
            cases p <;> first | rfl | cases hp
        | _ => exact hreg.elim
    | _ => exact hreg.elim
  · refine iff_of_false (fun hnull => ?_) (not_not_intro ?_)
    · cases hev : ev.closes with
      | true =>
          -- a close hands no pointer over
          have hmeets := h.handle_close m hen hev
          rw [hnull] at hmeets
          exact hmeets
      | false =>
          -- any other event ends by a null pointer only where it registers a camera
          have hmeets := h.handle hgone m hen hev
          rw [hnull] at hmeets
          exact hreg (hmeets rfl)
    · cases ev with
      | line conn proto =>
          cases proto with
          | camera camera => exact fun hcamera => absurd hcamera hreg
          | _ => trivial
      | _ => trivial

/-- A step keeps the cameras safe just where a line it handles, if it handles one,
repeats safely. -/
theorem Wired.camerasSafe_next_iff {c : Config Server ServerFault} (h : c.state.Wired [])
    (hsafe : CamerasSafe c) (i : Moment × ServerEvent) :
    CamerasSafe (server.next c i) ↔
      (c.state.enabled i.2 = true → i.2.RepeatsSafely i.1 c.state) := by
  have hplace := Wired.next h i
  have hiff : CamerasSafe (server.next c i) ↔ ServerFault.nullCamera ∉ (server.next c i).hist :=
    ⟨fun hnext => hnext.neverNull, fun hnever => ⟨hnever, fun _ _ _ _ _ _ _ _ _ => hplace.onePlace⟩⟩
  have hnull : c.state.enabled i.2 = true →
      (c.state.handle i.1 i.2 = .error .nullCamera ↔ ¬ i.2.RepeatsSafely i.1 c.state) :=
    h.handle_null_iff (fun c hc => absurd hc List.not_mem_nil) i.1
  rw [hiff]
  rcases next_cases c i with ⟨hoff, hnext⟩ | ⟨hen, w, hw, hnext⟩ | ⟨hen, fault, hfault, hnext⟩
  · rw [hnext, hoff]
    refine iff_of_true ?_ fun hon => absurd hon Bool.false_ne_true
    simpa using hsafe.neverNull
  · rw [hnext, imp_iff_right hen, ← not_iff_not, ← hnull hen, hw]
    simpa using hsafe.neverNull
  · rw [hnext, imp_iff_right hen, ← not_iff_not, ← hnull hen, hfault]
    simp [hsafe.neverNull, eq_comm]

end Server

/-- In a run no null pointer is ever coupled as a camera if and only if every line
of a camera that has already been handed over repeats safely. -/
theorem camerasSafe_iff_repeatsSafely (is : List (Moment × ServerEvent)) :
    server.Always CamerasSafe Server.start is ↔
      server.Each (fun c i => c.state.enabled i.2 = true → i.2.RepeatsSafely i.1 c.state)
        Server.start is := by
  refine Machine.always_iff_each (Server.wired_always is).each ?_ fun c i h hsafe => ?_
  · exact ⟨List.not_mem_nil, fun _ _ _ _ _ _ _ _ _ => Server.wired_start.onePlace⟩
  · exact Server.Wired.camerasSafe_next_iff h hsafe i

/-- A camera sends two lines that differ in the camera id. -/
def twoIds : List (Moment × ServerEvent) :=
  [.accept 1 .cameraGFT,
    .line 1 (.camera { gid := "G".toList, uid := "U".toList, cid := "1".toList }),
    .line 1 (.camera { gid := "G".toList, uid := "U".toList, cid := "2".toList })].map
      fun ev => (.blank, ev)

theorem not_camerasSafe : ¬ server.Always CamerasSafe Server.start twoIds := by
  intro h
  have hnever := h.exec.neverNull
  exact hnever (by decide)

end Gtoaes
