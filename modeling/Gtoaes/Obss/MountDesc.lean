import Gtoaes.Obss.Apart
import Gtoaes.Obss.Links

/-!
The names of the mount's states, which the log lines about it look up in a table. The
state that a mount is coupled with has no name. It stays until a state is reported that
has one, and no port of the program reports any for the mount of a GFT system.
-/

namespace Gtoaes

open Lib Lib.Handler

/-- `DESC_STATE_MOUNT` -/
def descStateMount : List Text :=
  ["Error", "Freeze", "Homing", "Homed", "Parking", "Parked", "Slewing", "Tracking",
    "Guiding"].map String.toList

/-- A place in the table. -/
def InTable (k : ℤ) : Prop := 0 ≤ k ∧ k < descStateMount.length

/-- A digit that stands for a state. -/
def Defined (state : ℤ) : Prop := mountMin < state ∧ state < mountMax

instance (state : ℤ) : Decidable (Defined state) := inferInstanceAs (Decidable (_ ∧ _))

/-- Whether a client wants the mount to track. -/
def Event.tracks : Event → Bool
  | .track | .trackVel _ => true
  | _ => false

namespace Obss

/-- Where the log line about an event looks into the table. -/
def descIndex (s : Obss) : Event → Option ℤ
  | .notifyMountState state =>
      if state = s.mountInfo.state then none
      else if mountMin < state ∧ state < mountMax then some state
      else none
  | .track =>
      if s.tcpMount.isNone then none
      else if s.mountInfo.state = mountFreeze ∨ s.mountInfo.state = mountHomed ∨
          s.mountInfo.state = mountParked then none
      else some s.mountInfo.state
  | .trackVel _ =>
      if s.tcpMount.isNone then none
      else if s.mountInfo.state = mountTracking then none
      else some s.mountInfo.state
  | _ => none

/-- Whether the mount has reported a state since it was coupled. -/
def toldAfter (s : Obss) (told : Bool) : Event → Bool
  | .coupleMount conn => told && !s.takesMount (some conn)
  | .notifyMountState state => told || decide (Defined state)
  | _ => told

/-- The link of the mount and its state. -/
def mountView (s : Obss) : Option Conn × ℤ := (s.tcpMount, s.mountInfo.state)

theorem away_mountView : Away mountView fun _ : Act => (none : Option Unit) where
  frames _ _ _ := rfl
  target _ _ _ := rfl
  counters _ _ := rfl
  plan _ _ _ := rfl
  numbers _ _ _ := rfl
  silent _ _ := rfl
  cameras _ _ _ := rfl
  blind _ := rfl

/-- What an event makes of the mount's link and state. -/
def mountViewAfter (s : Obss) : Event → Option Conn × ℤ
  | .coupleMount conn =>
      if s.takesMount (some conn) then (some conn, mountMin) else s.mountView
  | .decoupleMount ptr => if s.tcpMount = ptr then (none, mountError) else s.mountView
  | .notifyMountState state => if Defined state then (s.tcpMount, state) else s.mountView
  | _ => s.mountView

theorem notifyMountState_mountView (ctx : Ctx) (state : ℤ) (s : Obss) :
    (notifyMountState ctx state s).1.mountView = s.mountViewAfter (.notifyMountState state) := by
  rw [notifyMountState, mountViewAfter]
  split
  · next hsame =>
      rw [hsame]
      split <;> rfl
  · split
    · next hdefined =>
        obtain ⟨hview, -⟩ := away_mountView.mountArrived state s
        rw [if_pos (show Defined state from hdefined)]
        exact congrArg (fun v => (v.1, state)) hview
    · next hundefined => rw [if_neg (show ¬ Defined state from hundefined)]

theorem mountView_step (ctx : Ctx) (ev : Event) (s : Obss) :
    (step ctx ev s).1.mountView = s.mountViewAfter ev := by
  -- of what is neither distant nor optical three events touch mount or state
  cases hdistant : ev.distant with
  | true =>
      rw [(away_mountView.step_distant ctx hdistant s).1]
      cases ev <;> first | rfl | cases hdistant
  | false =>
      cases hoptical : ev.optical with
      | true =>
          rw [(away_mountView.step_optical ctx hoptical s).1]
          cases ev <;> first | rfl | cases hoptical
      | false =>
          cases ev with
          | coupleMount conn =>
              show (if s.takesMount (some conn) = true then _ else (s, [])).1.mountView = _
              rw [mountViewAfter]
              split <;> rfl
          | decoupleMount ptr =>
              rw [step, decoupleMount, mountViewAfter]
              split <;> rfl
          | notifyMountState state => exact notifyMountState_mountView ctx state s
          | decoupleFocus ptr =>
              rw [step, decoupleFocus, update_apply]
              split <;> rfl
          | obsplanTick => exact (away_mountView.threadObsplan (fun _ _ => rfl) ctx s).1
          | coupleFocus | notifyMountPosition => rfl
          | focus | focusSync | notifyFWHM | coupleCamera | notifyFocus | onTcpClose
          | deviceLine => cases hoptical
          | _ => cases hdistant

/-- The states that are stored; of a mount on-line, the nameless one means that nothing
has been reported. -/
structure Named (view : Option Conn × ℤ) (told : Bool) : Prop where
  low : mountMin ≤ view.2
  high : view.2 < mountMax
  untold : view.1.isSome = true → (view.2 = mountMin ↔ told = false)

theorem Named.step {s : Obss} {told : Bool} (h : Named s.mountView told) (ctx : Ctx) (ev : Event) :
    Named (step ctx ev s).1.mountView (s.toldAfter told ev) := by
  rw [mountView_step]
  cases ev with
  | coupleMount conn =>
      rw [mountViewAfter, toldAfter]
      cases s.takesMount (some conn) with
      | true =>
          -- coupled with the state that has no name, and nothing told
          rw [if_pos rfl]
          exact ⟨le_rfl, (by decide : mountMin < mountMax), fun _ => by simp⟩
      | false => simpa using h
  | decoupleMount ptr =>
      show Named _ told
      rw [mountViewAfter]
      split
      · -- the link is gone
        exact ⟨by decide, by decide, fun honline => by cases honline⟩
      · exact h
  | notifyMountState state =>
      rw [mountViewAfter, toldAfter]
      split
      · next hdefined =>
          obtain ⟨hlow, hhigh⟩ := hdefined
          refine ⟨hlow.le, hhigh, fun _ => ?_⟩
          rw [decide_eq_true ⟨hlow, hhigh⟩, Bool.or_true]
          exact iff_of_false hlow.ne' (by simp)
      · next hundefined => rwa [decide_eq_false hundefined, Bool.or_false]
  | _ => exact h

end Obss

/-! ### Runs -/

/-- A system on its own. About its mount it is known whether it has reported a state since
it was coupled. -/
structure Informed where
  system : Solo
  told : Bool := false

def inform (posix : PosixTime) : Machine Informed Input Act where
  step w input :=
    ({ system := ((solo posix).step w.system input).1
       told := w.system.obss.toldAfter w.told input.ev }, ((solo posix).step w.system input).2)

def Informed.start (gid uid : Text) (type : ObssType) (now : Time) : Config Informed Act where
  state := { system := { obss := Obss.create gid uid type now } }
  hist := []

/-- A log line finds what it looks up. -/
def LooksUp (w : Informed) (input : Input) : Prop :=
  ∀ k, w.system.obss.descIndex input.ev = some k → InTable k

/-- A mount that is to track, and is on-line, has reported a state since it was
coupled. -/
def TracksTold (w : Informed) (input : Input) : Prop :=
  input.ev.tracks = true → w.system.obss.tcpMount.isSome = true → w.told = true

theorem inTable_iff {state : ℤ} (hlow : mountMin ≤ state) (hhigh : state < mountMax) :
    InTable state ↔ state ≠ mountMin := by
  rw [mountMin] at hlow ⊢
  rw [mountMax] at hhigh
  have hlength : (descStateMount.length : ℤ) = 9 := rfl
  rw [InTable, hlength]
  omega

/-- A mount that does not track finds its state in the table just if it has one. -/
theorem looksUp_state_iff {w : Informed} (h : Obss.Named w.system.obss.mountView w.told)
    {tracking : Prop} [Decidable tracking]
    (hnone : w.system.obss.mountInfo.state = mountMin → ¬ tracking) :
    (∀ k, (if w.system.obss.tcpMount.isNone then none
        else if tracking then none
        else some w.system.obss.mountInfo.state) = some k → InTable k) ↔
      (w.system.obss.tcpMount.isSome = true → w.told = true) := by
  cases hlink : w.system.obss.tcpMount with
  | none => simp
  | some conn =>
      -- on-line, the nameless state and silence come to the same
      have huntold : w.system.obss.mountInfo.state = mountMin ↔ w.told = false :=
        h.untold (by rw [Obss.mountView, hlink]; rfl)
      have htold : w.told = true ↔ w.system.obss.mountInfo.state ≠ mountMin := by
        rw [ne_eq, huntold, Bool.not_eq_false]
      have hnamed : InTable w.system.obss.mountInfo.state ↔
          w.system.obss.mountInfo.state ≠ mountMin := inTable_iff h.low h.high
      rw [htold]
      by_cases htracking : tracking
      · have hne : w.system.obss.mountInfo.state ≠ mountMin := fun hmin => hnone hmin htracking
        simp [htracking, hne]
      · simpa [htracking] using hnamed

theorem looksUp_iff {w : Informed} (h : Obss.Named w.system.obss.mountView w.told)
    (input : Input) : LooksUp w input ↔ TracksTold w input := by
  obtain ⟨now, unset, ev⟩ := input
  cases ev with
  | track =>
      refine (looksUp_state_iff h ?_).trans ⟨fun htold _ => htold, fun htold => htold rfl⟩
      intro hmin
      rw [hmin]
      decide
  | trackVel proto =>
      refine (looksUp_state_iff h ?_).trans ⟨fun htold _ => htold, fun htold => htold rfl⟩
      intro hmin
      rw [hmin]
      decide
  | notifyMountState state =>
      refine iff_of_true (fun k hk => ?_) fun htracks => by cases htracks
      rw [Obss.descIndex] at hk
      split at hk
      · cases hk
      · split at hk
        · next hdefined =>
            obtain rfl := Option.some.inj hk
            exact (inTable_iff hdefined.1.le hdefined.2).mpr hdefined.1.ne'
        · cases hk
  | _ => exact iff_of_true (fun k hk => by cases hk) fun htracks => by cases htracks

/-- In a run all states are looked up within the table if and only if no mount on-line is
to track before it has reported a state. -/
theorem looksUp_iff_tracksTold (posix : PosixTime) (gid uid : Text) (type : ObssType)
    (now : Time) (is : List Input) :
    (inform posix).Each (fun c input => LooksUp c.state input)
        (Informed.start gid uid type now) is ↔
      (inform posix).Each (fun c input => TracksTold c.state input)
        (Informed.start gid uid type now) is := by
  have hstart : Obss.Named (Informed.start gid uid type now).state.system.obss.mountView
      (Informed.start gid uid type now).state.told := by
    show Obss.Named (none, mountError) false
    exact ⟨by decide, by decide, fun honline => by cases honline⟩
  have hnamed : (inform posix).Each
      (fun c _ => Obss.Named c.state.system.obss.mountView c.state.told)
      (Informed.start gid uid type now) is :=
    Machine.each_of_invariant hstart fun c input h => h.step _ input.ev
  exact Machine.each_congr hnamed fun c input h => looksUp_iff h input

/-- The mount has just come on-line, and is to track. -/
def trackUntold : List Input := [.coupleMount 1, .track].map Event.plain

/-- Its state is looked up in front of the table. -/
theorem not_looksUp : ¬ ∀ (posix : PosixTime) (gid uid : Text) (type : ObssType) (now : Time)
    (is : List Input), (inform posix).Each (fun c input => LooksUp c.state input)
      (Informed.start gid uid type now) is := by
  intro h
  obtain ⟨-, htrack, -⟩ := h .blank "001".toList "001".toList .gwac 0 trackUntold
  exact absurd (htrack (-1) rfl).1 (by decide)

end Gtoaes
