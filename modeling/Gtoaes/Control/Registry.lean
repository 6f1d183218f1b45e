import Gtoaes.Control.GeneralControl
import Gtoaes.Obss.Ends

/-!
The registry of observation systems: `find_obss` finds the system with the ids
it is given or makes one, and `cycle_dump_obss` removes those that nobody has
been connected to for long. A request with an empty id matches many systems, but
a system is only made where none matches, and never with an empty id; so the
systems in the vector can be told apart by their ids in every run.
-/

namespace Gtoaes

open Lib

namespace GeneralControl

/-- `find_obss`, with the pointer it returns. `Start` refuses empty ids, and
`starts` tells whether it gets a message queue. -/
def findObssPtr (g : GeneralControl) (gid uid : Text) (type : ObssType) (starts : Bool)
    (now : Time) : Option ℕ × GeneralControl :=
  match (g.matched gid uid).head? with
  | some id => (some id, g)
  | none =>
      if gid ≠ [] ∧ uid ≠ [] ∧ starts = true then
        (some g.created, { g.put g.created (some (Obss.create gid uid type now)) with
          created := g.created + 1 })
      else (none, g)

/-- Where `Start` succeeds, these are the turns `find_obss` is carried out as. -/
theorem findObssPtr_turns (posix : PosixTime) (g : GeneralControl) (gid uid : Text)
    (type : ObssType) (now : Time) (unset : Unset) :
    (g.findObssPtr gid uid type true now).2 = ((turns posix).exec { state := g, hist := [] }
      ((g.findObss gid uid type).map fun call => ⟨now, unset, call⟩)).state := by
  rw [findObssPtr, findObss]
  cases hmatched : g.matched gid uid with
  | cons id rest => simp [Machine.exec]
  | nil =>
      by_cases hids : gid ≠ [] ∧ uid ≠ []
      · simp [hids.1, hids.2, Machine.exec, turns, turn, Machine.next]
      · simp only [List.head?_nil, true_and, and_true, if_neg hids]
        rfl

end GeneralControl

/-- A call of `find_obss`, a round of `cycle_dump_obss`, or anything a system of
the vector does. -/
inductive RegistryEvent
  | findObss (gid uid : Text) (type : ObssType) (starts : Bool)
  | dumpObss
  | system (id addr : ℕ) (ev : Event)

structure RegistryInput where
  now : Time
  unset : Unset
  ev : RegistryEvent

/-- The registry; its outputs are the pointers `find_obss` returns. -/
def registry (posix : PosixTime) : Machine GeneralControl RegistryInput (Option ℕ) where
  step g i :=
    match i.ev with
    | .findObss gid uid type starts =>
        let r := g.findObssPtr gid uid type starts i.now
        (r.2, [r.1])
    | .dumpObss =>
        (((turns posix).exec { state := g, hist := [] }
          ((g.dumpObss i.now).map fun call => ⟨i.now, i.unset, call⟩)).state, [])
    | .system id addr ev => ((g.turn posix ⟨i.now, i.unset, .system id addr ev⟩).1, [])

/-- The system a call is made of. -/
def Call.target : Call → Option ℕ
  | .system id _ _ => some id
  | _ => none

/-- The registry before the first device has asked for its system. -/
def GeneralControl.empty : Config GeneralControl (Option ℕ) where
  state := {}
  hist := []

namespace GeneralControl

theorem mem_ids {g : GeneralControl} {id : ℕ} :
    id ∈ g.ids ↔ id < g.created ∧ ∃ s, g.obssVec id = some s := by
  rw [ids, List.mem_filter, List.mem_range, Option.isSome_iff_exists]

theorem mem_matched {g : GeneralControl} {gid uid : Text} {id : ℕ} :
    id ∈ g.matched gid uid ↔
      id < g.created ∧ ∃ s, g.obssVec id = some s ∧ s.isMatched gid uid = true := by
  rw [matched, List.mem_filter, mem_ids]
  constructor
  · rintro ⟨⟨hlt, s, hs⟩, hm⟩
    rw [hs] at hm
    exact ⟨hlt, s, hs, by simpa using hm⟩
  · rintro ⟨hlt, s, hs, hm⟩
    exact ⟨⟨hlt, s, hs⟩, by simp [hs, hm]⟩

/-- A request with both ids is exact. -/
theorem isMatched_iff {s : Obss} {gid uid : Text} (hgid : gid ≠ []) (huid : uid ≠ []) :
    s.isMatched gid uid = true ↔ iequals gid s.gid = true ∧ iequals uid s.uid = true := by
  simp [Obss.isMatched, hgid, huid]

/-- The destroyed systems are gone, and the others as they were. -/
theorem exec_destroy (posix : PosixTime) (g : GeneralControl) (now : Time) (unset : Unset)
    (hist : List (ℕ × Act)) (l : List ℕ) :
    ((turns posix).exec { state := g, hist := hist }
        ((l.map Call.destroy).map fun call => ⟨now, unset, call⟩)).state =
      { g with obssVec := fun id => if id ∈ l then none else g.obssVec id } := by
  induction l generalizing g hist with
  | nil => simp [Machine.exec]
  | cons k l ih =>
      have hnext : (turns posix).next { state := g, hist := hist } ⟨now, unset, .destroy k⟩ =
          { state := g.put k none, hist := hist ++ [] } := rfl
      rw [List.map_cons, List.map_cons]
      show ((turns posix).exec ((turns posix).next _ _) _).state = _
      rw [hnext, ih]
      congr 1
      funext id
      by_cases hk : id = k
      · simp [hk]
      · simp [hk, put_other hk]

/-- What the systems of the vector have in common. -/
structure Registered (g : GeneralControl) : Prop where
  bound : ∀ {id s}, g.obssVec id = some s → id < g.created
  named : ∀ {id s}, g.obssVec id = some s → s.gid ≠ [] ∧ s.uid ≠ []
  distinct : ∀ {id id' s s'}, g.obssVec id = some s → g.obssVec id' = some s' →
    iequals s.gid s'.gid = true → iequals s.uid s'.uid = true → id = id'

theorem Registered.eq_of_mem {g : GeneralControl} (h : g.Registered) {gid uid : Text}
    (hgid : gid ≠ []) (huid : uid ≠ []) {id id' : ℕ} (hid : id ∈ g.matched gid uid)
    (hid' : id' ∈ g.matched gid uid) : id = id' := by
  obtain ⟨-, s, hs, hm⟩ := mem_matched.mp hid
  obtain ⟨-, s', hs', hm'⟩ := mem_matched.mp hid'
  obtain ⟨hg, hu⟩ := (isMatched_iff hgid huid).mp hm
  obtain ⟨hg', hu'⟩ := (isMatched_iff hgid huid).mp hm'
  refine h.distinct hs hs' ?_ ?_
  · exact iequals_trans (by rwa [iequals_comm]) hg'
  · exact iequals_trans (by rwa [iequals_comm]) hu'

/-- Exact requests reach at most one system. -/
theorem Registered.matched_le_one {g : GeneralControl} (h : g.Registered) {gid uid : Text}
    (hgid : gid ≠ []) (huid : uid ≠ []) : (g.matched gid uid).length ≤ 1 := by
  have hnodup : (g.matched gid uid).Nodup := (List.nodup_range.filter _).filter _
  match hm : g.matched gid uid with
  | [] => exact Nat.zero_le _
  | [_] => exact le_rfl
  | id :: id' :: rest =>
      have hsame : id = id' := h.eq_of_mem hgid huid (by rw [hm]; simp) (by rw [hm]; simp)
      rw [hm, hsame] at hnodup
      simp at hnodup

/-- A system that was in the vector before, and is still the one it was. -/
def Stays (g : GeneralControl) (id : ℕ) (s' : Obss) : Prop :=
  ∃ s, g.obssVec id = some s ∧ s'.ident = s.ident

/-- A system that `find_obss` has just made. -/
def Made (g : GeneralControl) (id : ℕ) (s' : Obss) : Prop :=
  id = g.created ∧ s'.gid ≠ [] ∧ s'.uid ≠ [] ∧ g.matched s'.gid s'.uid = []

theorem Stays.ids {g : GeneralControl} {id : ℕ} {s' : Obss} (h : g.Stays id s') :
    ∃ s, g.obssVec id = some s ∧ s'.gid = s.gid ∧ s'.uid = s.uid := by
  obtain ⟨s, hs, hident⟩ := h
  exact ⟨s, hs, congrArg Prod.fst hident, congrArg (fun i => i.2.1) hident⟩

/-- What the vector holds after a step, and that numbers are not used again. -/
structure Follows (g g' : GeneralControl) : Prop where
  created_le : g.created ≤ g'.created
  origin : ∀ {id s'}, g'.obssVec id = some s' →
    g.Stays id s' ∨ g.Made id s' ∧ id < g'.created

theorem Follows.refl (g : GeneralControl) : g.Follows g :=
  ⟨le_rfl, fun {_ s'} hs => .inl ⟨s', hs, rfl⟩⟩

/-- `find_obss` leaves the vector as it is, or adds the system it returns. -/
theorem findObssPtr_cases (g : GeneralControl) (gid uid : Text) (type : ObssType)
    (starts : Bool) (now : Time) :
    (g.findObssPtr gid uid type starts now).2 = g ∨
      g.matched gid uid = [] ∧ gid ≠ [] ∧ uid ≠ [] ∧ g.findObssPtr gid uid type starts now =
        (some g.created, { g.put g.created (some (Obss.create gid uid type now)) with
          created := g.created + 1 }) := by
  rw [findObssPtr]
  split
  · exact .inl rfl
  · next hhead =>
      split
      · next hids => exact .inr ⟨List.head?_eq_none_iff.mp hhead, hids.1, hids.2.1, rfl⟩
      · exact .inl rfl

theorem follows_findObssPtr (g : GeneralControl) (gid uid : Text) (type : ObssType)
    (starts : Bool) (now : Time) : g.Follows (g.findObssPtr gid uid type starts now).2 := by
  rcases g.findObssPtr_cases gid uid type starts now with hsame | ⟨hnone, hgid, huid, hnew⟩
  · rw [hsame]
    exact .refl g
  · rw [hnew]
    refine ⟨Nat.le_succ _, ?_⟩
    intro id s' hs
    by_cases hid : id = g.created
    · subst hid
      obtain rfl : Obss.create gid uid type now = s' := Option.some.inj (by simpa using hs)
      exact .inr ⟨⟨rfl, hgid, huid, hnone⟩, Nat.lt_succ_self _⟩
    · exact .inl ⟨s', (put_other hid _ g).symm.trans hs, rfl⟩

theorem follows_destroy (g : GeneralControl) (l : List ℕ) :
    g.Follows { g with obssVec := fun id => if id ∈ l then none else g.obssVec id } := by
  refine ⟨le_rfl, fun {id s'} hs => .inl ⟨s', ?_, rfl⟩⟩
  by_cases hmem : id ∈ l
  · simp [hmem] at hs
  · simpa [hmem] using hs

theorem follows_system (posix : PosixTime) (g : GeneralControl) (now : Time) (unset : Unset)
    (id addr : ℕ) (ev : Event) :
    g.Follows (g.turn posix ⟨now, unset, .system id addr ev⟩).1 := by
  rw [turn]
  dsimp only
  cases hs : g.obssVec id with
  | none => exact .refl g
  | some s =>
      refine ⟨le_rfl, ?_⟩
      intro j s' hs'
      by_cases hj : j = id
      · subst hj
        obtain rfl := Option.some.inj ((put_self _ _ _).symm.trans hs')
        exact .inl ⟨s, hs, Obss.fixes_ident _ ev s⟩
      · exact .inl ⟨s', (put_other hj _ g).symm.trans hs', rfl⟩

theorem follows_step (posix : PosixTime) (g : GeneralControl) (i : RegistryInput) :
    g.Follows ((registry posix).step g i).1 := by
  obtain ⟨now, unset, ev⟩ := i
  cases ev with
  | findObss gid uid type starts => exact follows_findObssPtr g gid uid type starts now
  | dumpObss =>
      show g.Follows ((turns posix).exec _ _).state
      rw [dumpObss, exec_destroy]
      exact follows_destroy g _
  | system id addr ev => exact follows_system posix g now unset id addr ev

/-- A system just made is not one of the others. -/
theorem Made.iequals_eq_false {g : GeneralControl} (h : g.Registered) {id id' : ℕ} {s s' : Obss}
    (hmade : g.Made id s) (hs' : g.obssVec id' = some s') (hgid : iequals s.gid s'.gid = true)
    (huid : iequals s.uid s'.uid = true) : False := by
  obtain ⟨-, hg, hu, hnone⟩ := hmade
  have hmem : id' ∈ g.matched s.gid s.uid :=
    mem_matched.mpr ⟨h.bound hs', s', hs', (isMatched_iff hg hu).mpr ⟨hgid, huid⟩⟩
  rw [hnone] at hmem
  exact List.not_mem_nil hmem

/-- The invariant of the registry. -/
theorem Registered.follows {g g' : GeneralControl} (h : g.Registered) (hf : g.Follows g') :
    g'.Registered where
  bound := by
    intro id s' hs'
    rcases hf.origin hs' with ⟨s, hs, -⟩ | ⟨-, hlt⟩
    · exact (h.bound hs).trans_le hf.created_le
    · exact hlt
  named := by
    intro id s' hs'
    rcases hf.origin hs' with hstays | ⟨⟨-, hgid, huid, -⟩, -⟩
    · obtain ⟨s, hs, hg, hu⟩ := hstays.ids
      rw [hg, hu]
      exact h.named hs
    · exact ⟨hgid, huid⟩
  distinct := by
    intro id id' s s' hs hs' hgid huid
    rcases hf.origin hs with hold | ⟨hmade, -⟩
    · obtain ⟨r, hr, hg, hu⟩ := hold.ids
      rcases hf.origin hs' with hold' | ⟨hmade', -⟩
      · obtain ⟨r', hr', hg', hu'⟩ := hold'.ids
        exact h.distinct hr hr' (by rwa [← hg, ← hg']) (by rwa [← hu, ← hu'])
      · refine (hmade'.iequals_eq_false h hr ?_ ?_).elim
        · rwa [iequals_comm, ← hg]
        · rwa [iequals_comm, ← hu]
    · rcases hf.origin hs' with hold' | ⟨hmade', -⟩
      · obtain ⟨r', hr', hg', hu'⟩ := hold'.ids
        refine (hmade.iequals_eq_false h hr' ?_ ?_).elim
        · rwa [← hg']
        · rwa [← hu']
      · exact hmade.1.trans hmade'.1.symm

theorem Registered.always (posix : PosixTime) {c : Config GeneralControl (Option ℕ)}
    (h : c.state.Registered) (is : List RegistryInput) :
    (registry posix).Always (fun c => c.state.Registered) c is :=
  Machine.always_of_invariant h fun c i (hc : c.state.Registered) =>
    hc.follows (follows_step posix c.state i)

theorem registered_empty : GeneralControl.empty.state.Registered where
  bound hs := by cases hs
  named hs := by cases hs
  distinct hs := by cases hs

/-- A number stands for one system: whoever has it at the end of a run had it at
the start. -/
theorem stays_exec (posix : PosixTime) (js : List RegistryInput)
    (c : Config GeneralControl (Option ℕ)) {id : ℕ} {s' : Obss} (hid : id < c.state.created)
    (hs' : ((registry posix).exec c js).state.obssVec id = some s') : c.state.Stays id s' := by
  induction js generalizing c with
  | nil => exact ⟨s', hs', rfl⟩
  | cons j js ih =>
      have hf := follows_step posix c.state j
      obtain ⟨s₁, hs₁, hident⟩ := ih ((registry posix).next c j) (hid.trans_le hf.created_le) hs'
      rcases hf.origin hs₁ with ⟨s, hs, hident₁⟩ | ⟨hmade, -⟩
      · exact ⟨s, hs, hident.trans hident₁⟩
      · exact absurd hmade.1 hid.ne

/-- What a call with both ids returns is in the vector afterwards, under its ids. -/
theorem findObssPtr_some {g : GeneralControl} {gid uid : Text} {type : ObssType} {starts : Bool}
    {now : Time} {id : ℕ} (hgid : gid ≠ []) (huid : uid ≠ [])
    (h : (g.findObssPtr gid uid type starts now).1 = some id) :
    ∃ s, (g.findObssPtr gid uid type starts now).2.obssVec id = some s ∧
      iequals gid s.gid = true ∧ iequals uid s.uid = true := by
  rw [findObssPtr] at h ⊢
  split at h
  · next id' hhead =>
      obtain rfl := Option.some.inj h
      obtain ⟨-, s, hs, hm⟩ := mem_matched.mp (List.mem_of_head? hhead)
      exact ⟨s, hs, (isMatched_iff hgid huid).mp hm⟩
  · next hhead =>
      split at h
      · next hids =>
          obtain rfl := Option.some.inj h
          rw [if_pos hids]
          exact ⟨_, put_self _ _ _, iequals_refl gid, iequals_refl uid⟩
      · cases h

/-- A system that has the ids of a call is the one the call returns. -/
theorem Registered.findObssPtr_eq {g : GeneralControl} (h : g.Registered) {gid uid : Text}
    (hgid : gid ≠ []) (huid : uid ≠ []) {id : ℕ} {s : Obss} (hs : g.obssVec id = some s)
    (hg : iequals gid s.gid = true) (hu : iequals uid s.uid = true) (type : ObssType)
    (starts : Bool) (now : Time) : (g.findObssPtr gid uid type starts now).1 = some id := by
  have hmem : id ∈ g.matched gid uid :=
    mem_matched.mpr ⟨h.bound hs, s, hs, (isMatched_iff hgid huid).mpr ⟨hg, hu⟩⟩
  rw [findObssPtr]
  cases hm : g.matched gid uid with
  | nil => rw [hm] at hmem; cases hmem
  | cons id' rest =>
      have hmem' : id' ∈ g.matched gid uid := by rw [hm]; exact List.mem_cons_self
      exact congrArg some (h.eq_of_mem hgid huid hmem' hmem)

theorem target_handOut (addr : ℕ) (ev : Event) (ids : List ℕ) :
    (handOut addr ev ids).filterMap Call.target = ids := by
  cases ids with
  | nil => rfl
  | cons id ids => simp [handOut, Call.target, Function.comp_def]

/-- No client command that carries both ids reaches two systems. -/
def ExactClients (g : GeneralControl) : Prop :=
  ∀ proto : KVMsg, proto.base.gid ≠ [] → proto.base.uid ≠ [] →
    (g.matched proto.base.gid proto.base.uid).length ≤ 1 ∧
      ((g.processProtocolClient proto).filterMap Call.target).length ≤ 1

theorem Registered.exactClients {g : GeneralControl} (h : g.Registered) : g.ExactClients := by
  intro proto hgid huid
  have hmatched := h.matched_le_one hgid huid
  refine ⟨hmatched, ?_⟩
  rw [processProtocolClient]
  split
  · exact Nat.zero_le _
  · have hnone : List.filterMap Call.target [.newMessage] = [] := rfl
    rwa [List.filterMap_append, target_handOut, hnone, List.append_nil]

end GeneralControl

/-- From `c` on, whatever a call of `find_obss` with both ids returns is what
every later call with these ids returns, as long as it is not removed. -/
def FindsSame (posix : PosixTime) (c : Config GeneralControl (Option ℕ)) : Prop :=
  ∀ (gid uid : Text) (type : ObssType) (starts : Bool) (now : Time) (unset : Unset) (id : ℕ),
    gid ≠ [] → uid ≠ [] → (c.state.findObssPtr gid uid type starts now).1 = some id →
    ∀ js : List RegistryInput,
      let g' := ((registry posix).exec
        ((registry posix).next c ⟨now, unset, .findObss gid uid type starts⟩) js).state
      (g'.obssVec id).isSome = true →
      ∀ (gid' uid' : Text) (type' : ObssType) (starts' : Bool) (now' : Time),
        iequals gid' gid = true → iequals uid' uid = true →
        (g'.findObssPtr gid' uid' type' starts' now').1 = some id

theorem ne_nil_of_iequals {a b : Text} (h : iequals a b = true) (hb : b ≠ []) : a ≠ [] := by
  have hlen := iequals_length h
  rw [← List.length_pos_iff] at hb ⊢
  omega

theorem findsSame_of_registered (posix : PosixTime) (c : Config GeneralControl (Option ℕ))
    (h : c.state.Registered) : FindsSame posix c := by
  intro gid uid type starts now unset id hgid huid hfound js g' hstill gid' uid' type' starts' now'
    hgid' huid'
  let c₁ := (registry posix).next c ⟨now, unset, .findObss gid uid type starts⟩
  have h₁ : c₁.state.Registered := h.follows (GeneralControl.follows_step posix c.state _)
  have h' : g'.Registered := (h₁.always posix js).exec
  obtain ⟨s₁, hs₁, hg, hu⟩ := GeneralControl.findObssPtr_some hgid huid hfound
  obtain ⟨s', hs'⟩ := Option.isSome_iff_exists.mp hstill
  obtain ⟨s, hs, hgid₁, huid₁⟩ :=
    (GeneralControl.stays_exec posix js c₁ (h₁.bound hs₁) hs').ids
  obtain rfl : s₁ = s := Option.some.inj (hs₁.symm.trans hs)
  refine h'.findObssPtr_eq (ne_nil_of_iequals hgid' hgid) (ne_nil_of_iequals huid' huid) hs' ?_ ?_
    type' starts' now'
  · rw [hgid₁]
    exact iequals_trans hgid' hg
  · rw [huid₁]
    exact iequals_trans huid' hu

/-- In every run, the systems of the vector have both ids and can be told apart
by them, no command with both ids reaches two of them, and `find_obss` answers
the same ids with the same system until that system is removed. -/
theorem registry_sound (posix : PosixTime) (is : List RegistryInput) :
    (registry posix).Always
      (fun c => c.state.Registered ∧ c.state.ExactClients ∧ FindsSame posix c)
      GeneralControl.empty is := by
  refine (GeneralControl.registered_empty.always posix is).mono ?_
  intro c h
  exact ⟨h, h.exactClients, findsSame_of_registered posix c h⟩

end Gtoaes
