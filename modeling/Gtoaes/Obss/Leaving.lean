import Gtoaes.Obss.Drain

/-!
Why a command leaves the retry buffer. Handlers queue commands behind those that wait
and leave these alone. There are four exceptions: an answer takes the first entry with
its number, a device that goes off-line takes its own, and a round of the retry thread
takes the front entry if it has been at the front in three rounds before.
-/

namespace Gtoaes

open Lib Lib.Handler

namespace Obss

/-- Only four events take commands out of the buffer. -/
theorem queues_step (ctx : Ctx) {ev : Event} (h : ev.unqueues = false) (s : Obss) :
    ∃ news, (step ctx ev s).1.nonkvProtoBuff = s.nonkvProtoBuff ++ news := by
  cases hplugs : ev.plugs with
  | true => exact ⟨[], by rw [(plugged_step ctx hplugs s).queue h, List.append_nil]⟩
  | false =>
      cases hnumber : numbersImage ev with
      | false => exact (changes_step ctx hplugs h hnumber (encodable_true s ev)).buff
      | true =>
          have hbuff : (step ctx ev s).1.nonkvProtoBuff = s.nonkvProtoBuff :=
            congrArg Wiring.nonkvProtoBuff (wireInert_of_numbersImage ctx hnumber s).1
          exact ⟨[], by rw [hbuff, List.append_nil]⟩

end Obss

/-- The command of the front entry, at a round of the retry thread. -/
def Threads.fronted (t : Threads) (m : Move) : List NonKVFrame :=
  if m.isRound then t.pending.head?.toList else []

/-- The threads of a system, with the log of the commands that a round found at the
front. -/
def fronts : Machine Threads Move NonKVFrame where
  step t m := ((threads.step t m).1, t.fronted m)

/-- A GWAC system as `Create` and `Start` leave it. -/
def frontsStart (gid uid : Text) (now : Time) : Config Threads NonKVFrame where
  state := { obss := Obss.create gid uid .gwac now }
  hist := []

/-- What takes an entry out of the buffer. -/
def Leaves (c : Config Threads NonKVFrame) (it : NonKVProtoItem) : Move → Prop
  | .event _ (.notifyResponse rsp) => c.state.buff.find? (fun x => x.serno == rsp.sn) = some it
  | .event _ (.decoupleMount ptr) => c.state.obss.tcpMount = ptr ∧ it.devtype = 0
  | .event _ (.decoupleFocus ptr) => c.state.obss.tcpFocus = ptr ∧ it.devtype = 1
  | .event _ (.rewriteTick _) => c.state.buff.head? = some it ∧ c.hist.count it.cmd = 3
  | _ => False

/-! ### The log counts the retries -/

/-- A command counts the rounds that found it at the front. -/
structure Fronted (c : Config Threads NonKVFrame) : Prop where
  draining : c.state.Draining
  seen : ∀ cmd ∈ c.hist, cmd.no < c.state.obss.issued ∧ cmd ∉ c.state.inflight
  count : ∀ it ∈ c.state.buff, it.retry = c.hist.count it.cmd

section Step

variable {c : Config Threads NonKVFrame} {m : Move} {it : NonKVProtoItem} {rest : NonKVProtoBuff}

theorem fronts_next_hist (hround : m.isRound = false) : (fronts.next c m).hist = c.hist := by
  show c.hist ++ c.state.fronted m = c.hist
  rw [Threads.fronted, hround]
  exact List.append_nil _

theorem fronts_next_round (ctx : Ctx) (stale : NonKVProtoItem) :
    (fronts.next c (.event ctx (.rewriteTick stale))).hist =
      c.hist ++ c.state.pending.head?.toList := rfl

/-- What waits has been seen before it was queued, or not at all. -/
theorem Fronted.passes {kept news : NonKVProtoBuff} (h : Fronted c)
    (hp : Threads.Passes c.state (threads.step c.state m).1 kept news)
    (hround : m.isRound = false) : Fronted (fronts.next c m) := by
  have hhist := fronts_next_hist (c := c) hround
  refine ⟨h.draining.step m, fun cmd hcmd => ?_, fun it hit => ?_⟩
  · obtain ⟨hold, hnot⟩ := h.seen cmd (hhist ▸ hcmd)
    exact ⟨hold.trans_le hp.issued,
      fun hmem => (hp.inflight cmd hmem).elim hnot (not_le_of_gt hold)⟩
  · have hmem : it ∈ kept ++ news := hp.buff ▸ hit
    rw [hhist]
    obtain hmem | hmem := List.mem_append.mp hmem
    · exact h.count it (hp.sublist.subset hmem)
    · have hnever : it.cmd ∉ c.hist := by
        intro hseen
        obtain ⟨hold, hnot⟩ := h.seen it.cmd hseen
        exact (hp.fresh it hmem).elim hnot (not_le_of_gt hold)
      rw [hp.retry it hmem, List.count_eq_zero_of_not_mem hnever]

/-- The entries behind the front one are of other commands. -/
theorem Threads.Draining.cmd_ne {t : Threads} (h : t.Draining) (hbuff : t.buff = it :: rest) :
    ∀ x ∈ rest, x.cmd ≠ it.cmd := by
  have hnodup := h.nodup
  rw [Threads.pending, hbuff, List.map_cons, List.nodup_cons] at hnodup
  exact fun x hx heq => hnodup.1 (heq ▸ List.mem_map_of_mem hx)

theorem Fronted.round (h : Fronted c) (ctx : Ctx) (stale : NonKVProtoItem) :
    Fronted (fronts.next c (.event ctx (.rewriteTick stale))) := by
  have hdraining := h.draining.round ctx stale
  cases hbuff : c.state.buff with
  | nil =>
      have hstay : (fronts.next c (.event ctx (.rewriteTick stale))).state = c.state :=
        (Threads.round_idle ctx stale (.inr hbuff)).1
      have hhist : (fronts.next c (.event ctx (.rewriteTick stale))).hist = c.hist := by
        rw [fronts_next_round, Threads.pending, hbuff]
        exact List.append_nil _
      exact ⟨hdraining, by rw [hstay, hhist]; exact h.seen, by rw [hstay, hhist]; exact h.count⟩
  | cons it rest =>
      have hother := h.draining.cmd_ne hbuff
      have hpending : it.cmd ∈ c.state.pending := by
        rw [Threads.pending, hbuff]
        exact List.mem_cons_self
      have hhist : (fronts.next c (.event ctx (.rewriteTick stale))).hist = c.hist ++ [it.cmd] := by
        rw [fronts_next_round, Threads.pending, hbuff]
        rfl
      have hseen : ∀ cmd ∈ c.hist ++ [it.cmd],
          cmd.no < c.state.obss.issued ∧ cmd ∉ c.state.inflight := by
        intro cmd hcmd
        obtain hcmd | hcmd := List.mem_append.mp hcmd
        · exact h.seen cmd hcmd
        · obtain rfl := List.mem_singleton.mp hcmd
          exact ⟨h.draining.once.old _ (List.mem_append_right _ hpending),
            h.draining.once.not_mem_inflight hpending⟩
      have hcount : ∀ x ∈ rest, x.retry = (c.hist ++ [it.cmd]).count x.cmd := by
        intro x hx
        rw [List.count_append, List.count_singleton, if_neg (by simpa using (hother x hx).symm),
          Nat.add_zero]
        exact h.count x (hbuff ▸ List.mem_cons_of_mem _ hx)
      obtain hlt | hle := lt_or_ge it.retry 3
      · have hstep : (fronts.next c (.event ctx (.rewriteTick stale))).state = _ :=
          (Threads.round_count ctx stale h.draining.gwac hbuff hlt).1
        refine ⟨hdraining, by rw [hstep, hhist]; exact hseen, fun x hx => ?_⟩
        rw [hstep] at hx
        rw [hhist]
        obtain rfl | hx := List.mem_cons.mp hx
        · rw [List.count_append, List.count_singleton_self]
          exact congrArg (· + 1) (h.count it (hbuff ▸ List.mem_cons_self))
        · exact hcount x hx
      · have hstep : (fronts.next c (.event ctx (.rewriteTick stale))).state = _ :=
          (Threads.round_drop ctx stale h.draining.gwac hbuff hle).1
        exact ⟨hdraining, by rw [hstep, hhist]; exact hseen, by rw [hstep, hhist]; exact hcount⟩

theorem Fronted.next (h : Fronted c) (m : Move) : Fronted (fronts.next c m) := by
  cases hround : m.isRound with
  | false =>
      obtain ⟨⟨kept, news, hp⟩, -⟩ := Threads.passes_of_not_round c.state hround
      exact h.passes hp hround
  | true =>
      obtain ⟨ctx, stale, rfl⟩ := Threads.eq_round hround
      exact h.round ctx stale

/-! ### One step -/

/-- An entry is known by its command. -/
theorem Threads.Draining.mem_pending_iff {t : Threads} (h : t.Draining) (hit : it ∈ t.buff)
    {left : NonKVProtoBuff} (hleft : left.Sublist t.buff) :
    it.cmd ∈ left.map (·.cmd) ↔ it ∈ left := by
  refine ⟨fun hmem => ?_, List.mem_map_of_mem⟩
  obtain ⟨x, hx, hcmd⟩ := List.mem_map.mp hmem
  have hsame : x = it := List.inj_on_of_nodup_map h.nodup (hleft.subset hx) hit hcmd
  exact hsame ▸ hx

theorem NonKVProtoBuff.pop_sublist (buff : NonKVProtoBuff) (n : ℤ) : (buff.pop n).Sublist buff :=
  List.eraseP_sublist

theorem NonKVProtoBuff.clear_sublist (buff : NonKVProtoBuff) (devtype : ℤ) :
    (buff.clear devtype).Sublist buff :=
  List.filter_sublist

/-- The first entry with that number goes. -/
theorem NonKVProtoBuff.notMem_pop_iff {buff : NonKVProtoBuff} (hnodup : buff.Nodup)
    (hit : it ∈ buff) (n : ℤ) :
    it ∉ buff.pop n ↔ buff.find? (fun x => x.serno == n) = some it := by
  induction buff with
  | nil => cases hit
  | cons x rest ih =>
      obtain ⟨hfirst, hrest⟩ := List.nodup_cons.mp hnodup
      rw [NonKVProtoBuff.pop, List.eraseP_cons, List.find?_cons]
      cases hserno : x.serno == n with
      | true =>
          show it ∉ rest ↔ some x = some it
          rw [Option.some_inj]
          refine ⟨fun hnot => ((List.mem_cons.mp hit).resolve_right hnot).symm, ?_⟩
          rintro rfl
          exact hfirst
      | false =>
          show it ∉ x :: NonKVProtoBuff.pop rest n ↔ rest.find? _ = some it
          obtain rfl | hlater := List.mem_cons.mp hit
          · exact iff_of_false (fun hnot => hnot List.mem_cons_self)
              fun hfind => hfirst (List.mem_of_find?_eq_some hfind)
          · have hne : it ≠ x := fun heq => hfirst (heq ▸ hlater)
            rw [List.mem_cons, not_or, and_iff_right hne]
            exact ih hrest hlater

/-- Its device's entries go. -/
theorem NonKVProtoBuff.notMem_clear_iff {buff : NonKVProtoBuff} (hit : it ∈ buff) (devtype : ℤ) :
    it ∉ buff.clear devtype ↔ it.devtype = devtype := by
  rw [NonKVProtoBuff.clear, List.mem_filter, and_iff_right hit]
  simp

theorem Fronted.leaves_round (h : Fronted c) (hit : it ∈ c.state.buff) (ctx : Ctx)
    (stale : NonKVProtoItem) :
    it.cmd ∉ (threads.step c.state (.event ctx (.rewriteTick stale))).1.pending ↔
      Leaves c it (.event ctx (.rewriteTick stale)) := by
  show _ ↔ c.state.buff.head? = some it ∧ c.hist.count it.cmd = 3
  rw [← h.count it hit]
  cases hbuff : c.state.buff with
  | nil =>
      rw [hbuff] at hit
      cases hit
  | cons x rest =>
      rw [List.head?_cons, Option.some_inj]
      obtain hlt | hle := lt_or_ge x.retry 3
      · refine iff_of_false (not_not_intro ?_) ?_
        · rw [(Threads.round_count ctx stale h.draining.gwac hbuff hlt).1]
          rw [hbuff] at hit
          exact (List.mem_cons.mp hit).elim (fun heq => heq ▸ List.mem_cons_self)
            fun hit => List.mem_cons_of_mem _ (List.mem_map_of_mem hit)
        · rintro ⟨rfl, hretry⟩
          omega
      · rw [(Threads.round_drop ctx stale h.draining.gwac hbuff hle).1]
        show it.cmd ∉ rest.map (·.cmd) ↔ _
        rw [h.draining.mem_pending_iff hit (hbuff ▸ List.sublist_cons_self x rest)]
        constructor
        · intro hnot
          rw [hbuff] at hit
          obtain rfl := (List.mem_cons.mp hit).resolve_right hnot
          exact ⟨rfl, (h.draining.retry it (hbuff ▸ List.mem_cons_self)).antisymm hle⟩
        · rintro ⟨rfl, -⟩ hmem
          exact h.draining.cmd_ne hbuff x hmem rfl

/-- One step takes an entry out for one of the four reasons, or not at all. -/
theorem Fronted.leaves_iff (h : Fronted c) (hit : it ∈ c.state.buff) (m : Move) :
    it.cmd ∉ (threads.step c.state m).1.pending ↔ Leaves c it m := by
  -- a step that only queues
  have hstays : ∀ {t' : Threads}, (∃ news, t'.buff = c.state.buff ++ news) →
      ¬ it.cmd ∉ t'.pending := by
    rintro t' ⟨news, hbuff⟩ hnot
    refine hnot ?_
    rw [Threads.pending, hbuff]
    exact List.mem_map_of_mem (List.mem_append_left _ hit)
  have hnodup : c.state.buff.Nodup := h.draining.nodup.of_map _
  cases m with
  | encode body utc => exact iff_of_false (hstays ⟨[], (List.append_nil _).symm⟩) id
  | push k devtype =>
      refine iff_of_false (hstays ?_) id
      cases hk : c.state.inflight[k]? with
      | none =>
          simp only [threads, hk]
          exact ⟨[], (List.append_nil _).symm⟩
      | some cmd =>
          simp only [threads, hk]
          exact ⟨_, rfl⟩
  | event ctx ev =>
      cases hev : ev.unqueues with
      | false =>
          refine iff_of_false (hstays (Obss.queues_step ctx hev c.state.obss)) ?_
          cases ev with
          | notifyResponse | decoupleMount | decoupleFocus | rewriteTick => cases hev
          | _ => exact id
      | true =>
          cases ev with
          | notifyResponse rsp =>
              show it.cmd ∉ (c.state.buff.pop rsp.sn).map (·.cmd) ↔ _
              rw [h.draining.mem_pending_iff hit (NonKVProtoBuff.pop_sublist _ _)]
              exact NonKVProtoBuff.notMem_pop_iff hnodup hit rsp.sn
          | decoupleMount ptr =>
              show it.cmd ∉ (Obss.decoupleMount ctx ptr c.state.obss).1.nonkvProtoBuff.map (·.cmd) ↔
                c.state.obss.tcpMount = ptr ∧ it.devtype = 0
              rw [Obss.decoupleMount]
              split_ifs with hptr
              · rw [and_iff_right hptr]
                show it.cmd ∉ (c.state.buff.clear 0).map (·.cmd) ↔ _
                rw [h.draining.mem_pending_iff hit (NonKVProtoBuff.clear_sublist _ _)]
                exact NonKVProtoBuff.notMem_clear_iff hit 0
              · exact iff_of_false (not_not_intro (List.mem_map_of_mem hit)) fun hand => hptr hand.1
          | decoupleFocus ptr =>
              show it.cmd ∉ (if c.state.obss.tcpFocus = ptr then _ else
                c.state.obss : Obss).nonkvProtoBuff.map (·.cmd) ↔
                  c.state.obss.tcpFocus = ptr ∧ it.devtype = 1
              split_ifs with hptr
              · rw [and_iff_right hptr]
                show it.cmd ∉ (c.state.buff.clear 1).map (·.cmd) ↔ _
                rw [h.draining.mem_pending_iff hit (NonKVProtoBuff.clear_sublist _ _)]
                exact NonKVProtoBuff.notMem_clear_iff hit 1
              · exact iff_of_false (not_not_intro (List.mem_map_of_mem hit)) fun hand => hptr hand.1
          | rewriteTick stale => exact h.leaves_round hit ctx stale
          | _ => cases hev

end Step

theorem fronted_start (gid uid : Text) (now : Time) : Fronted (frontsStart gid uid now) :=
  ⟨⟨⟨List.nodup_nil, fun _ hcmd => absurd hcmd List.not_mem_nil⟩,
    fun _ hit => absurd hit List.not_mem_nil, rfl⟩,
    fun _ hcmd => absurd hcmd List.not_mem_nil, fun _ hit => absurd hit List.not_mem_nil⟩

/-- After any run, a command that waits leaves the buffer with the next step if and only
if an answer comes with its number and no entry before it has that number, or its device
goes off-line, or a round of the retry thread finds it at the front for the fourth time. -/
theorem leaves_iff_reason (gid uid : Text) (now : Time) (moves : List Move) (m : Move)
    (it : NonKVProtoItem) (hit : it ∈ (fronts.exec (frontsStart gid uid now) moves).state.buff) :
    it.cmd ∉ (fronts.exec (frontsStart gid uid now) (moves ++ [m])).state.pending ↔
      Leaves (fronts.exec (frontsStart gid uid now) moves) it m := by
  have hrun : Fronted (fronts.exec (frontsStart gid uid now) moves) :=
    (Machine.always_of_invariant (M := fronts) (fronted_start gid uid now)
      fun c m h => h.next m).exec
  rw [Machine.exec_append]
  exact hrun.leaves_iff hit m

/-- The search for home after three rounds, when the fourth comes. -/
theorem leaves_iff_reason_unheard : unheard.cmd ∉
    (fronts.exec (frontsStart "001".toList "002".toList 0) (fourRounds.dropLast ++
      [.event .blank (.rewriteTick unheard)])).state.pending :=
  (leaves_iff_reason "001".toList "002".toList 0 fourRounds.dropLast
    (.event .blank (.rewriteTick unheard)) { unheard with retry := 3 } (by decide +kernel)).mpr
      ⟨by decide +kernel, by decide +kernel⟩

end Gtoaes
