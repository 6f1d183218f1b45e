import Gtoaes.Obss.Ends
import Gtoaes.Obss.RetryLog

/-!
The retry buffer empties. A round of the retry thread looks at the front entry only,
counts it, and pops it in its fourth round; new commands come in behind. So a command
that waits at place `k` is out of the buffer after `4 * (k + 1)` rounds at the latest,
whether its device is on-line or not and whatever else goes on in the meantime.
-/

namespace Gtoaes

open Lib Lib.Handler

/-- A round of the retry thread. -/
def Move.isRound : Move → Bool
  | .event _ (.rewriteTick _) => true
  | _ => false

namespace NonKVProtoBuff

variable {cmd : NonKVFrame} {it : NonKVProtoItem} {buff kept rest : NonKVProtoBuff}

/-- The rounds until the command is popped, or the buffer is empty. -/
def rounds (cmd : NonKVFrame) : NonKVProtoBuff → ℕ
  | [] => 0
  | it :: rest => (4 - it.retry) + if it.cmd = cmd then 0 else rounds cmd rest

theorem rounds_cons (cmd : NonKVFrame) (it : NonKVProtoItem) (rest : NonKVProtoBuff) :
    rounds cmd (it :: rest) = (4 - it.retry) + if it.cmd = cmd then 0 else rounds cmd rest := rfl

/-- What stands behind the command does not matter to it. -/
theorem rounds_append (hcmd : cmd ∈ kept.map (·.cmd)) (news : NonKVProtoBuff) :
    rounds cmd (kept ++ news) = rounds cmd kept := by
  induction kept with
  | nil => cases hcmd
  | cons it kept ih =>
      rw [List.cons_append, rounds_cons, rounds_cons]
      by_cases hhere : it.cmd = cmd
      · rw [if_pos hhere, if_pos hhere]
      · rw [if_neg hhere, if_neg hhere,
          ih ((List.mem_cons.mp hcmd).resolve_left (Ne.symm hhere))]

/-- Entries taken out bring the others forward. -/
theorem rounds_sublist (hsub : kept.Sublist buff) (hnodup : (buff.map (·.cmd)).Nodup)
    (hcmd : cmd ∈ kept.map (·.cmd)) : rounds cmd kept ≤ rounds cmd buff := by
  induction hsub with
  | slnil => exact le_rfl
  | @cons kept buff it hsub ih =>
      obtain ⟨hfirst, hnodup⟩ := List.nodup_cons.mp hnodup
      have hlater : it.cmd ≠ cmd := by
        rintro rfl
        exact hfirst ((hsub.map _).subset hcmd)
      rw [rounds_cons, if_neg hlater]
      exact (ih hnodup hcmd).trans (Nat.le_add_left _ _)
  | @cons_cons kept buff it hsub ih =>
      rw [rounds_cons, rounds_cons]
      by_cases hhere : it.cmd = cmd
      · rw [if_pos hhere, if_pos hhere]
      · rw [if_neg hhere, if_neg hhere]
        have htail := ih (List.nodup_cons.mp hnodup).2
          ((List.mem_cons.mp hcmd).resolve_left (Ne.symm hhere))
        exact Nat.add_le_add_left htail _

/-- Four rounds are enough for an entry, and those before it come first. -/
theorem rounds_le {k : ℕ} (hk : (buff.map (·.cmd))[k]? = some cmd) :
    rounds cmd buff ≤ 4 * (k + 1) := by
  induction buff generalizing k with
  | nil => cases hk
  | cons it rest ih =>
      rw [rounds_cons]
      cases k with
      | zero =>
          have hhere : it.cmd = cmd := Option.some.inj hk
          rw [if_pos hhere]
          omega
      | succ k =>
          have hrest : rounds cmd rest ≤ 4 * (k + 1) := ih hk
          split <;> omega

theorem rounds_pos (hcmd : cmd ∈ buff.map (·.cmd)) (hretry : ∀ it ∈ buff, it.retry ≤ 3) :
    0 < rounds cmd buff := by
  cases buff with
  | nil => cases hcmd
  | cons it rest =>
      have hfirst := hretry it List.mem_cons_self
      rw [rounds_cons]
      omega

end NonKVProtoBuff

namespace Threads

variable {t t' : Threads} {cmd : NonKVFrame} {kept news : NonKVProtoBuff} {n : ℕ}

/-- The state of a GWAC system in a run, as far as the retries go. -/
structure Draining (t : Threads) : Prop where
  once : t.Once
  retry : ∀ it ∈ t.buff, it.retry ≤ 3
  gwac : t.obss.obssType = .gwac

/-- The command has been handled and cannot come back. -/
def Gone (cmd : NonKVFrame) (t : Threads) : Prop := cmd ∉ t.live ∧ cmd.no < t.obss.issued

/-- The command is gone, or will be in `n` rounds. -/
def Drains (cmd : NonKVFrame) (n : ℕ) (t : Threads) : Prop :=
  t.Gone cmd ∨ (cmd ∈ t.pending ∧ t.buff.rounds cmd ≤ n)

theorem Gone.passes (h : t.Gone cmd) (hp : Passes t t' kept news) : t'.Gone cmd :=
  ⟨fun hmem => (hp.mem_live hmem).elim h.1 (not_le_of_gt h.2), h.2.trans_le hp.issued⟩

theorem Draining.nodup (h : t.Draining) : t.pending.Nodup := (List.nodup_append.mp h.once.nodup).2.1

/-- A command that a step does not keep is gone. -/
theorem Draining.gone (h : t.Draining) (hp : Passes t t' kept news) (hcmd : cmd ∈ t.pending)
    (hkept : cmd ∉ kept.map (·.cmd)) : t'.Gone cmd := by
  have hold : cmd.no < t.obss.issued := h.once.old cmd (List.mem_append_right _ hcmd)
  have hflight : cmd ∉ t.inflight := h.once.not_mem_inflight hcmd
  have hlate : ¬ (cmd ∈ t.inflight ∨ t.obss.issued ≤ cmd.no) :=
    not_or.mpr ⟨hflight, not_le_of_gt hold⟩
  refine ⟨fun hmem => ?_, hold.trans_le hp.issued⟩
  obtain hmem | hmem := List.mem_append.mp hmem
  · exact hlate (hp.inflight cmd hmem)
  · obtain ⟨it, hit, rfl⟩ := List.mem_map.mp hmem
    rw [hp.buff, List.mem_append] at hit
    obtain hit | hit := hit
    · exact hkept (List.mem_map_of_mem hit)
    · exact hlate (hp.fresh it hit)

/-- A step that retries nothing. -/
theorem Drains.passes (h : Drains cmd n t) (ht : t.Draining) (hp : Passes t t' kept news) :
    Drains cmd n t' := by
  obtain hgone | ⟨hcmd, hrounds⟩ := h
  · exact .inl (hgone.passes hp)
  by_cases hkept : cmd ∈ kept.map (·.cmd)
  · refine .inr ⟨?_, ?_⟩
    · rw [pending, hp.buff, List.map_append]
      exact List.mem_append_left _ hkept
    · rw [hp.buff, NonKVProtoBuff.rounds_append hkept]
      exact (NonKVProtoBuff.rounds_sublist hp.sublist ht.nodup hkept).trans hrounds
  · exact .inl (ht.gone hp hcmd hkept)

theorem Draining.passes (h : t.Draining) (hp : Passes t t' kept news)
    (hgwac : t'.obss.obssType = t.obss.obssType) : t'.Draining := by
  refine ⟨hp.once h.once, fun it hit => ?_, hgwac.trans h.gwac⟩
  rw [hp.buff, List.mem_append] at hit
  obtain hit | hit := hit
  · exact h.retry it (hp.sublist.subset hit)
  · exact (hp.retry it hit).trans_le (Nat.zero_le _)

/-- A step other than a round of the retry thread hands the commands on. -/
theorem passes_of_not_round (t : Threads) {m : Move} (hround : m.isRound = false) :
    (∃ kept news, Passes t (threads.step t m).1 kept news) ∧
      (threads.step t m).1.obss.obssType = t.obss.obssType := by
  cases m with
  | encode body utc => exact ⟨⟨_, _, passes_encode t body utc⟩, rfl⟩
  | push k devtype =>
      cases hk : t.inflight[k]? with
      | none =>
          have hstay : (threads.step t (.push k devtype)).1 = t := by
            simp only [threads, hk]
          exact ⟨⟨_, _, passes_of_eq hstay⟩, by rw [hstay]⟩
      | some cmd =>
          refine ⟨⟨_, _, passes_push t devtype hk⟩, ?_⟩
          simp only [threads, hk]
  | event ctx ev =>
      have hother : ∀ stale, ev ≠ .rewriteTick stale := by
        rintro stale rfl
        cases hround
      obtain ⟨kept, news, hextends⟩ :=
        (Obss.requeues_step ctx hother (Obss.encodable_true t.obss ev)).extends
      exact ⟨⟨kept, news, passes_of_extends hextends⟩,
        congrArg (fun i => i.2.2) (Obss.fixes_ident ctx ev t.obss)⟩

section Round

variable {it : NonKVProtoItem} {rest : NonKVProtoBuff} (ctx : Ctx) (stale : NonKVProtoItem)

/-- A round that pops hands the other commands on. -/
theorem Draining.passes_drop (h : t.Draining) (hbuff : t.buff = it :: rest)
    (hretry : 3 ≤ it.retry) :
    Passes t (threads.step t (.event ctx (.rewriteTick stale))).1 rest [] := by
  have hextends : Obss.Extends t.obss { t.obss with nonkvProtoBuff := rest } rest [] :=
    ⟨(show t.obss.nonkvProtoBuff = _ from hbuff) ▸ List.sublist_cons_self it rest,
      (List.append_nil _).symm, le_rfl, fun _ hit => absurd hit List.not_mem_nil,
      fun _ hit => absurd hit List.not_mem_nil, List.nodup_nil⟩
  exact (round_drop ctx stale h.gwac hbuff hretry).1 ▸ passes_of_extends hextends

/-- A round that counts leaves the commands as they stand. -/
theorem live_count (hgwac : t.obss.obssType = .gwac) (hbuff : t.buff = it :: rest)
    (hretry : it.retry < 3) :
    (threads.step t (.event ctx (.rewriteTick stale))).1.live = t.live := by
  rw [(round_count ctx stale hgwac hbuff hretry).1, live, live, pending, pending, hbuff]
  rfl

theorem Draining.round (h : t.Draining) :
    (threads.step t (.event ctx (.rewriteTick stale))).1.Draining := by
  cases hbuff : t.buff with
  | nil =>
      rw [(round_idle ctx stale (.inr hbuff)).1]
      exact h
  | cons it rest =>
      obtain hlt | hle := lt_or_ge it.retry 3
      · have hlive := live_count ctx stale h.gwac hbuff hlt
        have hstep := (round_count ctx stale h.gwac hbuff hlt).1
        refine ⟨⟨hlive ▸ h.once.nodup, ?_⟩, fun x hx => ?_, ?_⟩
        · rw [hlive, hstep]
          exact h.once.old
        · rw [hstep] at hx
          obtain rfl | hx := List.mem_cons.mp hx
          · exact hlt
          · exact h.retry x (hbuff ▸ List.mem_cons_of_mem _ hx)
        · rw [hstep]
          exact h.gwac
      · refine h.passes (h.passes_drop ctx stale hbuff hle) ?_
        rw [(round_drop ctx stale h.gwac hbuff hle).1]

/-- A round brings every command in the buffer one round nearer to its end. -/
theorem Drains.round (h : Drains cmd (n + 1) t) (ht : t.Draining) :
    Drains cmd n (threads.step t (.event ctx (.rewriteTick stale))).1 := by
  cases hbuff : t.buff with
  | nil =>
      rw [(round_idle ctx stale (.inr hbuff)).1]
      obtain hgone | ⟨hcmd, -⟩ := h
      · exact .inl hgone
      · rw [pending, hbuff] at hcmd
        cases hcmd
  | cons it rest =>
      obtain hlt | hle := lt_or_ge it.retry 3
      · have hlive := live_count ctx stale ht.gwac hbuff hlt
        have hstep := (round_count ctx stale ht.gwac hbuff hlt).1
        obtain ⟨hnot, hold⟩ | ⟨hcmd, hrounds⟩ := h
        · refine .inl ⟨by rwa [hlive], ?_⟩
          rw [hstep]
          exact hold
        · rw [pending, hbuff] at hcmd
          rw [hbuff, NonKVProtoBuff.rounds_cons] at hrounds
          rw [hstep]
          refine .inr ⟨hcmd, ?_⟩
          show 4 - (it.retry + 1) + (if it.cmd = cmd then 0 else _) ≤ n
          omega
      · have hp := ht.passes_drop ctx stale hbuff hle
        obtain hgone | ⟨hcmd, hrounds⟩ := h
        · exact .inl (hgone.passes hp)
        by_cases hrest : cmd ∈ rest.map (·.cmd)
        · -- it was not the front entry that waited
          have hnodup := ht.nodup
          rw [pending, hbuff, List.map_cons, List.nodup_cons] at hnodup
          have hlater : it.cmd ≠ cmd := by
            rintro rfl
            exact hnodup.1 hrest
          have hretry := ht.retry it (hbuff ▸ List.mem_cons_self)
          rw [hbuff, NonKVProtoBuff.rounds_cons, if_neg hlater] at hrounds
          rw [(round_drop ctx stale ht.gwac hbuff hle).1]
          exact .inr ⟨hrest, show NonKVProtoBuff.rounds cmd rest ≤ n by omega⟩
        · exact .inl (ht.gone hp hcmd hrest)

end Round

theorem eq_round {m : Move} (hround : m.isRound = true) :
    ∃ ctx stale, m = .event ctx (.rewriteTick stale) := by
  cases m with
  | event ctx ev =>
      cases ev with
      | rewriteTick stale => exact ⟨ctx, stale, rfl⟩
      | _ => cases hround
  | encode | push => cases hround

theorem Draining.step (h : t.Draining) (m : Move) : (threads.step t m).1.Draining := by
  cases hround : m.isRound with
  | false =>
      obtain ⟨⟨kept, news, hp⟩, hgwac⟩ := passes_of_not_round t hround
      exact h.passes hp hgwac
  | true =>
      obtain ⟨ctx, stale, rfl⟩ := eq_round hround
      exact h.round ctx stale

/-- A round counts, and the other steps do no harm. -/
theorem Drains.step (h : Drains cmd n t) (ht : t.Draining) (m : Move) :
    Drains cmd (n - if m.isRound then 1 else 0) (threads.step t m).1 := by
  cases hround : m.isRound with
  | false =>
      obtain ⟨⟨kept, news, hp⟩, -⟩ := passes_of_not_round t hround
      exact h.passes ht hp
  | true =>
      obtain ⟨ctx, stale, rfl⟩ := eq_round hround
      refine Drains.round ctx stale (h.imp_right fun ⟨hcmd, hrounds⟩ => ⟨hcmd, ?_⟩) ht
      have hpos := NonKVProtoBuff.rounds_pos hcmd ht.retry
      rw [if_pos rfl]
      omega

/-- Each round of a run counts. -/
theorem Drains.exec {c : Config Threads Act} (h : Drains cmd n c.state) (ht : c.state.Draining)
    (moves : List Move) :
    Drains cmd (n - moves.countP Move.isRound) (threads.exec c moves).state := by
  induction moves generalizing c n with
  | nil => exact h
  | cons m moves ih =>
      rw [List.countP_cons, Nat.add_comm, ← Nat.sub_sub]
      exact ih (c := threads.next c m) (h.step ht m) (ht.step m)

theorem draining_exec (gid uid : Text) (now : Time) (moves : List Move) :
    (threads.exec (Threads.start gid uid now) moves).state.Draining := by
  have hstart : (Threads.start gid uid now).state.Draining :=
    ⟨⟨List.nodup_nil, fun _ hcmd => absurd hcmd List.not_mem_nil⟩,
      fun _ hit => absurd hit List.not_mem_nil, rfl⟩
  exact (Machine.always_of_invariant (M := threads) (P := fun c => c.state.Draining) hstart
    fun c m ht => ht.step m).exec

end Threads

/-- A command that waits at place `k` of the buffer is out of it after `4 * (k + 1)`
rounds of the retry thread, whatever else happens before, between and after them, and
never comes back. -/
theorem retries_drain (gid uid : Text) (now : Time) (before after : List Move) (k : ℕ)
    (cmd : NonKVFrame)
    (hcmd : (threads.exec (Threads.start gid uid now) before).state.pending[k]? = some cmd)
    (hrounds : 4 * (k + 1) ≤ after.countP Move.isRound) :
    cmd ∉ (threads.exec (Threads.start gid uid now) (before ++ after)).state.pending := by
  have hbefore := Threads.draining_exec gid uid now before
  have hafter := Threads.draining_exec gid uid now (before ++ after)
  have hwait : Threads.Drains cmd (4 * (k + 1))
      (threads.exec (Threads.start gid uid now) before).state :=
    .inr ⟨List.mem_of_getElem? hcmd, NonKVProtoBuff.rounds_le hcmd⟩
  have hover := hwait.exec hbefore after
  rw [Nat.sub_eq_zero_of_le hrounds, ← Machine.exec_append] at hover
  obtain hgone | ⟨hstill, hnone⟩ := hover
  · exact fun hmem => hgone.1 (List.mem_append_right _ hmem)
  · have hpos := NonKVProtoBuff.rounds_pos hstill hafter.retry
    exact absurd hnone (not_le_of_gt hpos)

/-- The second search for home, with the first one before it in the buffer. -/
def secondUnheard : NonKVFrame :=
  (NonKVProtocol.findHome (NonKVProtocol.findHome { gid := "001".toList, uid := "002".toList } 0).2
    0).1

theorem retries_drain_unheard : secondUnheard ∉
    (threads.exec (Threads.start "001".toList "002".toList 0)
      ([.event .blank (.coupleMount 1), .event .blank .findHome, .event .blank .findHome] ++
        List.replicate 8 (.event .blank (.rewriteTick unheard)))).state.pending :=
  retries_drain _ _ _ [.event .blank (.coupleMount 1), .event .blank .findHome,
    .event .blank .findHome] _ 1 _ (by decide +kernel) (by decide)

end Gtoaes
