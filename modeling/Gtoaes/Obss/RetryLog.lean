import Gtoaes.Obss.Numbering
import Gtoaes.Obss.SerialNumbers

/-!
What the retry thread does to each command. A command waits in the buffer until it
is acknowledged, its device goes off-line, or it has been retried often enough, and
in the meantime it is sent again when it comes to the front. The log of a run tells
which commands left the buffer and which were sent again, in that order.
-/

namespace Gtoaes

open Lib Lib.Handler

namespace Obss

/-- A device of that kind is on-line. -/
def Reaches (s : Obss) (devtype : ℤ) : Prop :=
  (devtype = 0 ∧ s.mountOnline = true) ∨ (devtype = 1 ∧ s.tcpFocus.isSome = true)

instance (s : Obss) (devtype : ℤ) : Decidable (s.Reaches devtype) :=
  inferInstanceAs (Decidable (_ ∨ _))

/-- An entry is written where its device is on-line. -/
theorem rewriteItem_eq_nil_iff (it : NonKVProtoItem) (s : Obss) :
    (rewriteItem it s).2 = [] ↔ ¬ s.Reaches it.devtype := by
  rw [rewriteItem, emit_apply, Reaches]
  by_cases hmount : it.devtype = 0 ∧ s.mountOnline = true
  · obtain ⟨conn, hconn⟩ := Option.isSome_iff_exists.mp hmount.2
    simp [hmount, hconn]
  · by_cases hfocus : it.devtype = 1
    · cases hconn : s.tcpFocus <;> simp [hfocus]
    · simp [hmount, hfocus]

end Obss

/-- What happens to a command: it leaves the buffer, or it is sent again. -/
inductive RetryNote
  | removed (cmd : NonKVFrame)
  | resent (cmd : NonKVFrame)
  deriving DecidableEq

/-- Each command has been sent again at most three times, and none after it had left
the buffer. -/
structure RetriesRight (log : List RetryNote) : Prop where
  thrice : ∀ cmd, log.count (.resent cmd) ≤ 3
  waiting : log.Pairwise fun a b => ∀ cmd, a = .removed cmd → b ≠ .resent cmd

namespace Threads

def buff (t : Threads) : NonKVProtoBuff := t.obss.nonkvProtoBuff

/-- The commands that wait for an answer. -/
def pending (t : Threads) : List NonKVFrame := t.buff.map (·.cmd)

/-- The commands that a step takes out of the buffer. -/
def removals (t : Threads) (m : Move) : List NonKVFrame :=
  t.pending.filter fun cmd => cmd ∉ (threads.step t m).1.pending

/-- The command that a step sends again. A round of the retry thread has hold of the
front entry, by reference; where the entry has just been popped the reference is
stale, but it is still this command that is being sent. -/
def resends (t : Threads) : Move → Option NonKVFrame
  | .event ctx (.rewriteTick stale) =>
      if (Obss.step ctx (.rewriteTick stale) t.obss).2 = [] then none
      else t.pending.head?
  | _ => none

/-- Front, pop and write come in that order. -/
def notes (t : Threads) (m : Move) : List RetryNote :=
  (t.removals m).map .removed ++ (t.resends m).toList.map .resent

end Threads

/-- The threads of a system, with the log of what happens to its commands. -/
def retries : Machine Threads Move RetryNote where
  step t m := ((threads.step t m).1, t.notes m)

/-- A GWAC system as `Create` and `Start` leave it. -/
def retriesStart (gid uid : Text) (now : Time) : Config Threads RetryNote where
  state := { obss := Obss.create gid uid .gwac now }
  hist := []

/-- The log makes no difference to a run. -/
theorem retries_exec (gid uid : Text) (now : Time) (moves : List Move) :
    (retries.exec (retriesStart gid uid now) moves).state =
      (threads.exec (Threads.start gid uid now) moves).state := by
  have hkeep : ∀ (c : Config Threads RetryNote) (d : Config Threads Act) (m : Move),
      c.state = d.state → (retries.next c m).state = (threads.next d m).state := by
    intro c d m h
    show (threads.step c.state m).1 = (threads.step d.state m).1
    rw [h]
  exact Machine.sim_exec (M := retries) (N := threads) (S := fun c d => c.state = d.state) rfl
    hkeep moves

namespace Threads

/-- A round of the retry thread pops an entry, and its reference to that entry still
names a device on-line. -/
def DropsAloud (t : Threads) : Move → Prop
  | .event _ (.rewriteTick stale) =>
      t.obss.obssType = .gwac ∧ (∃ it ∈ t.buff.head?, 3 ≤ it.retry) ∧ t.obss.Reaches stale.devtype
  | _ => False

theorem round_of_dropsAloud {t : Threads} {m : Move} (h : t.DropsAloud m) :
    ∃ ctx stale, m = .event ctx (.rewriteTick stale) := by
  cases m with
  | event ctx ev =>
      cases ev with
      | rewriteTick stale => exact ⟨ctx, stale, rfl⟩
      | _ => cases h
  | encode | push => cases h

/-! ### Each command is in one place -/

/-- The commands that have been encoded and have not left the buffer. -/
def live (t : Threads) : List NonKVFrame := t.inflight ++ t.pending

/-- They are distinct, and older than the next one. -/
structure Once (t : Threads) : Prop where
  nodup : t.live.Nodup
  old : ∀ cmd ∈ t.live, cmd.no < t.obss.issued

end Threads

namespace Obss

/-- A queue after a number of handlers: what is left of it, and new commands. -/
structure Extends (s s' : Obss) (kept news : NonKVProtoBuff) : Prop where
  sublist : kept.Sublist s.nonkvProtoBuff
  buff : s'.nonkvProtoBuff = kept ++ news
  issued : s.issued ≤ s'.issued
  retry : ∀ it ∈ news, it.retry = 0
  fresh : ∀ it ∈ news, s.issued ≤ it.cmd.no ∧ it.cmd.no < s'.issued
  nodup : (news.map (·.cmd)).Nodup

theorem Requeues.extends {Q : NonKVBody → Prop} {s s' : Obss} (h : Requeues Q s s') :
    ∃ kept news, Extends s s' kept news := by
  induction h with
  | @keep s s' hproto hbuff =>
      have hissued : s.issued ≤ s'.issued := (congrArg NonKVProtocol.issued hproto).ge
      exact ⟨s'.nonkvProtoBuff, [], hbuff, (List.append_nil _).symm, hissued,
        fun _ hit => absurd hit List.not_mem_nil, fun _ hit => absurd hit List.not_mem_nil,
        List.nodup_nil⟩
  | @command s s' body utc devtype hbody hproto hbuff =>
      have hissued : s'.issued = s.issued + 1 := congrArg NonKVProtocol.issued hproto
      refine ⟨s.nonkvProtoBuff, _, List.Sublist.refl _, hbuff, by omega, fun it hit => ?_,
        fun it hit => ?_, List.nodup_singleton _⟩
      · obtain rfl := List.mem_singleton.mp hit
        rfl
      · obtain rfl := List.mem_singleton.mp hit
        exact ⟨le_rfl, hissued ▸ Nat.lt_succ_self _⟩
  | @trans s t s' _ _ ih ih' =>
      obtain ⟨kept, news, h⟩ := ih
      obtain ⟨kept', news', h'⟩ := ih'
      have hsub : kept'.Sublist (kept ++ news) := h.buff ▸ h'.sublist
      -- of what the first part added, the second may have taken some out
      obtain ⟨k, n, rfl, hk, hn⟩ := List.sublist_append_iff.mp hsub
      refine ⟨k, n ++ news', hk.trans h.sublist, by rw [h'.buff, List.append_assoc],
        h.issued.trans h'.issued, fun it hit => ?_, fun it hit => ?_, ?_⟩
      · obtain hit | hit := List.mem_append.mp hit
        · exact h.retry it (hn.subset hit)
        · exact h'.retry it hit
      · obtain hit | hit := List.mem_append.mp hit
        · exact ⟨(h.fresh it (hn.subset hit)).1,
            (h.fresh it (hn.subset hit)).2.trans_le h'.issued⟩
        · exact ⟨h.issued.trans (h'.fresh it hit).1, (h'.fresh it hit).2⟩
      · -- the later ones have higher numbers
        rw [List.map_append, List.nodup_append]
        refine ⟨(hn.map _).nodup h.nodup, h'.nodup, fun a ha b hb heq => ?_⟩
        obtain ⟨x, hx, rfl⟩ := List.mem_map.mp ha
        obtain ⟨y, hy, rfl⟩ := List.mem_map.mp hb
        have hlt := (h.fresh x (hn.subset hx)).2.trans_le (h'.fresh y hy).1
        rw [heq] at hlt
        exact absurd hlt (lt_irrefl _)

end Obss

namespace Threads

/-- A step that hands commands on, and retries none: those in the buffer behind it
were there before with as many retries, or come in with none. -/
structure Passes (t t' : Threads) (kept news : NonKVProtoBuff) : Prop where
  sublist : kept.Sublist t.buff
  buff : t'.buff = kept ++ news
  issued : t.obss.issued ≤ t'.obss.issued
  retry : ∀ it ∈ news, it.retry = 0
  fresh : ∀ it ∈ news, it.cmd ∈ t.inflight ∨ t.obss.issued ≤ it.cmd.no
  inflight : ∀ cmd ∈ t'.inflight, cmd ∈ t.inflight ∨ t.obss.issued ≤ cmd.no
  once : t.Once → t'.Once

/-- Nothing old is new. -/
theorem Passes.mem_live {t t' : Threads} {kept news : NonKVProtoBuff}
    (h : Passes t t' kept news) {cmd : NonKVFrame} (hcmd : cmd ∈ t'.live) :
    cmd ∈ t.live ∨ t.obss.issued ≤ cmd.no := by
  obtain hcmd | hcmd := List.mem_append.mp hcmd
  · exact (h.inflight cmd hcmd).imp_left (List.mem_append_left _)
  · obtain ⟨it, hit, rfl⟩ := List.mem_map.mp hcmd
    rw [h.buff, List.mem_append] at hit
    obtain hit | hit := hit
    · exact .inl (List.mem_append_right _ (List.mem_map_of_mem (h.sublist.subset hit)))
    · exact (h.fresh it hit).imp_left (List.mem_append_left _)

/-- A handler that queues commands and takes others out. -/
theorem passes_of_extends {t : Threads} {s' : Obss} {kept news : NonKVProtoBuff}
    (h : Obss.Extends t.obss s' kept news) : Passes t { t with obss := s' } kept news := by
  refine ⟨h.sublist, h.buff, h.issued, h.retry, fun it hit => .inr (h.fresh it hit).1,
    fun cmd hcmd => .inl hcmd, fun honce => ?_⟩
  have hlive : live { t with obss := s' } =
      (t.inflight ++ kept.map (·.cmd)) ++ news.map (·.cmd) := by
    show t.inflight ++ s'.nonkvProtoBuff.map (·.cmd) = _
    rw [h.buff, List.map_append, List.append_assoc]
  have hsub : (t.inflight ++ kept.map (·.cmd)).Sublist t.live :=
    (h.sublist.map _).append_left t.inflight
  refine ⟨?_, fun cmd hcmd => ?_⟩
  · rw [hlive, List.nodup_append]
    refine ⟨hsub.nodup honce.nodup, h.nodup, fun a ha b hb heq => ?_⟩
    obtain ⟨it, hit, rfl⟩ := List.mem_map.mp hb
    have hlt := (honce.old a (hsub.subset ha)).trans_le (h.fresh it hit).1
    rw [heq] at hlt
    exact absurd hlt (lt_irrefl _)
  · rw [hlive, List.mem_append] at hcmd
    obtain hcmd | hcmd := hcmd
    · exact (honce.old cmd (hsub.subset hcmd)).trans_le h.issued
    · obtain ⟨it, hit, rfl⟩ := List.mem_map.mp hcmd
      exact (h.fresh it hit).2

/-- A command is encoded, and not queued yet. -/
theorem passes_encode (t : Threads) (body : NonKVBody) (utc : Time) :
    Passes t (threads.step t (.encode body utc)).1 t.buff [] := by
  have hnew : ∀ cmd ∈ (threads.step t (.encode body utc)).1.inflight,
      cmd ∈ t.inflight ∨ cmd = (NonKVProtocol.encode body t.obss.nonkvproto utc).1 := by
    intro cmd hcmd
    simpa [threads] using hcmd
  refine ⟨List.Sublist.refl _, (List.append_nil _).symm, Nat.le_succ _,
    fun _ hit => absurd hit List.not_mem_nil, fun _ hit => absurd hit List.not_mem_nil,
    fun cmd hcmd => ?_, fun honce => ?_⟩
  · obtain hcmd | rfl := hnew cmd hcmd
    · exact .inl hcmd
    · exact .inr le_rfl
  have hperm : (live (threads.step t (.encode body utc)).1).Perm
      ((NonKVProtocol.encode body t.obss.nonkvproto utc).1 :: t.live) := by
    show ((t.inflight ++ [_]) ++ t.pending).Perm _
    rw [List.append_assoc]
    exact List.perm_middle
  refine ⟨hperm.nodup_iff.mpr (List.nodup_cons.mpr ⟨fun hmem => ?_, honce.nodup⟩),
    fun cmd hcmd => ?_⟩
  · exact absurd (honce.old _ hmem) (lt_irrefl _)
  · obtain rfl | hcmd := List.mem_cons.mp (hperm.mem_iff.mp hcmd)
    · exact Nat.lt_succ_self _
    · exact (honce.old cmd hcmd).trans (Nat.lt_succ_self _)

/-- A command in flight is queued. -/
theorem passes_push (t : Threads) {k : ℕ} (devtype : ℤ) {cmd : NonKVFrame}
    (hk : t.inflight[k]? = some cmd) :
    Passes t (threads.step t (.push k devtype)).1 t.buff [⟨cmd.serno, devtype, 0, cmd⟩] := by
  have hstep : (threads.step t (.push k devtype)).1 =
      { obss := { t.obss with nonkvProtoBuff := t.obss.nonkvProtoBuff.push devtype cmd },
        inflight := t.inflight.eraseIdx k } := by
    simp only [threads, hk]
  have hperm : (t.inflight.eraseIdx k ++ (t.buff.push devtype cmd).map (·.cmd)).Perm t.live := by
    have hsplit : t.inflight.Perm (cmd :: t.inflight.eraseIdx k) := by
      obtain ⟨hlt, rfl⟩ := List.getElem?_eq_some_iff.mp hk
      exact (List.getElem_cons_eraseIdx_perm hlt).symm
    rw [NonKVProtoBuff.push, List.map_append, ← List.append_assoc]
    exact (List.perm_append_singleton _ _).trans (hsplit.append_right _).symm
  rw [hstep]
  refine ⟨List.Sublist.refl _, rfl, le_rfl, fun it hit => ?_, fun it hit => ?_,
    fun f hf => .inl (List.mem_of_mem_eraseIdx hf), fun honce => ?_⟩
  · obtain rfl := List.mem_singleton.mp hit
    rfl
  · obtain rfl := List.mem_singleton.mp hit
    exact .inl (List.mem_of_getElem? hk)
  · exact ⟨hperm.nodup_iff.mpr honce.nodup, fun f hf => honce.old f (hperm.mem_iff.mp hf)⟩

theorem passes_of_eq {t t' : Threads} (h : t' = t) : Passes t t' t.buff [] := by
  subst h
  exact ⟨List.Sublist.refl _, (List.append_nil _).symm, le_rfl,
    fun _ hit => absurd hit List.not_mem_nil, fun _ hit => absurd hit List.not_mem_nil,
    fun _ hf => .inl hf, id⟩

/-! ### Rounds of the retry thread -/

section Round

variable {t : Threads} {it : NonKVProtoItem} {rest : NonKVProtoBuff} (ctx : Ctx)
  (stale : NonKVProtoItem)

/-- The state of a round is that of its handler. -/
theorem round_eq (hgwac : t.obss.obssType = .gwac) :
    Obss.step ctx (.rewriteTick stale) t.obss = Obss.threadRewrite stale t.obss := by
  show when (fun s => s.obssType == .gwac) (Obss.threadRewrite stale) t.obss = _
  exact when_true (by simpa using hgwac) _

theorem round_idle (h : t.obss.obssType ≠ .gwac ∨ t.buff = []) :
    (threads.step t (.event ctx (.rewriteTick stale))).1 = t ∧
      t.resends (.event ctx (.rewriteTick stale)) = none := by
  have hstep : Obss.step ctx (.rewriteTick stale) t.obss = (t.obss, []) := by
    by_cases hgwac : t.obss.obssType = .gwac
    · have hnil : t.obss.nonkvProtoBuff = [] := h.resolve_left (not_not_intro hgwac)
      rw [round_eq ctx stale hgwac, Obss.threadRewrite, hnil]
    · show when (fun s => s.obssType == .gwac) (Obss.threadRewrite stale) t.obss = _
      exact when_false (by simpa using hgwac) _
  simp only [threads, resends, hstep, if_true, and_self]

variable (hgwac : t.obss.obssType = .gwac) (hbuff : t.buff = it :: rest)
include hgwac hbuff

/-- The fourth round pops the entry, and writes through the reference to it. -/
theorem round_drop (hretry : 3 ≤ it.retry) :
    (threads.step t (.event ctx (.rewriteTick stale))).1 =
        { t with obss := { t.obss with nonkvProtoBuff := rest } } ∧
      t.resends (.event ctx (.rewriteTick stale)) =
        if t.obss.Reaches stale.devtype then some it.cmd else none := by
  have hstep : Obss.step ctx (.rewriteTick stale) t.obss =
      Obss.rewriteItem stale { t.obss with nonkvProtoBuff := rest } := by
    rw [round_eq ctx stale hgwac, Obss.threadRewrite, show t.obss.nonkvProtoBuff = _ from hbuff]
    exact if_pos (Nat.lt_succ_of_le hretry)
  have hwrite := Obss.rewriteItem_eq_nil_iff stale { t.obss with nonkvProtoBuff := rest }
  refine ⟨by simp only [threads, hstep]; rfl, ?_⟩
  rw [resends, hstep, pending, hbuff, if_congr hwrite rfl rfl, ite_not]
  rfl

/-- A round before that counts the entry, and writes it. -/
theorem round_count (hretry : it.retry < 3) :
    (threads.step t (.event ctx (.rewriteTick stale))).1 =
        { t with obss :=
          { t.obss with nonkvProtoBuff := { it with retry := it.retry + 1 } :: rest } } ∧
      t.resends (.event ctx (.rewriteTick stale)) =
        if t.obss.Reaches it.devtype then some it.cmd else none := by
  have hstep : Obss.step ctx (.rewriteTick stale) t.obss =
      Obss.rewriteItem { it with retry := it.retry + 1 }
        { t.obss with nonkvProtoBuff := { it with retry := it.retry + 1 } :: rest } := by
    rw [round_eq ctx stale hgwac, Obss.threadRewrite, show t.obss.nonkvProtoBuff = _ from hbuff]
    exact if_neg (by omega)
  have hwrite := Obss.rewriteItem_eq_nil_iff { it with retry := it.retry + 1 }
    { t.obss with nonkvProtoBuff := { it with retry := it.retry + 1 } :: rest }
  refine ⟨by simp only [threads, hstep]; rfl, ?_⟩
  rw [resends, hstep, pending, hbuff, if_congr hwrite rfl rfl, ite_not]
  rfl

/-- What such a round writes is the command of the entry. -/
theorem round_writes (hretry : it.retry < 3) {act : Act}
    (hact : act ∈ (threads.step t (.event ctx (.rewriteTick stale))).2) :
    ∃ conn, act = .mount conn .rewrite (.frame it.cmd) ∨ act = .focus conn it.cmd := by
  have hcount : ¬ it.retry + 1 > 3 := by omega
  have hwritten : act ∈ (Obss.threadRewrite stale t.obss).2 :=
    round_eq ctx stale hgwac ▸ hact
  rw [Obss.threadRewrite, show t.obss.nonkvProtoBuff = _ from hbuff] at hwritten
  simp only [if_neg hcount, Obss.rewriteItem, emit_apply] at hwritten
  split at hwritten
  · obtain ⟨conn, -, rfl⟩ := List.mem_map.mp hwritten
    exact ⟨conn, .inl rfl⟩
  · split at hwritten
    · obtain ⟨conn, -, rfl⟩ := List.mem_map.mp hwritten
      exact ⟨conn, .inr rfl⟩
    · cases hwritten

end Round

end Threads

/-! ### The tally -/

/-- What the log says of the commands: those that left the buffer are nowhere, and
none has been sent again more often than its entry counts. -/
structure Tallied (c : Config Threads RetryNote) : Prop where
  once : c.state.Once
  removed : ∀ cmd, .removed cmd ∈ c.hist → cmd.no < c.state.obss.issued ∧ cmd ∉ c.state.live
  resent : ∀ cmd, .resent cmd ∈ c.hist → cmd.no < c.state.obss.issued ∧ cmd ∉ c.state.inflight
  tally : ∀ it ∈ c.state.buff, c.hist.count (.resent it.cmd) ≤ it.retry
  retry : ∀ it ∈ c.state.buff, it.retry ≤ 3
  right : RetriesRight c.hist

theorem resent_notMem_removed (cmds : List NonKVFrame) (cmd : NonKVFrame) :
    .resent cmd ∉ cmds.map RetryNote.removed := by
  simp

theorem Threads.Once.not_mem_inflight {t : Threads} (h : t.Once) {cmd : NonKVFrame}
    (hcmd : cmd ∈ t.pending) : cmd ∉ t.inflight :=
  fun hmem => (List.nodup_append.mp h.nodup).2.2 cmd hmem cmd hcmd rfl

section Step

variable {c : Config Threads RetryNote} {m : Move}

/-- A step that retries nothing. -/
theorem Tallied.passes {kept news : NonKVProtoBuff} (h : Tallied c)
    (hp : Threads.Passes c.state (threads.step c.state m).1 kept news)
    (hquiet : c.state.resends m = none) : Tallied (retries.next c m) := by
  have hnotes : (retries.next c m).hist = c.hist ++ (c.state.removals m).map .removed := by
    show c.hist ++ c.state.notes m = _
    rw [Threads.notes, hquiet]
    exact congrArg (c.hist ++ ·) (List.append_nil _)
  have hcount : ∀ cmd, (retries.next c m).hist.count (.resent cmd) =
      c.hist.count (.resent cmd) := by
    intro cmd
    rw [hnotes, List.count_append,
      List.count_eq_zero_of_not_mem (resent_notMem_removed _ cmd), Nat.add_zero]
  -- numbers of live commands are old, so nothing removed comes back
  have hold : ∀ cmd ∈ c.state.live, cmd.no < c.state.obss.issued := h.once.old
  refine ⟨hp.once h.once, fun cmd hcmd => ?_, fun cmd hcmd => ?_, fun it hit => ?_,
    fun it hit => ?_, fun cmd => ?_, ?_⟩
  · rw [hnotes, List.mem_append] at hcmd
    obtain hcmd | hcmd := hcmd
    · obtain ⟨hlt, hnot⟩ := h.removed cmd hcmd
      exact ⟨hlt.trans_le hp.issued, fun hmem => (hp.mem_live hmem).elim hnot (not_le_of_gt hlt)⟩
    · obtain ⟨cmd', hmem, heq⟩ := List.mem_map.mp hcmd
      obtain rfl := RetryNote.removed.inj heq
      obtain ⟨hpending, hgone⟩ := List.mem_filter.mp hmem
      have hlt := hold cmd' (List.mem_append_right _ hpending)
      refine ⟨hlt.trans_le hp.issued, fun hlive => ?_⟩
      obtain hflight | hwait := List.mem_append.mp hlive
      · exact (hp.inflight cmd' hflight).elim (h.once.not_mem_inflight hpending)
          (not_le_of_gt hlt)
      · exact of_decide_eq_true hgone hwait
  · rw [hnotes, List.mem_append] at hcmd
    obtain ⟨hlt, hnot⟩ := h.resent cmd (hcmd.resolve_right (resent_notMem_removed _ cmd))
    exact ⟨hlt.trans_le hp.issued, fun hmem => (hp.inflight cmd hmem).elim hnot (not_le_of_gt hlt)⟩
  · have hmem : it ∈ kept ++ news := hp.buff ▸ hit
    rw [hcount]
    obtain hit | hit := List.mem_append.mp hmem
    · exact h.tally it (hp.sublist.subset hit)
    · -- a command that has just come in has not been sent again
      have hnever : .resent it.cmd ∉ c.hist := by
        intro hsent
        obtain ⟨hlt, hnot⟩ := h.resent it.cmd hsent
        exact (hp.fresh it hit).elim hnot (not_le_of_gt hlt)
      rw [List.count_eq_zero_of_not_mem hnever]
      exact Nat.zero_le _
  · have hmem : it ∈ kept ++ news := hp.buff ▸ hit
    obtain hit | hit := List.mem_append.mp hmem
    · exact h.retry it (hp.sublist.subset hit)
    · rw [hp.retry it hit]
      exact Nat.zero_le _
  · rw [hcount]
    exact h.right.thrice cmd
  · rw [hnotes, List.pairwise_append]
    refine ⟨h.right.waiting, List.pairwise_map.mpr (List.pairwise_of_forall ?_), ?_⟩
    · intro a b cmd _ heq
      cases heq
    · rintro a - b hb cmd - rfl
      exact resent_notMem_removed _ cmd hb

section Round

variable {it : NonKVProtoItem} {rest : NonKVProtoBuff} {ctx : Ctx} {stale : NonKVProtoItem}
  (hgwac : c.state.obss.obssType = .gwac) (hbuff : c.state.buff = it :: rest)
include hgwac hbuff

omit hgwac in
/-- The command at the front waits there only. -/
theorem Tallied.front (h : Tallied c) :
    it.cmd ∈ c.state.pending ∧ it.cmd ∉ rest.map (·.cmd) := by
  have hnodup := (List.nodup_append.mp h.once.nodup).2.1
  rw [Threads.pending, hbuff, List.map_cons, List.nodup_cons] at hnodup
  rw [Threads.pending, hbuff]
  exact ⟨List.mem_cons_self, hnodup.1⟩

/-- What is sent again by a round that counts the front entry. -/
def sentAgain (s : Obss) (it : NonKVProtoItem) : List RetryNote :=
  if s.Reaches it.devtype then [.resent it.cmd] else []

theorem next_count (hretry : it.retry < 3) :
    retries.next c (.event ctx (.rewriteTick stale)) =
      { state := { c.state with obss := { c.state.obss with
          nonkvProtoBuff := { it with retry := it.retry + 1 } :: rest } }
        hist := c.hist ++ sentAgain c.state.obss it } := by
  obtain ⟨hstate, hresends⟩ := Threads.round_count ctx stale hgwac hbuff hretry
  have hpending : (threads.step c.state (.event ctx (.rewriteTick stale))).1.pending =
      c.state.pending := by
    rw [hstate, Threads.pending, Threads.pending, hbuff]
    rfl
  have hnotes : c.state.notes (.event ctx (.rewriteTick stale)) =
      sentAgain c.state.obss it := by
    have hnone : c.state.removals (.event ctx (.rewriteTick stale)) = [] := by
      rw [Threads.removals, hpending]
      simp
    rw [Threads.notes, hnone, hresends, sentAgain]
    split <;> rfl
  show Config.mk (threads.step c.state _).1 (c.hist ++ c.state.notes _) = _
  rw [hstate, hnotes]

/-- A round that counts the front entry. -/
theorem Tallied.count (h : Tallied c) (hretry : it.retry < 3)
    (hm : m = .event ctx (.rewriteTick stale)) : Tallied (retries.next c m) := by
  obtain ⟨hfront, hothers⟩ := h.front hbuff
  have hlive : c.state.live = c.state.inflight ++ it.cmd :: rest.map (·.cmd) := by
    rw [Threads.live, Threads.pending, hbuff]
    rfl
  have hcount : ∀ cmd, cmd ≠ it.cmd →
      (c.hist ++ sentAgain c.state.obss it).count (.resent cmd) = c.hist.count (.resent cmd) := by
    intro cmd hne
    have hother : .resent cmd ∉ sentAgain c.state.obss it := by
      rw [sentAgain]
      split <;> simp [hne]
    rw [List.count_append, List.count_eq_zero_of_not_mem hother, Nat.add_zero]
  -- the retry now counted is the one that the log may have gained
  have hfewer : (c.hist ++ sentAgain c.state.obss it).count (.resent it.cmd) ≤ it.retry + 1 := by
    have htally := h.tally it (hbuff ▸ List.mem_cons_self)
    rw [List.count_append, sentAgain]
    split
    · rw [List.count_singleton_self]
      omega
    · rw [List.count_nil]
      omega
  have hmem : ∀ note ∈ c.hist ++ sentAgain c.state.obss it,
      note ∈ c.hist ∨ note = .resent it.cmd := by
    intro note hnote
    rw [List.mem_append, sentAgain] at hnote
    refine hnote.imp_right fun hnote => ?_
    split at hnote
    · exact List.mem_singleton.mp hnote
    · cases hnote
  have hnodup := h.once.nodup
  have hold := h.once.old
  have hgone := h.removed
  rw [hlive] at hnodup hold
  simp only [hlive] at hgone
  rw [hm, next_count hgwac hbuff hretry]
  refine ⟨⟨hnodup, hold⟩, fun cmd hcmd => ?_, fun cmd hcmd => ?_, fun x hx => ?_, fun x hx => ?_,
    fun cmd => ?_, ?_⟩
  · exact hgone cmd ((hmem _ hcmd).resolve_right (by simp))
  · obtain hcmd | hcmd := hmem _ hcmd
    · exact h.resent cmd hcmd
    · obtain rfl := RetryNote.resent.inj hcmd
      exact ⟨h.once.old _ (List.mem_append_right _ hfront), h.once.not_mem_inflight hfront⟩
  · obtain rfl | hx := List.mem_cons.mp hx
    · exact hfewer
    · have hne : x.cmd ≠ it.cmd := fun heq => hothers (heq ▸ List.mem_map_of_mem hx)
      exact (hcount x.cmd hne).trans_le (h.tally x (hbuff ▸ List.mem_cons_of_mem _ hx))
  · obtain rfl | hx := List.mem_cons.mp hx
    · exact hretry
    · exact h.retry x (hbuff ▸ List.mem_cons_of_mem _ hx)
  · by_cases heq : cmd = it.cmd
    · exact heq ▸ hfewer.trans hretry
    · exact (hcount cmd heq).trans_le (h.right.thrice cmd)
  · refine List.pairwise_append.mpr ⟨h.right.waiting, ?_, fun a ha b hb cmd hremoved hsent => ?_⟩
    · rw [sentAgain]
      split
      · exact List.pairwise_singleton _ _
      · exact List.Pairwise.nil
    · -- what is sent again is waiting
      subst hremoved hsent
      rw [sentAgain] at hb
      split at hb
      · obtain rfl := RetryNote.resent.inj (List.mem_singleton.mp hb)
        exact (h.removed _ ha).2 (List.mem_append_right _ hfront)
      · cases hb

/-- A round that pops the front entry in silence. -/
theorem Tallied.drop (h : Tallied c) (hretry : 3 ≤ it.retry)
    (hm : m = .event ctx (.rewriteTick stale)) (hsilent : ¬ c.state.DropsAloud m) :
    Tallied (retries.next c m) := by
  subst hm
  obtain ⟨hstate, hresends⟩ := Threads.round_drop ctx stale hgwac hbuff hretry
  have hreach : ¬ c.state.obss.Reaches stale.devtype := by
    refine fun hreach => hsilent ⟨hgwac, ⟨it, ?_, hretry⟩, hreach⟩
    rw [hbuff]
    rfl
  have hextends : Obss.Extends c.state.obss { c.state.obss with nonkvProtoBuff := rest } rest [] :=
    ⟨(show c.state.obss.nonkvProtoBuff = _ from hbuff) ▸ List.sublist_cons_self it rest,
      (List.append_nil _).symm, le_rfl, fun _ hit => absurd hit List.not_mem_nil,
      fun _ hit => absurd hit List.not_mem_nil, List.nodup_nil⟩
  rw [if_neg hreach] at hresends
  exact h.passes (hstate ▸ Threads.passes_of_extends hextends) hresends

/-- A round that pops the front entry and writes has sent a command again that has
been removed. -/
theorem not_retriesRight_of_drop (h : Tallied c) (hretry : 3 ≤ it.retry)
    (hreach : c.state.obss.Reaches stale.devtype)
    (hm : m = .event ctx (.rewriteTick stale)) : ¬ RetriesRight (retries.next c m).hist := by
  subst hm
  obtain ⟨hstate, hresends⟩ := Threads.round_drop ctx stale hgwac hbuff hretry
  have hremoved : it.cmd ∈ c.state.removals (.event ctx (.rewriteTick stale)) := by
    obtain ⟨hfront, hothers⟩ := h.front hbuff
    rw [Threads.removals, hstate, List.mem_filter]
    exact ⟨hfront, decide_eq_true hothers⟩
  intro hright
  have hwaiting := hright.waiting
  rw [if_pos hreach] at hresends
  rw [Machine.next_hist] at hwaiting
  have hnotes := (List.pairwise_append.mp hwaiting).2.1
  rw [show (retries.step c.state (.event ctx (.rewriteTick stale))).2 =
    c.state.notes (.event ctx (.rewriteTick stale)) from rfl, Threads.notes, hresends] at hnotes
  exact (List.pairwise_append.mp hnotes).2.2 _ (List.mem_map_of_mem hremoved) _
    (List.mem_singleton_self _) it.cmd rfl rfl

end Round

/-- Without a round that drops an entry aloud the tally stays right. -/
theorem Tallied.step (h : Tallied c) (hsilent : ¬ c.state.DropsAloud m) :
    Tallied (retries.next c m) := by
  -- only a round of the retry thread sends again; all else passes the live ones on
  cases m with
  | encode body utc => exact h.passes (Threads.passes_encode c.state body utc) rfl
  | push k devtype =>
      cases hk : c.state.inflight[k]? with
      | none =>
          have hstay : (threads.step c.state (.push k devtype)).1 = c.state := by
            simp only [threads, hk]
          exact h.passes (Threads.passes_of_eq hstay) rfl
      | some cmd => exact h.passes (Threads.passes_push c.state devtype hk) rfl
  | event ctx ev =>
      by_cases hretry : ∃ stale, ev = .rewriteTick stale
      · obtain ⟨stale, rfl⟩ := hretry
        by_cases hgwac : c.state.obss.obssType = .gwac
        · cases hbuff : c.state.buff with
          | nil =>
              obtain ⟨hstay, hquiet⟩ := Threads.round_idle ctx stale (.inr hbuff)
              exact h.passes (Threads.passes_of_eq hstay) hquiet
          | cons it rest =>
              obtain hlt | hle := lt_or_ge it.retry 3
              · exact h.count hgwac hbuff hlt rfl
              · exact h.drop hgwac hbuff hle rfl hsilent
        · obtain ⟨hstay, hquiet⟩ := Threads.round_idle ctx stale (.inl hgwac)
          exact h.passes (Threads.passes_of_eq hstay) hquiet
      · have hother : ∀ stale, ev ≠ .rewriteTick stale := fun stale heq => hretry ⟨stale, heq⟩
        obtain ⟨kept, news, hextends⟩ :=
          (Obss.requeues_step ctx hother (Obss.encodable_true c.state.obss ev)).extends
        refine h.passes (m := .event ctx ev) (Threads.passes_of_extends hextends) ?_
        cases ev with
        | rewriteTick stale => exact absurd rfl (hother stale)
        | _ => rfl

theorem not_retriesRight_of_dropsAloud (h : Tallied c) (hdrops : c.state.DropsAloud m) :
    ¬ RetriesRight (retries.next c m).hist := by
  obtain ⟨ctx, stale, rfl⟩ := Threads.round_of_dropsAloud hdrops
  obtain ⟨hgwac, ⟨it, hhead, hretry⟩, hreach⟩ := hdrops
  obtain ⟨rest, hbuff⟩ := List.head?_eq_some_iff.mp hhead
  exact not_retriesRight_of_drop hgwac hbuff h hretry hreach rfl

end Step

theorem tallied_start (gid uid : Text) (now : Time) : Tallied (retriesStart gid uid now) :=
  ⟨⟨List.nodup_nil, fun _ hcmd => absurd hcmd List.not_mem_nil⟩,
    fun _ hcmd => absurd hcmd List.not_mem_nil, fun _ hcmd => absurd hcmd List.not_mem_nil,
    fun _ hit => absurd hit List.not_mem_nil, fun _ hit => absurd hit List.not_mem_nil,
    fun _ => Nat.zero_le _, List.Pairwise.nil⟩

/-- In a run, whatever comes between what, each command is sent again at most three
times and none after it has been removed, if and only if no round of the retry thread
pops an entry while its reference to it names a device on-line. -/
theorem retriesRight_iff_no_dropsAloud (gid uid : Text) (now : Time) (moves : List Move) :
    retries.Always (fun c => RetriesRight c.hist) (retriesStart gid uid now) moves ↔
      retries.Each (fun c m => ¬ c.state.DropsAloud m) (retriesStart gid uid now) moves := by
  have hstep : ∀ (c : Config Threads RetryNote) (m : Move), Tallied c →
      ((RetriesRight (retries.next c m).hist ∧ True) ↔ ¬ c.state.DropsAloud m) := by
    intro c m h
    rw [and_true]
    exact ⟨fun hright hdrops => not_retriesRight_of_dropsAloud h hdrops hright,
      fun hsilent => (h.step hsilent).right⟩
  have hexact : (retries.Always (fun c => RetriesRight c.hist) (retriesStart gid uid now) moves ∧
      retries.Each (fun _ _ => True) (retriesStart gid uid now) moves) ↔
        retries.Each (fun c m => ¬ c.state.DropsAloud m) (retriesStart gid uid now) moves :=
    Machine.always_and_each_iff (tallied_start gid uid now) (fun _ h => h.right) hstep
      fun _ _ h hsilent => h.step hsilent
  rwa [and_iff_left Machine.each_true] at hexact

/-- The search for home that is sent to a mount that does not answer. -/
def unheard : NonKVProtoItem where
  serno := 1
  devtype := 0
  retry := 4
  cmd := (NonKVProtocol.findHome { gid := "001".toList, uid := "002".toList } 0).1

/-- Four rounds of the retry thread, the last of which finds the entry as it has just
left it. -/
def fourRounds : List Move :=
  [.event .blank (.coupleMount 1), .event .blank .findHome] ++
    List.replicate 4 (.event .blank (.rewriteTick unheard))

/-- The command is sent again four times, at last when it has been removed. -/
theorem not_retriesRight : ¬ ∀ (gid uid : Text) (now : Time) (moves : List Move),
    retries.Always (fun c => RetriesRight c.hist) (retriesStart gid uid now) moves := by
  intro h
  have hrun := (h "001".toList "002".toList 0 fourRounds).exec
  have hlog : (retries.exec (retriesStart "001".toList "002".toList 0) fourRounds).hist =
      [.resent unheard.cmd, .resent unheard.cmd, .resent unheard.cmd, .removed unheard.cmd,
        .resent unheard.cmd] := by
    decide +kernel
  rw [hlog] at hrun
  exact absurd (hrun.thrice unheard.cmd) (by decide)

end Gtoaes
