import Gtoaes.Obss.Numbering

/-!
What the retry thread does to the order of commands. A slew that has not been
acknowledged stays in the queue when the mount is halted or sent elsewhere, and
it is sent again when it comes to the front. Losing the connection empties the
queue of mount commands; no command does.
-/

namespace Gtoaes

open Lib Lib.Handler

/-- The commands after which an older slew is no longer wanted. -/
def Request.halts : Request → Bool
  | .abort | .park | .findHome | .slewto _ => true
  | _ => false

def NonKVFrame.isSlew (cmd : NonKVFrame) : Bool :=
  match cmd.body with
  | .slew _ _ => true
  | _ => false

/-- Some `Abort`, `Park`, `FindHome` or `Slewto` among the outputs has sent a
frame issued after `cmd`. -/
def Superseded (acts : List Act) (cmd : NonKVFrame) : Prop :=
  ∃ conn req g, Act.mount conn req (.frame g) ∈ acts ∧ req.halts = true ∧ cmd.no < g.no

/-- No slew is written after it has been superseded. -/
def NoStaleSlew (acts : List Act) : Prop :=
  ∀ before after conn req cmd, acts = before ++ Act.mount conn req (.frame cmd) :: after →
    cmd.isSlew = true → ¬ Superseded before cmd

theorem NoStaleSlew.nil : NoStaleSlew [] := by
  intro before after conn req cmd h
  simp at h

theorem Superseded.append {acts : List Act} {cmd : NonKVFrame} (h : Superseded acts cmd)
    (acts' : List Act) : Superseded (acts ++ acts') cmd := by
  obtain ⟨conn, req, g, hmem, hg⟩ := h
  exact ⟨conn, req, g, List.mem_append_left _ hmem, hg⟩

/-- What is to be shown of the outputs of one step. -/
theorem noStaleSlew_append {hist acts : List Act} (h : NoStaleSlew hist) :
    NoStaleSlew (hist ++ acts) ↔
      ∀ before after conn req cmd, acts = before ++ Act.mount conn req (.frame cmd) :: after →
        cmd.isSlew = true → ¬ Superseded (hist ++ before) cmd := by
  constructor
  · rintro happ before after conn req cmd rfl hslew
    exact happ (hist ++ before) after conn req cmd (by simp) hslew
  · intro hnew before after conn req cmd hsplit hslew
    rcases List.append_eq_append_iff.mp hsplit with ⟨as, rfl, has⟩ | ⟨bs, rfl, hbs⟩
    · exact hnew as after conn req cmd has hslew
    · cases bs with
      | nil =>
          have hfirst := hnew [] after conn req cmd hbs.symm hslew
          simpa using hfirst
      | cons b bs =>
          obtain ⟨rfl, -⟩ := List.cons.inj hbs
          exact h before bs conn req cmd rfl hslew

namespace Obss

/-- The retry thread is about to send a slew to a mount on-line that has been
superseded. -/
def RetriesStale (hist : List Act) (s : Obss) (ev : Event) : Prop :=
  ∃ stale it, ev = .rewriteTick stale ∧ s.obssType = .gwac ∧ s.tcpMount.isSome ∧
    s.resent stale = some it ∧ it.devtype = 0 ∧ it.cmd.isSlew = true ∧ Superseded hist it.cmd

theorem threadRewrite_acts (s : Obss) (stale : NonKVProtoItem) :
    (threadRewrite stale s).2 =
      (s.resent stale).elim [] fun it => (rewriteItem it s).2 := by
  unfold threadRewrite resent
  cases s.nonkvProtoBuff with
  | nil => rfl
  | cons it rest =>
      by_cases hretry : it.retry + 1 > 3
      · simp only [hretry, if_true]
        rfl
      · simp only [hretry, if_false]
        rfl

/-- What a round of the retry thread sends to the mount. -/
theorem rewriteTick_mount {ctx : Ctx} {s : Obss} {stale : NonKVProtoItem} {conn : Conn}
    {req : Request} {msg : MountMsg} :
    Act.mount conn req msg ∈ (step ctx (.rewriteTick stale) s).2 ↔
      req = .rewrite ∧ s.obssType = .gwac ∧ s.tcpMount = some conn ∧
        ∃ it, s.resent stale = some it ∧ it.devtype = 0 ∧ msg = .frame it.cmd := by
  rw [show step ctx (.rewriteTick stale) s =
    when (fun s => s.obssType == .gwac) (threadRewrite stale) s from rfl]
  rcases when_cases (fun s : Obss => s.obssType == .gwac) (threadRewrite stale) s with
    ⟨htype, heq⟩ | ⟨htype, heq⟩
  · rw [heq, threadRewrite_acts]
    have hgwac : s.obssType = .gwac := by simpa using htype
    cases hit : s.resent stale with
    | none => simp
    | some it =>
        simp only [Option.elim_some, rewriteItem, emit_apply, hgwac, true_and, Option.some.injEq,
          exists_eq_left']
        by_cases hdev : it.devtype = 0 ∧ s.mountOnline = true
        · rw [if_pos hdev]
          simp only [List.mem_map, Option.mem_toList, Act.mount.injEq]
          constructor
          · rintro ⟨c, hc, rfl, rfl, rfl⟩
            exact ⟨rfl, hc, hdev.1, rfl⟩
          · rintro ⟨rfl, hc, -, rfl⟩
            exact ⟨conn, hc, rfl, rfl, rfl⟩
        · rw [if_neg hdev]
          constructor
          · intro h
            split at h
            · simp at h
            · cases h
          · rintro ⟨-, hc, hzero, -⟩
            exact absurd ⟨hzero, by simp [mountOnline, hc]⟩ hdev
  · rw [heq]
    have hgft : ¬ s.obssType = .gwac := by simpa using htype
    simp [hgft]

theorem rewriteTick_issued (ctx : Ctx) (s : Obss) (stale : NonKVProtoItem) :
    (step ctx (.rewriteTick stale) s).1.issued = s.issued := by
  rw [show step ctx (.rewriteTick stale) s =
    when (fun s => s.obssType == .gwac) (threadRewrite stale) s from rfl]
  rcases when_cases (fun s : Obss => s.obssType == .gwac) (threadRewrite stale) s with
    ⟨-, heq⟩ | ⟨-, heq⟩
  · rw [heq]
    unfold threadRewrite
    split
    · rfl
    · split <;> rfl
  · rw [heq]

/-- The halting commands sent so far have been issued so far. -/
def HaltsIssued (hist : List Act) (s : Obss) : Prop :=
  ∀ conn req g, Act.mount conn req (.frame g) ∈ hist → req.halts = true → g.no < s.issued

/-- What an event other than a retry sends is not superseded. -/
theorem not_superseded_of_numbered {ctx : Ctx} {s : Obss} {ev : Event}
    (hev : ∀ stale, ev ≠ .rewriteTick stale) {hist : List Act} (hhist : HaltsIssued hist s)
    {before after : List Act} {conn : Conn} {req : Request} {cmd : NonKVFrame}
    (hacts : (step ctx ev s).2 = before ++ Act.mount conn req (.frame cmd) :: after) :
    ¬ Superseded (hist ++ before) cmd := by
  rintro ⟨conn', req', g, hmem, hhalts, hlt⟩
  obtain ⟨-, hsorted, hbound⟩ := numbered_step ctx hev s
  rw [hacts, List.filterMap_append] at hsorted hbound
  have hcmd : cmd.no ∈ (Act.mount conn req (.frame cmd) :: after).filterMap Act.issueNo :=
    List.mem_filterMap.mpr ⟨_, List.mem_cons_self, rfl⟩
  rcases List.mem_append.mp hmem with hmem | hmem
  · -- sent in an earlier step
    have hg := hhist conn' req' g hmem hhalts
    have hle := (hbound cmd.no (List.mem_append_right _ hcmd)).1
    omega
  · -- sent in this step, ahead of the frame
    have hg : g.no ∈ before.filterMap Act.issueNo := List.mem_filterMap.mpr ⟨_, hmem, rfl⟩
    have hle := (List.pairwise_append.mp hsorted).2.2 g.no hg cmd.no hcmd
    omega

theorem haltsIssued_step {ctx : Ctx} {s : Obss} {hist : List Act} (h : HaltsIssued hist s)
    (ev : Event) : HaltsIssued (hist ++ (step ctx ev s).2) (step ctx ev s).1 := by
  intro conn req g hmem hhalts
  by_cases hev : ∃ stale, ev = .rewriteTick stale
  · obtain ⟨stale, rfl⟩ := hev
    have hissued := rewriteTick_issued ctx s stale
    rcases List.mem_append.mp hmem with hmem | hmem
    · rw [hissued]
      exact h conn req g hmem hhalts
    · obtain ⟨rfl, -⟩ := rewriteTick_mount.mp hmem
      cases hhalts
  · obtain ⟨hle, -, hbound⟩ := numbered_step ctx (fun stale he => hev ⟨stale, he⟩) s
    rcases List.mem_append.mp hmem with hmem | hmem
    · exact (h conn req g hmem hhalts).trans_le hle
    · exact (hbound g.no (List.mem_filterMap.mpr ⟨_, hmem, rfl⟩)).2

/-- A step writes no superseded slew, unless it retries one. -/
theorem noStaleSlew_step {ctx : Ctx} {s : Obss} {hist : List Act} (hhist : HaltsIssued hist s)
    (h : NoStaleSlew hist) (ev : Event) :
    NoStaleSlew (hist ++ (step ctx ev s).2) ↔ ¬ RetriesStale hist s ev := by
  rw [noStaleSlew_append h]
  constructor
  · rintro hnew ⟨stale, it, rfl, htype, honline, hit, hdev, hslew, hsup⟩
    obtain ⟨conn, hconn⟩ := Option.isSome_iff_exists.mp honline
    have hmem : Act.mount conn .rewrite (.frame it.cmd) ∈ (step ctx (.rewriteTick stale) s).2 :=
      rewriteTick_mount.mpr ⟨rfl, htype, hconn, it, hit, hdev, rfl⟩
    obtain ⟨before, after, hacts⟩ := List.append_of_mem hmem
    exact hnew before after conn .rewrite it.cmd hacts hslew (hsup.append before)
  · intro hev before after conn req cmd hacts hslew hsup
    by_cases hretry : ∃ stale, ev = .rewriteTick stale
    · obtain ⟨stale, rfl⟩ := hretry
      have hmem : Act.mount conn req (.frame cmd) ∈ (step ctx (.rewriteTick stale) s).2 := by
        simp [hacts]
      obtain ⟨rfl, htype, hconn, it, hit, hdev, hcmd⟩ := rewriteTick_mount.mp hmem
      obtain rfl : cmd = it.cmd := by simpa using hcmd
      refine hev ⟨stale, it, rfl, htype, by simp [hconn], hit, hdev, hslew, ?_⟩
      obtain ⟨conn', req', g, hg, hhalts, hlt⟩ := hsup
      rcases List.mem_append.mp hg with hg | hg
      · exact ⟨conn', req', g, hg, hhalts, hlt⟩
      · -- what the same round sends is a retry and halts nothing
        have hg' : Act.mount conn' req' (.frame g) ∈ (step ctx (.rewriteTick stale) s).2 := by
          simp [hacts, hg]
        obtain ⟨rfl, -⟩ := rewriteTick_mount.mp hg'
        cases hhalts
    · exact not_superseded_of_numbered (fun stale he => hretry ⟨stale, he⟩) hhist hacts hsup

end Obss

namespace Solo

open Obss

/-- In a run of a system no slew is written to the mount after an `Abort`,
`Park`, `FindHome` or later `Slewto`, if and only if the retry thread never
finds such a slew to send. -/
theorem noStaleSlew_iff_no_retriesStale (posix : PosixTime) (gid uid : Text) (type : ObssType)
    (now : Time) (is : List Input) :
    (solo posix).Always (fun c => NoStaleSlew c.hist) (start gid uid type now) is ↔
      (solo posix).Each (fun c i => ¬ RetriesStale c.hist c.state.obss i.ev)
        (start gid uid type now) is := by
  have hinv : (solo posix).Always (fun c => HaltsIssued c.hist c.state.obss)
      (start gid uid type now) is := by
    refine Machine.always_of_invariant (fun _ _ _ hmem _ => ?_) fun c i h => ?_
    · simp [start] at hmem
    · exact haltsIssued_step h i.ev
  exact Machine.always_iff_each hinv.each .nil fun c i hhist h => noStaleSlew_step hhist h i.ev

/-- A slew that has not been acknowledged when the mount is told to abort it. -/
def hastySlew : NonKVFrame where
  gid := "001".toList
  uid := "001".toList
  body := .slew (.fin 10) (.fin 20)
  utc := 0
  serno := 1
  no := 0

def hastyAbort : NonKVFrame := { hastySlew with body := .abortSlew, serno := 2, no := 1 }

/-- The slew is sent again a second later. -/
def abortedSlew : List Input :=
  [Event.coupleMount 1, .slewto { ra := some (.fin 10), dec := some (.fin 20) }, .abort,
    .rewriteTick { serno := 0, devtype := 0, retry := 0, cmd := hastySlew }].map Event.plain

theorem not_noStaleSlew : ¬ ∀ (posix : PosixTime) (gid uid : Text) (now : Time)
    (is : List Input),
    (solo posix).Always (fun c => NoStaleSlew c.hist) (start gid uid .gwac now) is := by
  intro h
  have hrun := (h .blank "001".toList "001".toList 0 abortedSlew).exec
  have hhist : ((solo .blank).exec (start "001".toList "001".toList .gwac 0) abortedSlew).hist =
      [.link (some 1),
        .mount 1 (.slewto { ra := some (.fin 10), dec := some (.fin 20) }) (.frame hastySlew),
        .mount 1 .abort (.frame hastyAbort)] ++
      .mount 1 .rewrite (.frame hastySlew) :: [] := by
    decide +kernel
  refine hrun _ _ 1 .rewrite hastySlew hhist rfl ⟨1, .abort, hastyAbort, ?_, rfl, ?_⟩
  · simp
  · decide

end Solo

end Gtoaes
