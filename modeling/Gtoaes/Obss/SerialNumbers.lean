import Gtoaes.Obss.Requeue
import Gtoaes.Proto.NonKVText

/-!
The serial numbers of the commands that wait for an answer. The encoder counts
from 1 to 99999 and begins again, so two commands can be told apart by their
numbers only while fewer than 99999 lie between them.

Handlers run on threads of their own, and between the encoding of a command and
its `Push` another thread may do both, or answer, clear or retry what is already
there. A frame on that way is *in flight*. What is kept through all of it is an
account of the frames in flight and in the buffer: they are distinct frames of
the encoder, whose places in its count give their serial numbers.
-/

namespace Gtoaes

open Lib Lib.Handler

/-- The serial number of the frame at that place. -/
def serialOf (no : ℕ) : ℤ := (no % 99999 : ℕ) + 1

theorem serialOf_range (no : ℕ) : 1 ≤ serialOf no ∧ serialOf no ≤ 99999 := by
  unfold serialOf
  omega

theorem serialOf_succ (no : ℕ) :
    serialOf (no + 1) = if serialOf no + 1 = 100000 then 1 else serialOf no + 1 := by
  unfold serialOf
  split <;> omega

/-- Within one period of the counter, the number tells the place. -/
theorem serialOf_inj {issued m n : ℕ} (hm : m < issued ∧ issued ≤ m + 99999)
    (hn : n < issued ∧ issued ≤ n + 99999) (h : serialOf m = serialOf n) : m = n := by
  unfold serialOf at h
  omega

/-- A command as the system encodes it: numbers are `int`s, camera ids have three
characters, and a time of observation is printed by `NotifyFWHM`. -/
def NonKVBody.Fits : NonKVBody → Prop
  | .guide ra dec => IsInt ra ∧ IsInt dec
  | .fwhm cid tmobs _ => cid.length = 3 ∧ ∃ utc, tmobs = Obss.tmobs utc
  | .focus cid pos => cid.length = 3 ∧ IsInt pos
  | .focusSync cid => cid.length = 3
  | _ => True

/-! ### The text of a frame -/

theorem length_tmobs (utc : Ticks) : (Obss.tmobs utc).length = 9 := by
  rw [Obss.tmobs, List.length_append, List.length_append]
  generalize utc / ticksPerSecond = seconds
  have hhours : (zeroPad 2 (seconds % 86400 / 3600)).length = 2 :=
    length_zeroPad (by omega) (by omega) (by decide)
  have hminutes : (zeroPad 2 (seconds % 86400 / 60 % 60)).length = 2 :=
    length_zeroPad (by omega) (by omega) (by decide)
  have hseconds : (zeroPad 5 (seconds % 86400 % 60 * 1000)).length = 5 :=
    length_zeroPad (by omega) (by omega) (by decide)
  rw [hhours, hminutes, hseconds]

theorem width_le {body : NonKVBody} (h : body.Fits) : body.width ≤ 31 := by
  have hint : ∀ x : Double, IsInt x.toInt := Double.toInt_range
  -- an `int` has at most ten digits and a sign
  cases body with
  | findHome ra dec => exact show 11 ≤ 31 by decide
  | park => exact show 4 ≤ 31 by decide
  | abortSlew => exact show 9 ≤ 31 by decide
  | track => exact show 5 ≤ 31 by decide
  | slew ra dec =>
      have hra : zeroPadWidth 7 (tenThousandths ra) ≤ 11 := zeroPadWidth_le (hint _) (by omega)
      have hdec : signWidth 7 (tenThousandths dec) ≤ 11 := signWidth_le (hint _) (by omega)
      rw [NonKVBody.width]
      omega
  | guide ra dec =>
      have hra : signWidth 6 ra ≤ 11 := signWidth_le h.1 (by omega)
      have hdec : signWidth 6 dec ≤ 11 := signWidth_le h.2 (by omega)
      rw [NonKVBody.width]
      omega
  | trackVelocity ra dec =>
      have hra : signWidth 8 (thousandths ra) ≤ 11 := signWidth_le (hint _) (by omega)
      have hdec : signWidth 8 (thousandths dec) ≤ 11 := signWidth_le (hint _) (by omega)
      rw [NonKVBody.width]
      omega
  | fwhm cid tmobs value =>
      obtain ⟨hcid, utc, rfl⟩ := h
      have hvalue : zeroPadWidth 4 (thousandths value) ≤ 11 := zeroPadWidth_le (hint _) (by omega)
      rw [NonKVBody.width, hcid, length_tmobs]
      omega
  | focus cid pos =>
      have hpos : signWidth 5 pos ≤ 11 := signWidth_le h.2 (by omega)
      rw [NonKVBody.width, h.1]
      omega
  | focusSync cid =>
      have hcid : cid.length = 3 := h
      rw [NonKVBody.width, hcid]
      decide

/-- A frame of the system fits the buffer it is printed to. -/
theorem text_eq {f : NonKVFrame} (stamp : Time → Stamp) (hgid : f.gid.length = 3)
    (huid : f.uid.length = 3) (hbody : f.body.Fits) (hserno : 1 ≤ f.serno ∧ f.serno ≤ 99999) :
    f.text stamp = f.command ++ f.trailer stamp := by
  have hwidth := width_le hbody
  exact (NonKVFrame.text_eq_iff stamp hserno).mpr (by omega)

/-! ### The account -/

/-- A frame the encoder has issued. -/
structure NonKVFrame.IssuedBy (p : NonKVProtocol) (f : NonKVFrame) : Prop where
  gid : f.gid = p.gid
  uid : f.uid = p.uid
  fits : f.body.Fits
  old : f.no < p.issued
  serno : f.serno = serialOf f.no

/-- The encoder's count, and some of its frames, each held once. -/
structure Accounted (p : NonKVProtocol) (fs : List NonKVFrame) : Prop where
  gid : p.gid.length = 3
  uid : p.uid.length = 3
  serno : p.serno = serialOf p.issued
  issued : ∀ f ∈ fs, f.IssuedBy p
  nodup : (fs.map (·.no)).Nodup

theorem Accounted.encode {p : NonKVProtocol} {fs : List NonKVFrame} (h : Accounted p fs)
    {body : NonKVBody} (hbody : body.Fits) (utc : Time) :
    Accounted (NonKVProtocol.encode body p utc).2 ((NonKVProtocol.encode body p utc).1 :: fs) := by
  have hold : ∀ f ∈ fs, f.no < p.issued := fun f hf => (h.issued f hf).old
  refine ⟨h.gid, h.uid, ?_, fun f hf => ?_, ?_⟩
  · show (if p.serno + 1 = 100000 then 1 else p.serno + 1) = serialOf (p.issued + 1)
    rw [h.serno, serialOf_succ]
  · obtain rfl | hf := List.mem_cons.mp hf
    · exact ⟨rfl, rfl, hbody, Nat.lt_succ_self _, h.serno⟩
    · obtain ⟨hgid, huid, hfits, hlt, hserno⟩ := h.issued f hf
      exact ⟨hgid, huid, hfits, hlt.trans (Nat.lt_succ_self _), hserno⟩
  · -- the new frame has the next place
    rw [List.map_cons, List.nodup_cons]
    refine ⟨fun hmem => ?_, h.nodup⟩
    obtain ⟨f, hf, hno⟩ := List.mem_map.mp hmem
    have hlt := hold f hf
    rw [hno] at hlt
    exact absurd hlt (lt_irrefl _)

/-- Frames may be put in another order, and taken off. -/
theorem Accounted.subperm {p : NonKVProtocol} {fs fs' : List NonKVFrame} (h : Accounted p fs)
    (hsub : fs'.Subperm fs) : Accounted p fs' := by
  refine ⟨h.gid, h.uid, h.serno, fun f hf => h.issued f (hsub.subset hf), ?_⟩
  obtain ⟨l, hperm, hsub⟩ := hsub
  exact (hperm.map _).nodup_iff.mp ((hsub.map _).nodup h.nodup)

namespace Obss

/-- The frames in flight and in the buffer are accounted for, and an entry of the
buffer has the number of its frame. -/
structure Books (inflight : List NonKVFrame) (s : Obss) : Prop where
  accounted : Accounted s.nonkvproto (inflight ++ s.nonkvProtoBuff.map (·.cmd))
  entry : ∀ it ∈ s.nonkvProtoBuff, it.serno = it.cmd.serno

variable {inflight : List NonKVFrame}

/-- A command that is encoded and pushed at once. -/
theorem Books.command {s s' : Obss} (h : s.Books inflight) {body : NonKVBody} (hbody : body.Fits)
    {utc : Time} {devtype : ℤ}
    (hproto : s'.nonkvproto = (NonKVProtocol.encode body s.nonkvproto utc).2)
    (hbuff : s'.nonkvProtoBuff =
      s.nonkvProtoBuff.push devtype (NonKVProtocol.encode body s.nonkvproto utc).1) :
    s'.Books inflight := by
  refine ⟨?_, fun it hit => ?_⟩
  · rw [hproto, hbuff]
    refine (h.accounted.encode hbody utc).subperm (List.Perm.subperm ?_)
    rw [NonKVProtoBuff.push, List.map_append, ← List.append_assoc]
    exact List.perm_append_singleton _ _
  · rw [hbuff, NonKVProtoBuff.mem_push] at hit
    obtain hit | rfl := hit
    · exact h.entry it hit
    · rfl

/-- Taking entries out of the buffer. -/
theorem Books.sublist {s s' : Obss} (h : s.Books inflight) (hproto : s'.nonkvproto = s.nonkvproto)
    (hbuff : s'.nonkvProtoBuff.Sublist s.nonkvProtoBuff) : s'.Books inflight := by
  refine ⟨?_, fun it hit => h.entry it (hbuff.subset hit)⟩
  rw [hproto]
  exact h.accounted.subperm ((hbuff.map _).append_left inflight).subperm

/-- Queueing commands that fit, and taking others out. -/
theorem Books.requeues {s s' : Obss} (hs : s.Books inflight)
    (h : Requeues NonKVBody.Fits s s') : s'.Books inflight := by
  induction h with
  | keep hproto hbuff => exact hs.sublist hproto hbuff
  | command body utc devtype hbody hproto hbuff => exact hs.command hbody hproto hbuff
  | trans _ _ ih ih' => exact ih' (ih hs)

/-- The ids of the cameras have three characters. -/
def CidsFit (s : Obss) : Prop := ∀ it ∈ s.camInfoVec, it.info.cid.length = 3

/-- A message that addresses a camera gives an id as long as the camera's. -/
theorem CidsFit.length_eq {s : Obss} (h : s.CidsFit) {cid : Text} {it : CameraInfo}
    (hfind : s.camInfoVec.find? (hasCid cid) = some it) : cid.length = 3 := by
  have hsame : hasCid cid it = true := List.find?_some hfind
  rw [← h it (List.mem_of_find?_eq_some hfind),
    iequals_length (show iequals it.info.cid cid = true from hsame)]

/-- A retry takes the front entry off, or counts it. -/
theorem books_threadRewrite (stale : NonKVProtoItem) :
    Keeps (Books inflight) (threadRewrite stale) := by
  intro s hs
  unfold threadRewrite
  split
  · exact hs
  · rename_i it rest hbuff
    split
    · refine hs.sublist rfl ?_
      show rest.Sublist s.nonkvProtoBuff
      rw [hbuff]
      exact List.sublist_cons_self it rest
    · refine ⟨?_, fun x hx => ?_⟩
      · have h := hs.accounted
        rw [hbuff] at h
        exact h
      · obtain rfl | hx := List.mem_cons.mp hx
        · exact hs.entry it (by rw [hbuff]; exact List.mem_cons_self)
        · exact hs.entry x (by rw [hbuff]; exact List.mem_cons_of_mem _ hx)

end Obss

/-- The numbers of a message fit `int`. -/
def Event.Fits : Event → Prop
  | .guide proto => IsInt proto.ra ∧ IsInt proto.dec
  | .focus proto => IsInt proto.relPos
  | _ => True

namespace Obss

variable {inflight : List NonKVFrame}

theorem encodable_fits {s : Obss} (hcids : s.CidsFit) {ev : Event} (hev : ev.Fits) :
    Encodable NonKVBody.Fits s ev where
  plain body h := by
    cases body with
    | guide | fwhm | focus | focusSync => cases h
    | _ => trivial
  guide := by
    rintro proto rfl
    exact hev
  focus := by
    rintro proto it rfl hfind
    exact ⟨hcids.length_eq hfind, hev⟩
  fwhm := by
    rintro proto it utc value rfl hfind
    exact ⟨hcids.length_eq hfind, utc, rfl⟩
  focusSync it hit := hcids it hit

/-- Whatever happens, the account is right afterwards. -/
theorem books_step (ctx : Ctx) {ev : Event} (hev : ev.Fits) {s : Obss} (hcids : s.CidsFit)
    (hs : s.Books inflight) : (step ctx ev s).1.Books inflight := by
  by_cases hretry : ∃ stale, ev = .rewriteTick stale
  · obtain ⟨stale, rfl⟩ := hretry
    exact Keeps.when (books_threadRewrite stale) s hs
  · refine hs.requeues (requeues_step ctx (fun stale heq => hretry ⟨stale, heq⟩) ?_)
    exact encodable_fits hcids hev

end Obss

/-! ### Runs -/

/-- A system some of whose commands are between their encoder and the buffer. -/
structure Threads where
  obss : Obss
  inflight : List NonKVFrame := []

/-- A handler as a whole, or one half of a command: an encoding, or the `Push` of
the frame at place `k` of those in flight. -/
inductive Move
  | event (ctx : Ctx) (ev : Event)
  | encode (body : NonKVBody) (utc : Time)
  | push (k : ℕ) (devtype : ℤ)

def threads : Machine Threads Move Act where
  step t m :=
    match m with
    | .event ctx ev =>
        ({ t with obss := (Obss.step ctx ev t.obss).1 }, (Obss.step ctx ev t.obss).2)
    | .encode body utc =>
        let r := NonKVProtocol.encode body t.obss.nonkvproto utc
        ({ obss := { t.obss with nonkvproto := r.2 }, inflight := t.inflight ++ [r.1] }, [])
    | .push k devtype =>
        match t.inflight[k]? with
        | none => (t, [])
        | some cmd =>
            ({ obss := { t.obss with nonkvProtoBuff := t.obss.nonkvProtoBuff.push devtype cmd },
               inflight := t.inflight.eraseIdx k }, [])

/-- A GWAC system as `Create` and `Start` leave it. -/
def Threads.start (gid uid : Text) (now : Time) : Config Threads Act where
  state := { obss := Obss.create gid uid .gwac now }
  hist := []

/-- Camera ids have three characters, and numbers fit `int`. -/
def Move.Fits (s : Obss) : Move → Prop
  | .event _ ev => s.CidsFit ∧ ev.Fits
  | .encode body _ => body.Fits
  | .push _ _ => True

namespace Obss

/-- Fewer than 99999 commands have been encoded since the oldest one that waits. -/
def Recent (s : Obss) : Prop :=
  ∀ it ∈ s.nonkvProtoBuff, s.nonkvproto.issued ≤ it.cmd.no + 99999

/-- An answer with the number `n` takes out the one command encoded with it, or
there is none. -/
def Answers (s : Obss) (n : ℤ) : Prop :=
  ((∀ it ∈ s.nonkvProtoBuff, it.cmd.serno ≠ n) ∧ (notifyResponse ⟨n⟩ s).1 = s) ∨
    ∃ l it r, s.nonkvProtoBuff = l ++ it :: r ∧ it.cmd.serno = n ∧
      (∀ x ∈ l ++ r, x.cmd.serno ≠ n) ∧
      (notifyResponse ⟨n⟩ s).1 = { s with nonkvProtoBuff := l ++ r }

/-- What the serial numbers of the waiting commands are good for. -/
structure SerialsSound (stamp : Time → Stamp) (s : Obss) : Prop where
  distinct : (s.nonkvProtoBuff.map (·.serno)).Nodup
  range : ∀ it ∈ s.nonkvProtoBuff, 1 ≤ it.serno ∧ it.serno ≤ 99999
  embedded : ∀ it ∈ s.nonkvProtoBuff, it.cmd.text stamp =
    it.cmd.command ++ ('%' :: (stamp it.cmd.utc).date ++ '%' :: (stamp it.cmd.utc).time ++
      '%' :: zeroPad 5 it.serno ++ "%\n".toList)
  answers : ∀ n, s.Answers n

theorem answers_of_distinct {s : Obss} (hentry : ∀ it ∈ s.nonkvProtoBuff, it.serno = it.cmd.serno)
    (hdistinct : (s.nonkvProtoBuff.map (·.serno)).Nodup) (n : ℤ) : s.Answers n := by
  -- the number is that of no entry, or of exactly one
  by_cases hnone : ∀ it ∈ s.nonkvProtoBuff, it.cmd.serno ≠ n
  · refine .inl ⟨hnone, ?_⟩
    have hpop : s.nonkvProtoBuff.pop n = s.nonkvProtoBuff := by
      refine List.eraseP_of_forall_not fun it hit => ?_
      simpa [hentry it hit] using hnone it hit
    show { s with nonkvProtoBuff := s.nonkvProtoBuff.pop n } = s
    rw [hpop]
  · simp only [ne_eq, not_forall, not_not] at hnone
    obtain ⟨it, hit, hserno⟩ := hnone
    obtain ⟨l, r, hbuff⟩ := List.append_of_mem hit
    have hothers : ∀ x ∈ l ++ r, x.serno ≠ it.serno := by
      rw [hbuff, List.map_append, List.map_cons, List.perm_middle.nodup_iff, List.nodup_cons,
        ← List.map_append] at hdistinct
      exact fun x hx heq => hdistinct.1 (List.mem_map.mpr ⟨x, hx, heq⟩)
    refine .inr ⟨l, it, r, hbuff, hserno, fun x hx => ?_, ?_⟩
    · have hmem : x ∈ s.nonkvProtoBuff := by
        rw [hbuff]
        simp only [List.mem_append, List.mem_cons] at hx ⊢
        tauto
      rw [← hserno, ← hentry x hmem, ← hentry it hit]
      exact hothers x hx
    · have hpop : s.nonkvProtoBuff.pop n = l ++ r := by
        rw [← hserno, ← hentry it hit, hbuff]
        exact NonKVProtoBuff.pop_of_distinct hothers
      show { s with nonkvProtoBuff := s.nonkvProtoBuff.pop n } = { s with nonkvProtoBuff := l ++ r }
      rw [hpop]

theorem Books.serialsSound {inflight : List NonKVFrame} {s : Obss} (h : s.Books inflight)
    (hrecent : s.Recent) (stamp : Time → Stamp) : s.SerialsSound stamp := by
  have hissued : ∀ it ∈ s.nonkvProtoBuff, it.cmd.IssuedBy s.nonkvproto := fun it hit =>
    h.accounted.issued _ (List.mem_append_right _ (List.mem_map_of_mem hit))
  have hserno : ∀ it ∈ s.nonkvProtoBuff, it.serno = serialOf it.cmd.no := fun it hit =>
    (h.entry it hit).trans (hissued it hit).serno
  have hdistinct : (s.nonkvProtoBuff.map (·.serno)).Nodup := by
    have hnos : (s.nonkvProtoBuff.map (·.cmd.no)).Nodup := by
      have hall := h.accounted.nodup
      rw [List.map_append, List.map_map] at hall
      exact (List.nodup_append.mp hall).2.1
    rw [List.Nodup, List.pairwise_map] at hnos ⊢
    refine hnos.imp_of_mem fun {a b} ha hb hne heq => hne ?_
    rw [hserno a ha, hserno b hb] at heq
    exact serialOf_inj ⟨(hissued a ha).old, hrecent a ha⟩ ⟨(hissued b hb).old, hrecent b hb⟩ heq
  refine ⟨hdistinct, fun it hit => ?_, fun it hit => ?_, answers_of_distinct h.entry hdistinct⟩
  · rw [hserno it hit]
    exact serialOf_range _
  · obtain ⟨hgid, huid, hfits, -, hno⟩ := hissued it hit
    have hrange : 1 ≤ it.cmd.serno ∧ it.cmd.serno ≤ 99999 := hno ▸ serialOf_range _
    rw [text_eq stamp (hgid ▸ h.accounted.gid) (huid ▸ h.accounted.uid) hfits hrange,
      h.entry it hit]
    rfl

end Obss

theorem books_move {c : Config Threads Act} {m : Move} (hfits : m.Fits c.state.obss)
    (h : c.state.obss.Books c.state.inflight) :
    (threads.next c m).state.obss.Books (threads.next c m).state.inflight := by
  cases m with
  | event ctx ev => exact Obss.books_step ctx hfits.2 hfits.1 h
  | encode body utc =>
      refine ⟨?_, h.entry⟩
      refine (h.accounted.encode hfits utc).subperm (List.Perm.subperm ?_)
      show ((c.state.inflight ++ [_]) ++ _).Perm _
      rw [List.append_assoc]
      exact List.perm_middle
  | push k devtype =>
      rw [Machine.next_state]
      simp only [threads]
      cases hk : c.state.inflight[k]? with
      | none => exact h
      | some cmd =>
          refine ⟨?_, fun it hit => ?_⟩
          · -- the frame moves from one list to the other
            refine h.accounted.subperm (List.Perm.subperm ?_)
            have hsplit : c.state.inflight.Perm (cmd :: c.state.inflight.eraseIdx k) := by
              obtain ⟨hlt, rfl⟩ := List.getElem?_eq_some_iff.mp hk
              exact (List.getElem_cons_eraseIdx_perm hlt).symm
            show (c.state.inflight.eraseIdx k ++
              (c.state.obss.nonkvProtoBuff.push devtype cmd).map (·.cmd)).Perm _
            rw [NonKVProtoBuff.push, List.map_append, ← List.append_assoc]
            refine (List.perm_append_singleton _ _).trans ?_
            exact (hsplit.append_right _).symm
          · obtain hit | rfl := NonKVProtoBuff.mem_push.mp hit
            · exact h.entry it hit
            · rfl

/-- In every state of a run, whatever comes between what, the serial numbers of
the waiting commands are sound as long as the commands are recent. -/
theorem serials_sound (stamp : Time → Stamp) {gid uid : Text} (hgid : gid.length = 3)
    (huid : uid.length = 3) (now : Time) {moves : List Move}
    (hfits : threads.Each (fun c m => m.Fits c.state.obss) (Threads.start gid uid now) moves) :
    threads.Always (fun c =>
      (1 ≤ c.state.obss.nonkvproto.serno ∧ c.state.obss.nonkvproto.serno ≤ 99999) ∧
        (c.state.obss.Recent → c.state.obss.SerialsSound stamp))
      (Threads.start gid uid now) moves := by
  have hstart : (Obss.create gid uid .gwac now).Books [] :=
    ⟨⟨hgid, huid, rfl, fun _ hf => absurd hf List.not_mem_nil, List.nodup_nil⟩,
      fun _ hit => absurd hit List.not_mem_nil⟩
  have hbooks : threads.Always (fun c => c.state.obss.Books c.state.inflight)
      (Threads.start gid uid now) moves :=
    Machine.always_of_each hstart hfits fun c m h hm => books_move hm h
  refine hbooks.mono fun c h => ⟨?_, fun hrecent => h.serialsSound hrecent stamp⟩
  rw [h.accounted.serno]
  exact serialOf_range _

/-- Two commands overtake each other on the way to the buffer, and the one that
came first is answered. -/
def overtaking : List Move :=
  [.encode .park 0, .encode .track 0, .push 1 0,
    .event .blank (.notifyResponse ⟨2⟩), .push 0 0]

/-- The command that is left waits under number 1. -/
theorem serials_sound_overtaking :
    let last := (threads.exec (Threads.start "001".toList "002".toList 0) overtaking).state.obss
    last.nonkvProtoBuff.map (·.serno) = [1] ∧ last.SerialsSound fun _ => noon := by
  have hfits : threads.Each (fun c m => m.Fits c.state.obss)
      (Threads.start "001".toList "002".toList 0) overtaking :=
    ⟨trivial, trivial, trivial, ⟨fun _ hit => absurd hit List.not_mem_nil, trivial⟩, trivial, trivial⟩
  refine ⟨by decide, (serials_sound (fun _ => noon) rfl rfl 0 hfits).exec.2 fun it hit => ?_⟩
  obtain rfl := List.mem_singleton.mp hit
  decide

end Gtoaes
