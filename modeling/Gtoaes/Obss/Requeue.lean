import Gtoaes.Obss.Changes

/-!
What the handlers do to the commands that wait for an answer: some are encoded and
queued at the end, with no retry counted, and some are taken out. The retries are
the business of a thread of their own.
-/

namespace Gtoaes.Obss

open Lib Lib.Handler

/-- One state comes from another by queueing commands that meet `Q`, each as soon as
it is encoded, and by taking entries out of the queue. -/
inductive Requeues (Q : NonKVBody → Prop) : Obss → Obss → Prop
  | keep {s s' : Obss} (hproto : s'.nonkvproto = s.nonkvproto)
      (hbuff : s'.nonkvProtoBuff.Sublist s.nonkvProtoBuff) : Requeues Q s s'
  | command {s s' : Obss} (body : NonKVBody) (utc : Time) (devtype : ℤ) (hbody : Q body)
      (hproto : s'.nonkvproto = (NonKVProtocol.encode body s.nonkvproto utc).2)
      (hbuff : s'.nonkvProtoBuff =
        s.nonkvProtoBuff.push devtype (NonKVProtocol.encode body s.nonkvproto utc).1) :
      Requeues Q s s'
  | trans {s t s' : Obss} (h : Requeues Q s t) (h' : Requeues Q t s') : Requeues Q s s'

variable {Q : NonKVBody → Prop}

theorem Requeues.same {s s' : Obss} (hproto : s'.nonkvproto = s.nonkvproto)
    (hbuff : s'.nonkvProtoBuff = s.nonkvProtoBuff) : Requeues Q s s' :=
  .keep hproto (hbuff ▸ List.Sublist.refl _)

theorem Changes.requeues {s s' : Obss} (h : Changes Q s s') : Requeues Q s s' := by
  induction h with
  | keep hfixtures hproto hbuff => exact .same hproto hbuff
  | command body utc devtype hbody hfixtures hproto hbuff =>
      exact .command body utc devtype hbody hproto hbuff
  | trans h h' ih ih' => exact .trans ih ih'

theorem WireInert.requeues {h : Handler Obss Act} (hh : WireInert h) (s : Obss) :
    Requeues Q s (h s).1 :=
  .same (congrArg Wiring.nonkvproto (hh s).1) (congrArg Wiring.nonkvProtoBuff (hh s).1)

/-- What an event other than a retry does to the queue. -/
theorem requeues_step (ctx : Ctx) {ev : Event} (hev : ∀ stale, ev ≠ .rewriteTick stale)
    {s : Obss} (h : Encodable Q s ev) : Requeues Q s (step ctx ev s).1 := by
  cases hplugs : ev.plugs with
  | true =>
      have hplugged := plugged_step ctx hplugs s
      exact .keep hplugged.nonkvproto hplugged.buff
  | false =>
      cases hnumber : numbersImage ev with
      | true => exact (wireInert_of_numbersImage ctx hnumber).requeues s
      | false =>
          cases hunqueues : ev.unqueues with
          | false => exact (changes_step ctx hplugs hunqueues hnumber h).requeues
          | true =>
              cases ev with
              | notifyResponse rsp => exact .keep rfl List.eraseP_sublist
              | rewriteTick stale => exact absurd rfl (hev stale)
              | decoupleMount | decoupleFocus => cases hplugs
              | _ => cases hunqueues

end Gtoaes.Obss
