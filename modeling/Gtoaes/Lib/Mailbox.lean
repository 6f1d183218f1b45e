import Mathlib.Data.List.Basic

/-!
A bounded message queue with blocking senders. A message goes to the end of the
queue where there is room, and waits with its sender otherwise; one thread takes
messages out at the front.
-/

namespace Gtoaes.Lib

structure Mailbox (μ : Type*) (cap : ℕ) where
  queue : List μ
  waiting : List μ
  bounded : queue.length ≤ cap

namespace Mailbox

variable {μ : Type*} {cap : ℕ}

def empty : Mailbox μ cap where
  queue := []
  waiting := []
  bounded := Nat.zero_le cap

/-- A message for which there is room. -/
def push (m : μ) (b : Mailbox μ cap) (h : b.queue.length < cap) : Mailbox μ cap where
  queue := b.queue ++ [m]
  waiting := b.waiting
  bounded := by rw [List.length_append]; exact h

/-- `send` of a thread that has time to wait. -/
def send (m : μ) (b : Mailbox μ cap) : Mailbox μ cap :=
  if h : b.queue.length < cap then b.push m h else { b with waiting := b.waiting ++ [m] }

/-- A sender that waits finds room. -/
def letIn (k : ℕ) (b : Mailbox μ cap) : Mailbox μ cap :=
  match b.waiting[k]? with
  | none => b
  | some m =>
      if h : b.queue.length < cap then { b.push m h with waiting := b.waiting.eraseIdx k } else b

/-- `receive`, where there is a message. -/
def receive (b : Mailbox μ cap) : Option (μ × Mailbox μ cap) :=
  match h : b.queue with
  | [] => none
  | m :: rest =>
      some (m, { b with
        queue := rest
        bounded := Nat.le_of_succ_le (by simpa [h] using b.bounded) })

theorem length_queue_send (m : μ) (b : Mailbox μ cap) :
    (b.send m).queue.length = min cap (b.queue.length + 1) := by
  have hbounded := b.bounded
  unfold send
  split
  · simp only [push, List.length_append, List.length_singleton]
    omega
  · dsimp only
    omega

/-- No sender makes room in a full queue. -/
theorem send_full {b : Mailbox μ cap} (h : b.queue.length = cap) (m : μ) :
    (b.send m).queue = b.queue := by
  rw [send, dif_neg (by omega)]

theorem letIn_full {b : Mailbox μ cap} (h : b.queue.length = cap) (k : ℕ) : b.letIn k = b := by
  unfold letIn
  split
  · rfl
  · rw [dif_neg (by omega)]

/-! ### The order of one sender -/

/-- The messages that meet `p` and have been sent and not been received. -/
def pending (p : μ → Bool) (b : Mailbox μ cap) : List μ := (b.queue ++ b.waiting).filter p

/-- The messages that meet `p` and wait with their sender. -/
def held (p : μ → Bool) (b : Mailbox μ cap) : List μ := b.waiting.filter p

variable {p : μ → Bool} {b : Mailbox μ cap}

/-- A sender that does not wait sends behind all it has sent. -/
theorem pending_send {m : μ} (h : p m = true → b.held p = []) :
    (b.send m).pending p = b.pending p ++ [m].filter p := by
  unfold send
  split
  · simp only [pending, push, List.filter_append, List.append_assoc]
    congr 1
    cases hm : p m with
    | true => rw [show b.waiting.filter p = [] from h hm, List.append_nil, List.nil_append]
    | false => simp [hm]
  · simp only [pending, List.filter_append, List.append_assoc]

/-- The only element that meets `p` may as well stand in front. -/
theorem filter_eraseIdx {l : List μ} (h : (l.filter p).length ≤ 1) {k : ℕ} {m : μ}
    (hm : l[k]? = some m) : [m].filter p ++ (l.eraseIdx k).filter p = l.filter p := by
  induction l generalizing k with
  | nil => cases hm
  | cons x l ih =>
      cases k with
      | zero =>
          obtain rfl := Option.some.inj hm
          exact (List.filter_append [x] l).symm
      | succ k =>
          have hmem : l[k]? = some m := hm
          rw [List.eraseIdx_cons_succ]
          cases hx : p x with
          | false =>
              have hnot : ¬ p x = true := by simp [hx]
              rw [List.filter_cons_of_neg hnot] at h ⊢
              rw [List.filter_cons_of_neg hnot]
              exact ih h hmem
          | true =>
              rw [List.filter_cons_of_pos hx, List.length_cons] at h
              have hnone : l.filter p = [] := List.length_eq_zero_iff.mp (by omega)
              have hrest := ih (by rw [hnone]; exact Nat.zero_le 1) hmem
              rw [hnone] at hrest
              obtain ⟨hfirst, herase⟩ := List.append_eq_nil_iff.mp hrest
              rw [hfirst, List.filter_cons_of_pos hx, List.filter_cons_of_pos hx, herase, hnone]
              rfl

/-- It is let in at the place it has. -/
theorem pending_letIn (h : (b.held p).length ≤ 1) (k : ℕ) : (b.letIn k).pending p = b.pending p := by
  unfold letIn
  split
  · rfl
  · next m hm =>
      split
      · simp only [pending, push, List.filter_append, List.append_assoc]
        rw [filter_eraseIdx h hm]
      · rfl

theorem held_send_of_room {m : μ} (h : b.queue.length < cap) : (b.send m).held p = b.held p := by
  rw [send, dif_pos h]
  rfl

theorem held_send_of_full {m : μ} (h : ¬ b.queue.length < cap) :
    (b.send m).held p = b.held p ++ [m].filter p := by
  rw [send, dif_neg h]
  exact List.filter_append b.waiting [m]

theorem held_letIn (h : (b.held p).length ≤ 1) {k : ℕ} {m : μ} (hm : b.waiting[k]? = some m)
    (hroom : b.queue.length < cap) : [m].filter p ++ (b.letIn k).held p = b.held p := by
  have hletIn : (b.letIn k).waiting = b.waiting.eraseIdx k := by
    unfold letIn
    rw [hm]
    simp only [dif_pos hroom]
  rw [held, hletIn]
  exact filter_eraseIdx h hm

/-- A message of somebody else. -/
theorem pending_push {m : μ} (h : b.queue.length < cap) (hm : p m = false) :
    (b.push m h).pending p = b.pending p := by
  simp only [pending, push, List.filter_append, List.filter_cons, hm, Bool.false_eq_true, if_false,
    List.filter_nil, List.append_nil]

@[simp] theorem held_push {m : μ} (h : b.queue.length < cap) : (b.push m h).held p = b.held p := rfl

theorem pending_receive {m : μ} {b' : Mailbox μ cap} (h : b.receive = some (m, b')) :
    b.pending p = [m].filter p ++ b'.pending p := by
  unfold receive at h
  split at h
  · cases h
  · next hqueue =>
      obtain ⟨rfl, rfl⟩ := Prod.mk.inj (Option.some.inj h)
      simp only [pending, hqueue]
      rw [List.cons_append, ← List.singleton_append, List.filter_append]

theorem held_receive {m : μ} {b' : Mailbox μ cap} (h : b.receive = some (m, b')) :
    b'.held p = b.held p := by
  unfold receive at h
  split at h
  · cases h
  · obtain ⟨-, rfl⟩ := Prod.mk.inj (Option.some.inj h)
    rfl

end Mailbox

end Gtoaes.Lib
