import Gtoaes.Lib.Mailbox
import Mathlib.Data.List.InsertIdx
import Mathlib.Data.List.Sort

/-!
A bounded message queue whose messages have priorities. A message stands behind those of
its own priority and before those of a lower one. As long as all have the same priority
it is the queue of `Mailbox`.
-/

namespace Gtoaes.Lib

/-- The message with its priority. -/
abbrev Ranked (μ : Type*) := ℕ × μ

/-- A message takes its place. -/
def insertRanked {μ : Type*} (e : Ranked μ) (q : List (Ranked μ)) : List (Ranked μ) :=
  q.orderedInsert (fun a b => b.1 < a.1) e

/-- The queue, the first to be received in front, and those that wait with their senders. -/
structure PriorityMailbox (μ : Type*) (cap : ℕ) where
  queue : List (Ranked μ)
  waiting : List (Ranked μ)
  bounded : queue.length ≤ cap
  sorted : queue.Pairwise fun a b => b.1 ≤ a.1

section

variable {μ : Type*} {e x : Ranked μ} {q : List (Ranked μ)}

theorem insertRanked_of_lt (h : x.1 < e.1) : insertRanked e (x :: q) = e :: x :: q :=
  List.orderedInsert_cons_of_le (fun a b : Ranked μ => b.1 < a.1) q h

theorem insertRanked_of_le (h : e.1 ≤ x.1) : insertRanked e (x :: q) = x :: insertRanked e q :=
  List.orderedInsert_of_not_le (fun a b : Ranked μ => b.1 < a.1) q h.not_gt

theorem length_insertRanked (e : Ranked μ) (q : List (Ranked μ)) :
    (insertRanked e q).length = q.length + 1 :=
  List.orderedInsert_length _ q e

theorem mem_insertRanked : x ∈ insertRanked e q ↔ x = e ∨ x ∈ q :=
  List.mem_orderedInsert _

/-- Behind all that are not of a lower priority. -/
theorem insertRanked_append {p : List (Ranked μ)} (h : ∀ x ∈ p, e.1 ≤ x.1) :
    insertRanked e (p ++ q) = p ++ insertRanked e q := by
  induction p with
  | nil => rfl
  | cons x p ih =>
      rw [List.cons_append, insertRanked_of_le (h x List.mem_cons_self),
        ih fun y hy => h y (List.mem_cons_of_mem x hy), List.cons_append]

theorem insertRanked_last (h : ∀ x ∈ q, e.1 ≤ x.1) : insertRanked e q = q ++ [e] := by
  have hlast := insertRanked_append (q := []) h
  rwa [List.append_nil] at hlast

theorem pairwise_insertRanked (h : q.Pairwise fun a b => b.1 ≤ a.1) :
    (insertRanked e q).Pairwise fun a b => b.1 ≤ a.1 := by
  induction q with
  | nil => exact List.pairwise_singleton _ _
  | cons x q ih =>
      obtain ⟨hx, hq⟩ := List.pairwise_cons.mp h
      rcases lt_or_ge x.1 e.1 with hlt | hle
      · rw [insertRanked_of_lt hlt]
        refine List.pairwise_cons.mpr ⟨fun y hy => ?_, h⟩
        rcases List.mem_cons.mp hy with rfl | hy
        · exact hlt.le
        · exact (hx y hy).trans hlt.le
      · rw [insertRanked_of_le hle]
        refine List.pairwise_cons.mpr ⟨fun y hy => ?_, ih hq⟩
        rcases mem_insertRanked.mp hy with rfl | hy
        · exact hle
        · exact hx y hy

end

namespace PriorityMailbox

variable {μ : Type*} {cap : ℕ}

def empty : PriorityMailbox μ cap where
  queue := []
  waiting := []
  bounded := Nat.zero_le cap
  sorted := List.Pairwise.nil

/-- A message for which there is room. -/
def push (e : Ranked μ) (b : PriorityMailbox μ cap) (h : b.queue.length < cap) :
    PriorityMailbox μ cap where
  queue := insertRanked e b.queue
  waiting := b.waiting
  bounded := by rw [length_insertRanked]; exact h
  sorted := pairwise_insertRanked b.sorted

/-- `send` of a thread that has time to wait. -/
def send (e : Ranked μ) (b : PriorityMailbox μ cap) : PriorityMailbox μ cap :=
  if h : b.queue.length < cap then b.push e h else { b with waiting := b.waiting ++ [e] }

/-- A sender that waits finds room. -/
def letIn (k : ℕ) (b : PriorityMailbox μ cap) : PriorityMailbox μ cap :=
  match b.waiting[k]? with
  | none => b
  | some e =>
      if h : b.queue.length < cap then { b.push e h with waiting := b.waiting.eraseIdx k } else b

/-- `receive`, where there is a message. -/
def receive (b : PriorityMailbox μ cap) : Option (μ × PriorityMailbox μ cap) :=
  match h : b.queue with
  | [] => none
  | e :: rest =>
      some (e.2, { b with
        queue := rest
        bounded := Nat.le_of_succ_le (by simpa [h] using b.bounded)
        sorted := (List.pairwise_cons.mp (h ▸ b.sorted)).2 })

/-! ### What takes a place -/

variable {b : PriorityMailbox μ cap} {e : Ranked μ}

/-- The message of a waiting sender that finds room. -/
def letsIn (k : ℕ) (b : PriorityMailbox μ cap) : Option (Ranked μ) :=
  if b.queue.length < cap then b.waiting[k]? else none

theorem queue_send_of_room (h : b.queue.length < cap) :
    (b.send e).queue = insertRanked e b.queue := by
  rw [send, dif_pos h]
  rfl

theorem queue_send_of_full (h : ¬ b.queue.length < cap) : (b.send e).queue = b.queue := by
  rw [send, dif_neg h]

theorem queue_letIn_of_some {k : ℕ} (h : b.letsIn k = some e) :
    (b.letIn k).queue = insertRanked e b.queue := by
  obtain ⟨hroom, he⟩ := Option.ite_none_right_eq_some.mp h
  rw [letIn, he]
  simp only [dif_pos hroom, push]

theorem letIn_of_none {k : ℕ} (h : b.letsIn k = none) : b.letIn k = b := by
  rw [letIn]
  split
  · rfl
  · next e he =>
    split
    · next hroom =>
      rw [letsIn, if_pos hroom, he] at h
      cases h
    · rfl

theorem receive_eq {rest : List (Ranked μ)} (h : b.queue = e :: rest) :
    ∃ b' : PriorityMailbox μ cap, b.receive = some (e.2, b') ∧ b'.queue = rest ∧
      b'.waiting = b.waiting := by
  rw [receive]
  split
  · next hnil => rw [h] at hnil; cases hnil
  · next x q hcons =>
    rw [h] at hcons
    cases hcons
    exact ⟨_, rfl, rfl, rfl⟩

theorem receive_eq_none (h : b.queue = []) : b.receive = none := by
  rw [receive]
  split
  · rfl
  · next hcons => rw [h] at hcons; cases hcons

/-! ### Those that wait -/

theorem mem_waiting_send {x : Ranked μ} (hx : x ∈ (b.send e).waiting) : x = e ∨ x ∈ b.waiting := by
  rw [send] at hx
  split at hx
  · exact .inr hx
  · exact (List.mem_append.mp hx).symm.imp_left List.mem_singleton.mp

theorem mem_waiting_letIn {k : ℕ} {x : Ranked μ} (hx : x ∈ (b.letIn k).waiting) :
    x ∈ b.waiting := by
  rw [letIn] at hx
  split at hx
  · exact hx
  · split at hx
    · exact List.mem_of_mem_eraseIdx hx
    · exact hx

theorem waiting_receive {m : μ} {b' : PriorityMailbox μ cap} (h : b.receive = some (m, b')) :
    b'.waiting = b.waiting := by
  rw [receive] at h
  split at h
  · cases h
  · cases h
    rfl

/-! ### One priority -/

/-- The same messages without their priorities. -/
def plain (b : PriorityMailbox μ cap) : Mailbox μ cap where
  queue := b.queue.map Prod.snd
  waiting := b.waiting.map Prod.snd
  bounded := by rw [List.length_map]; exact b.bounded

theorem plain_queue (b : PriorityMailbox μ cap) : b.plain.queue = b.queue.map Prod.snd := rfl

/-- Every message in the queue has this priority. -/
def Flat (r : ℕ) (b : PriorityMailbox μ cap) : Prop := ∀ e ∈ b.queue, e.1 = r

variable {r : ℕ}

theorem Flat.insertRanked (hb : b.Flat r) (he : e.1 = r) :
    Lib.insertRanked e b.queue = b.queue ++ [e] :=
  insertRanked_last fun x hx => he.trans_le (hb x hx).ge

theorem Flat.push (hb : b.Flat r) (he : e.1 = r) (h : b.queue.length < cap) :
    (b.push e h).Flat r := by
  intro x hx
  rcases mem_insertRanked.mp hx with rfl | hx
  · exact he
  · exact hb x hx

theorem Flat.plain_send (hb : b.Flat r) (he : b.queue.length < cap → e.1 = r) :
    (b.send e).Flat r ∧ (b.send e).plain = b.plain.send e.2 := by
  rw [send, Mailbox.send]
  split
  · next h =>
    refine ⟨hb.push (he h) h, ?_⟩
    rw [dif_pos (by rw [plain, List.length_map]; exact h)]
    simp only [PriorityMailbox.push, plain, Mailbox.push, hb.insertRanked (he h), List.map_append,
      List.map_cons, List.map_nil]
  · next h =>
    refine ⟨hb, ?_⟩
    rw [dif_neg (by rw [plain, List.length_map]; exact h)]
    simp only [plain, List.map_append, List.map_cons, List.map_nil]

theorem Flat.plain_letIn (hb : b.Flat r) {k : ℕ} (he : ∀ e, b.letsIn k = some e → e.1 = r) :
    (b.letIn k).Flat r ∧ (b.letIn k).plain = b.plain.letIn k := by
  have hwaiting : b.plain.waiting[k]? = b.waiting[k]?.map Prod.snd := List.getElem?_map
  have hlength : b.plain.queue.length = b.queue.length := List.length_map _
  rw [letIn, Mailbox.letIn, hwaiting]
  cases hk : b.waiting[k]? with
  | none => exact ⟨hb, rfl⟩
  | some x =>
      simp only [Option.map_some, hlength]
      split
      · next h =>
        have hx : x.1 = r := he x (by rw [letsIn, if_pos h, hk])
        refine ⟨hb.push hx h, ?_⟩
        simp only [PriorityMailbox.push, plain, Mailbox.push, hb.insertRanked hx, List.map_append,
          List.map_cons, List.map_nil, List.eraseIdx_map]
      · exact ⟨hb, rfl⟩

theorem Flat.plain_receive (hb : b.Flat r) :
    b.plain.receive = b.receive.map (fun x => (x.1, x.2.plain)) ∧
      ∀ m b', b.receive = some (m, b') → b'.Flat r := by
  cases hq : b.queue with
  | nil =>
      have hnone := receive_eq_none hq
      refine ⟨?_, fun m b' h => by rw [hnone] at h; cases h⟩
      rw [hnone, Mailbox.receive]
      split
      · rfl
      · next hcons =>
        rw [plain_queue, hq] at hcons
        cases hcons
  | cons e rest =>
      obtain ⟨b', hreceive, hrest, hwaiting⟩ := receive_eq hq
      refine ⟨?_, fun m c h => ?_⟩
      · rw [hreceive, Mailbox.receive]
        split
        · next hnil =>
          rw [plain_queue, hq] at hnil
          cases hnil
        · next m q hcons =>
          rw [plain_queue, hq] at hcons
          cases hcons
          simp only [Option.map_some, plain, hrest, hwaiting]
      · rw [hreceive] at h
        cases h
        exact fun x hx => hb x (hq ▸ List.mem_cons_of_mem e (hrest ▸ hx))

end PriorityMailbox

end Gtoaes.Lib
