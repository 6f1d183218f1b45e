import Gtoaes.Obss.Step

/-!
`GeneralControl`: all observation systems and the commands of the clients.

A client's message is given to every system it matches, one after the other and
as the same object. So a plan may come to be held by several systems, and
`plan_.unique()` of one system depends on the plans of the others; and what `Guide`
writes into its message is what the next system reads there.

What happens to the process is followed on two levels. A `Turn` is one call of a
member function of one system, or one change of the vector of systems. A
`Command` is what comes from outside, and is carried out as a list of turns.
-/

namespace Gtoaes

open Lib

/-- The systems, by the order in which they were created: `obssVec_` holds
those that are still there. `fresh` is the address of the next message. -/
structure GeneralControl where
  obssVec : ℕ → Option Obss := fun _ => none
  created : ℕ := 0
  fresh : ℕ := 0

namespace GeneralControl

/-- The systems in the vector, in its order. -/
def ids (g : GeneralControl) : List ℕ := (List.range g.created).filter fun id => (g.obssVec id).isSome

def holdsPlan (addr : ℕ) (s : Obss) : Bool := s.plan.any fun p => p.addr == addr

/-- Another system than `id` holds the plan object at an address. -/
def shared (g : GeneralControl) (id addr : ℕ) : Bool :=
  g.ids.any fun j => j != id && (g.obssVec j).any (holdsPlan addr)

/-- The systems that `IsMatched` accepts the ids of a message for. -/
def matched (g : GeneralControl) (gid uid : Text) : List ℕ :=
  g.ids.filter fun id => (g.obssVec id).any fun s => s.isMatched gid uid

def put (id : ℕ) (s : Option Obss) (g : GeneralControl) : GeneralControl :=
  { g with obssVec := fun j => if j = id then s else g.obssVec j }

@[simp] theorem put_self (id : ℕ) (s : Option Obss) (g : GeneralControl) :
    (g.put id s).obssVec id = s := if_pos rfl

theorem put_other {id j : ℕ} (h : j ≠ id) (s : Option Obss) (g : GeneralControl) :
    (g.put id s).obssVec j = g.obssVec j := if_neg h

@[simp] theorem put_created (id : ℕ) (s : Option Obss) (g : GeneralControl) :
    (g.put id s).created = g.created := rfl

end GeneralControl

/-- What one turn does. The system `id` handles an event, with `addr` for the
address of the message at hand; the next message is another object; a system is
created or destroyed. -/
inductive Call
  | system (id addr : ℕ) (ev : Event)
  | newMessage
  | create (gid uid : Text) (type : ObssType)
  | destroy (id : ℕ)

/-- A turn with the clock and the unset memory it reads. -/
structure Turn where
  now : Time
  unset : Unset
  call : Call

namespace GeneralControl

def ctx (posix : PosixTime) (g : GeneralControl) (t : Turn) (id addr : ℕ) : Ctx where
  posix := posix
  now := t.now
  unset := t.unset
  fresh := addr
  shared := g.shared id

/-- One turn; what is sent out is marked with the system that sends it. -/
def turn (posix : PosixTime) (g : GeneralControl) (t : Turn) : GeneralControl × List (ℕ × Act) :=
  match t.call with
  | .system id addr ev =>
      match g.obssVec id with
      | none => (g, [])
      | some s =>
          let r := Obss.step (g.ctx posix t id addr) ev s
          (g.put id (some r.1), r.2.map fun act => (id, act))
  | .newMessage => ({ g with fresh := g.fresh + 1 }, [])
  | .create gid uid type =>
      ({ g.put g.created (some (Obss.create gid uid type t.now)) with created := g.created + 1 }, [])
  | .destroy id => (g.put id none, [])

end GeneralControl

def turns (posix : PosixTime) : Machine GeneralControl Turn (ℕ × Act) where
  step := GeneralControl.turn posix

/-- What a client's message calls in the systems it matches. A `check_plan` or
`remove_plan` only reads, and other types do nothing. `TakeImage` takes its message for a
`KVTakeImage`, which has no fields but those of the `KVAppPlan` that it is, and copies it. -/
def clientEvent : KVMsg → Option Event
  | .appPlan m =>
      if iequals m.type kvtypeAppgwac || iequals m.type kvtypeAppplan then some (.notifyPlan m)
      else if iequals m.type kvtypeTkimg then some (.takeImage m)
      else none
  | .abort _ => some .abort
  | .focus m => some (.focus m)
  | .focusSync m => some (.focusSync m)
  | .fwhm m => some (.notifyFWHM m)
  | .guide m => some (.guide m)
  | .slewto m => some (.slewto m)
  | .sync m => some (.homeSync m)
  | .track _ => some .track
  | .trackVel m => some (.trackVel m)
  | .park _ => some .park
  | .home _ => some .findHome
  | _ => none

/-- What a message is to the systems that are given it after another one: `Guide` writes
`op` into it. -/
def Event.written : Event → Event
  | .guide m => .guide { m with op := if m.result = 0 then 1 else 0 }
  | ev => ev

/-- What comes from outside: a client's message; a device line, a connection
or a thread that concerns one system; a device that asks for its system; the
clock of `cycle_dump_obss`. -/
inductive CommandKind
  | client (proto : KVMsg)
  | system (id : ℕ) (ev : Event)
  | findObss (gid uid : Text) (type : ObssType)
  | dumpObss

structure Command where
  now : Time
  unset : Unset
  kind : CommandKind

/-- `LastClosed(now)` -/
def Obss.lastClosedFor (s : Obss) (now : Time) : ℤ :=
  if s.tcpMount.isSome || s.tcpFocus.isSome || s.camInfoVec.any (·.ptrTcp.isSome) then 0
  else toInt32 (now - s.lastClosed)

namespace GeneralControl

/-- One message is given to some systems, one after the other. -/
def handOut (addr : ℕ) (ev : Event) : List ℕ → List Call
  | [] => []
  | id :: ids => .system id addr ev :: ids.map fun id => .system id addr ev.written

/-- `process_protocol_client` -/
def processProtocolClient (g : GeneralControl) (proto : KVMsg) : List Call :=
  match clientEvent proto with
  | none => [.newMessage]
  | some ev => handOut g.fresh ev (g.matched proto.base.gid proto.base.uid) ++ [.newMessage]

theorem mem_handOut {addr : ℕ} {ev : Event} {ids : List ℕ} {call : Call}
    (h : call ∈ handOut addr ev ids) :
    ∃ id ∈ ids, call = .system id addr ev ∨ call = .system id addr ev.written := by
  cases ids with
  | nil => cases h
  | cons id ids =>
      rcases List.mem_cons.mp h with rfl | h
      · exact ⟨id, List.mem_cons_self, .inl rfl⟩
      · obtain ⟨id', hid', rfl⟩ := List.mem_map.mp h
        exact ⟨id', List.mem_cons_of_mem _ hid', .inr rfl⟩

/-- `find_obss`: a system is created where none matches, unless `Start` refuses
its ids. -/
def findObss (g : GeneralControl) (gid uid : Text) (type : ObssType) : List Call :=
  if g.matched gid uid = [] ∧ gid ≠ [] ∧ uid ≠ [] then [.create gid uid type] else []

/-- A round of `cycle_dump_obss`. -/
def dumpObss (g : GeneralControl) (now : Time) : List Call :=
  (g.ids.filter fun id => (g.obssVec id).any fun s => s.lastClosedFor now > 300).map .destroy

def calls (g : GeneralControl) (c : Command) : List Call :=
  match c.kind with
  | .client proto => g.processProtocolClient proto
  | .system id ev => [.system id g.fresh ev, .newMessage]
  | .findObss gid uid type => g.findObss gid uid type
  | .dumpObss => g.dumpObss c.now

/-- The turns a command is carried out as. -/
def turnsOf (g : GeneralControl) (c : Command) : List Turn :=
  (g.calls c).map fun call => { now := c.now, unset := c.unset, call := call }

end GeneralControl

/-- The whole program over its commands. -/
def generalControl (posix : PosixTime) : Machine GeneralControl Command (ℕ × Act) :=
  (turns posix).expand GeneralControl.turnsOf

/-- The program as `Start` leaves it. -/
def GeneralControl.start : Config GeneralControl (ℕ × Act) where
  state := {}
  hist := []

end Gtoaes
