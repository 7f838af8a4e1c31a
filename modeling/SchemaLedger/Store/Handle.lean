-- The handle through which the engine reaches the store. Calls on it are counted
-- by kind, and a plan may make some of them fail: a call that fails by plan has no
-- other effect than that a commit or rollback gives up the transaction.
import SchemaLedger.Store.Connection

namespace SchemaLedger

/-- The kinds of calls on a handle and its transactions. -/
inductive Call where
  | begin
  | execute
  | commit
  | rollback
  deriving DecidableEq, Repr

/-- A call that fails by plan: the `nth` of its kind, counted from 1. -/
structure PlannedFault where
  call : Call
  nth : Nat
  failure : Failure
  deriving Repr

/-- How many calls of each kind there were. -/
structure CallCounts where
  begin : Nat := 0
  execute : Nat := 0
  commit : Nat := 0
  rollback : Nat := 0
  deriving DecidableEq, Repr

namespace CallCounts

def get (n : CallCounts) : Call → Nat
  | .begin => n.begin
  | .execute => n.execute
  | .commit => n.commit
  | .rollback => n.rollback

def add (n : CallCounts) : Call → CallCounts
  | .begin => { n with begin := n.begin + 1 }
  | .execute => { n with execute := n.execute + 1 }
  | .commit => { n with commit := n.commit + 1 }
  | .rollback => { n with rollback := n.rollback + 1 }

end CallCounts

structure Handle where
  connection : Connection := {}
  plan : List PlannedFault := []
  counts : CallCounts := {}
  deriving Repr

namespace Handle

/-- Counts a call. -/
def counted (h : Handle) (call : Call) : Handle := { h with counts := h.counts.add call }

/-- The failure that is planned for the next call of a kind. -/
def planned? (h : Handle) (call : Call) : Option Failure :=
  (h.plan.find? fun p => p.call == call && p.nth == h.counts.get call + 1).map (·.failure)

/-- A result of the connection as a result of the handle. -/
def lift {α : Type} (h : Handle) : Except StoreError α × Connection → Except Failure α × Handle
  | (.ok a, c) => (.ok a, { h with connection := c })
  | (.error e, c) => (.error (.store e), { h with connection := c })

def begin (h : Handle) : Except Failure Ticket × Handle :=
  match h.planned? .begin with
  | some e => (.error e, h.counted .begin)
  | none => (h.counted .begin).lift h.connection.begin

def execute {α : Type} (h : Handle) (t : Ticket) (step : Tables → Except Failure (α × Tables)) :
    Except Failure α × Handle :=
  match h.planned? .execute with
  | some e => (.error e, h.counted .execute)
  | none =>
    match h.connection.execute t step with
    | (r, c) => (r, { h.counted .execute with connection := c })

def commit (h : Handle) (t : Ticket) : Except Failure Unit × Handle :=
  match h.planned? .commit with
  | some e => (.error e, { h.counted .commit with connection := h.connection.rollback t })
  | none => (h.counted .commit).lift (h.connection.commit t)

def rollback (h : Handle) (t : Ticket) : Except Failure Unit × Handle :=
  let h' := { h.counted .rollback with connection := h.connection.rollback t }
  match h.planned? .rollback with
  | some e => (.error e, h')
  | none => (.ok (), h')

end Handle
end SchemaLedger
