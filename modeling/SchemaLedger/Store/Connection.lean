-- The one connection to a store. Beside the permanent tables there is at most one
-- open transaction with tables of its own; each transaction has a ticket, and a
-- ticket is live until its transaction is committed or rolled back.
import SchemaLedger.Store.Statement

namespace SchemaLedger

/-- A transaction's number, counted from the first one opened. -/
abbrev Ticket := Nat

structure Connection where
  /-- What is permanent. -/
  base : Tables := []
  /-- What the open transaction sees, if one is open. -/
  work : Option Tables := none
  live : List Ticket := []
  issued : Nat := 0
  /-- Why the store cannot be opened. -/
  blocked : Option StoreError := none
  deriving Repr

namespace Connection

/-- What a statement sees: the open transaction's tables, or the permanent ones. -/
def visible (c : Connection) : Tables := c.work.getD c.base

/-- Writes tables where the statement that made them ran. Outside a transaction
they are permanent at once. -/
def store (c : Connection) (ts : Tables) : Connection :=
  match c.work with
  | some _ => { c with work := some ts }
  | none => { c with base := ts }

def isLive (c : Connection) (t : Ticket) : Bool := c.live.contains t

/-- Opens a transaction. While another one is open this fails, and the other one
loses all that it did. -/
def begin (c : Connection) : Except StoreError Ticket × Connection :=
  match c.blocked, c.work with
  | some e, _ => (.error e, c)
  | none, some _ => (.error .nestedTransaction, { c with work := none })
  | none, none =>
    (.ok c.issued, { c with work := some c.base, live := c.issued :: c.live, issued := c.issued + 1 })

/-- Runs a step of a transaction on what it sees. A step that fails changes nothing. -/
def execute {α : Type} (c : Connection) (t : Ticket) (step : Tables → Except Failure (α × Tables)) :
    Except Failure α × Connection :=
  if c.isLive t then
    match step c.visible with
    | .error e => (.error e, c)
    | .ok (a, ts) => (.ok a, c.store ts)
  else (.error (.store .closed), c)

/-- Ends a transaction and makes what it did permanent. -/
def commit (c : Connection) (t : Ticket) : Except StoreError Unit × Connection :=
  if c.isLive t then (.ok (), { c with base := c.visible, work := none, live := c.live.erase t })
  else (.error .inactive, c)

/-- Ends a transaction and forgets what it did. An ended transaction stays as it is. -/
def rollback (c : Connection) (t : Ticket) : Connection :=
  if c.isLive t then { c with work := none, live := c.live.erase t } else c

end Connection
end SchemaLedger
