-- Routines: what a unit does with its transaction. A routine sends one command at
-- a time; what it does next may depend on how the command went and on the tables it
-- then sees. Listed actions make a routine that stops at the first failure.
import SchemaLedger.Session
import SchemaLedger.Sql.Reader

namespace SchemaLedger

/-- What a routine sends to the store. -/
inductive Command where
  | statement (s : Statement)
  /-- A statement as text. -/
  | text (sql : String)
  deriving DecidableEq, Repr

/-- A statement as a step of a transaction: how many rows it touched, and the tables after it. -/
def Statement.step (s : Statement) (ts : Tables) : Except Failure (Nat × Tables) :=
  (s.run ts).mapError .store

namespace Command

def read : Command → Except StoreError Statement
  | .statement s => .ok s
  | .text sql => Sql.readStatement sql

/-- The tables after a command. -/
def run (c : Command) (ts : Tables) : Except Failure Tables :=
  match c.read with
  | .error e => .error (.store e)
  | .ok s => (s.step ts).map Prod.snd

end Command

inductive Routine where
  | done
  | fail (failure : Failure)
  /-- Sends a command. The answer is a failure, or the tables that the transaction sees. -/
  | send (command : Command) (next : Except Failure Tables → Routine)
  /-- The unit ends its own transaction. -/
  | commit (next : Except Failure Unit → Routine)
  | rollback (next : Except Failure Unit → Routine)

namespace Routine

/-- Runs a routine in a transaction. -/
def run (t : Ticket) : Routine → Work Unit
  | .done => pure ()
  | .fail f => throw f
  | .send c next => do
    let answer ← Work.attempt (Work.execute t fun ts => (c.run ts).map fun ts => (ts, ts))
    (next answer).run t
  | .commit next => do
    let answer ← Work.attempt (Work.commit t)
    (next answer).run t
  | .rollback next => do
    let answer ← Work.attempt (Work.rollback t)
    (next answer).run t

/-- A routine leaves the end of its transaction to the engine. -/
inductive LeavesOpen : Routine → Prop where
  | done : LeavesOpen .done
  | fail (f : Failure) : LeavesOpen (.fail f)
  | send (c : Command) {next : Except Failure Tables → Routine} :
    (∀ answer, LeavesOpen (next answer)) → LeavesOpen (.send c next)

/-- No command of a routine names a table. -/
inductive Avoids (table : String) : Routine → Prop where
  | done : Avoids table .done
  | fail (f : Failure) : Avoids table (.fail f)
  | send (c : Command) {next : Except Failure Tables → Routine} :
    (∀ s, c.read = .ok s → ∀ t, s.table? = some t → sameName t table = false) →
    (∀ answer, Avoids table (next answer)) → Avoids table (.send c next)
  | commit {next : Except Failure Unit → Routine} :
    (∀ answer, Avoids table (next answer)) → Avoids table (.commit next)
  | rollback {next : Except Failure Unit → Routine} :
    (∀ answer, Avoids table (next answer)) → Avoids table (.rollback next)

end Routine

/-! ## Listed actions -/

/-- One action of a routine that is given as a list. -/
inductive Action where
  | send (command : Command)
  | fail (failure : Failure)
  | commit
  | rollback
  deriving Repr

/-- Goes on, or fails with the failure of the answer. -/
def Routine.orFail {α : Type} (next : Routine) : Except Failure α → Routine
  | .ok _ => next
  | .error f => .fail f

/-- The routine that performs actions in order and stops at the first failure. -/
def Routine.ofActions : List Action → Routine
  | [] => .done
  | .fail f :: _ => .fail f
  | .send c :: rest => .send c (orFail (ofActions rest))
  | .commit :: rest => .commit (orFail (ofActions rest))
  | .rollback :: rest => .rollback (orFail (ofActions rest))

/-- The routine that sends the statements of a script. -/
def Routine.ofScript (statements : List String) : Routine :=
  .ofActions (statements.map fun s => .send (.text s))

end SchemaLedger
