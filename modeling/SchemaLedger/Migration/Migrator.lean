-- Migrations together. Pending ones are applied in the order of their versions, and
-- applied ones are reverted newest first, each in its own transaction. The first
-- failure stops the rest, and what was committed stays.
import SchemaLedger.Migration.Apply
import SchemaLedger.Migration.Catalog
import SchemaLedger.Migration.RollbackCount

namespace SchemaLedger

/-- The registered migrations and the ledger that knows which of them are applied. -/
structure Migrator where
  catalog : Catalog
  ledger : Ledger := {}

namespace Migrator

def text (m : Migrator) : String :=
  "<MigrationManager: " ++ toString m.catalog.entries.length ++ " migrations>"

/-- The rows of the ledger, which is created if it is not there. -/
def applied (m : Migrator) : Work (List LedgerRow) := do
  m.ledger.ensure
  m.ledger.readApplied

/-- The registered migrations that no row names, by version. -/
def pendingIn (m : Migrator) (rows : List LedgerRow) : List Migration :=
  m.catalog.sorted.filter fun x => !rows.any (·.version == x.version)

def pending (m : Migrator) : Work (List Migration) := do
  return m.pendingIn (← m.applied)

def isApplied (m : Migrator) (version : String) : Work Bool := do
  return (← m.applied).any (·.version == version)

/-- Applies migrations in order up to the first that fails. -/
def applyAll (l : Ledger) : List Migration → Work (List Outcome)
  | [] => return []
  | x :: rest => do
    let done ← x.apply l
    return done :: (← applyAll l rest)

/-- Applies every pending migration. -/
def run (m : Migrator) : Work (List Outcome) := do
  let todo ← m.pending
  if todo.isEmpty then
    Work.report .nothingPending
    return []
  else
    Work.report (.running todo.length)
    let done ← applyAll m.ledger todo
    Work.report (.allApplied done.length)
    return done

/-- Reverts the migrations of rows in order, up to the first that fails or that no
registered migration belongs to. -/
def revertAll (m : Migrator) : List LedgerRow → Work (List Outcome)
  | [] => return []
  | r :: rest =>
    match m.catalog.find? r.version with
    | none => do
      Work.report (.notRegistered r.version)
      throw (.unregistered r.version)
    | some x => do
      let done ← x.revert m.ledger
      return done :: (← revertAll m rest)

/-- Reverts the migrations that were applied last. -/
def rollBack (m : Migrator) (count : RollbackCount) : Work (List Outcome) := do
  m.ledger.ensure
  let rows ← m.ledger.readLatest count.limit?
  if rows.isEmpty then
    Work.report .nothingToRevert
    return []
  else
    match count with
    | .exactly n => if rows.length < n then Work.report (.fewerThanAsked rows.length n)
    | .all => pure ()
    let done ← m.revertAll rows
    Work.report (.allReverted done.length)
    return done

/-- Reverts as many migrations as a value asks for. -/
def rollBackValue (m : Migrator) (count : Value) : Work (List Outcome) :=
  match RollbackCount.ofValue count with
  | .ok n => m.rollBack n
  | .error f => throw f

end Migrator
end SchemaLedger
