-- One migration in one transaction. The change and its row in the ledger are
-- committed together; if a step fails, the transaction is rolled back and the
-- failure says which migration and which step it was.
import SchemaLedger.Migration.Draft
import SchemaLedger.Migration.Ledger

namespace SchemaLedger

/-- A migration that was applied or reverted, and how long it took. -/
structure Outcome where
  version : String
  description : Value
  milliseconds : Int
  deriving Repr

namespace Migration

/-- What the ledger stores as a description, or the failure of the driver that should pass it
on: whole numbers have 64 bits, and no collection of values is passed on. -/
def describe : Value → Except Failure Cell
  | .null => .ok none
  | .bool b => .ok (some (if b then "1" else "0"))
  | .int n => if Ledger.fits n then .ok (some (toString n)) else .error .limitTooLarge
  | .float x => .ok x.stored?
  | .text s => .ok (some s)
  | .moment m => .ok (some (Value.showMoment m))
  | .bytes b => .ok (some (Value.quoteBytes b))
  | v =>
    .error (.store (.stated "ProgrammingError"
      ("(sqlite3.ProgrammingError) Error binding parameter 2: type '" ++ v.kind ++ "' is not supported")))

def outcome (m : Migration) (start stop : Int) : Outcome :=
  ⟨m.version, m.description, Work.elapsed start stop⟩

/-- Opens the transaction of a migration. -/
def openFor (version : String) : Work Ticket :=
  Work.begin.orStore fun e => do
    Work.report (.migrationFailed version .begin (.store e))
    throw (.ledger (.cannotBeginFor version e))

def commitFor (version : String) (t : Ticket) : Work Unit :=
  (Work.commit t).orStore fun e => do
    Work.report (.migrationFailed version .commit (.store e))
    throw (.ledger (.cannotCommit version e))

/-- Gives up a transaction. That the store refuses this is only reported. -/
def giveUp (version : String) (t : Ticket) : Work Unit :=
  (Work.rollback t).orStore fun e => Work.report (.migrationFailed version .rollback (.store e))

/-- Runs a routine of a migration in a transaction. -/
def runRoutine (m : Migration) (operation : Operation) (step : MigrationStep) (t : Ticket)
    (routine : Routine) : Work Unit := do
  Work.noteCall operation m.version m.form
  match ← Work.rescue (routine.run t) with
  | .ok _ => return ()
  | .error f =>
    giveUp m.version t
    Work.reportOf f (.migrationFailed m.version step f)
    throw (.ofUnit m.version operation f)

/-- A step on the ledger's rows. A failure of the ledger gives up the transaction. -/
def keepLedger (version : String) (step : MigrationStep) (t : Ticket) (w : Work Unit) : Work Unit := do
  match ← Work.attempt w with
  | .ok _ => return ()
  | .error f =>
    if f.family? = some .ledger then
      giveUp version t
      Work.report (.migrationFailed version step f)
    throw f

/-- Writes the row of a migration. -/
def record (l : Ledger) (m : Migration) (t : Ticket) (appliedAt : String) : Work Unit :=
  match describe m.description with
  | .ok d => l.insert t m.version d appliedAt
  | .error f => l.insertUnbound t m.version f

/-- Applies a migration and records it. -/
def apply (l : Ledger) (m : Migration) : Work Outcome := do
  let start ← Work.now
  Work.report (.applying m.version m.description.shown)
  let t ← openFor m.version
  m.runRoutine .up .up t m.up
  let stamp ← Work.timestamp
  keepLedger m.version .record t (m.record l t stamp)
  commitFor m.version t
  let done := m.outcome start (← Work.now)
  Work.report (.applied m.version done.milliseconds)
  return done

/-- Reverts a migration and removes its row. -/
def revert (l : Ledger) (m : Migration) : Work Outcome := do
  let start ← Work.now
  Work.report (.reverting m.version m.description.shown)
  let t ← openFor m.version
  m.runRoutine .down .down t m.down
  keepLedger m.version .remove t (l.delete t m.version)
  commitFor m.version t
  let done := m.outcome start (← Work.now)
  Work.report (.reverted m.version done.milliseconds)
  return done

end Migration
end SchemaLedger
