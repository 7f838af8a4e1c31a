-- The ledger: one table with a row for each migration that is applied. A row is
-- written and removed in the transaction of the migration that it is about. Reading
-- takes a transaction of its own, which is always rolled back.
import SchemaLedger.Session

namespace SchemaLedger

/-- A row of the ledger. -/
structure LedgerRow where
  id : Nat
  version : String
  description : String
  appliedAt : String
  deriving DecidableEq, Repr

def LedgerRow.quoted (r : LedgerRow) : String :=
  "<LedgerRecord(" ++ r.version ++ ", " ++ r.appliedAt ++ ")>"

/-- Rows by the time they were applied, and by version among equal times. -/
def LedgerRow.notAfter (a b : LedgerRow) : Bool :=
  a.appliedAt < b.appliedAt || (a.appliedAt == b.appliedAt && a.version ≤ b.version)

/-- A ledger is known by the name of its table. -/
structure Ledger where
  table : String := "migrations"
  deriving DecidableEq, Repr

namespace Ledger

/-- The ledger's table without rows. -/
def shape (l : Ledger) : Table :=
  { name := l.table,
    columns := [{ name := "version", required := true, unique := true },
                { name := "description", required := true },
                { name := "applied_at", required := true }] }

/-- The columns that a reading asks for, in that order. -/
def columnNames : List String := ["id", "version", "description", "applied_at"]

/-- The text in a column of a row. A row without one reads as empty. -/
def textAt (t : Table) (r : Row) (column : String) : String :=
  (((t.columnIndex? column).map (Table.cellAt r)).getD none).getD ""

def rowOf (t : Table) (r : Row) : LedgerRow :=
  ⟨r.id, textAt t r "version", textAt t r "description", textAt t r "applied_at"⟩

/-- All rows of the ledger, in the order of the table, if it is there with its columns. -/
def rowsIn (l : Ledger) (ts : Tables) : Except StoreError (List LedgerRow) :=
  match ts.find? l.table with
  | none => .error (.noSuchTable l.table)
  | some t =>
    match columnNames.find? fun c => !t.hasColumn c with
    | some c => .error (.noSuchColumn (l.table ++ "." ++ c))
    | none => .ok (t.rows.map (rowOf t))

/-- The order of a reading. -/
inductive Order where
  | oldestFirst
  | newestFirst
  deriving DecidableEq, Repr

/-- Puts rows in order. -/
def sort (order : Order) (rows : List LedgerRow) : List LedgerRow :=
  match order with
  | .oldestFirst => rows.mergeSort LedgerRow.notAfter
  | .newestFirst => rows.mergeSort fun a b => b.notAfter a

/-- The rows up to a limit. A negative limit is none. -/
def cutTo (limit : Option Int) (rows : List LedgerRow) : List LedgerRow :=
  match limit with
  | some n => if n < 0 then rows else rows.take n.toNat
  | none => rows

/-- Limits are counted in 64 bits. -/
def fits (n : Int) : Bool := -9223372036854775808 ≤ n && n ≤ 9223372036854775807

/-- What a reading finds in the tables. -/
def query (l : Ledger) (order : Order) (limit : Option Int) (ts : Tables) :
    Except Failure (List LedgerRow × Tables) :=
  match l.rowsIn ts with
  | .error e => .error (.store e)
  | .ok rows =>
    if limit.all fits then .ok (cutTo limit (sort order rows), ts) else .error .limitTooLarge

/-- Runs a statement in a transaction and counts the rows that it touched. -/
def send (t : Ticket) (s : Statement) : Work Nat :=
  Work.execute t fun ts => (s.run ts).mapError .store

/-- Opens a transaction for the ledger itself. -/
def openOwn : Work Ticket :=
  Work.begin.orStore fun e => throw (.ledger (.cannotBegin e))

/-- Creates the ledger's table unless it is there. -/
def ensure (l : Ledger) : Work Unit := do
  let t ← openOwn
  let create : Work Unit := do
    let _ ← send t (.create l.shape l.table true)
    Work.commit t
  create.orStore fun e => do
    Work.rollback t
    throw (.ledger (.cannotCreate l.table e))
  Work.report (.ledgerReady l.table)

/-- Reads rows in a transaction of its own. -/
def read (l : Ledger) (order : Order) (limit : Option Int) : Work (List LedgerRow) := do
  let t ← openOwn
  let answer ← Work.attempt (Work.execute t (l.query order limit))
  Work.rollback t
  match answer with
  | .ok rows => return rows
  | .error (.store e) => throw (.ledger (.cannotRead e))
  | .error f => throw f

/-- All rows, the oldest first. -/
def readApplied (l : Ledger) : Work (List LedgerRow) := l.read .oldestFirst none

/-- The rows that were applied last, the newest first. -/
def readLatest (l : Ledger) (limit : Option Int) : Work (List LedgerRow) := l.read .newestFirst limit

/-- Records a migration in the caller's transaction. -/
def insert (l : Ledger) (t : Ticket) (version : String) (description : Cell) (appliedAt : String) :
    Work Unit := do
  let row := [("version", some version), ("description", description), ("applied_at", some appliedAt)]
  let _ ← (send t (.insert l.table row)).orStore fun e => throw (.ledger (.cannotRecord version e))

/-- The columns that a recorded row gives. -/
def givenNames : List String := ["version", "description", "applied_at"]

/-- Fails to record a migration whose description the driver does not pass on to the store:
with `f`, once the store has found the columns of the row. -/
def insertUnbound (l : Ledger) (t : Ticket) (version : String) (f : Failure) : Work Unit :=
  (Work.execute t fun ts =>
    .error (((Statement.unprepared? ts l.table givenNames).map .store).getD f)).orStore fun e =>
      throw (.ledger (.cannotRecord version e))

/-- Removes the row of a migration in the caller's transaction. The row has to be there. -/
def delete (l : Ledger) (t : Ticket) (version : String) : Work Unit := do
  let removed ← (send t (.delete l.table "version" (some version))).orStore fun e =>
    throw (.ledger (.cannotRemove version e))
  if removed = 0 then throw (.ledger (.vanished version))

end Ledger
end SchemaLedger
