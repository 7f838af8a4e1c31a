-- The commands at work: what each does with the units and the store, and the lines
-- that it prints about it.
import SchemaLedger.CommandLine.Invocation
import SchemaLedger.Config.Settings
import SchemaLedger.Migration.Status
import SchemaLedger.Registry.Module
import SchemaLedger.Seeding.Listing

namespace SchemaLedger

/-- The lines that a command prints, and its exit status. -/
structure Printed where
  out : List String := []
  /-- Lines for the error stream. -/
  err : List String := []
  exit : Nat := 0
  deriving DecidableEq, Repr

namespace Printed

/-- One line for each migration that was handled, or one that says there was none. -/
def ofOutcomes (done nothing : String) (outcomes : List Outcome) : Printed :=
  if outcomes.isEmpty then { out := ["✓ " ++ nothing] }
  else
    { out := outcomes.map fun o =>
        "✓ " ++ done ++ " " ++ o.version ++ " (" ++ toString o.milliseconds ++ "ms)" }

/-- The time of an application is left out if it is blank. -/
def statusLine (e : StatusEntry) : String :=
  let line := e.state ++ "  " ++ e.version ++ "  " ++ e.description.shown
  match e.appliedAt.filter (!·.isEmpty) with
  | some at' => line ++ "  (" ++ at' ++ ")"
  | none => line

def orphanLine (r : LedgerRow) : String :=
  "ORPHANED " ++ r.version ++ "  " ++ r.description ++ "  (not registered)"

def summaryLine (s : Status) : String :=
  "Applied: " ++ toString s.applied ++ "  Pending: " ++ toString s.pending ++
    "  Total: " ++ toString s.total

def ofStatus (s : Status) : Printed :=
  { out := s.entries.map statusLine ++ s.orphans.map orphanLine ++ [summaryLine s] }

def listedLine (e : ListedSeeder) : String :=
  let needs := if e.dependencies.isEmpty then ""
    else " (depends on: " ++ ", ".intercalate e.dependencies ++ ")"
  toString e.position ++ ". " ++ e.name ++ needs

def ofListing (l : SeederListing) : Printed :=
  let head := match l.fault with
    | some f => ["⚠ Dependencies unresolved, registration order shown: " ++ f.message]
    | none => []
  { out := head ++ l.entries.map listedLine }

def ofReport (r : SeedReport) : Printed :=
  { out := r.executed.map ("✓ Seeded " ++ ·),
    err := r.failed.map fun n => "✗ Seeder " ++ n ++ " failed",
    exit := if r.success then 0 else 1 }

end Printed

namespace Request

/-- The word that asks for the list of seeders. -/
def listWord : String := "list"

/-- The ledger in the table of a name. A value that is no text is written out for its name;
nothing is no name, and a collection that can change cannot be looked up. -/
def ledgerNamed (name : Value) : Except Failure Ledger :=
  match name with
  | .null => .error (.raised "AssertionError" "use quoted_name.construct() for None passthrough")
  | .list _ | .set _ | .map _ =>
    .error (.raised "TypeError" ("unhashable type: '" ++ name.kind ++ "'"))
  | v =>
    match v.shown? with
    | some table => .ok ⟨table⟩
    | none => .error (.file .numberTooLong)

/-- The registered migrations with the ledger that the settings name. -/
def migrator (s : Settings) (u : Units) : Work Migrator := do
  let l ← Seeding.lift (ledgerNamed s.tableName)
  match Catalog.ofDrafts u.migrations.units with
  | .error f => throw (.registration f)
  | .ok c => pure ⟨c, l⟩

/-- Does what is asked for. -/
def perform (s : Settings) (u : Units) : Request → Work Printed
  | .migrate => do
    return .ofOutcomes "Migrated" "Nothing to migrate" (← (← migrator s u).run)
  | .rollBack count => do
    return .ofOutcomes "Rolled back" "Nothing to roll back"
      (← (← migrator s u).rollBackValue (.text count))
  | .status => do return .ofStatus (← (← migrator s u).status)
  | .seed name => do
    let x : Seeding := ⟨u.seeders.units, s.failFast⟩
    if name = listWord then return .ofListing (← x.list)
    else return .ofReport (← x.run name)

end Request
end SchemaLedger
