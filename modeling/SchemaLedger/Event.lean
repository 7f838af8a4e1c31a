-- What the engine reports while it works. An event says what happened; its level,
-- the part of the engine that reports it and its wording are functions of it.
import SchemaLedger.Failure

namespace SchemaLedger

inductive Level where
  | debug
  | info
  | warning
  | error
  deriving DecidableEq, Repr

namespace Level

def name : Level → String
  | .debug => "DEBUG"
  | .info => "INFO"
  | .warning => "WARNING"
  | .error => "ERROR"

/-- The place of a level on the scale of the settings. -/
def severity : Level → Int
  | .debug => 10
  | .info => 20
  | .warning => 30
  | .error => 40

end Level

/-- The part of the engine that reports. -/
inductive Source where
  | registry
  | database
  | ledger
  | executor
  | migrations
  | resolver
  | seeding
  | commandLine
  deriving DecidableEq, Repr

def Source.name : Source → String
  | .registry => "dbengine.registry"
  | .database => "dbengine.database"
  | .ledger => "dbengine.migrations.ledger"
  | .executor => "dbengine.migrations.migration_executor"
  | .migrations => "dbengine.migrations.migration_manager"
  | .resolver => "dbengine.seeders.seeder_resolver"
  | .seeding => "dbengine.seeders.seeder_manager"
  | .commandLine => "dbengine.cli"

/-- A step of one migration that can fail. -/
inductive MigrationStep where
  | begin
  | up
  | down
  | record
  | remove
  | commit
  | rollback
  deriving DecidableEq, Repr

def MigrationStep.failureText (version : String) : MigrationStep → String
  | .begin => "Failed to start transaction for " ++ version
  | .up => "Failed to apply migration " ++ version
  | .down => "Failed to roll back migration " ++ version
  | .record => "Failed to record migration " ++ version
  | .remove => "Failed to remove ledger row for " ++ version
  | .commit => "Failed to commit migration " ++ version
  | .rollback => "Failed to roll back transaction for " ++ version

/-- A step of one seeder that can fail. -/
inductive SeederStep where
  | begin
  | run
  | rollback
  deriving DecidableEq, Repr

def SeederStep.failureText (seeder : String) : SeederStep → String
  | .begin => "Failed to start transaction for seeder " ++ seeder
  | .run => "Seeder " ++ seeder ++ " failed"
  | .rollback => "Failed to roll back seeder " ++ seeder

inductive Event where
  -- units
  | registered (kind unit : String)
  | unitsLoaded (migrations seeders : Nat) (path : String)
  -- the database
  | databaseReady (backend : String)
  | databaseClosed
  | ledgerReady (table : String)
  -- one migration
  | applying (version description : String)
  | applied (version : String) (ms : Int)
  | reverting (version description : String)
  | reverted (version : String) (ms : Int)
  | migrationFailed (version : String) (step : MigrationStep) (cause : Failure)
  -- migrations together
  | nothingPending
  | running (count : Nat)
  | allApplied (count : Nat)
  | nothingToRevert
  | fewerThanAsked (found : Nat) (asked : Int)
  | notRegistered (version : String)
  | allReverted (count : Nat)
  | statusHead
  | statusApplied (version description appliedAt : String)
  | statusPending (version description : String)
  | statusOrphan (version : String)
  | statusSummary (applied pending total : Nat)
  -- the order of seeders
  | orderResolved (names : List String)
  | orderResolvedFor (target : String) (names : List String)
  -- seeders
  | noSeeders
  | seeding (count : Nat)
  | orderFailed (cause : Failure)
  | orderFailedFor (name : String) (cause : Failure)
  | seederRunning (name : String)
  | seederDone (name : String) (ms : Int)
  | seederFailed (name : String) (step : SeederStep) (cause : Failure)
  | seederSkipped (name : String) (cause : Failure)
  | someSeedersFailed (names : List String)
  | allSeeded (count : Nat)
  | namedSeeded (name : String)
  | nothingToList
  | orderUnknown (cause : Failure)
  | listingHead
  | listed (position : Nat) (name : String) (dependencies : List String)
  | listingTotal (count : Nat)
  -- the command line
  | databaseError (cause : StoreError)
  deriving Repr

namespace Event

def source : Event → Source
  | .registered _ _ | .unitsLoaded _ _ _ => .registry
  | .databaseReady _ | .databaseClosed => .database
  | .ledgerReady _ => .ledger
  | .applying _ _ | .applied _ _ | .reverting _ _ | .reverted _ _ | .migrationFailed _ _ _ => .executor
  | .nothingPending | .running _ | .allApplied _ | .nothingToRevert | .fewerThanAsked _ _ => .migrations
  | .notRegistered _ | .allReverted _ | .statusHead | .statusApplied _ _ _ => .migrations
  | .statusPending _ _ | .statusOrphan _ | .statusSummary _ _ _ => .migrations
  | .orderResolved _ | .orderResolvedFor _ _ => .resolver
  | .databaseError _ => .commandLine
  | _ => .seeding

def level : Event → Level
  | .registered _ _ | .ledgerReady _ | .orderResolved _ | .orderResolvedFor _ _ => .debug
  | .fewerThanAsked _ _ | .statusOrphan _ => .warning
  | .seederSkipped _ _ | .someSeedersFailed _ | .orderUnknown _ => .warning
  | .migrationFailed _ _ _ | .notRegistered _ | .orderFailed _ | .orderFailedFor _ _ => .error
  | .seederFailed _ _ _ | .databaseError _ => .error
  | _ => .info

def commas (names : List String) : String := ", ".intercalate names

def text : Event → String
  | .registered kind unit => "Registered " ++ kind ++ " " ++ unit
  | .unitsLoaded m s path =>
    "Loaded " ++ toString m ++ " migrations and " ++ toString s ++ " seeders from " ++ path
  | .databaseReady b => "Database engine initialized: " ++ b
  | .databaseClosed => "Database connection closed"
  | .ledgerReady t => "Ensured ledger table '" ++ t ++ "' exists"
  | .applying v d => "Applying migration " ++ v ++ " (" ++ d ++ ")"
  | .applied v ms => "Applied migration " ++ v ++ " (" ++ toString ms ++ "ms)"
  | .reverting v d => "Rolling back migration " ++ v ++ " (" ++ d ++ ")"
  | .reverted v ms => "Rolled back migration " ++ v ++ " (" ++ toString ms ++ "ms)"
  | .migrationFailed v step e => step.failureText v ++ ": " ++ e.message
  | .nothingPending => "No pending migrations found"
  | .running n => "Running " ++ toString n ++ " pending migrations"
  | .allApplied n => "All migrations completed successfully (" ++ toString n ++ ")"
  | .nothingToRevert => "No migrations to rollback"
  | .fewerThanAsked found asked =>
    "Only found " ++ toString found ++ " migrations to rollback (requested " ++ toString asked ++ ")"
  | .notRegistered v => "Cannot roll back " ++ v ++ ": migration is not registered"
  | .allReverted n => "Rollback completed successfully (" ++ toString n ++ ")"
  | .statusHead => "Migration Status:"
  | .statusApplied v d at' => "  APPLIED  " ++ v ++ "  " ++ d ++ "  (" ++ at' ++ ")"
  | .statusPending v d => "  PENDING  " ++ v ++ "  " ++ d
  | .statusOrphan v => "  Ledger row " ++ v ++ " has no registered migration"
  | .statusSummary a p t =>
    "Summary: " ++ toString a ++ " applied, " ++ toString p ++ " pending, " ++ toString t ++ " total"
  | .orderResolved names => "Resolved seeder order: " ++ commas names
  | .orderResolvedFor t names => "Resolved order for " ++ t ++ ": " ++ commas names
  | .noSeeders => "No seeders found"
  | .seeding n => "Starting database seeding (" ++ toString n ++ " seeders)"
  | .orderFailed e => "Failed to resolve seeder dependencies: " ++ e.message
  | .orderFailedFor n e => "Failed to resolve dependencies for " ++ n ++ ": " ++ e.message
  | .seederRunning n => "Running seeder " ++ n
  | .seederDone n ms => "Seeder " ++ n ++ " completed (" ++ toString ms ++ "ms)"
  | .seederFailed n step e => step.failureText n ++ ": " ++ e.message
  | .seederSkipped n e => "Continuing despite failure of seeder " ++ n ++ ": " ++ e.message
  | .someSeedersFailed names =>
    "Seeding finished with " ++ toString names.length ++ " failures: " ++ commas names
  | .allSeeded n => "All seeders completed successfully (" ++ toString n ++ ")"
  | .namedSeeded n => "Seeder " ++ n ++ " completed successfully"
  | .nothingToList => "No seeders registered"
  | .orderUnknown e =>
    "Failed to resolve seeder dependencies, showing registration order: " ++ e.message
  | .listingHead => "Registered Seeders:"
  | .listed p n deps =>
    toString p ++ ". " ++ n ++ (if deps.isEmpty then "" else " (depends on: " ++ commas deps ++ ")")
  | .listingTotal n => "Total seeders: " ++ toString n
  | .databaseError e => "Database error: " ++ e.message

end Event
end SchemaLedger
