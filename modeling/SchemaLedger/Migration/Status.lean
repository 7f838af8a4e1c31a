-- The status of the registered migrations: each is applied or pending, and rows of
-- the ledger that no registered migration belongs to are orphans.
import SchemaLedger.Migration.Migrator

namespace SchemaLedger

structure StatusEntry where
  version : String
  description : Value
  /-- When it was applied, unless it is pending. -/
  appliedAt : Option String
  deriving Repr

def StatusEntry.isApplied (e : StatusEntry) : Bool := e.appliedAt.isSome

def StatusEntry.state (e : StatusEntry) : String := if e.isApplied then "APPLIED" else "PENDING"

structure Status where
  /-- The registered migrations, by version. -/
  entries : List StatusEntry
  orphans : List LedgerRow
  deriving Repr

namespace Status

def applied (s : Status) : Nat := s.entries.countP StatusEntry.isApplied

def pending (s : Status) : Nat := s.entries.countP fun e => !e.isApplied

def total (s : Status) : Nat := s.entries.length

/-- One row for each version: the first place, and the last row, of each. -/
def byVersion (rows : List LedgerRow) : List LedgerRow :=
  rows.foldl
    (fun kept r =>
      if kept.any (·.version == r.version) then
        kept.map fun k => if k.version == r.version then r else k
      else kept ++ [r])
    []

/-- The status of migrations beside the rows of the ledger. -/
def of (c : Catalog) (rows : List LedgerRow) : Status :=
  let known := byVersion rows
  { entries := c.sorted.map fun m =>
      ⟨m.version, m.description, (known.find? (·.version == m.version)).map (·.appliedAt)⟩,
    orphans := known.filter fun r => (c.find? r.version).isNone }

def entryEvent (e : StatusEntry) : Event :=
  match e.appliedAt with
  | some at' => .statusApplied e.version e.description.shown at'
  | none => .statusPending e.version e.description.shown

/-- What is reported of a status. -/
def events (s : Status) : List Event :=
  .statusHead :: s.entries.map entryEvent ++ s.orphans.map (fun r => .statusOrphan r.version) ++
    [.statusSummary s.applied s.pending s.total]

end Status

/-- The status of the registered migrations. -/
def Migrator.status (m : Migrator) : Work Status := do
  let s := Status.of m.catalog (← m.applied)
  s.events.forM Work.report
  return s

end SchemaLedger
