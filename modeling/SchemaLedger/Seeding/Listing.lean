-- The list of seeders, in the order in which they would run. If there is no such
-- order the list says why and keeps the order of registration.
import SchemaLedger.Seeding.Run

namespace SchemaLedger

structure ListedSeeder where
  /-- Counted from 1. -/
  position : Nat
  name : String
  dependencies : List String
  deriving DecidableEq, Repr

structure SeederListing where
  entries : List ListedSeeder := []
  /-- Why there is no order, if there is none. -/
  fault : Option Failure := none

def SeederListing.resolved (l : SeederListing) : Bool := l.fault.isNone

namespace Seeding

def listed (order : List Seeder) : List ListedSeeder :=
  order.mapIdx fun i s => ⟨i + 1, s.name, s.dependencies⟩

def reportListing (entries : List ListedSeeder) : Work Unit := do
  Work.report .listingHead
  entries.forM fun e => Work.report (.listed e.position e.name e.dependencies)
  Work.report (.listingTotal entries.length)

/-- Lists the seeders. Only a failure that is not the engine's own passes. -/
def list (x : Seeding) : Work SeederListing := do
  if x.seeders.isEmpty then
    Work.report .nothingToList
    return {}
  else
    match ← Work.attempt (resolveAll x.seeders) with
    | .ok order =>
      reportListing (listed order)
      return { entries := listed order }
    | .error f =>
      if f.isEngine then
        Work.report (.orderUnknown f)
        reportListing (listed x.seeders)
        return { entries := listed x.seeders, fault := some f }
      else throw f

end Seeding
end SchemaLedger
