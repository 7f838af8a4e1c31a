-- The order in which seeders run: all of them, or one and what it needs. Names have
-- to be distinct, and every dependency has to be registered.
import SchemaLedger.Seeding.Seeder
import SchemaLedger.Dependency.Order
import SchemaLedger.Dependency.Closure

namespace SchemaLedger

/-- What is wrong with a graph of seeders, as a failure. -/
def Failure.ofGraph : Graph.Fault → Failure
  | .unknownName n => .unknownDependency n
  | .dangling node dep => .registration (.dangling node dep)
  | .notANode n => .registration (.notRegistered n)
  | .cycle walk => .cycle walk

namespace Seeding

/-- The first name that was there before. -/
def firstRepeated? : List String → List String → Option String
  | _, [] => none
  | seen, n :: rest => if n ∈ seen then some n else firstRepeated? (n :: seen) rest

/-- Refuses seeders that share a name. -/
def requireDistinct (seeders : List Seeder) : Except Failure Unit :=
  match firstRepeated? [] (seeders.map Seeder.name) with
  | some n => .error (.registration (.duplicateSeeder n))
  | none => .ok ()

/-- The seeder of exactly that name. -/
def named? (seeders : List Seeder) (name : String) : Option Seeder :=
  seeders.find? fun s => s.name == name

/-- The ending that a seeder's name may be given without. -/
def ending : String := "Seeder"

def endsWithEnding (name : String) : Bool := ending.toList.isSuffixOf name.toList

/-- The seeder that a name stands for: the one called so, or so with the ending. -/
def find (seeders : List Seeder) (name : String) : Except Failure Seeder := do
  requireDistinct seeders
  let longer := if endsWithEnding name then none else named? seeders (name ++ ending)
  match (named? seeders name).or longer with
  | some s => return s
  | none => throw (.registration (.notFound name))

/-- Who depends on whom. -/
def graphOf (seeders : List Seeder) : Graph :=
  .ofList (seeders.map fun s => (s.name, s.dependencies))

/-- The names of all seeders, dependencies first. -/
def orderOfAll (seeders : List Seeder) : Except Failure (List String) := do
  requireDistinct seeders
  (graphOf seeders).validateReferences.mapError .ofGraph
  (graphOf seeders).topologicalOrder.mapError .ofGraph

/-- The names of what one seeder needs, dependencies first and the seeder last. -/
def orderFor (seeders : List Seeder) (target : String) : Except Failure (List String) :=
  ((graphOf seeders).dependencyClosure target).mapError .ofGraph

/-- The seeders of some names. -/
def pick (seeders : List Seeder) (names : List String) : List Seeder := names.filterMap (named? seeders)

/-- Lifts a computed result. -/
def lift {α : Type} : Except Failure α → Work α
  | .ok a => pure a
  | .error f => throw f

/-- All seeders in the order in which they run. -/
def resolveAll (seeders : List Seeder) : Work (List Seeder) := do
  let names ← lift (orderOfAll seeders)
  Work.report (.orderResolved names)
  return pick seeders names

/-- One seeder and what it needs, in the order in which they run. -/
def resolveFor (seeders : List Seeder) (name : String) : Work (List Seeder) := do
  let target ← lift (find seeders name)
  let names ← lift (orderFor seeders target.name)
  Work.report (.orderResolvedFor target.name names)
  return pick seeders names

end Seeding
end SchemaLedger
