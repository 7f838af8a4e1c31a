-- Modules of units. A module is found by its dotted name, after everything that the
-- name stands below, and registers its units by a hook or offers them in two lists.
import SchemaLedger.Registry
import SchemaLedger.Migration.Draft
import SchemaLedger.Seeding.Seeder

namespace SchemaLedger

/-- One thing that a hook does. -/
inductive HookStep where
  | migration (declared : Except Failure Draft)
  | seeder (s : Seeder)
  | fail (failure : Failure)

structure UnitsModule where
  /-- The dotted name. -/
  name : String
  /-- Why the module cannot be imported. -/
  failure : Option Failure := none
  hook : Option (List HookStep) := none
  migrations : Option (List (Except Failure Draft)) := none
  seeders : Option (List Seeder) := none

/-- The migrations and the seeders of a module. -/
structure Units where
  migrations : Registry Draft := { kind := "migration" }
  seeders : Registry Seeder := { kind := "seeder" }

namespace UnitsModule

/-! ## Import -/

/-- Why a module was not imported. -/
inductive ImportFault where
  /-- No such module; perhaps what its name stands below holds no modules. -/
  | notFound (name : String) (below : Option String)
  | noName
  | relative (name : String)
  | failed (failure : Failure)

/-- The kinds of failures that count as a failed import. -/
def importKinds : List String := ["ImportError", "ModuleNotFoundError"]

/-- The reason, if a module could not be imported, or else the failure itself. -/
def ImportFault.reason : ImportFault → Except Failure String
  | .notFound name none => .ok ("No module named " ++ Text.quoted name)
  | .notFound name (some below) =>
    .ok ("No module named " ++ Text.quoted name ++ "; " ++ Text.quoted below ++ " is not a package")
  | .noName => .error .noModuleName
  | .relative name => .error (.relativeModule name)
  | .failed (.raised kind message) =>
    if importKinds.contains kind then .ok message else .error (.raised kind message)
  | .failed f => .error f

/-- The names that a dotted name stands below, the first of them outermost, and the name itself. -/
def chain (done : List Char) : List Char → List (List Char)
  | [] => [done]
  | '.' :: rest => done :: chain (done ++ ['.']) rest
  | c :: rest => chain (done ++ [c]) rest

/-- A module stands below another one. -/
def isBelow (outer inner : String) : Bool := (outer.toList ++ ['.']).isPrefixOf inner.toList

/-- Some module stands below a name. -/
def isPackage (ms : List UnitsModule) (name : String) : Bool := ms.any fun m => isBelow name m.name

/-- Loads the modules of a chain of names one after the other and gives the last. -/
def importChain (ms : List UnitsModule) (below : Option String) :
    List String → Except ImportFault UnitsModule
  | [] => .error .noName
  | name :: rest =>
    match below.filter fun p => !isPackage ms p with
    | some p => .error (.notFound name (some p))
    | none =>
      let found := ms.find? (·.name == name)
      if found.isNone && !isPackage ms name then .error (.notFound name none)
      else
        let m := found.getD { name }
        match m.failure with
        | some f => .error (.failed f)
        | none => if rest.isEmpty then .ok m else importChain ms (some name) rest

def importNamed (ms : List UnitsModule) (name : String) : Except ImportFault UnitsModule :=
  if name.isEmpty then .error .noName
  else if name.toList.head? = some '.' then .error (.relative name)
  else importChain ms none ((chain [] name.toList).map String.ofList)

/-! ## Units -/

def runHook (u : Units) : List HookStep → Work Units
  | [] => return u
  | .migration (.ok d) :: rest => do
    let r ← u.migrations.register Draft.quoted d
    runHook { u with migrations := r } rest
  | .migration (.error f) :: _ => throw f
  | .seeder s :: rest => do
    let r ← u.seeders.register Seeder.quoted s
    runHook { u with seeders := r } rest
  | .fail f :: _ => throw f

/-- Registers the units of a module. The hook comes before the lists. -/
def collect (m : UnitsModule) (path : String) : Work Units :=
  match m.hook with
  | some steps => runHook {} steps
  | none =>
    if m.migrations.isNone && m.seeders.isNone then throw (.configuration (.unitsEmpty path))
    else do
      let drafts := (m.migrations.getD []).filterMap fun | .ok d => some d | .error _ => none
      let empty : Units := {}
      let ms ← empty.migrations.registerAll Draft.quoted drafts
      let ss ← empty.seeders.registerAll Seeder.quoted (m.seeders.getD [])
      return { migrations := ms, seeders := ss }

/-- The failure of the first unit in the lists that could not be built. It fails the import. -/
def unitFailure? (m : UnitsModule) : Option Failure :=
  (m.migrations.getD []).findSome? fun | .ok _ => none | .error f => some f

/-- The module with a failure of its own lists as its failure. -/
def settled (m : UnitsModule) : UnitsModule := { m with failure := m.failure.or m.unitFailure? }

/-- Imports a module by its path and registers its units. -/
def load (ms : List UnitsModule) (path : String) : Work Units := do
  match importNamed (ms.map settled) path with
  | .error fault =>
    match fault.reason with
    | .ok reason => throw (.configuration (.unitsNotImported path reason))
    | .error f => throw f
  | .ok m =>
    let u ← m.collect path
    Work.report (.unitsLoaded u.migrations.size u.seeders.size path)
    return u

end UnitsModule
end SchemaLedger
