-- Registries: the units of one kind, in the order in which they were registered.
-- A unit may be registered twice; what uses the units refuses that.
import SchemaLedger.Session

namespace SchemaLedger

structure Registry (α : Type) where
  /-- What the units are, as messages call them. -/
  kind : String
  units : List α := []

namespace Registry

def size {α : Type} (r : Registry α) : Nat := r.units.length

def text {α : Type} (r : Registry α) : String :=
  "<Registry(" ++ r.kind ++ "): " ++ toString r.size ++ " units>"

/-- Registers a unit, which messages show as `quoted`. -/
def register {α : Type} (r : Registry α) (quoted : α → String) (unit : α) : Work (Registry α) := do
  Work.report (.registered r.kind (quoted unit))
  return { r with units := r.units ++ [unit] }

def registerAll {α : Type} (r : Registry α) (quoted : α → String) (units : List α) :
    Work (Registry α) :=
  units.foldlM (fun r u => r.register quoted u) r

def clear {α : Type} (r : Registry α) : Registry α := { r with units := [] }

end Registry
end SchemaLedger
