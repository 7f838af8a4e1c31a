-- The order of a whole graph: nodes without dependencies first, then each node
-- as soon as its last dependency is placed, in graph order. If some nodes can
-- never be placed, a loop among them is reported.
import SchemaLedger.Dependency.Graph

namespace SchemaLedger.Graph

/-! ## Placing nodes -/

/-- A node that waits, with those of its declared dependencies that are not placed yet. -/
abbrev Waiting := List (String × List String)

/-- Placing `name` removes it from what the waiting nodes wait for. -/
def strike (name : String) (waiting : Waiting) : Waiting :=
  waiting.map fun (n, ds) => (n, ds.filter (· ≠ name))

/-- The nodes that wait for nothing any more, in graph order. -/
def released (waiting : Waiting) : List String :=
  (waiting.filter (·.2.isEmpty)).map Prod.fst

/-- The nodes that still wait for something. -/
def blocked (waiting : Waiting) : Waiting := waiting.filter (fun w => !w.2.isEmpty)

theorem length_released_add_blocked (waiting : Waiting) :
    (released waiting).length + (blocked waiting).length = waiting.length := by
  induction waiting with
  | nil => rfl
  | cons w rest ih =>
    simp only [released, blocked, List.length_map] at ih ⊢
    rcases h : w.2.isEmpty with _ | _ <;> simp [h] <;> omega

theorem length_strike (name : String) (waiting : Waiting) :
    (strike name waiting).length = waiting.length := by simp [strike]

/-- Takes the ready nodes one by one, first come first served. Each one is placed
and may release nodes that waited for it. Gives the placed nodes, and the names
that were never released. -/
def place (placed ready : List String) (waiting : Waiting) : List String × List String :=
  match ready with
  | [] => (placed, waiting.map Prod.fst)
  | name :: ready =>
    place (placed ++ [name]) (ready ++ released (strike name waiting)) (blocked (strike name waiting))
termination_by ready.length + waiting.length
decreasing_by
  have h := length_released_add_blocked (strike name waiting)
  rw [length_strike] at h
  simp only [List.length_append, List.length_cons]
  omega

/-- The nodes that can be placed, in order, and the names left over, in graph order. -/
def placement (g : Graph) : List String × List String :=
  place [] (released g.nodes) (blocked g.nodes)

/-! ## The loop among the nodes that are left -/

/-- Follows `next` until a name comes again and gives the walk from there, closed
by that name. Only names in `fresh` are walked, each at most once. -/
def closeLoop (next : String → Option String) (fresh path : List String) (name : String) :
    List String :=
  if name ∈ path then path.dropWhile (· ≠ name) ++ [name]
  else if _ : name ∈ fresh then
    match next name with
    | some dep => closeLoop next (fresh.erase name) (path ++ [name]) dep
    | none => path ++ [name]
  else path ++ [name]
termination_by fresh.length
decreasing_by
  have := List.length_pos_of_mem ‹name ∈ fresh›
  rw [List.length_erase_of_mem ‹name ∈ fresh›]
  omega

/-- The loop that the first stuck node leads into, when each stuck node is
followed by its first stuck dependency. -/
def loopAmong (g : Graph) (stuck : List String) : List String :=
  match stuck with
  | [] => []
  | first :: _ => closeLoop (fun n => (g.deps n).find? (· ∈ stuck)) stuck [] first

/-- All nodes, dependencies first. -/
def topologicalOrder (g : Graph) : Except Fault (List String) :=
  match g.dangling? with
  | some (_, dep) => .error (.unknownName dep)
  | none =>
    match g.placement with
    | (order, []) => .ok order
    | (_, stuck) => .error (.cycle (g.loopAmong stuck))

end SchemaLedger.Graph
