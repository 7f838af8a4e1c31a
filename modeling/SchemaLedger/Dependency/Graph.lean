-- Dependency graphs: named nodes in the order they were registered, each with
-- the names it depends on. What a walk, a reachable name and a cycle are is
-- said here on its own, apart from the orderings that are computed from it.

namespace SchemaLedger

/-- A dependency graph. Nodes keep the order in which they were first given,
and no two nodes share a name. A dependency may name a node that does not exist. -/
structure Graph where
  nodes : List (String × List String)
  distinct : (nodes.map Prod.fst).Nodup

namespace Graph

/-- The names of the nodes, in order. -/
def names (g : Graph) : List String := g.nodes.map Prod.fst

/-- What a node declares that it depends on. A name that is no node depends on nothing. -/
def deps (g : Graph) (name : String) : List String := (g.nodes.lookup name).getD []

/-- The graph without nodes. -/
def empty : Graph := ⟨[], List.nodup_nil⟩

/-- Writes a node into a list of nodes: a name that is there keeps its place. -/
def put (name : String) (ds : List String) : List (String × List String) → List (String × List String)
  | [] => [(name, ds)]
  | (n, old) :: rest => if n = name then (n, ds) :: rest else (n, old) :: put name ds rest

theorem mem_put_names {name n : String} {ds : List String} {l : List (String × List String)}
    (h : n ∈ (put name ds l).map Prod.fst) : n = name ∨ n ∈ l.map Prod.fst := by
  induction l with
  | nil => simpa [put] using h
  | cons p rest ih =>
    obtain ⟨m, old⟩ := p
    by_cases hm : m = name
    · simp only [put, hm, if_true, List.map_cons, List.mem_cons] at h ⊢
      rcases h with h | h
      · exact Or.inl h
      · exact Or.inr (Or.inr h)
    · simp only [put, hm, if_false, List.map_cons, List.mem_cons] at h ⊢
      rcases h with h | h
      · exact Or.inr (Or.inl h)
      · rcases ih h with h | h
        · exact Or.inl h
        · exact Or.inr (Or.inr h)

theorem nodup_put_names (name : String) (ds : List String) {l : List (String × List String)}
    (h : (l.map Prod.fst).Nodup) : ((put name ds l).map Prod.fst).Nodup := by
  induction l with
  | nil => simp [put]
  | cons p rest ih =>
    obtain ⟨m, old⟩ := p
    simp only [List.map_cons, List.nodup_cons] at h
    by_cases hm : m = name
    · simpa [put, hm] using ⟨fun x hx => h.1 (hm ▸ List.mem_map_of_mem (f := Prod.fst) hx), h.2⟩
    · simp only [put, hm, if_false, List.map_cons, List.nodup_cons]
      refine ⟨fun hin => ?_, ih h.2⟩
      rcases mem_put_names hin with h1 | h1
      · exact hm h1
      · exact h.1 h1

/-- Adds a node. A name that is given again keeps its first place and takes the
new dependencies. -/
def insert (g : Graph) (name : String) (ds : List String) : Graph :=
  ⟨put name ds g.nodes, nodup_put_names name ds g.distinct⟩

def ofList (l : List (String × List String)) : Graph :=
  l.foldl (fun g p => g.insert p.1 p.2) empty

/-! ## Walks and cycles -/

/-- `a` declares that it depends on `b`. -/
def DependsOn (g : Graph) (a b : String) : Prop := b ∈ g.deps a

instance (g : Graph) (a b : String) : Decidable (g.DependsOn a b) :=
  inferInstanceAs (Decidable (b ∈ g.deps a))

/-- `b` is reached from `a` by following dependencies, no step included. -/
inductive Reaches (g : Graph) : String → String → Prop where
  | here (a : String) : Reaches g a a
  | step {a b c : String} : g.DependsOn a b → Reaches g b c → Reaches g a c

/-- Some node is reached from `a` that depends, over one or more steps, on itself. -/
def ReachesCycle (g : Graph) (a : String) : Prop :=
  ∃ b c, g.Reaches a b ∧ g.DependsOn b c ∧ g.Reaches c b

/-- No node depends on itself, over any number of steps. -/
def Acyclic (g : Graph) : Prop := ∀ a ∈ g.names, ¬ g.ReachesCycle a

/-- Every dependency of every node is a node. -/
def Closed (g : Graph) : Prop := ∀ a b, g.DependsOn a b → b ∈ g.names

/-- Each name lists the next one among its dependencies. -/
def IsWalk (g : Graph) : List String → Prop
  | a :: b :: rest => g.DependsOn a b ∧ g.IsWalk (b :: rest)
  | _ => True

/-- A closed loop of at least one step that meets no name twice on the way. -/
structure IsCycle (g : Graph) (walk : List String) : Prop where
  two_le_length : 2 ≤ walk.length
  closes : walk.head? = walk.getLast?
  simple : walk.dropLast.Nodup
  nodes : ∀ a ∈ walk, a ∈ g.names
  walks : g.IsWalk walk

/-! ## What can be wrong with a graph -/

/-- Why a graph, or a request about it, has no order. -/
inductive Fault where
  /-- A dependency that an ordering met is no node. -/
  | unknownName (name : String)
  /-- A node depends on a name that is no node. -/
  | dangling (node dep : String)
  /-- The name that was asked for is no node. -/
  | notANode (name : String)
  /-- The dependencies close a loop; the first name is given again at the end. -/
  | cycle (walk : List String)
  deriving DecidableEq, Repr

/-- The first dependency, in graph order, that is no node, with the node that declares it. -/
def dangling? (g : Graph) : Option (String × String) :=
  g.nodes.findSome? fun (name, ds) => (ds.find? (· ∉ g.names)).map (name, ·)

/-- Refuses a graph in which a dependency is no node. -/
def validateReferences (g : Graph) : Except Fault Unit :=
  match g.dangling? with
  | some (node, dep) => .error (.dangling node dep)
  | none => .ok ()

end Graph
end SchemaLedger
