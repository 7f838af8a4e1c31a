-- The prerequisites of one node: everything it reaches along dependencies,
-- each name after its own dependencies and the node itself last. What other
-- nodes depend on, or whether they are in order, does not matter.
import SchemaLedger.Dependency.Graph

namespace SchemaLedger.Graph

/-- The names that are not on the path yet. -/
def offPath (g : Graph) (path : List String) : List String := g.names.filter (· ∉ path)

theorem length_offPath_lt {g : Graph} {path : List String} {name : String}
    (hn : name ∈ g.names) (hp : name ∉ path) :
    (g.offPath (path ++ [name])).length < (g.offPath path).length := by
  have hsub : g.offPath (path ++ [name]) = (g.offPath path).filter (· ≠ name) := by
    simp only [offPath, List.filter_filter]
    congr 1
    funext a
    by_cases h1 : a ∈ path <;> by_cases h2 : a = name <;> simp [h1, h2]
  rw [hsub]
  apply List.length_filter_lt_length_iff_exists.2
  exact ⟨name, by simp [offPath, hn, hp], by simp⟩

/-- Adds the dependencies `deps` of `node` to the names that are done, each with
everything it needs before it. `path` leads from the target to `node`; a
dependency that is on it closes a loop. -/
def gather (g : Graph) (path done : List String) (node : String) :
    List String → Except Fault (List String)
  | [] => .ok done
  | dep :: rest =>
    if _ : dep ∈ g.names then
      if _ : dep ∈ path then .error (.cycle (path.dropWhile (· ≠ dep) ++ [dep]))
      else if dep ∈ done then gather g path done node rest
      else
        match gather g (path ++ [dep]) done dep (g.deps dep) with
        | .error e => .error e
        | .ok done => gather g path (done ++ [dep]) node rest
    else .error (.dangling node dep)
termination_by deps => ((g.offPath path).length, deps.length)
decreasing_by
  · exact Prod.Lex.right _ (by simp)
  · exact Prod.Lex.left _ _ (length_offPath_lt ‹dep ∈ g.names› ‹dep ∉ path›)
  · exact Prod.Lex.right _ (by simp)

/-- The target and everything it transitively depends on, dependencies first. -/
def dependencyClosure (g : Graph) (target : String) : Except Fault (List String) :=
  if target ∈ g.names then
    match g.gather [target] [] target (g.deps target) with
    | .error e => .error e
    | .ok done => .ok (done ++ [target])
  else .error (.notANode target)

end SchemaLedger.Graph
