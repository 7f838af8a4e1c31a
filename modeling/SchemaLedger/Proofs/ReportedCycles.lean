-- The cycles that are reported. Both orderings follow a walk until it comes back to a name
-- that it has met; what they report is the walk from that name on, which is a cycle of the
-- graph, and the second one meets nothing that is not reached from its target.
import SchemaLedger.Dependency.Closure
import SchemaLedger.Proofs.Placement

namespace SchemaLedger.Graph

variable {g : Graph} {target node name : String}
  {deps done fresh path order stuck walk : List String}

/-! ## The loop among the nodes that are left -/

/-- A walk among stuck names: `path` is behind it, and only `fresh` names are ahead. -/
structure Chase (g : Graph) (stuck fresh path : List String) (name : String) : Prop where
  walk : g.IsWalk (path ++ [name])
  simple : path.Nodup
  inside : ∀ a ∈ path, a ∈ stuck
  here : name ∈ stuck
  ahead : ∀ a ∈ stuck, a ∉ path → a ∈ fresh

theorem Chase.start (h : name ∈ stuck) : g.Chase stuck stuck [] name :=
  ⟨trivial, List.nodup_nil, by simp, h, fun _ ha _ => ha⟩

theorem Chase.step {dep : String} (h : g.Chase stuck fresh path name) (hnew : name ∉ path)
    (hd : g.DependsOn name dep) (hdep : dep ∈ stuck) :
    g.Chase stuck (fresh.erase name) (path ++ [name]) dep := by
  refine ⟨h.walk.snoc hd, nodup_snoc h.simple hnew, ?_, hdep, ?_⟩
  · intro a ha
    rcases List.mem_append.mp ha with ha | ha
    · exact h.inside a ha
    · rw [List.mem_singleton.mp ha]
      exact h.here
  · intro a ha hnot
    have hne : a ≠ name := fun he => hnot (by simp [he])
    exact (List.mem_erase_of_ne hne).mpr (h.ahead a ha fun hp => hnot (List.mem_append_left _ hp))

/-- Where every stuck name has a stuck dependency, the walk from one to the next closes. -/
theorem isCycle_closeLoop (hnames : ∀ n ∈ stuck, n ∈ g.names)
    (hdeps : ∀ n ∈ stuck, ∃ d ∈ g.deps n, d ∈ stuck) (h : g.Chase stuck fresh path name) :
    g.IsCycle (closeLoop (fun n => (g.deps n).find? (· ∈ stuck)) fresh path name) := by
  fun_induction closeLoop (fun n => (g.deps n).find? (· ∈ stuck)) fresh path name with
  | case1 fresh path name hmet =>
    exact isCycle_of_return h.walk h.simple (fun a ha => hnames a (h.inside a ha)) hmet
  | case2 fresh path name hnew _ dep hnext ih =>
    have hdep : dep ∈ stuck := by simpa using List.find?_some hnext
    exact ih (h.step hnew (List.mem_of_find?_eq_some hnext) hdep)
  | case3 fresh path name _ _ hnone =>
    obtain ⟨d, hd, hstuck⟩ := hdeps name h.here
    exact absurd hstuck (by simpa using List.find?_eq_none.mp hnone d hd)
  | case4 fresh path name hnew hold => exact absurd (h.ahead name h.here hnew) hold

/-- The loop that is reported of the nodes that an ordering leaves is a cycle. -/
theorem Placed.isCycle_loopAmong (h : g.Placed order stuck) (hc : g.Closed) (hne : stuck ≠ []) :
    g.IsCycle (g.loopAmong stuck) := by
  rcases stuck with _ | ⟨first, rest⟩
  · exact absurd rfl hne
  · exact isCycle_closeLoop (fun n hn => h.mem_names.mpr (.inr hn))
      (fun n hn => h.stuck_dep hc hn) (.start List.mem_cons_self)

/-! ## The path of a depth-first visit -/

/-- The way from the target to the node that is visited. -/
structure Descent (g : Graph) (target : String) (path : List String) (node : String) : Prop where
  ends : ∃ before, path = before ++ [node]
  walk : g.IsWalk path
  simple : path.Nodup
  nodes : ∀ a ∈ path, a ∈ g.names
  reached : ∀ a ∈ path, g.Reaches target a

theorem Descent.start (h : target ∈ g.names) : g.Descent target [target] target := by
  refine ⟨⟨[], rfl⟩, trivial, by simp, ?_, ?_⟩
  · intro a ha
    rw [List.mem_singleton.mp ha]
    exact h
  · intro a ha
    rw [List.mem_singleton.mp ha]
    exact .here target

theorem Descent.walk_to {dep : String} (h : g.Descent target path node)
    (hd : g.DependsOn node dep) : g.IsWalk (path ++ [dep]) := by
  obtain ⟨before, rfl⟩ := h.ends
  exact h.walk.snoc hd

theorem Descent.reaches {dep : String} (h : g.Descent target path node)
    (hd : g.DependsOn node dep) : g.Reaches target dep := by
  obtain ⟨before, rfl⟩ := h.ends
  exact (h.reached node (by simp)).trans hd.reaches

theorem Descent.step {dep : String} (h : g.Descent target path node) (hd : g.DependsOn node dep)
    (hdep : dep ∈ g.names) (hnew : dep ∉ path) : g.Descent target (path ++ [dep]) dep := by
  refine ⟨⟨path, rfl⟩, h.walk_to hd, nodup_snoc h.simple hnew, ?_, ?_⟩
  · intro a ha
    rcases List.mem_append.mp ha with ha | ha
    · exact h.nodes a ha
    · rw [List.mem_singleton.mp ha]
      exact hdep
  · intro a ha
    rcases List.mem_append.mp ha with ha | ha
    · exact h.reached a ha
    · rw [List.mem_singleton.mp ha]
      exact h.reaches hd

/-- A dependency that is on the path closes a cycle that the target reaches. -/
theorem Descent.isCycle {dep : String} (h : g.Descent target path node)
    (hd : g.DependsOn node dep) (hmet : dep ∈ path) :
    g.IsCycle (path.dropWhile (· ≠ dep) ++ [dep]) ∧
      ∀ a ∈ path.dropWhile (· ≠ dep) ++ [dep], g.Reaches target a := by
  refine ⟨isCycle_of_return (h.walk_to hd) h.simple h.nodes hmet, ?_⟩
  intro a ha
  rcases List.mem_append.mp ha with ha | ha
  · exact h.reached a ((List.dropWhile_suffix _).subset ha)
  · rw [List.mem_singleton.mp ha]
    exact h.reaches hd

/-- A cycle that is met on the way is one, and the target reaches it. -/
theorem gather_cycle (h : g.Descent target path node) (hdeps : ∀ d ∈ deps, g.DependsOn node d)
    (he : g.gather path done node deps = .error (.cycle walk)) :
    g.IsCycle walk ∧ ∀ a ∈ walk, g.Reaches target a := by
  fun_induction gather g path done node deps with
  | case1 => cases he
  | case2 path done node dep rest _ hmet =>
    obtain rfl : path.dropWhile (· ≠ dep) ++ [dep] = walk := by simpa using he
    exact h.isCycle (hdeps dep List.mem_cons_self) hmet
  | case3 path done node dep rest _ _ _ ih =>
    exact ih h (fun d hd => hdeps d (List.mem_cons_of_mem _ hd)) he
  | case4 path done node dep rest hdep hnew _ e hinner ih =>
    have hbelow := h.step (hdeps dep List.mem_cons_self) hdep hnew
    obtain rfl : e = .cycle walk := by simpa using he
    exact ih hbelow (fun d hd => hd) hinner
  | case5 path done node dep rest _ _ _ _ _ _ ih =>
    exact ih h (fun d hd => hdeps d (List.mem_cons_of_mem _ hd)) he
  | case6 => cases he

/-! ## Every reported cycle -/

/-- A cycle that an order of the whole graph reports, and one that an order of a target's
prerequisites reports, goes from some node along dependencies back to it and meets no other
name twice; the latter lies within what the target needs. -/
theorem every_reported_cycle_is_one (g : Graph) (walk : List String) :
    (g.topologicalOrder = .error (.cycle walk) → g.IsCycle walk) ∧
      ∀ target, g.dependencyClosure target = .error (.cycle walk) →
        g.IsCycle walk ∧ ∀ a ∈ walk, g.Reaches target a := by
  constructor
  · intro h
    have hc : g.Closed := by
      rw [← dangling?_eq_none]
      rcases hd : g.dangling? with _ | ⟨n, dep⟩
      · rfl
      · simp [topologicalOrder, hd] at h
    rcases topologicalOrder_of_closed hc with ⟨order, hok, _⟩ | ⟨order, stuck, hne, hplaced, herr⟩
    · simp [hok] at h
    · obtain rfl : g.loopAmong stuck = walk := by simpa [herr] using h
      exact hplaced.isCycle_loopAmong hc hne
  · intro target h
    unfold dependencyClosure at h
    by_cases ht : target ∈ g.names
    · rw [if_pos ht] at h
      rcases hg : g.gather [target] [] target (g.deps target) with e | done
      · obtain rfl : e = .cycle walk := by simpa [hg] using h
        exact gather_cycle (.start ht) (fun d hd => hd) hg
      · simp [hg] at h
    · simp [ht] at h

/-- A node leads into a loop of two, from where another node is in no loop. -/
theorem a_loop_behind_a_node_is_reported :
    let g := Graph.ofList [("a", ["b"]), ("b", ["d", "c"]), ("c", ["b"]), ("d", [])]
    let walk := ["b", "c", "b"]
    g.topologicalOrder = .error (.cycle walk) ∧ g.dependencyClosure "a" = .error (.cycle walk) ∧
      g.IsCycle walk ∧ ∀ a ∈ walk, g.Reaches "a" a := by
  intro g walk
  have horder : g.topologicalOrder = .error (.cycle walk) := by decide +kernel
  have hnames : g.names = ["a", "b", "c", "d"] := by decide
  have hdeps : g.deps "a" = ["b"] ∧ g.deps "b" = ["d", "c"] ∧ g.deps "c" = ["b"] ∧
      g.deps "d" = [] := by decide
  have hclosure : g.dependencyClosure "a" = .error (.cycle walk) := by
    simp [dependencyClosure, gather, hnames, hdeps, walk]
  exact ⟨horder, hclosure, (every_reported_cycle_is_one g walk).1 horder,
    ((every_reported_cycle_is_one g walk).2 "a" hclosure).2⟩

end SchemaLedger.Graph
