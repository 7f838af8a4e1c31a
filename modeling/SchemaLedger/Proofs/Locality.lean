-- What one node is asked for is answered by what it reaches. Graphs that agree on that give the
-- same prerequisites, or refuse them for the same fault, whatever else is in them and in whatever
-- order; hence so do lists of seeders, for one seeder of both.
import SchemaLedger.Proofs.PrerequisiteOrder
import SchemaLedger.Proofs.SeederResolution

namespace SchemaLedger

/-! ## Graphs that agree -/

namespace Graph

variable {g g' : Graph} {target node : String} {deps done path : List String}

/-- A name is a node of both graphs or of neither, and depends on the same names in both. -/
structure AgreeOn (g g' : Graph) (name : String) : Prop where
  node : name ∈ g.names ↔ name ∈ g'.names
  deps : g.deps name = g'.deps name

/-- A gathering asks nothing of a graph but what the names that are gathered reach. -/
theorem gather_congr (h : ∀ d ∈ deps, ∀ a, g.Reaches d a → AgreeOn g g' a) :
    g.gather path done node deps = g'.gather path done node deps := by
  fun_induction gather g path done node deps with
  | case1 => rw [gather]
  | case2 path done node dep rest hdep hon =>
    have hdep' := (h dep List.mem_cons_self dep (.here dep)).node.mp hdep
    rw [gather, dif_pos hdep', dif_pos hon]
  | case3 path done node dep rest hdep hon hdone ih =>
    have hdep' := (h dep List.mem_cons_self dep (.here dep)).node.mp hdep
    rw [gather, dif_pos hdep', dif_neg hon, if_pos hdone]
    exact ih fun d hd => h d (List.mem_cons_of_mem _ hd)
  | case4 path done node dep rest hdep hon hnew e hbelow ih =>
    have hagree := h dep List.mem_cons_self
    have hbelow' := ih fun d hd a ha => hagree a (.step hd ha)
    rw [hbelow, (hagree dep (.here dep)).deps] at hbelow'
    rw [gather, dif_pos ((hagree dep (.here dep)).node.mp hdep), dif_neg hon, if_neg hnew,
      ← hbelow']
  | case5 path done node dep rest hdep hon hnew below hbelow ihbelow ih =>
    have hagree := h dep List.mem_cons_self
    have hbelow' := ihbelow fun d hd a ha => hagree a (.step hd ha)
    rw [hbelow, (hagree dep (.here dep)).deps] at hbelow'
    rw [gather, dif_pos ((hagree dep (.here dep)).node.mp hdep), dif_neg hon, if_neg hnew,
      ← hbelow']
    exact ih fun d hd => h d (List.mem_cons_of_mem _ hd)
  | case6 path done node dep rest hnot =>
    have hnot' := (h dep List.mem_cons_self dep (.here dep)).node.not.mp hnot
    rw [gather, dif_neg hnot']

/-- The prerequisites of a target, and what they are refused for, are up to what it reaches. -/
theorem dependencyClosure_congr (h : ∀ a, g.Reaches target a → AgreeOn g g' a) :
    g.dependencyClosure target = g'.dependencyClosure target := by
  have htarget := h target (.here target)
  have hgather : g.gather [target] [] target (g.deps target) =
      g'.gather [target] [] target (g'.deps target) := by
    rw [← htarget.deps]
    exact gather_congr fun d hd a ha => h a (.step hd ha)
  unfold dependencyClosure
  simp only [htarget.node, hgather]

end Graph

/-! ## Lists of seeders that agree -/

namespace Seeding

variable {seeders first second : List Seeder} {name a : String} {x : Seeder}

/-- The dependencies that the seeder of a name declares, if there is one. -/
def declared? (seeders : List Seeder) (name : String) : Option (List String) :=
  (named? seeders name).map Seeder.dependencies

theorem mem_names_iff_declared? :
    name ∈ seeders.map Seeder.name ↔ (declared? seeders name).isSome := by
  unfold declared? named?
  rw [Option.isSome_map, List.find?_isSome]
  simp

theorem lookup_declared? (seeders : List Seeder) (name : String) :
    (seeders.map fun x => (x.name, x.dependencies)).lookup name = declared? seeders name := by
  unfold declared? named?
  induction seeders with
  | nil => rfl
  | cons x rest ih =>
    by_cases hx : x.name = name
    · simp [hx]
    · have hx' : (name == x.name) = false := beq_false_of_ne fun he => hx he.symm
      simp [List.lookup_cons, hx, hx', ih]

/-- Lists that declare the same of a name have graphs that agree on it. -/
theorem agreeOn_graphOf (hd : (first.map Seeder.name).Nodup) (hd' : (second.map Seeder.name).Nodup)
    (h : declared? first a = declared? second a) : (graphOf first).AgreeOn (graphOf second) a := by
  constructor
  · rw [names_graphOf hd, names_graphOf hd', mem_names_iff_declared?, mem_names_iff_declared?, h]
  · unfold Graph.deps
    rw [nodes_graphOf hd, nodes_graphOf hd', lookup_declared?, lookup_declared?, h]

/-- A name that a seeder has stands for that seeder. -/
theorem find_of_mem (hd : (seeders.map Seeder.name).Nodup) (hx : x ∈ seeders) :
    find seeders x.name = .ok x := by
  unfold find
  rw [requireDistinct_ok hd, named?_of_mem hd hx]
  rfl

/-- The prerequisites that are found for a seeder are seeders of the list. -/
theorem mem_names_of_orderFor {names : List String} (hd : (seeders.map Seeder.name).Nodup)
    (h : orderFor seeders name = .ok names) : ∀ n ∈ names, n ∈ seeders.map Seeder.name := by
  unfold orderFor at h
  rcases hg : (graphOf seeders).dependencyClosure name with e | found
  · rw [hg] at h
    cases h
  · rw [hg] at h
    obtain rfl : found = names := Except.ok.inj h
    obtain ⟨_, _, _, _, harranged⟩ := Graph.dependencyClosure_eq_ok hg
    rw [← names_graphOf hd]
    exact harranged.nodes

theorem resolveFor_found {names : List String} (hd : (seeders.map Seeder.name).Nodup)
    (hname : name ∈ seeders.map Seeder.name) (h : orderFor seeders name = .ok names)
    (s : Session) :
    ∃ order, order.map Seeder.name = names ∧
      resolveFor seeders name s = .ok order (s.saying [.orderResolvedFor name names]) := by
  obtain ⟨x, hx, rfl⟩ := List.mem_map.mp hname
  refine ⟨pick seeders names, map_name_pick (mem_names_of_orderFor hd h), ?_⟩
  rw [resolveFor_eq, find_of_mem hd hx]
  simp only [h]

theorem resolveFor_refused {f : Failure} (hd : (seeders.map Seeder.name).Nodup)
    (hname : name ∈ seeders.map Seeder.name) (h : orderFor seeders name = .error f)
    (s : Session) : resolveFor seeders name s = .error f s := by
  obtain ⟨x, hx, rfl⟩ := List.mem_map.mp hname
  rw [resolveFor_eq, find_of_mem hd hx]
  simp only [h]

/-- Two lists that declare the same of every name that a seeder leads to resolve it alike: to
seeders of the same names in the same order, or both refuse it for the same failure. In which
order they list their seeders does not matter, nor what they declare of other names. -/
theorem one_seeder_is_resolved_by_what_it_leads_to (hd : (first.map Seeder.name).Nodup)
    (hd' : (second.map Seeder.name).Nodup) (hname : name ∈ first.map Seeder.name)
    (hsame : ∀ a, Relation.ReflTransGen (Declares first) name a →
      declared? first a = declared? second a) (s : Session) :
    (∃ names order order',
        resolveFor first name s = .ok order (s.saying [.orderResolvedFor name names]) ∧
        resolveFor second name s = .ok order' (s.saying [.orderResolvedFor name names]) ∧
        order.map Seeder.name = names ∧ order'.map Seeder.name = names) ∨
      ∃ f, resolveFor first name s = .error f s ∧ resolveFor second name s = .error f s := by
  have hname' : name ∈ second.map Seeder.name := by
    rw [mem_names_iff_declared?] at hname ⊢
    rwa [← hsame name .refl]
  have horder : orderFor first name = orderFor second name := by
    unfold orderFor
    rw [Graph.dependencyClosure_congr fun a ha => agreeOn_graphOf hd hd' (hsame a ?_)]
    rw [← dependsOn_graphOf hd]
    exact Graph.reaches_iff.mp ha
  rcases h : orderFor first name with f | names
  · exact .inr ⟨f, resolveFor_refused hd hname h s,
      resolveFor_refused hd' hname' (horder.symm.trans h) s⟩
  · obtain ⟨order, hnames, hrun⟩ := resolveFor_found hd hname h s
    obtain ⟨order', hnames', hrun'⟩ := resolveFor_found hd' hname' (horder.symm.trans h) s
    exact .inl ⟨names, order, order', hrun, hrun', hnames, hnames'⟩

/-- Two lists share what `t` and `x` lead to, in another order. One has a loop beside that and a
seeder that depends on `t`, the other a name that nobody has. `t` is resolved in both, and `x`
leads into a loop in both. -/
theorem shared_seeders_are_resolved_alike :
    let seeder (name : String) (dependencies : List String) : Seeder :=
      { name, dependencies, run := .done }
    let shared := [seeder "t" ["b", "a"], seeder "a" ["c"], seeder "b" ["c", "c"], seeder "c" [],
      seeder "x" ["a", "y"], seeder "y" ["x"]]
    let first := seeder "u" ["t", "u"] :: shared
    let second := shared.reverse ++ [seeder "v" ["ghost"]]
    let s : Session := {}
    let names := ["c", "b", "a", "t"]
    (first.map Seeder.name).Nodup ∧ (second.map Seeder.name).Nodup ∧
      "t" ∈ first.map Seeder.name ∧ "x" ∈ first.map Seeder.name ∧
      (∀ a, Relation.ReflTransGen (Declares first) "t" a →
        declared? first a = declared? second a) ∧
      (∀ a, Relation.ReflTransGen (Declares first) "x" a →
        declared? first a = declared? second a) ∧
      (∃ order order',
        resolveFor first "t" s = .ok order (s.saying [.orderResolvedFor "t" names]) ∧
        resolveFor second "t" s = .ok order' (s.saying [.orderResolvedFor "t" names]) ∧
        order.map Seeder.name = names ∧ order'.map Seeder.name = names) ∧
      resolveFor first "x" s = .error (.cycle ["x", "y", "x"]) s ∧
      resolveFor second "x" s = .error (.cycle ["x", "y", "x"]) s := by
  intro seeder shared first second s names
  have hd : (first.map Seeder.name).Nodup := by decide
  have hd' : (second.map Seeder.name).Nodup := by decide
  have ht : "t" ∈ first.map Seeder.name := by decide
  have hx : "x" ∈ first.map Seeder.name := by decide
  have hshared : ∀ n ∈ shared.map Seeder.name, declared? first n = declared? second n := by decide
  -- no seeder of the shared ones depends on another
  have hreach : ∀ n ∈ shared.map Seeder.name, ∀ a,
      Relation.ReflTransGen (Declares first) n a → a ∈ shared.map Seeder.name := by
    intro n hn a h
    induction h with
    | refl => exact hn
    | tail _ hstep ih =>
      obtain ⟨y, hy, rfl, hdep⟩ := hstep
      have hclosed : ∀ y ∈ first, y.name ∈ shared.map Seeder.name →
          ∀ d ∈ y.dependencies, d ∈ shared.map Seeder.name := by decide
      exact hclosed y hy ih _ hdep
  have hsame : ∀ n ∈ shared.map Seeder.name, ∀ a,
      Relation.ReflTransGen (Declares first) n a → declared? first a = declared? second a :=
    fun n hn a ha => hshared a (hreach n hn a ha)
  have hgraph : (graphOf first).names = ["u", "t", "a", "b", "c", "x", "y"] := by decide
  have hdeps : (graphOf first).deps "t" = ["b", "a"] ∧ (graphOf first).deps "a" = ["c"] ∧
      (graphOf first).deps "b" = ["c", "c"] ∧ (graphOf first).deps "c" = [] ∧
      (graphOf first).deps "x" = ["a", "y"] ∧ (graphOf first).deps "y" = ["x"] := by decide
  have hfound : orderFor first "t" = .ok names := by
    simp [orderFor, Graph.dependencyClosure, Graph.gather, hgraph, hdeps, names, Except.mapError]
  have hrefused : orderFor first "x" = .error (.cycle ["x", "y", "x"]) := by
    simp [orderFor, Graph.dependencyClosure, Graph.gather, hgraph, hdeps, Except.mapError,
      Failure.ofGraph]
  have htsame := hsame "t" (by decide)
  have hxsame := hsame "x" (by decide)
  refine ⟨hd, hd', ht, hx, htsame, hxsame, ?_, ?_⟩
  · obtain ⟨_, hnames, hresolved⟩ := resolveFor_found hd ht hfound s
    rcases one_seeder_is_resolved_by_what_it_leads_to hd hd' ht htsame s with
      ⟨names', order, order', hrun, hrun', horder, horder'⟩ | ⟨f, hrun, _⟩
    · obtain ⟨rfl, _⟩ := EStateM.Result.ok.inj (hresolved.symm.trans hrun)
      obtain rfl : names = names' := hnames.symm.trans horder
      exact ⟨_, order', hrun, hrun', horder, horder'⟩
    · rw [hresolved] at hrun
      cases hrun
  · have hresolved := resolveFor_refused hd hx hrefused s
    rcases one_seeder_is_resolved_by_what_it_leads_to hd hd' hx hxsame s with
      ⟨_, _, _, hrun, _⟩ | ⟨f, hrun, hrun'⟩
    · rw [hresolved] at hrun
      cases hrun
    · obtain ⟨rfl, _⟩ := EStateM.Result.error.inj (hresolved.symm.trans hrun)
      exact ⟨hrun, hrun'⟩

end Seeding
end SchemaLedger
