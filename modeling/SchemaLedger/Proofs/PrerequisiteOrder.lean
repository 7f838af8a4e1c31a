-- The law of the prerequisites of one node. They are found just when the node and all that it
-- reaches are nodes and it leads into no cycle, whatever else is in the graph. Each of them
-- stands once, after its own dependencies, and the node itself stands last.
import SchemaLedger.Proofs.Prerequisites

namespace SchemaLedger.Graph

variable {g : Graph} {target node dep n : String}
  {deps done below all path names order : List String}

/-! ## Each name once -/

/-- Names of nodes, each once and after its own dependencies. -/
structure Arranged (g : Graph) (order : List String) : Prop where
  sorted : g.DependenciesFirst order
  distinct : order.Nodup
  nodes : ∀ n ∈ order, n ∈ g.names

theorem Arranged.nil (g : Graph) : g.Arranged [] :=
  ⟨dependenciesFirst_nil g, List.nodup_nil, by simp⟩

theorem Arranged.snoc (h : g.Arranged order) (hn : n ∈ g.names) (hnew : n ∉ order)
    (hdeps : ∀ d ∈ g.deps n, d ∈ order) : g.Arranged (order ++ [n]) := by
  refine ⟨h.sorted.snoc hdeps, nodup_snoc h.distinct hnew, ?_⟩
  intro a ha
  rcases List.mem_append.mp ha with ha | ha
  · exact h.nodes a ha
  · rw [List.mem_singleton.mp ha]
    exact hn

/-- What is gathered below a name does not hold the name itself: in order, no way leads back
to it. -/
theorem Gathered.not_mem (h : g.Gathered done (g.deps dep) below)
    (hdone : g.DependenciesFirst done) (hnew : dep ∉ done) : dep ∉ below := by
  intro hin
  rcases h.needed dep hin with hold | ⟨d, hd, hback⟩
  · exact hnew hold
  · exact (h.sorted hdone).no_way_back hin hd hback

theorem arranged_of_gather (h : g.gather path done node deps = .ok all)
    (hdone : g.Arranged done) : g.Arranged all := by
  fun_induction gather g path done node deps generalizing all with
  | case1 path done node =>
    obtain rfl : done = all := Except.ok.inj h
    exact hdone
  | case2 => cases h
  | case3 path done node dep rest _ _ _ ih => exact ih h hdone
  | case4 => cases h
  | case5 path done node dep rest hdep _ hnew below hbelow ihbelow ih =>
    have hgathered := gathered_of_gather hbelow
    have harranged := ihbelow hbelow hdone
    exact ih h (harranged.snoc hdep (hgathered.not_mem hdone.sorted hnew) hgathered.holds)
  | case6 => cases h

/-! ## What is asked of one node -/

/-- The prerequisites of a target are gathered below it, and it stands behind them. -/
theorem dependencyClosure_eq_ok (h : g.dependencyClosure target = .ok names) :
    ∃ below, g.gather [target] [] target (g.deps target) = .ok below ∧
      names = below ++ [target] ∧ g.Arranged below ∧ g.Arranged names := by
  rcases g.dependencyClosure_cases target with
    ⟨_, herr⟩ | ⟨_, ⟨e, _, herr⟩ | ⟨below, hbelow, hok⟩⟩
  · simp [h] at herr
  · simp [h] at herr
  · obtain rfl : names = below ++ [target] := by simpa [h] using hok
    have harranged := arranged_of_gather hbelow (.nil g)
    have hgathered := gathered_of_gather hbelow
    refine ⟨below, hbelow, rfl, harranged, harranged.snoc ‹_› ?_ hgathered.holds⟩
    exact hgathered.not_mem (dependenciesFirst_nil g) List.not_mem_nil

/-- A name that the prerequisites are refused for is listed by a node that the target reaches. -/
theorem dependencyClosure_dangling {a d : String}
    (h : g.dependencyClosure target = .error (.dangling a d)) :
    g.Reaches target a ∧ g.DependsOn a d ∧ d ∉ g.names := by
  rcases g.dependencyClosure_cases target with
    ⟨_, herr⟩ | ⟨_, ⟨e, hg, herr⟩ | ⟨below, _, hok⟩⟩
  · simp [h] at herr
  · obtain rfl : .dangling a d = e := by simpa [h] using herr
    rcases gather_error (fun d hd => hd) hg with ⟨walk, hcycle⟩ | ⟨a', d', he, hfound⟩
    · simp at hcycle
    · obtain ⟨rfl, rfl⟩ := Fault.dangling.inj he
      exact hfound
  · simp [h] at hok

/-- The prerequisites of a target are found just when it reaches nodes only, and no cycle. -/
theorem dependencyClosure_isOk_iff : (∃ names, g.dependencyClosure target = .ok names) ↔
    (∀ n, g.Reaches target n → n ∈ g.names) ∧ ¬ g.ReachesCycle target := by
  constructor
  · rintro ⟨names, h⟩
    obtain ⟨_, _, _, _, harranged⟩ := dependencyClosure_eq_ok h
    obtain ⟨hs, ht, _⟩ := dependencyClosure_ok h
    refine ⟨fun n hr => harranged.nodes n ?_, hs.not_reachesCycle ht⟩
    exact (hs.not_later ht hr).1
  · rintro ⟨hnodes, hfree⟩
    rcases g.dependencyClosure_cases target with
      ⟨hnot, _⟩ | ⟨_, ⟨e, hg, herr⟩ | ⟨below, _, hok⟩⟩
    · exact absurd (hnodes target (.here target)) hnot
    · rcases gather_error (fun d hd => hd) hg with ⟨walk, rfl⟩ | ⟨a, d, rfl, _⟩
      · exact absurd (reachesCycle_of_dependencyClosure herr) hfree
      · obtain ⟨hr, hd, hnot⟩ := dependencyClosure_dangling herr
        exact absurd (hnodes d (hr.trans hd.reaches)) hnot
    · exact ⟨_, hok⟩

/-- The prerequisites of a target are found just when it is a node that reaches nodes only and
no cycle. They are all that it reaches, each once and after its own dependencies, and the
target is the last. What they are refused for, other than a cycle, is a name that a node on
the way lists and that is no node. -/
theorem the_prerequisites_of_a_node_are_all_it_reaches (g : Graph) (target : String) :
    ((∃ names, g.dependencyClosure target = .ok names) ↔
        target ∈ g.names ∧ (∀ n, g.Reaches target n → n ∈ g.names) ∧
          ¬ g.ReachesCycle target) ∧
      (∀ names, g.dependencyClosure target = .ok names →
        names.Nodup ∧ (∀ n, n ∈ names ↔ g.Reaches target n) ∧ g.DependenciesFirst names ∧
          names.getLast? = some target) ∧
      ∀ a d, g.dependencyClosure target = .error (.dangling a d) →
        g.Reaches target a ∧ a ∈ g.names ∧ g.DependsOn a d ∧ d ∉ g.names := by
  refine ⟨?_, ?_, ?_⟩
  · rw [dependencyClosure_isOk_iff]
    exact ⟨fun h => ⟨h.1 target (.here target), h⟩, fun h => h.2⟩
  · intro names h
    obtain ⟨below, _, hlast, _, harranged⟩ := dependencyClosure_eq_ok h
    obtain ⟨hs, ht, hreached⟩ := dependencyClosure_ok h
    refine ⟨harranged.distinct, fun n => ⟨hreached n, ?_⟩, hs, by simp [hlast]⟩
    exact fun hr => (hs.not_later ht hr).1
  · intro a d h
    obtain ⟨hr, hd, hnot⟩ := dependencyClosure_dangling h
    exact ⟨hr, hd.mem_names, hd, hnot⟩

/-- Two ways lead to one prerequisite, which is listed twice by one of them; neither a loop nor
an unknown name beside them matters. From the unknown name's dependent nothing is found. -/
theorem a_node_beside_a_loop_and_a_gap_has_its_prerequisites :
    let g := Graph.ofList [("t", ["b", "a"]), ("a", ["c"]), ("b", ["c", "c"]), ("c", []),
      ("x", ["t", "y"]), ("y", ["a", "ghost"]), ("z", ["t", "z"])]
    let names := ["c", "b", "a", "t"]
    g.dependencyClosure "t" = .ok names ∧ ¬ g.ReachesCycle "t" ∧ names.Nodup ∧
      (∀ n, n ∈ names ↔ g.Reaches "t" n) ∧ g.DependenciesFirst names ∧
      g.dependencyClosure "x" = .error (.dangling "y" "ghost") ∧
      g.Reaches "x" "y" ∧ g.DependsOn "y" "ghost" := by
  intro g names
  have hnames : g.names = ["t", "a", "b", "c", "x", "y", "z"] := by decide
  have hdeps : g.deps "t" = ["b", "a"] ∧ g.deps "a" = ["c"] ∧ g.deps "b" = ["c", "c"] ∧
      g.deps "c" = [] ∧ g.deps "x" = ["t", "y"] ∧ g.deps "y" = ["a", "ghost"] := by decide
  have hok : g.dependencyClosure "t" = .ok names := by
    simp [dependencyClosure, gather, hnames, hdeps, names]
  have herr : g.dependencyClosure "x" = .error (.dangling "y" "ghost") := by
    simp [dependencyClosure, gather, hnames, hdeps]
  obtain ⟨hfound, hall, _⟩ := the_prerequisites_of_a_node_are_all_it_reaches g "t"
  obtain ⟨_, _, hrefused⟩ := the_prerequisites_of_a_node_are_all_it_reaches g "x"
  obtain ⟨hdistinct, hreached, hsorted, _⟩ := hall names hok
  obtain ⟨hway, _, hlists, _⟩ := hrefused "y" "ghost" herr
  exact ⟨hok, (hfound.mp ⟨names, hok⟩).2.2, hdistinct, hreached, hsorted, herr, hway, hlists⟩

end SchemaLedger.Graph
