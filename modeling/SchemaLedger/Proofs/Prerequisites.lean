-- What the gathering of prerequisites comes to, and how it agrees with the order of the whole
-- graph. A gathering that succeeds puts every name after its own dependencies; where all
-- dependencies are nodes it fails just for a cycle, and just from the nodes that the order
-- of the whole graph leaves.
import Mathlib.Tactic.TFAE
import SchemaLedger.Proofs.ReportedCycles

namespace SchemaLedger.Graph

variable {g : Graph} {target node dep n : String}
  {deps rest done below all path names order stuck : List String}

/-! ## A gathering that succeeds -/

/-- Gathering `deps` has made `all` of the names `done`: those stay in front, the others are
needed for `deps`, and what was in order stays so. -/
structure Gathered (g : Graph) (done deps all : List String) : Prop where
  keeps : done <+: all
  holds : ∀ d ∈ deps, d ∈ all
  sorted : g.DependenciesFirst done → g.DependenciesFirst all
  needed : ∀ n ∈ all, n ∈ done ∨ ∃ d ∈ deps, g.Reaches d n

theorem Gathered.none (g : Graph) (done : List String) : g.Gathered done [] done :=
  ⟨List.prefix_refl _, by simp, id, fun _ hn => .inl hn⟩

/-- A dependency that is done needs nothing more. -/
theorem Gathered.pass (hdep : dep ∈ done) (h : g.Gathered done rest all) :
    g.Gathered done (dep :: rest) all := by
  refine ⟨h.keeps, ?_, h.sorted, ?_⟩
  · intro d hd
    rcases List.mem_cons.mp hd with rfl | hd
    · exact h.keeps.subset hdep
    · exact h.holds d hd
  · intro n hn
    rcases h.needed n hn with hn | ⟨d, hd, hr⟩
    · exact .inl hn
    · exact .inr ⟨d, List.mem_cons_of_mem _ hd, hr⟩

/-- A dependency is done once everything below it is. -/
theorem Gathered.visit (hbelow : g.Gathered done (g.deps dep) below)
    (h : g.Gathered (below ++ [dep]) rest all) : g.Gathered done (dep :: rest) all := by
  have hdep : dep ∈ all := h.keeps.subset (by simp)
  refine ⟨(hbelow.keeps.trans (List.prefix_append below [dep])).trans h.keeps, ?_, ?_, ?_⟩
  · intro d hd
    rcases List.mem_cons.mp hd with rfl | hd
    · exact hdep
    · exact h.holds d hd
  · intro hdone
    exact h.sorted ((hbelow.sorted hdone).snoc hbelow.holds)
  · intro n hn
    rcases h.needed n hn with hn | ⟨d, hd, hr⟩
    · rcases List.mem_append.mp hn with hn | hn
      · rcases hbelow.needed n hn with hn | ⟨d, hd, hr⟩
        · exact .inl hn
        · exact .inr ⟨dep, List.mem_cons_self, .step hd hr⟩
      · obtain rfl := List.mem_singleton.mp hn
        exact .inr ⟨n, List.mem_cons_self, .here n⟩
    · exact .inr ⟨d, List.mem_cons_of_mem _ hd, hr⟩

theorem gathered_of_gather (h : g.gather path done node deps = .ok all) :
    g.Gathered done deps all := by
  fun_induction gather g path done node deps generalizing all with
  | case1 path done node =>
    obtain rfl : done = all := Except.ok.inj h
    exact .none g done
  | case2 => cases h
  | case3 path done node dep rest _ _ hdone ih => exact (ih h).pass hdone
  | case4 => cases h
  | case5 path done node dep rest _ _ _ below hbelow ihbelow ih =>
    exact (ihbelow hbelow).visit (ih h)
  | case6 => cases h

/-- What the prerequisites of a target come to: the target is no node, or they are what is
gathered below it. -/
theorem dependencyClosure_cases (g : Graph) (target : String) :
    (target ∉ g.names ∧ g.dependencyClosure target = .error (.notANode target)) ∨
      target ∈ g.names ∧
        ((∃ e, g.gather [target] [] target (g.deps target) = .error e ∧
            g.dependencyClosure target = .error e) ∨
          ∃ below, g.gather [target] [] target (g.deps target) = .ok below ∧
            g.dependencyClosure target = .ok (below ++ [target])) := by
  unfold dependencyClosure
  by_cases ht : target ∈ g.names
  · rw [if_pos ht]
    rcases hg : g.gather [target] [] target (g.deps target) with e | below
    · exact .inr ⟨ht, .inl ⟨e, rfl, rfl⟩⟩
    · exact .inr ⟨ht, .inr ⟨below, rfl, rfl⟩⟩
  · rw [if_neg ht]
    exact .inl ⟨ht, rfl⟩

/-- The prerequisites of a target and the target itself, each after its own dependencies. -/
theorem dependencyClosure_ok (h : g.dependencyClosure target = .ok names) :
    g.DependenciesFirst names ∧ target ∈ names ∧ ∀ n ∈ names, g.Reaches target n := by
  rcases g.dependencyClosure_cases target with
    ⟨_, herr⟩ | ⟨_, ⟨e, _, herr⟩ | ⟨below, hbelow, hok⟩⟩
  · simp [h] at herr
  · simp [h] at herr
  · obtain rfl : names = below ++ [target] := by simpa [h] using hok
    have hall := gathered_of_gather hbelow
    refine ⟨(hall.sorted (dependenciesFirst_nil g)).snoc hall.holds, by simp, ?_⟩
    intro n hn
    rcases List.mem_append.mp hn with hn | hn
    · obtain ⟨d, hd, hr⟩ := (hall.needed n hn).resolve_left List.not_mem_nil
      exact .step hd hr
    · obtain rfl := List.mem_singleton.mp hn
      exact .here n

/-! ## A gathering that fails -/

/-- A gathering fails for a cycle, or for a dependency that is no node of a name that it came to. -/
theorem gather_error {e : Fault} (hdeps : ∀ d ∈ deps, g.DependsOn node d)
    (h : g.gather path done node deps = .error e) :
    (∃ walk, e = .cycle walk) ∨
      ∃ a d, e = .dangling a d ∧ g.Reaches node a ∧ g.DependsOn a d ∧ d ∉ g.names := by
  fun_induction gather g path done node deps with
  | case1 => cases h
  | case2 => exact .inl ⟨_, (Except.error.inj h).symm⟩
  | case3 path done node dep rest _ _ _ ih =>
    exact ih (fun d hd => hdeps d (List.mem_cons_of_mem _ hd)) h
  | case4 path done node dep rest _ _ _ e' hbelow ih =>
    obtain rfl : e' = e := Except.error.inj h
    rcases ih (fun d hd => hd) hbelow with hcycle | ⟨a, d, he, hr, hd, hnot⟩
    · exact .inl hcycle
    · exact .inr ⟨a, d, he, .step (hdeps dep List.mem_cons_self) hr, hd, hnot⟩
  | case5 path done node dep rest _ _ _ _ _ _ ih =>
    exact ih (fun d hd => hdeps d (List.mem_cons_of_mem _ hd)) h
  | case6 path done node dep rest hnot =>
    exact .inr
      ⟨node, dep, (Except.error.inj h).symm, .here node, hdeps dep List.mem_cons_self, hnot⟩

/-- Where every dependency is a node, the prerequisites of a node are found unless there is
a cycle in the way. -/
theorem dependencyClosure_of_closed (hc : g.Closed) (ht : target ∈ g.names) :
    (∃ names, g.dependencyClosure target = .ok names) ∨
      ∃ walk, g.dependencyClosure target = .error (.cycle walk) := by
  rcases g.dependencyClosure_cases target with
    ⟨hnot, _⟩ | ⟨_, ⟨e, hg, herr⟩ | ⟨below, _, hok⟩⟩
  · exact absurd ht hnot
  · rcases gather_error (fun d hd => hd) hg with ⟨walk, rfl⟩ | ⟨a, d, _, _, hd, hnot⟩
    · exact .inr ⟨walk, herr⟩
    · exact absurd (hc a d hd) hnot
  · exact .inl ⟨_, hok⟩

/-- A cycle in the way is one that the target leads into. -/
theorem reachesCycle_of_dependencyClosure {walk : List String}
    (h : g.dependencyClosure target = .error (.cycle walk)) : g.ReachesCycle target := by
  rcases g.dependencyClosure_cases target with
    ⟨_, herr⟩ | ⟨ht, ⟨e, hg, herr⟩ | ⟨below, _, hok⟩⟩
  · simp [h] at herr
  · obtain rfl : .cycle walk = e := by simpa [h] using herr
    obtain ⟨hcycle, hreached⟩ := gather_cycle (.start ht) (fun d hd => hd) hg
    obtain ⟨a, ha, b, hab, hba⟩ := hcycle.loops
    exact ⟨a, b, hreached a ha, hab, hba⟩
  · simp [h] at hok

/-! ## Cycles and the order of the whole graph -/

/-- From a name of an order no cycle is reached. -/
theorem DependenciesFirst.not_reachesCycle (h : g.DependenciesFirst order) (hn : n ∈ order) :
    ¬ g.ReachesCycle n := by
  rintro ⟨a, b, hna, hab, hba⟩
  have ha : a ∈ order := h.reaches (List.append_nil order).symm hn hna
  exact h.no_way_back ha hab hba

/-- What is reached from a name of an order stands in the order, and no later than that name. -/
theorem DependenciesFirst.not_later {a b : String} (h : g.DependenciesFirst order)
    (ha : a ∈ order) (hr : g.Reaches a b) : b ∈ order ∧ order.idxOf b ≤ order.idxOf a := by
  obtain ⟨before, after, rfl, hfirst⟩ := List.eq_append_cons_of_mem ha
  have ho : before ++ a :: after = (before ++ [a]) ++ after := List.append_cons before a after
  have hb : b ∈ before ++ [a] := h.reaches ho (by simp) hr
  have ha' : (before ++ a :: after).idxOf a = before.length := by
    rw [List.idxOf_append_of_notMem hfirst, List.idxOf_cons_self, Nat.add_zero]
  have hb' : (before ++ a :: after).idxOf b < (before ++ [a]).length := by
    rw [List.append_cons, List.idxOf_append_of_mem hb]
    exact List.idxOf_lt_length_of_mem hb
  refine ⟨?_, ?_⟩
  · rw [List.append_cons]
    exact List.mem_append_left _ hb
  · rw [ha']
    simp only [List.length_append, List.length_singleton] at hb'
    omega

/-- What is in some order of its own is not stuck: of the names in that order, the first
stuck one would have a stuck dependency before it. -/
theorem Placed.not_stuck (h : g.Placed order stuck) (hc : g.Closed)
    (hs : g.DependenciesFirst names) : ∀ n ∈ names, n ∉ stuck := by
  induction names using List.reverseRecOn with
  | nil => simp
  | append_singleton before a ih =>
    intro n hn hstuck
    rcases List.mem_append.mp hn with hn | hn
    · exact ih hs.of_append n hn hstuck
    · obtain rfl := List.mem_singleton.mp hn
      obtain ⟨d, hd, hdep⟩ := h.stuck_dep hc hstuck
      exact ih hs.of_append d (hs before n [] rfl d hd) hdep

/-- The nodes that the order of the whole graph leaves are those that lead into a cycle, and
those whose prerequisites a cycle stands in the way of. -/
theorem Placed.stuck_tfae (h : g.Placed order stuck) (hc : g.Closed) (ht : target ∈ g.names) :
    [target ∈ stuck, ∃ walk, g.dependencyClosure target = .error (.cycle walk),
      g.ReachesCycle target].TFAE := by
  tfae_have 1 → 2 := by
    intro hstuck
    refine (dependencyClosure_of_closed hc ht).resolve_left ?_
    rintro ⟨names, hok⟩
    obtain ⟨hs, hmem, _⟩ := dependencyClosure_ok hok
    exact h.not_stuck hc hs target hmem hstuck
  tfae_have 2 → 3 := by
    rintro ⟨walk, hcycle⟩
    exact reachesCycle_of_dependencyClosure hcycle
  tfae_have 3 → 1 := by
    intro hr
    refine (h.mem_names.mp ht).resolve_left fun hin => ?_
    exact h.sorted.not_reachesCycle hin hr
  tfae_finish

/-! ## Two orders, one answer -/

theorem topologicalOrder_eq (hc : g.Closed) :
    g.topologicalOrder =
      if g.placement.2 = [] then .ok g.placement.1
      else .error (.cycle (g.loopAmong g.placement.2)) := by
  unfold topologicalOrder
  rw [dangling?_eq_none.mpr hc]
  rcases g.placement with ⟨order, _ | ⟨n, rest⟩⟩ <;> rfl

/-- Where every dependency is a node, a cycle stands in the way of a node's prerequisites just
when the order of the whole graph leaves that node. So the whole graph has an order just when
every node's prerequisites have one, and they stand in it no later than the node. -/
theorem a_cycle_is_met_just_from_the_nodes_left (hc : g.Closed) :
    (∀ t ∈ g.names, (∃ walk, g.dependencyClosure t = .error (.cycle walk)) ↔ t ∈ g.placement.2) ∧
      ((∃ walk, g.topologicalOrder = .error (.cycle walk)) ↔
        ∃ t ∈ g.names, ∃ walk, g.dependencyClosure t = .error (.cycle walk)) ∧
      ∀ order, g.topologicalOrder = .ok order → ∀ t ∈ g.names,
        ∃ names, g.dependencyClosure t = .ok names ∧
          ∀ n ∈ names, n ∈ order ∧ order.idxOf n ≤ order.idxOf t := by
  have hplaced := g.placement_placed
  have hleft : ∀ t ∈ g.names,
      (∃ walk, g.dependencyClosure t = .error (.cycle walk)) ↔ t ∈ g.placement.2 := fun t ht =>
    (hplaced.stuck_tfae hc ht).out 1 0
  rw [topologicalOrder_eq hc]
  refine ⟨hleft, ?_, ?_⟩
  · constructor
    · rintro ⟨walk, h⟩
      have hne : g.placement.2 ≠ [] := by
        intro he
        rw [if_pos he] at h
        cases h
      obtain ⟨t, ht⟩ := List.exists_mem_of_ne_nil _ hne
      have hnode : t ∈ g.names := hplaced.mem_names.mpr (.inr ht)
      exact ⟨t, hnode, (hleft t hnode).mpr ht⟩
    · rintro ⟨t, hnode, hcycle⟩
      have hne : g.placement.2 ≠ [] := List.ne_nil_of_mem ((hleft t hnode).mp hcycle)
      exact ⟨_, if_neg hne⟩
  · intro order h t ht
    split at h
    · rename_i hnone
      obtain rfl : g.placement.1 = order := Except.ok.inj h
      have hall : t ∈ g.placement.1 := by
        refine (hplaced.mem_names.mp ht).resolve_right ?_
        rw [hnone]
        exact List.not_mem_nil
      have hfree : ¬ ∃ walk, g.dependencyClosure t = .error (.cycle walk) := by
        rw [hleft t ht, hnone]
        exact List.not_mem_nil
      obtain ⟨names, hok⟩ := (dependencyClosure_of_closed hc ht).resolve_right hfree
      obtain ⟨_, _, hreached⟩ := dependencyClosure_ok hok
      exact ⟨names, hok, fun n hn => hplaced.sorted.not_later hall (hreached n hn)⟩
    · cases h

/-- Of a node that leads into a loop from outside, and of one beside the loop that lists a
dependency twice, the first is left and finds a cycle in its way. Without the loop both are
in order, and what the first one needs stands no later than it. -/
theorem a_node_in_front_of_a_loop_is_left :
    let g := Graph.ofList
      [("a", ["d", "b"]), ("b", ["c"]), ("c", ["b"]), ("d", []), ("e", ["d", "d"])]
    let tree := Graph.ofList [("a", ["d", "b"]), ("b", ["d"]), ("d", []), ("e", ["d", "d"])]
    g.Closed ∧ "a" ∈ g.placement.2 ∧ "e" ∉ g.placement.2 ∧
      (∃ walk, g.dependencyClosure "a" = .error (.cycle walk)) ∧
      (¬ ∃ walk, g.dependencyClosure "e" = .error (.cycle walk)) ∧
      tree.Closed ∧ tree.topologicalOrder = .ok ["d", "b", "e", "a"] ∧
      ∃ names, tree.dependencyClosure "a" = .ok names ∧ ∀ n ∈ names,
        n ∈ ["d", "b", "e", "a"] ∧
          ["d", "b", "e", "a"].idxOf n ≤ ["d", "b", "e", "a"].idxOf "a" := by
  intro g tree
  have hg : g.Closed := dangling?_eq_none.mp (by decide)
  have htree : tree.Closed := dangling?_eq_none.mp (by decide)
  have hplacement : g.placement = (["d", "e"], ["a", "b", "c"]) := by decide +kernel
  have horder : tree.topologicalOrder = .ok ["d", "b", "e", "a"] := by decide +kernel
  have ha : "a" ∈ g.placement.2 := by simp [hplacement]
  have he : "e" ∉ g.placement.2 := by simp [hplacement]
  have hleft := (a_cycle_is_met_just_from_the_nodes_left hg).1
  exact ⟨hg, ha, he, (hleft "a" (by decide)).mpr ha, mt (hleft "e" (by decide)).mp he, htree,
    horder, (a_cycle_is_met_just_from_the_nodes_left htree).2.2 _ horder "a" (by decide)⟩

end SchemaLedger.Graph
