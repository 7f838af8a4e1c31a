-- Graphs within graphs. A part of a graph that holds whatever its nodes depend on is put in
-- order by itself as it is within the whole: other nodes, wherever they are given, come
-- between its nodes and never reorder them.
import SchemaLedger.Proofs.ReleaseOrder

namespace SchemaLedger.Graph

variable {g : Graph} {keep : String → Bool} {n a b u v : String} {ds es order : List String}

/-! ## A part of a graph -/

/-- The nodes of a graph that are kept, in its order and with their dependencies. -/
def restrict (g : Graph) (keep : String → Bool) : Graph :=
  ⟨g.nodes.filter fun node => keep node.1, g.distinct.sublist (List.filter_sublist.map Prod.fst)⟩

/-- Whatever is kept, so is all that it depends on. -/
def HoldsDependencies (g : Graph) (keep : String → Bool) : Prop :=
  ∀ a b, g.DependsOn a b → keep a = true → keep b = true

theorem names_restrict (g : Graph) (keep : String → Bool) :
    (g.restrict keep).names = g.names.filter keep := by
  unfold names restrict
  rw [List.filter_map]
  rfl

theorem deps_restrict (hn : keep n = true) : (g.restrict keep).deps n = g.deps n := by
  by_cases hin : n ∈ g.names
  · refine deps_of_mem (List.mem_filter.mpr ⟨?_, hn⟩)
    exact mem_nodes_iff.mpr ⟨hin, rfl⟩
  · have hout : n ∉ (g.restrict keep).names := by
      rw [names_restrict]
      exact fun h => hin (List.mem_filter.mp h).1
    have hnone : ∀ h : Graph, n ∉ h.names → h.deps n = [] := fun h hnot =>
      List.eq_nil_iff_forall_not_mem.mpr fun d hd => hnot (DependsOn.mem_names hd)
    rw [hnone _ hout, hnone _ hin]

theorem closed_restrict (hc : g.Closed) (hk : g.HoldsDependencies keep) : (g.restrict keep).Closed := by
  intro a b hab
  have ha := hab.mem_names
  rw [names_restrict] at ha ⊢
  have hkept := (List.mem_filter.mp ha).2
  unfold DependsOn at hab
  rw [deps_restrict hkept] at hab
  exact List.mem_filter.mpr ⟨hc a b hab, hk a b hab hkept⟩

/-! ## A part of an order -/

/-- Leaving names out does not change which of two others stands first. -/
theorem filter_idxOf_lt_iff (order : List String) (ha : keep a = true) (hb : keep b = true) :
    (order.filter keep).idxOf a < (order.filter keep).idxOf b ↔
      order.idxOf a < order.idxOf b := by
  induction order with
  | nil => simp
  | cons c rest ih =>
    by_cases hca : c = a
    · subst hca
      by_cases hcb : c = b
      · simp [hcb]
      · simp [ha, hcb, List.idxOf_cons_ne]
    · by_cases hcb : c = b
      · subst hcb
        simp [hb]
      · by_cases hc : keep c = true
        · simpa [hc, hca, hcb, List.idxOf_cons_ne] using ih
        · simpa [hc, hca, hcb, List.idxOf_cons_ne] using ih

theorem releasedAfter_filter_lt_iff (order : List String) (hds : ∀ d ∈ ds, keep d = true)
    (hes : ∀ e ∈ es, keep e = true) :
    releasedAfter (order.filter keep) ds < releasedAfter (order.filter keep) es ↔
      releasedAfter order ds < releasedAfter order es := by
  rw [releasedAfter_lt_iff, releasedAfter_lt_iff]
  constructor
  · rintro ⟨e, he, hall⟩
    exact ⟨e, he, fun d hd => (filter_idxOf_lt_iff order (hds d hd) (hes e he)).mp (hall d hd)⟩
  · rintro ⟨e, he, hall⟩
    exact ⟨e, he, fun d hd => (filter_idxOf_lt_iff order (hds d hd) (hes e he)).mpr (hall d hd)⟩

/-- Of two kept nodes the same one is sooner in the part as in the whole. -/
theorem Sooner.restrict (hk : g.HoldsDependencies keep) (hu : keep u = true) (hv : keep v = true)
    (h : g.Sooner order u v) : (g.restrict keep).Sooner (order.filter keep) u v := by
  have hdu : ∀ d ∈ g.deps u, keep d = true := fun d hd => hk u d hd hu
  have hdv : ∀ d ∈ g.deps v, keep d = true := fun d hd => hk v d hd hv
  have hless := releasedAfter_filter_lt_iff order hdu hdv
  have hmore := releasedAfter_filter_lt_iff order hdv hdu
  have hgiven := filter_idxOf_lt_iff g.names hu hv
  unfold Sooner at h ⊢
  rw [deps_restrict hu, deps_restrict hv, names_restrict]
  omega

/-- The kept names of an order come after those that they depend on. -/
theorem DependenciesFirst.restrict (hk : g.HoldsDependencies keep) (h : g.DependenciesFirst order) :
    (g.restrict keep).DependenciesFirst (order.filter keep) := by
  intro before n after he d hd
  obtain ⟨first, last, hcut, rfl, hlast⟩ := List.filter_eq_append_iff.mp he
  obtain ⟨between, _, rfl, hdropped, hn, _⟩ := List.filter_eq_cons_iff.mp hlast
  rw [deps_restrict hn] at hd
  have hkept : keep d = true := hk n d hd hn
  rw [← List.append_assoc] at hcut
  rcases List.mem_append.mp (h _ n _ hcut d hd) with hin | hin
  · exact List.mem_filter.mpr ⟨hin, hkept⟩
  · exact absurd hkept (hdropped d hin)

theorem InTurn.restrict (hk : g.HoldsDependencies keep) (h : g.InTurn order) :
    (g.restrict keep).InTurn (order.filter keep) := by
  refine ⟨?_, h.sorted.restrict hk, ?_⟩
  · rw [names_restrict]
    exact h.perm.filter keep
  · refine (h.turns.filter keep).imp_of_mem fun {u v} hu hv huv => ?_
    exact huv.restrict hk (List.mem_filter.mp hu).2 (List.mem_filter.mp hv).2

/-- In a graph without cycles whose dependencies are all nodes, a part that holds whatever its
nodes depend on has the order that its nodes have within the order of the whole. -/
theorem other_nodes_reorder_nothing (hc : g.Closed) (hfree : g.Acyclic)
    (hk : g.HoldsDependencies keep) :
    ∃ order, g.topologicalOrder = .ok order ∧
      (g.restrict keep).topologicalOrder = .ok (order.filter keep) := by
  obtain ⟨order, hok, hturn⟩ := exists_inTurn hc hfree
  exact ⟨order, hok, (topologicalOrder_eq_ok_iff (closed_restrict hc hk)).mpr (hturn.restrict hk)⟩

/-- Nodes that are given before, between and behind four others, wait for them or release
nothing that they wait for, leave the order of the four as it is without them. -/
theorem nodes_given_between_others_reorder_nothing :
    let g := Graph.ofList [("x", ["a"]), ("d", ["c", "b"]), ("b", ["a"]), ("y", ["b"]),
      ("z", []), ("a", []), ("c", ["a", "a"])]
    let keep := fun n : String => decide (n ∈ ["a", "b", "c", "d"])
    g.Closed ∧ g.Acyclic ∧ g.HoldsDependencies keep ∧
      g.topologicalOrder = .ok ["z", "a", "x", "b", "c", "y", "d"] ∧
      (g.restrict keep).topologicalOrder = .ok ["a", "b", "c", "d"] := by
  intro g keep
  have hc : g.Closed := dangling?_eq_none.mp (by decide)
  have hok : g.topologicalOrder = .ok ["z", "a", "x", "b", "c", "y", "d"] := by decide +kernel
  have hfree : g.Acyclic := ((topologicalOrder_eq_ok_iff hc).mp hok).acyclic
  have hk : g.HoldsDependencies keep := by
    have hall : ∀ n ∈ ["a", "b", "c", "d"], ∀ d ∈ g.deps n, keep d = true := by decide
    intro a b hab ha
    exact hall a (of_decide_eq_true ha) b hab
  obtain ⟨order, horder, hpart⟩ := other_nodes_reorder_nothing hc hfree hk
  obtain rfl : ["z", "a", "x", "b", "c", "y", "d"] = order := by simpa [hok] using horder
  exact ⟨hc, hfree, hk, hok, hpart⟩

end SchemaLedger.Graph
