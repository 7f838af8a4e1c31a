-- How deep a node stands. Its depth is the length of the longest chain of dependencies below
-- it. The order that is found puts the nodes without dependencies first and every other one in
-- turn with its latest dependency, and so no node stands before a shallower one.
import Mathlib.Order.Lattice.Nat
import SchemaLedger.Proofs.ReleaseOrder

namespace SchemaLedger.Graph

variable {g : Graph} {n d e u v : String} {ds placed ready order : List String}
  {waiting : Waiting} {k : Nat}

/-! ## Chains below a node -/

/-- A chain of `k` dependencies, each of the one before, goes down from `n`. -/
def HasChain (g : Graph) (n : String) (k : Nat) : Prop :=
  ∃ below, g.IsWalk (n :: below) ∧ below.length = k

/-- How many dependencies the longest chain below a node has. -/
noncomputable def depth (g : Graph) (n : String) : Nat := sSup {k | g.HasChain n k}

theorem hasChain_zero (g : Graph) (n : String) : g.HasChain n 0 := ⟨[], trivial, rfl⟩

theorem hasChain_succ : g.HasChain n (k + 1) ↔ ∃ d, g.DependsOn n d ∧ g.HasChain d k := by
  constructor
  · rintro ⟨below, hwalk, hlength⟩
    obtain ⟨d, below, rfl⟩ := List.exists_cons_of_length_eq_add_one hlength
    exact ⟨d, hwalk.1, below, hwalk.2, Nat.succ.inj hlength⟩
  · rintro ⟨d, hd, below, hwalk, rfl⟩
    exact ⟨d :: below, ⟨hd, hwalk⟩, rfl⟩

/-- A chain goes down an order from name to name, so it is no longer than the order allows. -/
theorem HasChain.le_idxOf (h : g.InTurn order) (hn : n ∈ order) (hk : g.HasChain n k) :
    k ≤ order.idxOf n := by
  induction k generalizing n with
  | zero => exact Nat.zero_le _
  | succ k ih =>
    obtain ⟨d, hd, hbelow⟩ := hasChain_succ.mp hk
    obtain ⟨hdin, hle⟩ := h.sorted.not_later hn hd.reaches
    have hne : order.idxOf d ≠ order.idxOf n := by
      intro he
      obtain rfl := (List.idxOf_inj hdin).mp he
      exact h.sorted.no_way_back hn hd (.here d)
    have hshort := ih hdin hbelow
    omega

/-- A node of an order has a longest chain. -/
theorem isGreatest_depth (h : g.InTurn order) (hn : n ∈ order) :
    IsGreatest {k | g.HasChain n k} (g.depth n) := by
  have hbound : BddAbove {k | g.HasChain n k} := ⟨order.idxOf n, fun _ hk => hk.le_idxOf h hn⟩
  exact ⟨Nat.sSup_mem ⟨0, hasChain_zero g n⟩ hbound, fun _ hk => le_csSup hbound hk⟩

/-- What comes later in an order has chains as long: a dependency of the one that comes first
is met by a dependency of the other that comes no sooner. -/
theorem InTurn.hasChain (h : g.InTurn order) (hu : u ∈ order) (hv : v ∈ order)
    (huv : order.idxOf u ≤ order.idxOf v) (hk : g.HasChain u k) : g.HasChain v k := by
  induction k generalizing u v with
  | zero => exact hasChain_zero g v
  | succ k ih =>
    obtain ⟨d, hd, hbelow⟩ := hasChain_succ.mp hk
    -- what `u` waits for is placed no later than the last that `v` waits for
    have hmoment : releasedAfter order (g.deps u) ≤ releasedAfter order (g.deps v) := by
      rcases Nat.lt_or_eq_of_le huv with hlt | heq
      · rcases (h.idxOf_lt_iff hu hv).mp hlt with hless | ⟨hsame, _⟩
        · exact hless.le
        · exact hsame.le
      · rw [(List.idxOf_inj hu).mp heq]
    have hdu : order.idxOf d < releasedAfter order (g.deps u) :=
      lt_releasedAfter.mpr ⟨d, hd, le_refl _⟩
    obtain ⟨e, he, hde⟩ := lt_releasedAfter.mp (hdu.trans_le hmoment)
    exact hasChain_succ.mpr ⟨e, he, ih (h.dep_mem hu hd) (h.dep_mem hv he) hde hbelow⟩

theorem InTurn.depth_le (h : g.InTurn order) (hu : u ∈ order) (hv : v ∈ order)
    (huv : order.idxOf u ≤ order.idxOf v) : g.depth u ≤ g.depth v :=
  (isGreatest_depth h hv).2 (h.hasChain hu hv huv (isGreatest_depth h hu).1)

/-! ## The latest dependency -/

/-- Of the names `ds`, `d` is the one that an order places last. -/
def LatestIn (order ds : List String) (d : String) : Prop :=
  d ∈ ds ∧ ∀ x ∈ ds, order.idxOf x ≤ order.idxOf d

theorem exists_latestIn (order : List String) (h : ds ≠ []) : ∃ d, LatestIn order ds d := by
  obtain ⟨x, hx⟩ := List.exists_mem_of_ne_nil ds h
  have hearly : ∀ y ∈ ds, order.idxOf y < releasedAfter order ds := releasedAfter_le.mp (le_refl _)
  have hmoment : releasedAfter order ds - 1 < releasedAfter order ds := by
    have := hearly x hx
    omega
  obtain ⟨d, hd, hlast⟩ := lt_releasedAfter.mp hmoment
  refine ⟨d, hd, fun y hy => ?_⟩
  have := hearly y hy
  omega

theorem LatestIn.unique (hd : LatestIn order ds d) (he : LatestIn order ds e) (hin : d ∈ order) :
    d = e := by
  have hle := he.2 d hd.1
  have hge := hd.2 e he.1
  exact (List.idxOf_inj hin).mp (le_antisymm hle hge)

theorem LatestIn.releasedAfter (h : LatestIn order ds d) :
    releasedAfter order ds = order.idxOf d + 1 := by
  apply le_antisymm
  · exact releasedAfter_le.mpr fun x hx => Nat.lt_succ_of_le (h.2 x hx)
  · exact lt_releasedAfter.mpr ⟨d, h.1, le_refl _⟩

/-- Two nodes with dependencies stand as the latest of these do; where that is one and the
same, they stand as they were given. -/
theorem InTurn.idxOf_lt_iff_latest (h : g.InTurn order) (hd : LatestIn order (g.deps u) d)
    (he : LatestIn order (g.deps v) e) : order.idxOf u < order.idxOf v ↔
      order.idxOf d < order.idxOf e ∨ d = e ∧ g.names.idxOf u < g.names.idxOf v := by
  have hu : u ∈ order := h.perm.mem_iff.mpr (DependsOn.mem_names hd.1)
  have hv : v ∈ order := h.perm.mem_iff.mpr (DependsOn.mem_names he.1)
  rw [h.idxOf_lt_iff hu hv, Sooner, hd.releasedAfter, he.releasedAfter, Nat.succ_lt_succ_iff,
    Nat.succ_inj, List.idxOf_inj (h.dep_mem hu hd.1)]

/-! ## What comes first -/

/-- What is placed and ready stays at the front. -/
theorem prefix_place (placed ready : List String) (waiting : Waiting) :
    placed ++ ready <+: (place placed ready waiting).1 := by
  fun_induction place placed ready waiting with
  | case1 placed waiting => simp
  | case2 placed waiting name ready ih =>
    refine List.IsPrefix.trans ?_ ih
    rw [List.append_cons, ← List.append_assoc]
    exact List.prefix_append _ _

theorem released_nodes (g : Graph) :
    released g.nodes = g.names.filter fun n => (g.deps n).isEmpty := by
  have hsame : g.nodes.filter (·.2.isEmpty) =
      g.nodes.filter ((fun n => (g.deps n).isEmpty) ∘ Prod.fst) := by
    refine List.filter_congr fun node hnode => ?_
    rw [Function.comp_apply, deps_of_mem hnode]
  unfold released names
  rw [List.filter_map, hsame]

/-- The nodes that depend on nothing come first, as they were given. -/
theorem InTurn.roots_prefix (hc : g.Closed) (h : g.InTurn order) :
    g.names.filter (fun n => (g.deps n).isEmpty) <+: order := by
  have hok := (topologicalOrder_eq_ok_iff hc).mpr h
  rw [topologicalOrder_eq hc] at hok
  split at hok
  · obtain rfl : g.placement.1 = order := Except.ok.inj hok
    rw [← released_nodes]
    exact prefix_place [] _ _
  · cases hok

/-! ## The whole order -/

/-- The order of a graph without cycles whose dependencies are all nodes: first the nodes that
depend on nothing, as they were given; of two others first the one whose latest dependency
comes first in the order, and of two with the same latest dependency the one that was given
first. The depth of the nodes never falls along it. -/
theorem nodes_are_placed_as_their_latest_dependencies_are (hc : g.Closed) (hfree : g.Acyclic) :
    ∃ order, g.topologicalOrder = .ok order ∧ order.Perm g.names ∧
      g.names.filter (fun n => (g.deps n).isEmpty) <+: order ∧
      (∀ u v, g.deps u ≠ [] → g.deps v ≠ [] →
        ∃ d e, LatestIn order (g.deps u) d ∧ LatestIn order (g.deps v) e ∧
          (order.idxOf u < order.idxOf v ↔
            order.idxOf d < order.idxOf e ∨ d = e ∧ g.names.idxOf u < g.names.idxOf v)) ∧
      (∀ n ∈ g.names, IsGreatest {k | g.HasChain n k} (g.depth n)) ∧
      order.Pairwise fun u v => g.depth u ≤ g.depth v := by
  obtain ⟨order, hok, hturn⟩ := exists_inTurn hc hfree
  refine ⟨order, hok, hturn.perm, hturn.roots_prefix hc, ?_, ?_, ?_⟩
  · intro u v hu hv
    obtain ⟨d, hd⟩ := exists_latestIn order hu
    obtain ⟨e, he⟩ := exists_latestIn order hv
    exact ⟨d, e, hd, he, hturn.idxOf_lt_iff_latest hd he⟩
  · intro n hn
    exact isGreatest_depth hturn (hturn.perm.mem_iff.mpr hn)
  · refine (pairwise_idxOf hturn.distinct).imp_of_mem fun {u v} hu hv huv => ?_
    exact hturn.depth_le hu hv huv.le

/-- Two roots, of which the first one releases two nodes at once; `e` and `f` have the same
latest dependency, which `f` lists last and `e` first. -/
theorem nodes_of_one_latest_dependency_stand_as_given :
    let g := Graph.ofList [("e", ["c", "a"]), ("c", ["a", "a"]), ("a", []), ("f", ["b", "c"]),
      ("b", []), ("d", ["b"]), ("h", ["a"])]
    let order := ["a", "b", "c", "h", "d", "e", "f"]
    g.Closed ∧ g.Acyclic ∧ g.topologicalOrder = .ok order ∧
      g.names.filter (fun n => (g.deps n).isEmpty) = ["a", "b"] ∧ ["a", "b"] <+: order ∧
      LatestIn order (g.deps "e") "c" ∧ LatestIn order (g.deps "f") "c" ∧
      order.idxOf "e" < order.idxOf "f" ∧ order.Pairwise fun u v => g.depth u ≤ g.depth v := by
  intro g order
  have hc : g.Closed := dangling?_eq_none.mp (by decide)
  have hok : g.topologicalOrder = .ok order := by decide +kernel
  have hfree : g.Acyclic := ((topologicalOrder_eq_ok_iff hc).mp hok).acyclic
  have hroots : g.names.filter (fun n => (g.deps n).isEmpty) = ["a", "b"] := by decide
  obtain ⟨found, hfound, _, hfirst, hlatest, _, hdepth⟩ :=
    nodes_are_placed_as_their_latest_dependencies_are hc hfree
  obtain rfl : order = found := by simpa [hok] using hfound
  have he : LatestIn order (g.deps "e") "c" := by
    unfold LatestIn
    decide
  have hf : LatestIn order (g.deps "f") "c" := by
    unfold LatestIn
    decide
  obtain ⟨d, d', hd, hd', hturn⟩ := hlatest "e" "f" (by decide) (by decide)
  have hsame : d = d' := (he.unique hd (by decide)).symm.trans (hf.unique hd' (by decide))
  exact ⟨hc, hfree, hok, hroots, hroots ▸ hfirst, he, hf,
    hturn.mpr (.inr ⟨hsame, by decide⟩), hdepth⟩

end SchemaLedger.Graph
