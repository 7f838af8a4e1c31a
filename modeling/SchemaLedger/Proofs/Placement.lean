-- What the placing of nodes comes to. At every moment those nodes wait that have a
-- dependency which is not placed, and all others are placed or ready; so in the end every
-- placed node has its dependencies before it, and every other one waits for some node.
import SchemaLedger.Dependency.Order
import SchemaLedger.Proofs.Walks

namespace SchemaLedger.Graph

variable {g : Graph} {n d name : String} {ds placed ready order stuck : List String}
  {nodes waiting : Waiting}

/-! ## Which nodes wait -/

/-- Nodes with those of their dependencies that are not placed. -/
def unmet (nodes : Waiting) (placed : List String) : Waiting :=
  nodes.map fun (n, ds) => (n, ds.filter (· ∉ placed))

/-- The nodes that wait for something once `placed` are placed. -/
def waitingFor (g : Graph) (placed : List String) : Waiting := blocked (unmet g.nodes placed)

theorem unmet_nil (nodes : Waiting) : unmet nodes [] = nodes := by
  unfold unmet
  simp

/-- What is not placed once a name is: what was not placed before, without the name. -/
theorem filter_unplaced_snoc (ds placed : List String) (name : String) :
    ds.filter (· ∉ placed ++ [name]) = (ds.filter (· ∉ placed)).filter (· ≠ name) := by
  rw [List.filter_filter]
  refine List.filter_congr fun d _ => ?_
  by_cases hd : d = name <;> by_cases hp : d ∈ placed <;> simp [hd, hp]

theorem strike_unmet (name : String) (nodes : Waiting) (placed : List String) :
    strike name (unmet nodes placed) = unmet nodes (placed ++ [name]) := by
  unfold strike unmet
  rw [List.map_map]
  refine List.map_congr_left fun w _ => ?_
  exact congrArg (Prod.mk w.1) (filter_unplaced_snoc w.2 placed name).symm

/-- A node that waits for nothing waits for nothing later. -/
theorem blocked_strike_blocked (name : String) (waiting : Waiting) :
    blocked (strike name (blocked waiting)) = blocked (strike name waiting) := by
  induction waiting with
  | nil => rfl
  | cons w rest ih =>
    obtain ⟨n, ds⟩ := w
    simp only [blocked, strike] at ih ⊢
    by_cases h : ds = []
    · simpa [h] using ih
    · have hds : (!ds.isEmpty) = true := by simp [h]
      simp only [List.filter_cons, hds, if_true, List.map_cons, ih]

theorem blocked_strike_waitingFor (name : String) (g : Graph) (placed : List String) :
    blocked (strike name (g.waitingFor placed)) = g.waitingFor (placed ++ [name]) := by
  unfold waitingFor
  rw [blocked_strike_blocked, strike_unmet]

theorem mem_released : n ∈ released waiting ↔ (n, []) ∈ waiting := by
  unfold released
  constructor
  · intro h
    obtain ⟨⟨m, ds⟩, hm, rfl⟩ := List.mem_map.mp h
    obtain ⟨hw, hds⟩ := List.mem_filter.mp hm
    obtain rfl : ds = [] := List.isEmpty_iff.mp hds
    exact hw
  · intro h
    exact List.mem_map.mpr ⟨_, List.mem_filter.mpr ⟨h, rfl⟩, rfl⟩

theorem mem_unmet : (n, ds) ∈ unmet g.nodes placed ↔
    n ∈ g.names ∧ ds = (g.deps n).filter (· ∉ placed) := by
  unfold unmet
  constructor
  · intro h
    obtain ⟨⟨m, all⟩, hm, he⟩ := List.mem_map.mp h
    obtain ⟨rfl, rfl⟩ := Prod.mk.inj he
    obtain ⟨hn, rfl⟩ := mem_nodes_iff.mp hm
    exact ⟨hn, rfl⟩
  · rintro ⟨hn, rfl⟩
    exact List.mem_map.mpr ⟨(n, g.deps n), mem_nodes_iff.mpr ⟨hn, rfl⟩, rfl⟩

/-- A node waits just when one of its dependencies is not placed. -/
theorem mem_names_waitingFor :
    n ∈ (g.waitingFor placed).map Prod.fst ↔ n ∈ g.names ∧ ∃ d ∈ g.deps n, d ∉ placed := by
  unfold waitingFor blocked
  constructor
  · intro h
    obtain ⟨⟨m, ds⟩, hm, rfl⟩ := List.mem_map.mp h
    obtain ⟨hw, hds⟩ := List.mem_filter.mp hm
    obtain ⟨hn, rfl⟩ := mem_unmet.mp hw
    exact ⟨hn, by simpa using hds⟩
  · rintro ⟨hn, hd⟩
    refine List.mem_map.mpr ⟨_, List.mem_filter.mpr ⟨mem_unmet.mpr ⟨hn, rfl⟩, ?_⟩, rfl⟩
    simpa using hd

/-- Placing a node releases those that waited for nothing else. -/
theorem mem_released_strike :
    n ∈ released (strike name (g.waitingFor placed)) ↔
      n ∈ g.names ∧ (∃ d ∈ g.deps n, d ∉ placed) ∧ ∀ d ∈ g.deps n, d ∈ placed ++ [name] := by
  rw [mem_released]
  constructor
  · intro h
    obtain ⟨⟨m, ds⟩, hm, he⟩ := List.mem_map.mp h
    obtain ⟨rfl, hds⟩ := Prod.mk.inj he
    have hwaits := mem_names_waitingFor.mp (List.mem_map_of_mem (f := Prod.fst) hm)
    obtain ⟨_, rfl⟩ := mem_unmet.mp (List.mem_filter.mp hm).1
    refine ⟨hwaits.1, hwaits.2, fun d hd => ?_⟩
    have hnone := List.filter_eq_nil_iff.mp hds d
    by_cases hp : d ∈ placed
    · exact List.mem_append_left _ hp
    · have hne : d = name := by simpa [hd, hp] using hnone
      simp [hne]
  · rintro ⟨hn, ⟨d, hd, hp⟩, hall⟩
    refine List.mem_map.mpr ⟨(n, (g.deps n).filter (· ∉ placed)), ?_, ?_⟩
    · refine List.mem_filter.mpr ⟨mem_unmet.mpr ⟨hn, rfl⟩, ?_⟩
      simpa using ⟨d, hd, hp⟩
    · rw [Prod.mk.injEq]
      refine ⟨rfl, List.filter_eq_nil_iff.mpr fun d hd => ?_⟩
      obtain ⟨hd, hp⟩ := List.mem_filter.mp hd
      have hin := hall d hd
      simp_all

theorem names_waitingFor_sublist (g : Graph) (placed : List String) :
    ((g.waitingFor placed).map Prod.fst).Sublist g.names := by
  have h : ((g.waitingFor placed).map Prod.fst).Sublist ((unmet g.nodes placed).map Prod.fst) :=
    List.filter_sublist.map _
  unfold unmet at h
  rw [List.map_map] at h
  exact h

theorem released_sublist (name : String) (waiting : Waiting) :
    (released (strike name waiting)).Sublist (waiting.map Prod.fst) := by
  have h : (released (strike name waiting)).Sublist ((strike name waiting).map Prod.fst) :=
    List.filter_sublist.map _
  unfold strike at h
  rw [List.map_map] at h
  exact h

/-! ## Placing step by step -/

/-- Every name of an order has its dependencies before it. -/
def DependenciesFirst (g : Graph) (order : List String) : Prop :=
  ∀ before n after, order = before ++ n :: after → ∀ d ∈ g.deps n, d ∈ before

theorem dependenciesFirst_nil (g : Graph) : g.DependenciesFirst [] := by
  intro before n after he
  simp at he

theorem DependenciesFirst.snoc (h : g.DependenciesFirst order) (hn : ∀ d ∈ g.deps n, d ∈ order) :
    g.DependenciesFirst (order ++ [n]) := by
  intro before m after he d hd
  rcases List.eq_nil_or_concat after with rfl | ⟨after, z, rfl⟩
  · obtain ⟨rfl, hm⟩ := List.append_inj' he rfl
    obtain rfl := List.singleton_inj.mp hm
    exact hn d hd
  · rw [List.concat_eq_append, ← List.cons_append, ← List.append_assoc] at he
    obtain ⟨rfl, _⟩ := List.append_inj' he rfl
    exact h before m after rfl d hd

theorem DependenciesFirst.of_append {rest : List String} (h : g.DependenciesFirst (order ++ rest)) :
    g.DependenciesFirst order := by
  rintro before n after rfl d hd
  exact h before n (after ++ rest) (by simp) d hd

/-- What stands first in an order depends on nothing that comes later. -/
theorem DependenciesFirst.reaches {before after : List String} {a b : String}
    (h : g.DependenciesFirst order) (ho : order = before ++ after) (ha : a ∈ before)
    (hr : g.Reaches a b) : b ∈ before := by
  induction hr with
  | here => exact ha
  | step hd _ ih =>
    obtain ⟨first, last, rfl⟩ := List.append_of_mem ha
    have hin := h first _ (last ++ after) (by simp [ho]) _ hd
    exact ih (List.mem_append_left _ hin)

/-- No way leads from a dependency of a name in an order back to that name. -/
theorem DependenciesFirst.no_way_back {a b : String} (h : g.DependenciesFirst order)
    (ha : a ∈ order) (hd : g.DependsOn a b) : ¬ g.Reaches b a := by
  intro hr
  obtain ⟨before, after, ho, hfirst⟩ := List.eq_append_cons_of_mem ha
  exact hfirst (h.reaches ho (h before a after ho b hd) hr)

/-- A moment of the placing: nothing is placed before its dependencies, and a node waits
just when one of its dependencies is not placed yet. -/
structure Placing (g : Graph) (placed ready : List String) (waiting : Waiting) : Prop where
  sorted : g.DependenciesFirst placed
  free : ∀ n, n ∈ placed ++ ready ↔ n ∈ g.names ∧ ∀ d ∈ g.deps n, d ∈ placed
  distinct : (placed ++ ready).Nodup
  waits : waiting = g.waitingFor placed

theorem Placing.start (g : Graph) : g.Placing [] (released g.nodes) (blocked g.nodes) := by
  have hnodes : unmet g.nodes [] = g.nodes := unmet_nil g.nodes
  refine ⟨dependenciesFirst_nil g, ?_, ?_, ?_⟩
  · intro n
    rw [List.nil_append, mem_released, mem_nodes_iff]
    simp [List.eq_nil_iff_forall_not_mem]
  · rw [List.nil_append]
    exact g.distinct.sublist (List.filter_sublist.map Prod.fst)
  · unfold waitingFor
    rw [hnodes]

theorem Placing.step (h : g.Placing placed (name :: ready) waiting) :
    g.Placing (placed ++ [name]) (ready ++ released (strike name waiting))
      (blocked (strike name waiting)) := by
  obtain ⟨hsorted, hfree, hdistinct, rfl⟩ := h
  have hcut : placed ++ [name] ++ (ready ++ released (strike name (g.waitingFor placed))) =
      placed ++ name :: ready ++ released (strike name (g.waitingFor placed)) := by simp
  have hname : ∀ d ∈ g.deps name, d ∈ placed := ((hfree name).mp (by simp)).2
  refine ⟨hsorted.snoc hname, ?_, ?_, blocked_strike_waitingFor name g placed⟩
  · intro n
    rw [hcut, List.mem_append, hfree, mem_released_strike]
    constructor
    · rintro (⟨hn, hall⟩ | ⟨hn, _, hall⟩)
      · exact ⟨hn, fun d hd => List.mem_append_left _ (hall d hd)⟩
      · exact ⟨hn, hall⟩
    · rintro ⟨hn, hall⟩
      by_cases hp : ∀ d ∈ g.deps n, d ∈ placed
      · exact .inl ⟨hn, hp⟩
      · exact .inr ⟨hn, by simpa using hp, hall⟩
  · rw [hcut]
    refine List.nodup_append.mpr ⟨hdistinct, ?_, ?_⟩
    · exact g.distinct.sublist ((released_sublist name _).trans (names_waitingFor_sublist g placed))
    · intro a ha b hb hab
      obtain ⟨_, ⟨d, hd, hp⟩, _⟩ := mem_released_strike.mp hb
      exact hp (((hfree a).mp ha).2 d (hab ▸ hd))

/-! ## The end of the placing -/

/-- What the placing ends with: every node is in order after its dependencies, or is stuck
because of a dependency that is not in order. -/
structure Placed (g : Graph) (order stuck : List String) : Prop where
  sorted : g.DependenciesFirst order
  perm : (order ++ stuck).Perm g.names
  blocked : ∀ n ∈ stuck, ∃ d ∈ g.deps n, d ∉ order

theorem Placing.ends (h : g.Placing placed [] waiting) :
    g.Placed placed (waiting.map Prod.fst) := by
  obtain ⟨hsorted, hfree, hdistinct, rfl⟩ := h
  rw [List.append_nil] at hdistinct
  have hstuck : ((g.waitingFor placed).map Prod.fst).Nodup :=
    g.distinct.sublist (names_waitingFor_sublist g placed)
  have hdisjoint : ∀ a ∈ placed, ∀ b ∈ (g.waitingFor placed).map Prod.fst, a ≠ b := by
    intro a ha b hb hab
    obtain ⟨_, d, hd, hp⟩ := mem_names_waitingFor.mp hb
    exact hp (((hfree a).mp (by simpa using ha)).2 d (hab ▸ hd))
  refine ⟨hsorted, ?_, fun n hn => (mem_names_waitingFor.mp hn).2⟩
  refine (List.perm_ext_iff_of_nodup
    (List.nodup_append.mpr ⟨hdistinct, hstuck, hdisjoint⟩) g.distinct).mpr fun n => ?_
  have hmem := hfree n
  rw [List.append_nil] at hmem
  rw [List.mem_append, hmem, mem_names_waitingFor]
  constructor
  · rintro (⟨hn, _⟩ | ⟨hn, _⟩) <;> exact hn
  · intro hn
    by_cases hp : ∀ d ∈ g.deps n, d ∈ placed
    · exact .inl ⟨hn, hp⟩
    · exact .inr ⟨hn, by simpa using hp⟩

theorem Placing.place_placed (h : g.Placing placed ready waiting) :
    g.Placed (place placed ready waiting).1 (place placed ready waiting).2 := by
  fun_induction place placed ready waiting with
  | case1 placed waiting => exact h.ends
  | case2 placed waiting name ready ih => exact ih h.step

theorem placement_placed (g : Graph) : g.Placed g.placement.1 g.placement.2 :=
  (Placing.start g).place_placed

theorem Placed.mem_names (h : g.Placed order stuck) : n ∈ g.names ↔ n ∈ order ∨ n ∈ stuck := by
  rw [← h.perm.mem_iff, List.mem_append]

theorem Placed.distinct (h : g.Placed order stuck) : order.Nodup ∧ stuck.Nodup := by
  have hd := List.nodup_append.mp (h.perm.nodup_iff.mpr g.distinct)
  exact ⟨hd.1, hd.2.1⟩

/-- Where every dependency is a node, a stuck node depends on another stuck one. -/
theorem Placed.stuck_dep (h : g.Placed order stuck) (hc : g.Closed) (hn : n ∈ stuck) :
    ∃ d ∈ g.deps n, d ∈ stuck := by
  obtain ⟨d, hd, hp⟩ := h.blocked n hn
  exact ⟨d, hd, (h.mem_names.mp (hc n d hd)).resolve_left hp⟩

/-! ## The whole order -/

theorem dangling?_eq_some {dep : String} (h : g.dangling? = some (n, dep)) :
    g.DependsOn n dep ∧ dep ∉ g.names := by
  unfold dangling? at h
  obtain ⟨⟨m, ds⟩, hm, hfound⟩ := List.exists_of_findSome?_eq_some h
  obtain ⟨d, hd, he⟩ := Option.map_eq_some_iff.mp hfound
  obtain ⟨rfl, rfl⟩ := Prod.mk.inj he
  obtain ⟨_, rfl⟩ := mem_nodes_iff.mp hm
  exact ⟨List.mem_of_find?_eq_some hd, by simpa using List.find?_some hd⟩

theorem dangling?_eq_none : g.dangling? = none ↔ g.Closed := by
  constructor
  · intro h a b hab
    unfold dangling? at h
    have hnode := List.findSome?_eq_none_iff.mp h (a, g.deps a)
      (mem_nodes_iff.mpr ⟨hab.mem_names, rfl⟩)
    have hall := List.find?_eq_none.mp (Option.map_eq_none_iff.mp hnode) b hab
    simpa using hall
  · intro hc
    rcases hd : g.dangling? with _ | ⟨n, dep⟩
    · rfl
    · obtain ⟨hdep, hnot⟩ := dangling?_eq_some hd
      exact absurd (hc n dep hdep) hnot

/-- A graph whose dependencies are all nodes has an order of all its nodes, or the loop
among the stuck ones is reported. -/
theorem topologicalOrder_of_closed (hc : g.Closed) :
    (∃ order, g.topologicalOrder = .ok order ∧ g.Placed order []) ∨
      ∃ order stuck, stuck ≠ [] ∧ g.Placed order stuck ∧
        g.topologicalOrder = .error (.cycle (g.loopAmong stuck)) := by
  have hplaced := g.placement_placed
  unfold topologicalOrder
  rw [dangling?_eq_none.mpr hc]
  rcases hp : g.placement with ⟨order, _ | ⟨n, rest⟩⟩
  · rw [hp] at hplaced
    exact .inl ⟨order, rfl, hplaced⟩
  · rw [hp] at hplaced
    exact .inr ⟨order, n :: rest, by simp, hplaced, rfl⟩

end SchemaLedger.Graph
