-- Which order it is that is found. A node is released by the last of its dependencies to be
-- placed; it comes before another one that is released later, or at the same moment but was
-- given later. One order of all nodes at most is such, and the order that is found is it.
import SchemaLedger.Proofs.Prerequisites

namespace SchemaLedger.Graph

variable {g : Graph} {name n a b d u v : String}
  {ds es placed ready order other before rest names : List String} {waiting : Waiting} {k : Nat}

/-! ## Moments of an order -/

/-- How many names of an order are placed once all of `ds` are: one more than the position of
the last of them, and none if there are no `ds`. -/
def releasedAfter (order ds : List String) : Nat :=
  ds.foldr (fun d k => max (order.idxOf d + 1) k) 0

theorem releasedAfter_le : releasedAfter order ds ≤ k ↔ ∀ d ∈ ds, order.idxOf d < k := by
  unfold releasedAfter
  induction ds with
  | nil => simp
  | cons d rest ih =>
    rw [List.foldr_cons, Nat.max_le, ih, List.forall_mem_cons]
    rfl

theorem lt_releasedAfter : k < releasedAfter order ds ↔ ∃ d ∈ ds, k ≤ order.idxOf d := by
  rw [← not_le, releasedAfter_le]
  simp

/-- The later moment belongs to the names of which one stands behind all of the others. -/
theorem releasedAfter_lt_iff : releasedAfter order ds < releasedAfter order es ↔
    ∃ e ∈ es, ∀ d ∈ ds, order.idxOf d < order.idxOf e := by
  rw [lt_releasedAfter]
  simp only [releasedAfter_le]

/-- Names that stand in an order keep their moment when the order goes on. -/
theorem releasedAfter_append (h : ∀ d ∈ ds, d ∈ order) :
    releasedAfter (order ++ rest) ds = releasedAfter order ds := by
  have hidx : ∀ d ∈ ds, (order ++ rest).idxOf d = order.idxOf d := fun d hd =>
    List.idxOf_append_of_mem (h d hd)
  refine eq_of_forall_ge_iff fun k => ?_
  rw [releasedAfter_le, releasedAfter_le]
  constructor
  · intro hlt d hd
    rw [← hidx d hd]
    exact hlt d hd
  · intro hlt d hd
    rw [hidx d hd]
    exact hlt d hd

/-- `u` is released before `v`, or at the same moment and was given before it. -/
def Sooner (g : Graph) (order : List String) (u v : String) : Prop :=
  releasedAfter order (g.deps u) < releasedAfter order (g.deps v) ∨
    releasedAfter order (g.deps u) = releasedAfter order (g.deps v) ∧
      g.names.idxOf u < g.names.idxOf v

theorem Sooner.asymm (h : g.Sooner order u v) : ¬ g.Sooner order v u := by
  unfold Sooner at h ⊢
  omega

theorem Sooner.append (hu : ∀ d ∈ g.deps u, d ∈ order) (hv : ∀ d ∈ g.deps v, d ∈ order) :
    g.Sooner (order ++ rest) u v ↔ g.Sooner order u v := by
  unfold Sooner
  rw [releasedAfter_append hu, releasedAfter_append hv]

/-- In a list without repetition every name stands where it comes. -/
theorem pairwise_idxOf (h : names.Nodup) :
    names.Pairwise fun a b => names.idxOf a < names.idxOf b := by
  refine List.pairwise_iff_getElem.mpr fun i j hi hj hij => ?_
  rw [h.idxOf_getElem i hi, h.idxOf_getElem j hj]
  exact hij

/-- Nodes that are given one after the other and released at one moment are in turn. -/
theorem pairwise_sooner_of_sublist (hsub : names.Sublist g.names)
    (h : ∀ n ∈ names, releasedAfter order (g.deps n) = k) : names.Pairwise (g.Sooner order) := by
  refine ((pairwise_idxOf g.distinct).sublist hsub).imp_of_mem fun {a b} ha hb hab => ?_
  exact .inr ⟨(h a ha).trans (h b hb).symm, hab⟩

/-! ## The queue is in turn -/

theorem released_nodes_sublist (g : Graph) : (released g.nodes).Sublist g.names :=
  List.filter_sublist.map Prod.fst

/-- What is ready at the start depends on nothing. -/
theorem pairwise_released_nodes (g : Graph) :
    (released g.nodes).Pairwise (g.Sooner (released g.nodes)) := by
  refine pairwise_sooner_of_sublist (k := 0) (released_nodes_sublist g) fun n hn => ?_
  have hnone : g.deps n = [] := (mem_nodes_iff.mp (mem_released.mp hn)).2
  rw [hnone]
  rfl

/-- A node that placing `name` releases is released by `name`, the last name placed. -/
theorem releasedAfter_released (h : n ∈ released (strike name (g.waitingFor placed))) :
    releasedAfter (placed ++ [name]) (g.deps n) = placed.length + 1 := by
  obtain ⟨_, ⟨d, hd, hnot⟩, hall⟩ := mem_released_strike.mp h
  apply le_antisymm
  · refine releasedAfter_le.mpr fun d hd => ?_
    simpa using List.idxOf_lt_length_of_mem (hall d hd)
  · refine lt_releasedAfter.mpr ⟨d, hd, ?_⟩
    rw [List.idxOf_append_of_notMem hnot]
    omega

/-- Placing a node keeps the placed and ready names in turn: those that it releases come behind
all others, which were released by names placed before it. -/
theorem Placing.step_pairwise (h : g.Placing placed (name :: ready) waiting)
    (hq : (placed ++ name :: ready).Pairwise (g.Sooner (placed ++ name :: ready))) :
    (placed ++ [name] ++ (ready ++ released (strike name waiting))).Pairwise
      (g.Sooner (placed ++ [name] ++ (ready ++ released (strike name waiting)))) := by
  obtain ⟨_, hfree, _, rfl⟩ := h
  have hcut : placed ++ [name] ++ (ready ++ released (strike name (g.waitingFor placed))) =
      placed ++ name :: ready ++ released (strike name (g.waitingFor placed)) := by simp
  have hold : ∀ q ∈ placed ++ name :: ready, ∀ d ∈ g.deps q, d ∈ placed := fun q hq =>
    ((hfree q).mp hq).2
  have hstand : ∀ q ∈ placed ++ name :: ready, ∀ d ∈ g.deps q, d ∈ placed ++ name :: ready :=
    fun q hq d hd => List.mem_append_left _ (hold q hq d hd)
  have hnew : ∀ n ∈ released (strike name (g.waitingFor placed)),
      releasedAfter (placed ++ name :: ready ++ released (strike name (g.waitingFor placed)))
        (g.deps n) = placed.length + 1 := by
    intro n hn
    rw [← hcut, releasedAfter_append (mem_released_strike.mp hn).2.2]
    exact releasedAfter_released hn
  rw [hcut]
  refine List.pairwise_append.mpr ⟨?_, ?_, ?_⟩
  · refine hq.imp_of_mem fun {a b} ha hb hab => ?_
    exact (Sooner.append (hstand a ha) (hstand b hb)).mpr hab
  · refine pairwise_sooner_of_sublist ?_ hnew
    exact (released_sublist name _).trans (names_waitingFor_sublist g placed)
  · intro q hq n hn
    left
    rw [hnew n hn, releasedAfter_append (hstand q hq)]
    refine Nat.lt_succ_of_le (releasedAfter_le.mpr fun d hd => ?_)
    rw [List.idxOf_append_of_mem (hold q hq d hd)]
    exact List.idxOf_lt_length_of_mem (hold q hq d hd)

theorem Placing.place_pairwise (h : g.Placing placed ready waiting)
    (hq : (placed ++ ready).Pairwise (g.Sooner (placed ++ ready))) :
    (place placed ready waiting).1.Pairwise (g.Sooner (place placed ready waiting).1) := by
  fun_induction place placed ready waiting with
  | case1 placed waiting => simpa using hq
  | case2 placed waiting name ready ih => exact ih h.step (h.step_pairwise hq)

/-! ## The one order that is in turn -/

/-- An order of all nodes, each after its dependencies and in its turn. -/
structure InTurn (g : Graph) (order : List String) : Prop where
  perm : order.Perm g.names
  sorted : g.DependenciesFirst order
  turns : order.Pairwise (g.Sooner order)

theorem InTurn.distinct (h : g.InTurn order) : order.Nodup := h.perm.nodup_iff.mpr g.distinct

theorem InTurn.not_before (h : g.InTurn (before ++ a :: rest)) : a ∉ before := fun hin =>
  (List.nodup_append.mp h.distinct).2.2 a hin a List.mem_cons_self rfl

theorem InTurn.acyclic (h : g.InTurn order) : g.Acyclic := fun _ ha =>
  h.sorted.not_reachesCycle (h.perm.mem_iff.mpr ha)

theorem InTurn.dep_mem (h : g.InTurn order) (hn : n ∈ order) (hd : d ∈ g.deps n) : d ∈ order :=
  (h.sorted.not_later hn (DependsOn.reaches hd)).1

/-- Where all nodes are placed they are in turn. -/
theorem inTurn_placement (h : g.placement.2 = []) : g.InTurn g.placement.1 := by
  have hplaced := g.placement_placed
  refine ⟨?_, hplaced.sorted, (Placing.start g).place_pairwise (pairwise_released_nodes g)⟩
  have hperm := hplaced.perm
  rw [h, List.append_nil] at hperm
  exact hperm

/-- Of two names of an order the one that is sooner stands first. -/
theorem InTurn.idxOf_lt_iff (h : g.InTurn order) (hu : u ∈ order) (hv : v ∈ order) :
    order.idxOf u < order.idxOf v ↔ g.Sooner order u v := by
  have hlt : ∀ a ∈ order, ∀ b ∈ order, order.idxOf a < order.idxOf b → g.Sooner order a b := by
    intro a ha b hb hab
    have hturn := List.pairwise_iff_getElem.mp h.turns _ _ (List.idxOf_lt_length_of_mem ha)
      (List.idxOf_lt_length_of_mem hb) hab
    rwa [List.getElem_idxOf, List.getElem_idxOf] at hturn
  refine ⟨hlt u hu v hv, fun hs => ?_⟩
  rcases Nat.lt_trichotomy (order.idxOf u) (order.idxOf v) with hless | hsame | hmore
  · exact hless
  · obtain rfl := (List.idxOf_inj hu).mp hsame
    exact absurd hs hs.asymm
  · exact absurd hs (hlt v hv u hu hmore).asymm

/-- The next name of an order is sooner, as far as the names before it tell, than any other
node whose dependencies stand before it. -/
theorem InTurn.next (h : g.InTurn (before ++ a :: rest)) (hb : b ∈ g.names) (hnew : b ∉ before)
    (hne : b ≠ a) (hdeps : ∀ d ∈ g.deps b, d ∈ before) : g.Sooner before a b := by
  have hin : b ∈ before ++ a :: rest := h.perm.mem_iff.mpr hb
  have hrest : b ∈ rest := by simpa [hnew, hne] using hin
  have hturn := (List.pairwise_cons.mp (List.pairwise_append.mp h.turns).2.1).1 b hrest
  exact (Sooner.append (h.sorted before a rest rfl) hdeps).mp hturn

/-- Two orders that are in turn are one: where they first differ, each of the two names would
have to be sooner than the other. -/
theorem InTurn.eq_of_same_start {xs ys : List String} (h : g.InTurn (before ++ xs))
    (k : g.InTurn (before ++ ys)) : xs = ys := by
  have hlength : xs.length = ys.length := by
    have hperm := (h.perm.trans k.perm.symm).length_eq
    simpa using hperm
  induction xs generalizing before ys with
  | nil => exact (List.length_eq_zero_iff.mp hlength.symm).symm
  | cons a xs ih =>
    obtain ⟨b, ys, rfl⟩ := List.exists_cons_of_length_eq_add_one hlength.symm
    by_cases hab : a = b
    · subst hab
      rw [List.append_cons] at h k
      rw [ih h k (Nat.succ.inj hlength)]
    · -- both could come next, and only the names before tell which does
      have ha : a ∈ g.names := h.perm.mem_iff.mp (by simp)
      have hb : b ∈ g.names := k.perm.mem_iff.mp (by simp)
      have hsooner := h.next hb k.not_before (Ne.symm hab) (k.sorted before b ys rfl)
      have hlater := k.next ha h.not_before hab (h.sorted before a xs rfl)
      exact absurd hlater hsooner.asymm

theorem InTurn.unique (h : g.InTurn order) (k : g.InTurn other) : order = other :=
  InTurn.eq_of_same_start (show g.InTurn ([] ++ order) from h) k

/-- Where every dependency is a node, an order is found just if it is in turn. -/
theorem topologicalOrder_eq_ok_iff (hc : g.Closed) :
    g.topologicalOrder = .ok order ↔ g.InTurn order := by
  rw [topologicalOrder_eq hc]
  constructor
  · intro h
    split at h
    · rename_i hnone
      obtain rfl : g.placement.1 = order := Except.ok.inj h
      exact inTurn_placement hnone
    · cases h
  · intro h
    have hplaced := g.placement_placed
    have hnone : g.placement.2 = [] := by
      refine List.eq_nil_iff_forall_not_mem.mpr fun n hn => ?_
      have hin : n ∈ order := h.perm.mem_iff.mpr (hplaced.mem_names.mpr (.inr hn))
      exact hplaced.not_stuck hc h.sorted n hin hn
    rw [if_pos hnone, (inTurn_placement hnone).unique h]

/-- A graph without cycles whose dependencies are all nodes has an order. -/
theorem exists_inTurn (hc : g.Closed) (hfree : g.Acyclic) :
    ∃ order, g.topologicalOrder = .ok order ∧ g.InTurn order := by
  rcases topologicalOrder_of_closed hc with ⟨order, hok, _⟩ | ⟨order, stuck, hne, hplaced, _⟩
  · exact ⟨order, hok, (topologicalOrder_eq_ok_iff hc).mp hok⟩
  · obtain ⟨t, ht⟩ := List.exists_mem_of_ne_nil _ hne
    have hnode : t ∈ g.names := hplaced.mem_names.mpr (.inr ht)
    exact absurd ((hplaced.stuck_tfae hc hnode).out 0 2 |>.mp ht) (hfree t hnode)

end SchemaLedger.Graph
