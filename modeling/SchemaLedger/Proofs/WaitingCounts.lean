-- The same placing by counts. Of what a node waits for only the number is kept: placing a name
-- takes one off a node for every time that the node lists it, and a node whose count comes to
-- nothing is ready. A count is the number of listed dependencies that are not placed, so what
-- is placed and what is left are the same as by names.
import SchemaLedger.Proofs.Placement

namespace SchemaLedger.Graph

variable {g : Graph} {n name : String} {ds placed ready order left : List String}

/-! ## Counting down -/

/-- How many dependencies each node still waits for. -/
abbrev Counts := String → Int

/-- The nodes that depend on a name, in graph order, each as often as it lists the name. -/
def dependents (g : Graph) (name : String) : List String :=
  g.nodes.flatMap fun node => List.replicate (node.2.count name) node.1

/-- A node waits for one dependency less, and is ready if that was the last. -/
def countDown (state : Counts × List String) (n : String) : Counts × List String :=
  (fun m => if m = n then state.1 n - 1 else state.1 m,
    if state.1 n - 1 = 0 then state.2 ++ [n] else state.2)

/-- A moment of the placing by counts: what is placed, what is ready and what is counted. -/
inductive Counting (g : Graph) : List String → List String → Counts → Prop where
  | start : Counting g [] (g.names.filter fun n => (g.deps n).length = 0) fun n => (g.deps n).length
  | take {placed ready : List String} {name : String} {counts : Counts} :
      Counting g placed (name :: ready) counts →
      Counting g (placed ++ [name]) ((g.dependents name).foldl countDown (counts, ready)).2
        ((g.dependents name).foldl countDown (counts, ready)).1

theorem counts_foldl (told : List String) (state : Counts × List String) (n : String) :
    (told.foldl countDown state).1 n = state.1 n - told.count n := by
  induction told generalizing state with
  | nil => simp
  | cons m rest ih =>
    rw [List.foldl_cons, ih, List.count_cons]
    by_cases hm : m = n
    · subst hm
      simp only [countDown, if_true, BEq.rfl]
      omega
    · have hn : n ≠ m := fun h => hm h.symm
      simp [countDown, hm, hn]

/-- Told so often, a node becomes ready if it waits for just as much and for something. -/
theorem ready_replicate {k : Nat} {state : Counts × List String} (h : (k : Int) ≤ state.1 n) :
    ((List.replicate k n).foldl countDown state).2 =
      if 0 < k ∧ state.1 n = k then state.2 ++ [n] else state.2 := by
  induction k generalizing state with
  | zero => simp
  | succ k ih =>
    have hcount : (countDown state n).1 n = state.1 n - 1 := by simp [countDown]
    rw [List.replicate_succ, List.foldl_cons, ih (by omega), hcount]
    by_cases hlast : state.1 n - 1 = 0
    · have hk : k = 0 := by omega
      have hone : state.1 n = 1 := by omega
      simp [countDown, hk, hone]
    · have hiff : (0 < k ∧ state.1 n - 1 = k) ↔ 0 < k + 1 ∧ state.1 n = (k + 1 : Nat) := by omega
      simp only [countDown, if_neg hlast, hiff]

/-- The nodes that come to nothing are ready behind the others, in graph order. -/
theorem ready_foldl {nodes : Waiting} {state : Counts × List String}
    (hd : (nodes.map Prod.fst).Nodup) (hle : ∀ w ∈ nodes, (w.2.count name : Int) ≤ state.1 w.1) :
    ((nodes.flatMap fun w => List.replicate (w.2.count name) w.1).foldl countDown state).2 =
      state.2 ++ (nodes.filter fun w =>
        decide (0 < w.2.count name ∧ state.1 w.1 = w.2.count name)).map Prod.fst := by
  induction nodes generalizing state with
  | nil => simp
  | cons w rest ih =>
    rw [List.map_cons, List.nodup_cons] at hd
    have hw := hle w List.mem_cons_self
    -- the other nodes' counts are as they were
    have hother : ∀ v ∈ rest,
        ((List.replicate (w.2.count name) w.1).foldl countDown state).1 v.1 = state.1 v.1 := by
      intro v hv
      have hne : w.1 ≠ v.1 := fun he => hd.1 (he ▸ List.mem_map_of_mem hv)
      rw [counts_foldl, List.count_replicate]
      simp [hne]
    have hrest : ∀ v ∈ rest, (v.2.count name : Int) ≤
        ((List.replicate (w.2.count name) w.1).foldl countDown state).1 v.1 := by
      intro v hv
      rw [hother v hv]
      exact hle v (List.mem_cons_of_mem _ hv)
    have hsame : (rest.filter fun v => decide (0 < v.2.count name ∧
        ((List.replicate (w.2.count name) w.1).foldl countDown state).1 v.1 = v.2.count name)) =
          rest.filter fun v => decide (0 < v.2.count name ∧ state.1 v.1 = v.2.count name) :=
      List.filter_congr fun v hv => by rw [hother v hv]
    rw [List.flatMap_cons, List.foldl_append, ih hd.2 hrest, hsame, ready_replicate hw,
      List.filter_cons]
    by_cases hready : 0 < w.2.count name ∧ state.1 w.1 = w.2.count name
    · simp [hready]
    · simp only [hready, decide_false, Bool.false_eq_true, if_false]

theorem count_dependents (g : Graph) (name n : String) :
    (g.dependents name).count n = (g.deps n).count name := by
  have go (nodes : Waiting) (hd : (nodes.map Prod.fst).Nodup) :
      (nodes.flatMap fun w => List.replicate (w.2.count name) w.1).count n =
        ((nodes.lookup n).getD []).count name := by
    induction nodes with
    | nil => rfl
    | cons w rest ih =>
      rw [List.map_cons, List.nodup_cons] at hd
      rw [List.flatMap_cons, List.count_append, List.count_replicate, ih hd.2, List.lookup_cons]
      by_cases hw : w.1 = n
      · subst hw
        have hnone : rest.lookup w.1 = none := by
          rw [List.lookup_eq_none_iff]
          intro v hv
          have hne : w.1 ≠ v.1 := fun he => hd.1 (he ▸ List.mem_map_of_mem hv)
          simpa using hne
        simp [hnone]
      · have hn : (n == w.1) = false := by simpa using fun he => hw he.symm
        simp [hw, hn]
  exact go g.nodes g.distinct

/-! ## Counts and names -/

/-- What is counted of a list is what is left when it is struck out. -/
theorem length_filter_ne_add_count (waits : List String) (name : String) :
    (waits.filter (· ≠ name)).length + waits.count name = waits.length := by
  rw [waits.length_eq_countP_add_countP (· == name), ← List.countP_eq_length_filter, Nat.add_comm,
    List.count]
  simp

/-- A name that is placed is no longer waited for, however often it is listed. -/
theorem length_unplaced_add_count (hnew : name ∉ placed) (ds : List String) :
    (ds.filter (· ∉ placed ++ [name])).length + ds.count name =
      (ds.filter (· ∉ placed)).length := by
  have hcount : (ds.filter (· ∉ placed)).count name = ds.count name :=
    List.count_filter (by simpa using hnew)
  rw [filter_unplaced_snoc, ← hcount]
  exact length_filter_ne_add_count _ name

/-- The nodes that the placing of a name releases are those that list it, and list nothing
else that is not placed. -/
theorem released_strike_waitingFor (hnew : name ∉ placed) (g : Graph) :
    released (strike name (g.waitingFor placed)) =
      (g.nodes.filter fun w => decide (0 < w.2.count name ∧
        (w.2.filter (· ∉ placed)).length = w.2.count name)).map Prod.fst := by
  unfold released strike waitingFor blocked unmet
  rw [List.filter_map, List.filter_map, List.filter_map, List.map_map, List.map_map,
    List.filter_filter]
  refine congrArg (List.map Prod.fst) (List.filter_congr fun w _ => ?_)
  have hcount : (w.2.filter (· ∉ placed)).count name = w.2.count name :=
    List.count_filter (by simpa using hnew)
  have hadd := length_filter_ne_add_count (w.2.filter (· ∉ placed)) name
  rw [Bool.eq_iff_iff]
  simp only [Function.comp_apply, Bool.and_eq_true, Bool.not_eq_true', List.isEmpty_eq_false_iff,
    List.isEmpty_iff, decide_eq_true_eq, ← hcount, ← List.length_pos_iff, ← List.length_eq_zero_iff]
  omega

theorem Placing.not_placed {waiting : Waiting} (h : g.Placing placed (name :: ready) waiting) :
    name ∉ placed :=
  fun hin => (List.nodup_append.mp h.distinct).2.2 name hin name List.mem_cons_self rfl

/-- Where the counts are right, counting down makes ready what striking out releases. -/
theorem ready_dependents {counts : Counts} (hnew : name ∉ placed)
    (hcounts : ∀ n, counts n = ((g.deps n).filter (· ∉ placed)).length) (ready : List String) :
    ((g.dependents name).foldl countDown (counts, ready)).2 =
      ready ++ released (strike name (g.waitingFor placed)) := by
  rw [released_strike_waitingFor hnew, dependents, ready_foldl g.distinct]
  · refine congrArg (ready ++ List.map Prod.fst ·) (List.filter_congr fun w hw => ?_)
    simp only [hcounts, deps_of_mem hw, Int.ofNat_inj]
  · intro w hw
    simp only [hcounts, deps_of_mem hw, Int.ofNat_le]
    have hadd := length_unplaced_add_count hnew w.2
    omega

/-- Placing by counts is placing by names, and a count is how many of the listed dependencies
are not placed. -/
theorem Counting.placing {counts : Counts} (h : g.Counting placed ready counts) :
    g.Placing placed ready (g.waitingFor placed) ∧
      (∀ n, counts n = ((g.deps n).filter (· ∉ placed)).length) ∧
      place placed ready (g.waitingFor placed) = g.placement := by
  induction h with
  | start =>
    have hready : (g.names.filter fun n => decide ((g.deps n).length = 0)) = released g.nodes := by
      unfold names released
      rw [List.filter_map]
      refine congrArg (List.map Prod.fst) (List.filter_congr fun w hw => ?_)
      rw [Function.comp_apply, deps_of_mem hw, Bool.eq_iff_iff]
      simp
    have hwaits : g.waitingFor [] = blocked g.nodes := by
      unfold waitingFor
      rw [unmet_nil]
    rw [hready, hwaits]
    exact ⟨.start g, fun n => by simp, rfl⟩
  | @take placed ready name counts _ ih =>
    obtain ⟨hplacing, hcounts, hplace⟩ := ih
    have hnew := hplacing.not_placed
    rw [ready_dependents hnew hcounts, ← blocked_strike_waitingFor]
    refine ⟨hplacing.step, fun n => ?_, ?_⟩
    · have hadd := length_unplaced_add_count hnew (g.deps n)
      rw [counts_foldl, count_dependents]
      simp only [hcounts]
      omega
    · rw [← hplace, place]

/-! ## When nothing is ready any more -/

/-- The counting goes on to the end of the placing. -/
theorem exists_counting_place {waiting : Waiting} {counts : Counts}
    (h : g.Counting placed ready counts) (hw : waiting = g.waitingFor placed) :
    ∃ counts', g.Counting (place placed ready waiting).1 [] counts' := by
  fun_induction place placed ready waiting generalizing counts with
  | case1 placed waiting => exact ⟨counts, h⟩
  | case2 placed waiting name ready ih =>
    subst hw
    obtain ⟨hplacing, hcounts, _⟩ := h.placing
    have hnext := h.take
    rw [ready_dependents hplacing.not_placed hcounts] at hnext
    exact ih hnext (blocked_strike_waitingFor name g placed)

theorem exists_counting_placement (g : Graph) : ∃ counts, g.Counting g.placement.1 [] counts := by
  have hstart := Counting.start (g := g)
  obtain ⟨counts, h⟩ := exists_counting_place hstart rfl
  rw [hstart.placing.2.2] at h
  exact ⟨counts, h⟩

/-- What is left is what is not placed, in graph order. -/
theorem Counting.placement_eq {counts : Counts} (h : g.Counting placed [] counts) :
    g.placement = (placed, g.names.filter (· ∉ placed)) := by
  obtain ⟨hplacing, _, hplace⟩ := h.placing
  have hfree : ∀ n, n ∈ placed ↔ n ∈ g.names ∧ ∀ d ∈ g.deps n, d ∈ placed := by
    simpa using hplacing.free
  have hleft : (g.waitingFor placed).map Prod.fst = g.names.filter (· ∉ placed) := by
    unfold waitingFor blocked unmet names
    rw [List.filter_map, List.filter_map, List.map_map]
    refine congrArg (List.map Prod.fst) (List.filter_congr fun w hw => ?_)
    have hn : w.1 ∈ g.names ∧ g.deps w.1 = w.2 := mem_nodes_iff.mp hw
    have hnot : w.1 ∉ placed ↔ ∃ d ∈ w.2, d ∉ placed := by
      rw [hfree, hn.2]
      simp [hn.1]
    rw [Bool.eq_iff_iff]
    simp [hnot]
  rw [← hplace, place, hleft]

end SchemaLedger.Graph
