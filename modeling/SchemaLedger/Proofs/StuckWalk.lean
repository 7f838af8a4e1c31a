-- The walk among the nodes that are left. Each of them waits for another that is left, as its
-- count says; so the walk from one to the next always finds where to go, stays among them, and
-- meets a name again before it has made more rounds than there are of them.
import Mathlib.Data.List.Perm.Subperm
import SchemaLedger.Proofs.ReportedCycles
import SchemaLedger.Proofs.WaitingCounts

namespace SchemaLedger.Graph

variable {g : Graph} {n name : String} {path placed order left : List String} {k : Nat}

/-! ## What is left -/

/-- In the end a node that is left waits for the dependencies that are left, and for one at
least. -/
theorem Counting.of_left {counts : Counts} (h : g.Counting placed [] counts) (hc : g.Closed)
    (hn : n ∈ g.names.filter (· ∉ placed)) :
    0 < counts n ∧
      counts n = ((g.deps n).filter (· ∈ g.names.filter (· ∉ placed))).length := by
  obtain ⟨hplacing, hcounts, _⟩ := h.placing
  have hsame : (g.deps n).filter (· ∈ g.names.filter (· ∉ placed)) =
      (g.deps n).filter (· ∉ placed) := by
    refine List.filter_congr fun d hd => ?_
    have hname : d ∈ g.names := hc n d hd
    simp [hname]
  obtain ⟨hname, hnot⟩ := List.mem_filter.mp hn
  have hwaits : ∃ d ∈ g.deps n, d ∉ placed := by
    by_contra hall
    have hfree := (hplacing.free n).mpr ⟨hname, by simpa using hall⟩
    exact of_decide_eq_true hnot (by simpa using hfree)
  obtain ⟨d, hd, hp⟩ := hwaits
  have hpos : 0 < ((g.deps n).filter (· ∉ placed)).length :=
    List.length_pos_of_mem (List.mem_filter.mpr ⟨hd, by simpa using hp⟩)
  rw [hsame, hcounts]
  exact ⟨by omega, rfl⟩

/-! ## Round by round -/

/-- The first of the dependencies of a node that is left itself. -/
def nextLeft (g : Graph) (left : List String) (n : String) : Option String :=
  (g.deps n).find? (· ∈ left)

/-- After `k` rounds of the walk `path` is behind it and it has come to `name`. It starts from
the first node that is left; a round puts a name that the walk has not met on the path, and
goes on to the next one. -/
inductive Rounds (g : Graph) (left : List String) : Nat → List String → String → Prop where
  | start {first : String} : left.head? = some first → Rounds g left 0 [] first
  | next {k : Nat} {path : List String} {name dep : String} :
      Rounds g left k path name → name ∉ path → g.nextLeft left name = some dep →
      Rounds g left (k + 1) (path ++ [name]) dep

theorem nextLeft_eq_some {dep : String} (h : g.nextLeft left n = some dep) :
    g.DependsOn n dep ∧ dep ∈ left :=
  ⟨List.mem_of_find?_eq_some h, by simpa using List.find?_some h⟩

/-- A node that is left has a next one. -/
theorem Placed.exists_nextLeft (h : g.Placed order left) (hc : g.Closed) (hn : n ∈ left) :
    ∃ dep, g.nextLeft left n = some dep := by
  obtain ⟨d, hd, hleft⟩ := h.stuck_dep hc hn
  rcases hnext : g.nextLeft left n with _ | dep
  · exact absurd hleft (by simpa using List.find?_eq_none.mp hnext d hd)
  · exact ⟨dep, rfl⟩

/-- After any number of rounds the walk is a chase among the nodes that are left, and what will
be reported is what the rest of the walk comes to. -/
theorem Rounds.chase (h : g.Rounds left k path name) :
    g.Chase left (path.foldl List.erase left) path name ∧ path.length = k ∧
      closeLoop (g.nextLeft left) (path.foldl List.erase left) path name = g.loopAmong left := by
  induction h with
  | @start first hfirst =>
    obtain ⟨rest, rfl⟩ := List.head?_eq_some_iff.mp hfirst
    exact ⟨.start List.mem_cons_self, rfl, rfl⟩
  | @next k path name dep _ hnew hnext ih =>
    obtain ⟨hchase, hlength, hrest⟩ := ih
    obtain ⟨hd, hdep⟩ := nextLeft_eq_some hnext
    rw [List.foldl_append]
    refine ⟨hchase.step hnew hd hdep, by simp [hlength], ?_⟩
    have hahead := hchase.ahead name hchase.here hnew
    rw [closeLoop, if_neg hnew, dif_pos hahead, hnext] at hrest
    exact hrest

theorem Rounds.le_length (h : g.Rounds left k path name) : k ≤ left.length := by
  obtain ⟨hchase, hlength, _⟩ := h.chase
  have hsub : path.Subperm left := List.subperm_of_subset hchase.simple hchase.inside
  exact hlength ▸ hsub.length_le

/-- When the walk meets a name again, its way from there is what is reported. -/
theorem Rounds.loopAmong_eq (h : g.Rounds left k path name) (hmet : name ∈ path) :
    g.loopAmong left = path.dropWhile (· ≠ name) ++ [name] := by
  obtain ⟨_, _, hrest⟩ := h.chase
  rw [← hrest, closeLoop, if_pos hmet]

/-- The walk meets a name again, or it can be taken as many rounds as one likes. -/
theorem exists_rounds (hne : left ≠ []) (hnext : ∀ n ∈ left, ∃ dep, g.nextLeft left n = some dep)
    (k : Nat) :
    (∃ j path name, g.Rounds left j path name ∧ name ∈ path) ∨
      ∃ path name, g.Rounds left k path name := by
  induction k with
  | zero =>
    obtain ⟨first, rest, rfl⟩ := List.exists_cons_of_ne_nil hne
    exact .inr ⟨[], first, .start rfl⟩
  | succ k ih =>
    rcases ih with hclosed | ⟨path, name, h⟩
    · exact .inl hclosed
    · by_cases hmet : name ∈ path
      · exact .inl ⟨k, path, name, h, hmet⟩
      · obtain ⟨dep, hdep⟩ := hnext name h.chase.1.here
        exact .inr ⟨path ++ [name], dep, .next h hmet hdep⟩

/-- Where all dependencies are nodes and some nodes are left: the counting ends, and each node
that is left counts the dependencies of it that are left too, at least one. So after any round
the walk is among these nodes, has a next one unless it has met its name before, and has made no
more rounds than there are nodes left; and it does meet a name again, from where on it is what
is reported. -/
theorem the_walk_among_the_nodes_left_closes (hc : g.Closed) (hp : g.placement = (order, left))
    (hne : left ≠ []) :
    (∃ counts, g.Counting order [] counts) ∧
      (∀ placed counts, g.Counting placed [] counts →
        placed = order ∧ left = g.names.filter (· ∉ placed) ∧
          ∀ n ∈ left, 0 < counts n ∧ counts n = ((g.deps n).filter (· ∈ left)).length) ∧
      (∀ n ∈ left, ∃ d, g.DependsOn n d ∧ d ∈ left) ∧
      (∀ k path name, g.Rounds left k path name →
        k ≤ left.length ∧ (∀ a ∈ path ++ [name], a ∈ left) ∧
          (name ∉ path → ∃ dep, g.nextLeft left name = some dep) ∧
          (name ∈ path →
            g.topologicalOrder = .error (.cycle (path.dropWhile (· ≠ name) ++ [name])))) ∧
      ∃ k path name, g.Rounds left k path name ∧ name ∈ path := by
  have hplaced : g.Placed order left := by
    have h := g.placement_placed
    rwa [hp] at h
  have hnext : ∀ n ∈ left, ∃ dep, g.nextLeft left n = some dep :=
    fun n hn => hplaced.exists_nextLeft hc hn
  refine ⟨?_, ?_, ?_, ?_, ?_⟩
  · obtain ⟨counts, h⟩ := g.exists_counting_placement
    rw [hp] at h
    exact ⟨counts, h⟩
  · intro placed counts h
    obtain ⟨rfl, rfl⟩ := Prod.mk.inj (hp.symm.trans h.placement_eq)
    exact ⟨rfl, rfl, fun n hn => h.of_left hc hn⟩
  · intro n hn
    exact hplaced.stuck_dep hc hn
  · intro k path name h
    obtain ⟨hchase, _, _⟩ := h.chase
    refine ⟨h.le_length, ?_, fun _ => hnext name hchase.here, fun hmet => ?_⟩
    · intro a ha
      rcases List.mem_append.mp ha with ha | ha
      · exact hchase.inside a ha
      · rw [List.mem_singleton.mp ha]
        exact hchase.here
    · rw [← h.loopAmong_eq hmet]
      obtain ⟨first, rest, rfl⟩ := List.exists_cons_of_ne_nil hne
      unfold topologicalOrder
      rw [dangling?_eq_none.mpr hc, hp]
  · -- the walk cannot go on for more rounds than there are nodes left
    rcases exists_rounds hne hnext (left.length + 1) with hclosed | ⟨path, name, h⟩
    · exact hclosed
    · have hle := h.le_length
      omega

/-- A node that lists another one twice leads over a third into a node that lists itself. -/
theorem a_walk_into_a_node_that_lists_itself_closes :
    let g := Graph.ofList [("tail", ["mid", "free", "mid"]), ("free", []), ("mid", ["loop"]),
      ("loop", ["free", "loop", "loop"])]
    let left := ["tail", "mid", "loop"]
    g.Closed ∧ g.placement = (["free"], left) ∧ left ≠ [] ∧
      (∃ counts, g.Counting ["free"] [] counts ∧
        counts "tail" = 2 ∧ counts "mid" = 1 ∧ counts "loop" = 2) ∧
      g.Rounds left 3 left "loop" ∧ 3 ≤ left.length ∧
      g.topologicalOrder = .error (.cycle ["loop", "loop"]) := by
  intro g left
  have hc : g.Closed := dangling?_eq_none.mp (by decide)
  have hp : g.placement = (["free"], left) := by decide +kernel
  have hne : left ≠ [] := by simp [left]
  obtain ⟨⟨counts, hcounting⟩, hcounts, _, hrounds, _⟩ :=
    the_walk_among_the_nodes_left_closes hc hp hne
  have hcount := (hcounts _ _ hcounting).2.2
  have hfirst : g.Rounds left 0 [] "tail" := .start rfl
  have hsecond : g.Rounds left 1 ["tail"] "mid" := hfirst.next (by decide) (by decide)
  have hthird : g.Rounds left 2 ["tail", "mid"] "loop" := hsecond.next (by decide) (by decide)
  have hwalk : g.Rounds left 3 left "loop" := hthird.next (by decide) (by decide)
  obtain ⟨hle, _, _, hreported⟩ := hrounds _ _ _ hwalk
  refine ⟨hc, hp, hne, ⟨counts, hcounting, ?_, ?_, ?_⟩, hwalk, hle, hreported (by decide)⟩
  · exact (hcount "tail" (by decide)).2.trans (by decide)
  · exact (hcount "mid" (by decide)).2.trans (by decide)
  · exact (hcount "loop" (by decide)).2.trans (by decide)

end SchemaLedger.Graph
