-- Walks along dependencies. What a walk meets is reached from where it starts, and a
-- walk that comes back to a name that it has met closes a cycle from that name on.
import Mathlib.Data.List.Chain
import SchemaLedger.Dependency.Graph

namespace SchemaLedger.Graph

variable {g : Graph} {a b c n : String} {ds path walk : List String}

/-! ## Nodes and their dependencies -/

/-- Where no key comes twice, a look-up finds every entry. -/
theorem lookup_of_mem {l : List (String × List String)} (hd : (l.map Prod.fst).Nodup)
    (h : (n, ds) ∈ l) : l.lookup n = some ds := by
  induction l with
  | nil => simp at h
  | cons p rest ih =>
    simp only [List.map_cons, List.nodup_cons] at hd
    rcases List.mem_cons.mp h with rfl | hrest
    · simp
    · have hne : n ≠ p.1 := by
        intro he
        exact hd.1 (he ▸ List.mem_map_of_mem (f := Prod.fst) hrest)
      rw [List.lookup_cons, beq_false_of_ne hne]
      exact ih hd.2 hrest

theorem deps_of_mem (h : (n, ds) ∈ g.nodes) : g.deps n = ds := by
  unfold deps
  rw [lookup_of_mem g.distinct h]
  rfl

theorem mem_nodes_iff : (n, ds) ∈ g.nodes ↔ n ∈ g.names ∧ g.deps n = ds := by
  constructor
  · intro h
    exact ⟨List.mem_map_of_mem (f := Prod.fst) h, deps_of_mem h⟩
  · rintro ⟨hn, rfl⟩
    obtain ⟨⟨m, ds⟩, hm, rfl⟩ := List.mem_map.mp hn
    rw [deps_of_mem hm]
    exact hm

/-- Only nodes depend on anything. -/
theorem DependsOn.mem_names (h : g.DependsOn a b) : a ∈ g.names := by
  unfold DependsOn deps at h
  rcases hl : g.nodes.lookup a with _ | ds
  · simp [hl] at h
  · rw [List.lookup_eq_some_iff] at hl
    obtain ⟨before, after, hnodes, _⟩ := hl
    simp [names, hnodes]

/-! ## Walks -/

theorem Reaches.trans (h : g.Reaches a b) (k : g.Reaches b c) : g.Reaches a c := by
  induction h with
  | here => exact k
  | step hd _ ih => exact .step hd (ih k)

theorem DependsOn.reaches (h : g.DependsOn a b) : g.Reaches a b := .step h (.here b)

theorem isWalk_iff (walk : List String) : g.IsWalk walk ↔ walk.IsChain g.DependsOn := by
  induction walk with
  | nil => simp [IsWalk]
  | cons a rest ih =>
    cases rest with
    | nil => simp [IsWalk]
    | cons b rest => rw [IsWalk, List.isChain_cons_cons, ih]

/-- Everything on a walk is reached from its first name. -/
theorem reaches_of_walk (h : g.IsWalk (a :: walk)) (hb : b ∈ a :: walk) : g.Reaches a b := by
  induction walk generalizing a with
  | nil =>
    obtain rfl := List.mem_singleton.mp hb
    exact .here b
  | cons c rest ih =>
    rcases List.mem_cons.mp hb with rfl | hb
    · exact .here b
    · exact .step h.1 (ih h.2 hb)

/-- A walk goes on to whatever its last name depends on. -/
theorem IsWalk.snoc (h : g.IsWalk (path ++ [a])) (hd : g.DependsOn a b) :
    g.IsWalk (path ++ [a] ++ [b]) := by
  rw [isWalk_iff] at h ⊢
  refine h.append (List.isChain_singleton b) ?_
  intro x hx y hy
  simp only [List.getLast?_append, List.getLast?_singleton, Option.some_or, Option.mem_def,
    Option.some.injEq, List.head?_cons] at hx hy
  rw [← hx, ← hy]
  exact hd

/-- A name that a simple walk has not met can be added to it. -/
theorem nodup_snoc (h : path.Nodup) (hnew : a ∉ path) : (path ++ [a]).Nodup := by
  refine List.nodup_append.mpr ⟨h, by simp, ?_⟩
  intro b hb c hc hbc
  rw [List.mem_singleton.mp hc] at hbc
  exact hnew (hbc ▸ hb)

/-! ## Cycles -/

/-- From a name on, a list starts with that name. -/
theorem dropWhile_ne_eq_cons (h : a ∈ path) :
    ∃ rest, path.dropWhile (· ≠ a) = a :: rest := by
  induction path with
  | nil => simp at h
  | cons b rest ih =>
    by_cases hb : b = a
    · exact ⟨rest, by simp [hb]⟩
    · have ha : a ∈ rest := (List.mem_cons.mp h).resolve_left fun he => hb he.symm
      obtain ⟨tail, htail⟩ := ih ha
      exact ⟨tail, by simpa [hb] using htail⟩

/-- A walk that comes back to a name that it has met holds a cycle, from that name on. -/
theorem isCycle_of_return (hw : g.IsWalk (path ++ [a])) (hd : path.Nodup)
    (hn : ∀ b ∈ path, b ∈ g.names) (ha : a ∈ path) :
    g.IsCycle (path.dropWhile (· ≠ a) ++ [a]) := by
  obtain ⟨rest, hrest⟩ := dropWhile_ne_eq_cons ha
  have hsuffix : path.dropWhile (· ≠ a) <:+ path := List.dropWhile_suffix _
  rw [hrest] at hsuffix ⊢
  obtain ⟨before, rfl⟩ := hsuffix
  refine ⟨by simp, by rw [List.getLast?_concat]; rfl, ?_, ?_, ?_⟩
  · rw [List.dropLast_concat]
    exact (List.nodup_append.mp hd).2.1
  · intro b hb
    rcases List.mem_append.mp hb with hb | hb
    · exact hn b (List.mem_append_right _ hb)
    · rw [List.mem_singleton.mp hb]
      exact hn a ha
  · rw [List.append_assoc, isWalk_iff] at hw
    rw [isWalk_iff]
    exact hw.right_of_append

/-- A cycle is a way from a node through one of its dependencies back to itself. -/
theorem IsCycle.loops (h : g.IsCycle walk) :
    ∃ a ∈ walk, ∃ b, g.DependsOn a b ∧ g.Reaches b a := by
  rcases walk with _ | ⟨a, _ | ⟨b, rest⟩⟩
  · exact absurd h.two_le_length (by simp)
  · exact absurd h.two_le_length (by simp)
  · refine ⟨a, List.mem_cons_self, b, h.walks.1, reaches_of_walk h.walks.2 ?_⟩
    have hlast : some a = (b :: rest).getLast? := by simpa using h.closes
    exact List.mem_of_getLast? hlast.symm

end SchemaLedger.Graph
