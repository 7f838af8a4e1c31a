-- The law of the order of seeders. An order of all seeders is found just when no name
-- comes twice, every dependency is registered and none leads back to its seeder; it runs
-- every dependency first. Otherwise the first of these that fails is what is reported.
import Mathlib.Logic.Relation
import SchemaLedger.Proofs.ReportedCycles
import SchemaLedger.Seeding.Order

namespace SchemaLedger

/-! ## Orders and cycles of a graph -/

namespace Graph

variable {g : Graph} {a b : String} {order : List String}

theorem reaches_iff : g.Reaches a b ↔ Relation.ReflTransGen g.DependsOn a b := by
  constructor
  · intro h
    induction h with
    | here a => exact .refl
    | step hd _ ih => exact .head hd ih
  · intro h
    induction h using Relation.ReflTransGen.head_induction_on with
    | refl => exact .here b
    | head hd _ ih => exact .step hd ih

/-- A graph of which every node is in order has no cycle. -/
theorem Placed.acyclic (h : g.Placed order []) (a : String) :
    ¬ Relation.TransGen g.DependsOn a a := by
  intro hloop
  obtain ⟨b, hab, hba⟩ := Relation.TransGen.head'_iff.mp hloop
  have ha : a ∈ order := (h.mem_names.mp hab.mem_names).resolve_right List.not_mem_nil
  exact h.sorted.no_way_back ha hab (reaches_iff.mpr hba)

theorem IsCycle.transGen {walk : List String} (h : g.IsCycle walk) :
    ∃ a, Relation.TransGen g.DependsOn a a := by
  obtain ⟨a, _, b, hab, hba⟩ := h.loops
  exact ⟨a, Relation.TransGen.head' hab (reaches_iff.mp hba)⟩

/-! ## The graph of a list -/

theorem put_of_not_mem {name : String} {ds : List String} {l : List (String × List String)}
    (h : name ∉ l.map Prod.fst) : put name ds l = l ++ [(name, ds)] := by
  induction l with
  | nil => rfl
  | cons p rest ih =>
    simp only [List.map_cons, List.mem_cons, not_or] at h
    have hp : p.1 ≠ name := fun he => h.1 he.symm
    simp [put, hp, ih h.2]

theorem nodes_foldl_insert (l : List (String × List String)) (g : Graph)
    (h : ((g.nodes ++ l).map Prod.fst).Nodup) :
    (l.foldl (fun g p => g.insert p.1 p.2) g).nodes = g.nodes ++ l := by
  induction l generalizing g with
  | nil => simp
  | cons p rest ih =>
    have hnew : p.1 ∉ g.nodes.map Prod.fst := by
      intro hp
      rw [List.map_append, List.map_cons] at h
      exact (List.nodup_append.mp h).2.2 p.1 hp p.1 List.mem_cons_self rfl
    have hput : (g.insert p.1 p.2).nodes = g.nodes ++ [p] := put_of_not_mem hnew
    have hcut : (g.insert p.1 p.2).nodes ++ rest = g.nodes ++ p :: rest := by
      rw [hput, List.append_assoc]
      rfl
    rw [List.foldl_cons, ih _ (by rw [hcut]; exact h), hcut]

/-- Where no name comes twice, the graph of a list has its entries as nodes. -/
theorem nodes_ofList {l : List (String × List String)} (h : (l.map Prod.fst).Nodup) :
    (ofList l).nodes = l := nodes_foldl_insert l empty h

end Graph

namespace Seeding

variable {seeders : List Seeder} {names : List String} {x : Seeder}

/-! ## Names -/

theorem firstRepeated?_none {seen l : List String} (h : firstRepeated? seen l = none) :
    l.Nodup ∧ ∀ n ∈ l, n ∉ seen := by
  induction l generalizing seen with
  | nil => simp
  | cons n rest ih =>
    by_cases hn : n ∈ seen
    · simp [firstRepeated?, hn] at h
    · obtain ⟨hnodup, hnew⟩ := ih (by simpa [firstRepeated?, hn] using h)
      refine ⟨List.nodup_cons.mpr ⟨fun hin => hnew n hin List.mem_cons_self, hnodup⟩, ?_⟩
      intro m hm
      rcases List.mem_cons.mp hm with rfl | hm
      · exact hn
      · exact fun hs => hnew m hm (List.mem_cons_of_mem _ hs)

theorem firstRepeated?_some {seen l : List String} {n : String}
    (h : firstRepeated? seen l = some n) : n ∈ l ∧ (n ∈ seen ∨ 1 < l.count n) := by
  induction l generalizing seen with
  | nil => simp [firstRepeated?] at h
  | cons m rest ih =>
    by_cases hm : m ∈ seen
    · obtain rfl : m = n := by simpa [firstRepeated?, hm] using h
      exact ⟨List.mem_cons_self, .inl hm⟩
    · obtain ⟨hin, hwhy⟩ := ih (by simpa [firstRepeated?, hm] using h)
      refine ⟨List.mem_cons_of_mem _ hin, ?_⟩
      have hpos := List.count_pos_iff.mpr hin
      by_cases hmn : m = n
      · subst hmn
        exact .inr (by rw [List.count_cons_self]; omega)
      · rw [List.count_cons_of_ne hmn]
        simpa [show n ≠ m from fun he => hmn he.symm] using hwhy

/-- Seeders that share a name are refused, and no others. -/
theorem requireDistinct_cases (seeders : List Seeder) :
    ((seeders.map Seeder.name).Nodup ∧ requireDistinct seeders = .ok ()) ∨
      ∃ n, 1 < (seeders.map Seeder.name).count n ∧
        requireDistinct seeders = .error (.registration (.duplicateSeeder n)) := by
  unfold requireDistinct
  rcases h : firstRepeated? [] (seeders.map Seeder.name) with _ | n
  · exact .inl ⟨(firstRepeated?_none h).1, rfl⟩
  · exact .inr ⟨n, (firstRepeated?_some h).2.resolve_left List.not_mem_nil, rfl⟩

theorem named?_of_mem (hd : (seeders.map Seeder.name).Nodup) (hx : x ∈ seeders) :
    named? seeders x.name = some x := by
  unfold named?
  induction seeders with
  | nil => simp at hx
  | cons y rest ih =>
    rw [List.map_cons, List.nodup_cons] at hd
    rcases List.mem_cons.mp hx with rfl | hx
    · simp
    · have hne : y.name ≠ x.name := by
        intro he
        exact hd.1 (he ▸ List.mem_map_of_mem (f := Seeder.name) hx)
      simpa [hne] using ih hd.2 hx

/-- The seeders of all names, in any order, are all seeders. -/
theorem pick_perm (hd : (seeders.map Seeder.name).Nodup)
    (h : names.Perm (seeders.map Seeder.name)) : (pick seeders names).Perm seeders := by
  have hall : (seeders.map Seeder.name).filterMap (named? seeders) = seeders := by
    rw [List.filterMap_map]
    refine (List.filterMap_congr fun x hx => ?_).trans List.filterMap_some
    exact named?_of_mem hd hx
  have hperm := h.filterMap (named? seeders)
  rw [hall] at hperm
  exact hperm

theorem map_name_pick (h : ∀ n ∈ names, n ∈ seeders.map Seeder.name) :
    (pick seeders names).map Seeder.name = names := by
  induction names with
  | nil => rfl
  | cons n rest ih =>
    obtain ⟨x, hx⟩ : ∃ x, named? seeders n = some x := by
      obtain ⟨y, hy, hname⟩ := List.mem_map.mp (h n List.mem_cons_self)
      exact Option.isSome_iff_exists.mp (List.find?_isSome.mpr ⟨y, hy, by simp [hname]⟩)
    have hname : x.name = n := by simpa using List.find?_some hx
    have hpick : pick seeders (n :: rest) = x :: pick seeders rest := List.filterMap_cons_some hx
    rw [hpick, List.map_cons, hname, ih fun m hm => h m (List.mem_cons_of_mem _ hm)]

/-! ## Dependencies -/

/-- The seeder called `a` declares that it depends on `b`. -/
def Declares (seeders : List Seeder) (a b : String) : Prop :=
  ∃ x ∈ seeders, x.name = a ∧ b ∈ x.dependencies

/-- Seeders that can be put in order: no name comes twice, every dependency is registered
and no seeder depends on itself, directly or through others. -/
structure WellFormed (seeders : List Seeder) : Prop where
  distinct : (seeders.map Seeder.name).Nodup
  registered : ∀ x ∈ seeders, ∀ d ∈ x.dependencies, d ∈ seeders.map Seeder.name
  acyclic : ∀ a, ¬ Relation.TransGen (Declares seeders) a a

/-- An order of all seeders in which each one comes after those that it depends on. -/
structure InOrder (seeders order : List Seeder) : Prop where
  perm : order.Perm seeders
  first : ∀ before x after, order = before ++ x :: after →
    ∀ d ∈ x.dependencies, d ∈ before.map Seeder.name

/-- Why seeders cannot be put in order. What is not registered matters only where no name
comes twice, and a cycle only where every dependency is registered. -/
inductive Refused (seeders : List Seeder) : Failure → Prop
  | duplicate {n : String} : 1 < (seeders.map Seeder.name).count n →
      Refused seeders (.registration (.duplicateSeeder n))
  | dangling {x : Seeder} {d : String} : (seeders.map Seeder.name).Nodup → x ∈ seeders →
      d ∈ x.dependencies → d ∉ seeders.map Seeder.name →
      Refused seeders (.registration (.dangling x.name d))
  | cycle {walk : List String} : (seeders.map Seeder.name).Nodup →
      (∀ x ∈ seeders, ∀ d ∈ x.dependencies, d ∈ seeders.map Seeder.name) →
      (graphOf seeders).IsCycle walk → Refused seeders (.cycle walk)

theorem nodes_graphOf (hd : (seeders.map Seeder.name).Nodup) :
    (graphOf seeders).nodes = seeders.map fun x => (x.name, x.dependencies) := by
  refine Graph.nodes_ofList ?_
  rw [List.map_map]
  exact hd

theorem names_graphOf (hd : (seeders.map Seeder.name).Nodup) :
    (graphOf seeders).names = seeders.map Seeder.name := by
  unfold Graph.names
  rw [nodes_graphOf hd, List.map_map]
  rfl

theorem deps_graphOf (hd : (seeders.map Seeder.name).Nodup) (hx : x ∈ seeders) :
    (graphOf seeders).deps x.name = x.dependencies := by
  refine Graph.deps_of_mem ?_
  rw [nodes_graphOf hd]
  exact List.mem_map_of_mem (f := fun x : Seeder => (x.name, x.dependencies)) hx

theorem dependsOn_graphOf (hd : (seeders.map Seeder.name).Nodup) :
    (graphOf seeders).DependsOn = Declares seeders := by
  funext a b
  refine propext ⟨fun h => ?_, ?_⟩
  · have ha := h.mem_names
    rw [names_graphOf hd] at ha
    obtain ⟨x, hx, rfl⟩ := List.mem_map.mp ha
    unfold Graph.DependsOn at h
    rw [deps_graphOf hd hx] at h
    exact ⟨x, hx, rfl, h⟩
  · rintro ⟨x, hx, rfl, hb⟩
    unfold Graph.DependsOn
    rw [deps_graphOf hd hx]
    exact hb

theorem closed_graphOf (hd : (seeders.map Seeder.name).Nodup) :
    (graphOf seeders).Closed ↔
      ∀ x ∈ seeders, ∀ d ∈ x.dependencies, d ∈ seeders.map Seeder.name := by
  unfold Graph.Closed
  rw [dependsOn_graphOf hd, names_graphOf hd]
  constructor
  · intro h x hx d hdep
    exact h x.name d ⟨x, hx, rfl, hdep⟩
  · rintro h a b ⟨x, hx, rfl, hb⟩
    exact h x hx b hb

/-- An order of the names gives an order of the seeders. -/
theorem inOrder_pick (hd : (seeders.map Seeder.name).Nodup)
    (h : (graphOf seeders).Placed names []) : InOrder seeders (pick seeders names) := by
  have hperm : names.Perm (seeders.map Seeder.name) := by
    have hp := h.perm
    rw [List.append_nil, names_graphOf hd] at hp
    exact hp
  refine ⟨pick_perm hd hperm, ?_⟩
  intro before x after he d hdep
  have hx : x ∈ seeders := (pick_perm hd hperm).subset (by simp [he])
  have hnames : names = before.map Seeder.name ++ x.name :: after.map Seeder.name := by
    rw [← map_name_pick fun n hn => hperm.subset hn, he, List.map_append, List.map_cons]
  refine h.sorted _ _ _ hnames d ?_
  rw [deps_graphOf hd hx]
  exact hdep

/-! ## The order of all seeders -/

/-- What the names are put in order to, or why they are not. -/
theorem orderOfAll_cases (seeders : List Seeder) :
    (∃ names, orderOfAll seeders = .ok names ∧ WellFormed seeders ∧
        (graphOf seeders).Placed names []) ∨
      ∃ f, orderOfAll seeders = .error f ∧ ¬ WellFormed seeders ∧ Refused seeders f := by
  unfold orderOfAll
  rcases requireDistinct_cases seeders with ⟨hd, hok⟩ | ⟨n, hn, herr⟩
  · rw [hok]
    rcases hdang : (graphOf seeders).dangling? with _ | ⟨a, d⟩
    · have hc := Graph.dangling?_eq_none.mp hdang
      have hreg := (closed_graphOf hd).mp hc
      have hvalid : (graphOf seeders).validateReferences = .ok () := by
        unfold Graph.validateReferences
        rw [hdang]
      rw [hvalid]
      rcases Graph.topologicalOrder_of_closed hc with
        ⟨names, horder, hplaced⟩ | ⟨names, stuck, hne, hplaced, horder⟩
      · refine .inl ⟨names, by rw [horder]; rfl, ⟨hd, hreg, ?_⟩, hplaced⟩
        rw [← dependsOn_graphOf hd]
        exact hplaced.acyclic
      · have hcycle := hplaced.isCycle_loopAmong hc hne
        refine .inr ⟨_, by rw [horder]; rfl, ?_, .cycle hd hreg hcycle⟩
        intro hw
        obtain ⟨a, ha⟩ := hcycle.transGen
        rw [dependsOn_graphOf hd] at ha
        exact hw.acyclic a ha
    · have hvalid : (graphOf seeders).validateReferences = .error (.dangling a d) := by
        unfold Graph.validateReferences
        rw [hdang]
      obtain ⟨hdep, hnot⟩ := Graph.dangling?_eq_some hdang
      rw [dependsOn_graphOf hd] at hdep
      rw [names_graphOf hd] at hnot
      obtain ⟨x, hx, rfl, hxd⟩ := hdep
      refine .inr ⟨_, by rw [hvalid]; rfl, ?_, .dangling hd hx hxd hnot⟩
      exact fun hw => hnot (hw.registered x hx d hxd)
  · refine .inr ⟨_, by rw [herr]; rfl, ?_, .duplicate hn⟩
    intro hw
    have hle := List.nodup_iff_count.mp hw.distinct n
    omega

/-- Seeders that are well formed are put in an order that runs every dependency first, and
only that is reported. Seeders that are not are refused, for a shared name, else for a
dependency that is not registered, else for a cycle, and nothing else comes of it. -/
theorem just_well_formed_seeders_are_put_in_order (seeders : List Seeder) (s : Session) :
    (WellFormed seeders ∧ ∃ order, InOrder seeders order ∧
        resolveAll seeders s =
          .ok order { s with
            events := s.events ++ [.orderResolved (order.map Seeder.name)] }) ∨
      (¬ WellFormed seeders ∧ ∃ f, Refused seeders f ∧ resolveAll seeders s = .error f s) := by
  unfold resolveAll
  rcases orderOfAll_cases seeders with ⟨names, hok, hw, hplaced⟩ | ⟨f, herr, hnot, hf⟩
  · have hnames : (pick seeders names).map Seeder.name = names := by
      refine map_name_pick fun n hn => ?_
      rw [← names_graphOf hw.distinct]
      exact hplaced.mem_names.mpr (.inl hn)
    refine .inl ⟨hw, pick seeders names, inOrder_pick hw.distinct hplaced, ?_⟩
    rw [hok, hnames]
    rfl
  · refine .inr ⟨hnot, f, hf, ?_⟩
    rw [herr]
    rfl

end Seeding
end SchemaLedger
