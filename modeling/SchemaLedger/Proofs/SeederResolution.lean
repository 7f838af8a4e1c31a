-- What a resolution gives, whatever the session: the order of all seeders, or the failure that
-- refuses them; and for one seeder of a list that can be put in order, its prerequisites.
import SchemaLedger.Proofs.Prerequisites
import SchemaLedger.Proofs.SeederOrder
import SchemaLedger.Proofs.Work

namespace SchemaLedger.Seeding

variable {seeders order : List Seeder} {q q' s : Session} {x : Seeder} {name : String}

/-! ## All seeders -/

theorem requireDistinct_ok (hd : (seeders.map Seeder.name).Nodup) :
    requireDistinct seeders = .ok () := by
  rcases requireDistinct_cases seeders with ⟨_, h⟩ | ⟨n, hn, _⟩
  · exact h
  · have hle := List.nodup_iff_count.mp hd n
    omega

/-- Where no name comes twice and every dependency is registered, the order is the graph's. -/
theorem orderOfAll_eq (hd : (seeders.map Seeder.name).Nodup) (hc : (graphOf seeders).Closed) :
    orderOfAll seeders = (graphOf seeders).topologicalOrder.mapError .ofGraph := by
  unfold orderOfAll Graph.validateReferences
  rw [requireDistinct_ok hd, Graph.dangling?_eq_none.mpr hc]
  rfl

theorem resolveAll_eq (seeders : List Seeder) (s : Session) :
    resolveAll seeders s =
      match orderOfAll seeders with
      | .ok names => .ok (pick seeders names) (s.saying [.orderResolved names])
      | .error f => .error f s := by
  unfold resolveAll
  rcases orderOfAll seeders with f | names <;> rfl

/-- Every refusal of seeders is a failure of the engine. -/
theorem Refused.isEngine {f : Failure} (h : Refused seeders f) : f.isEngine = true := by
  cases h <;> rfl

theorem Refused.ne_nil {f : Failure} (h : Refused seeders f) : seeders ≠ [] := by
  rintro rfl
  cases h with
  | duplicate hn => exact absurd hn (Nat.not_lt_zero 1)
  | dangling _ hx => exact absurd hx List.not_mem_nil
  | cycle _ _ hcycle =>
    obtain ⟨a, _, b, hab, _⟩ := hcycle.loops
    exact absurd hab List.not_mem_nil

/-- The order of all seeders does not depend on the session, nor does the failure that
refuses them; either way nothing else becomes of the session. -/
theorem resolveAll_cases (seeders : List Seeder) :
    (WellFormed seeders ∧ ∃ order, InOrder seeders order ∧ (resolveAll seeders).Says order) ∨
      ∃ f, Refused seeders f ∧ ∀ s, resolveAll seeders s = .error f s := by
  rcases orderOfAll_cases seeders with ⟨names, hok, hw, hplaced⟩ | ⟨f, herr, _, hf⟩
  · refine .inl ⟨hw, pick seeders names, inOrder_pick hw.distinct hplaced,
      [.orderResolved names], fun s => ?_⟩
    rw [resolveAll_eq, hok]
  · refine .inr ⟨f, hf, fun s => ?_⟩
    rw [resolveAll_eq, herr]

/-- Seeders that are resolved in one session are so in every session. -/
theorem resolveAll_ok (h : resolveAll seeders q = .ok order q') :
    WellFormed seeders ∧ InOrder seeders order ∧ (resolveAll seeders).Says order := by
  rcases resolveAll_cases seeders with ⟨hw, order', hin, said, hres⟩ | ⟨f, _, hres⟩
  · obtain ⟨rfl, _⟩ : order' = order ∧ q.saying said = q' := by
      rw [hres q] at h
      exact EStateM.Result.ok.inj h
    exact ⟨hw, hin, said, hres⟩
  · rw [hres q] at h
    cases h

/-! ## One seeder -/

theorem resolveFor_eq (seeders : List Seeder) (name : String) (s : Session) :
    resolveFor seeders name s =
      match find seeders name with
      | .error f => .error f s
      | .ok target =>
        match orderFor seeders target.name with
        | .error f => .error f s
        | .ok names =>
          .ok (pick seeders names) (s.saying [.orderResolvedFor target.name names]) := by
  unfold resolveFor
  rcases find seeders name with f | target
  · rfl
  · have htarget : lift (.ok target) s = .ok target s := rfl
    rw [Work.bind_ok htarget]
    dsimp only
    rcases orderFor seeders target.name with f | names <;> rfl

theorem mem_of_named? (h : named? seeders name = some x) : x ∈ seeders :=
  List.mem_of_find?_eq_some h

theorem mem_of_mem_pick {names : List String} (h : x ∈ pick seeders names) : x ∈ seeders := by
  obtain ⟨n, _, hn⟩ := List.mem_filterMap.mp h
  exact mem_of_named? hn

/-- Where no name comes twice, a name stands for one of the seeders, or it is the name of
none and is not found. -/
theorem find_cases (hd : (seeders.map Seeder.name).Nodup) (name : String) :
    (∃ x ∈ seeders, find seeders name = .ok x) ∨
      (name ∉ seeders.map Seeder.name ∧
        find seeders name = .error (.registration (.notFound name))) := by
  unfold find
  rw [requireDistinct_ok hd]
  simp only [bind, Except.bind, pure, Except.pure]
  split
  · rename_i x hx
    refine .inl ⟨x, ?_, rfl⟩
    rcases Option.or_eq_some_iff.mp hx with h | ⟨_, h⟩
    · exact mem_of_named? h
    · split at h
      · cases h
      · exact mem_of_named? h
  · rename_i hnone
    refine .inr ⟨fun hname => ?_, rfl⟩
    obtain ⟨x, hx, rfl⟩ := List.mem_map.mp hname
    rw [named?_of_mem hd hx] at hnone
    cases hnone

/-- The prerequisites of every seeder of a well-formed list are found. -/
theorem orderFor_ok (hw : WellFormed seeders) (hx : x ∈ seeders) :
    ∃ names, orderFor seeders x.name = .ok names := by
  have hc := (closed_graphOf hw.distinct).mpr hw.registered
  have hnode : x.name ∈ (graphOf seeders).names := by
    rw [names_graphOf hw.distinct]
    exact List.mem_map_of_mem hx
  unfold orderFor
  rcases Graph.dependencyClosure_of_closed hc hnode with ⟨names, hok⟩ | ⟨walk, hcycle⟩
  · rw [hok]
    exact ⟨names, rfl⟩
  · obtain ⟨a, b, _, hab, hba⟩ := Graph.reachesCycle_of_dependencyClosure hcycle
    have hloop := Relation.TransGen.head' hab (Graph.reaches_iff.mp hba)
    rw [dependsOn_graphOf hw.distinct] at hloop
    exact absurd hloop (hw.acyclic a)

/-- In a well-formed list the seeder that a name stands for is resolved to seeders of the list,
or it is the name of none and is not found; either way nothing else becomes of the session. -/
theorem resolveFor_cases (hw : WellFormed seeders) (name : String) :
    (∃ order, (∀ y ∈ order, y ∈ seeders) ∧ (resolveFor seeders name).Says order) ∨
      (name ∉ seeders.map Seeder.name ∧
        ∀ s, resolveFor seeders name s = .error (.registration (.notFound name)) s) := by
  rcases find_cases hw.distinct name with ⟨x, hx, hfind⟩ | ⟨hname, hfind⟩
  · obtain ⟨names, hnames⟩ := orderFor_ok hw hx
    refine .inl ⟨pick seeders names, fun _ => mem_of_mem_pick, [.orderResolvedFor x.name names], ?_⟩
    intro s
    simp only [resolveFor_eq, hfind, hnames]
  · refine .inr ⟨hname, fun s => ?_⟩
    rw [resolveFor_eq, hfind]

end SchemaLedger.Seeding
