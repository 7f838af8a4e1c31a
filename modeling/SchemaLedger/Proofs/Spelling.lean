-- Prerequisites by plain recursion. To spell a name is to spell its dependencies in turn and
-- then to write the name, so what is needed twice is written twice. The prerequisites that are
-- gathered are the spelling with the first writing of each name kept; hence those of a node
-- come from those of its dependencies, found one by one.
import SchemaLedger.Proofs.PrerequisiteOrder

namespace SchemaLedger.Graph

variable {g : Graph} {target node name n : String}
  {deps done below all path names order rest spelled other : List String}

/-! ## First writings -/

section FirstWritings

variable {xs ys xs' ys' : List String}

theorem eraseDups_of_nodup (h : xs.Nodup) : xs.eraseDups = xs := by
  induction xs with
  | nil => rfl
  | cons a xs ih =>
    obtain ⟨hnew, hd⟩ := List.nodup_cons.mp h
    have hkeep : xs.filter (fun b => !b == a) = xs := by
      refine List.filter_eq_self.mpr fun b hb => ?_
      have hne : b ≠ a := fun he => hnew (he ▸ hb)
      simp [hne]
    rw [List.eraseDups_cons, hkeep, ih hd]

/-- Which names are left out does not matter to which writings of the others come first. -/
theorem eraseDups_filter (p : String → Bool) (xs : List String) :
    (xs.filter p).eraseDups = xs.eraseDups.filter p := by
  match xs with
  | [] => rfl
  | a :: xs =>
    have ih := eraseDups_filter p (xs.filter fun b => !b == a)
    by_cases ha : p a = true
    · rw [List.filter_cons_of_pos ha, List.eraseDups_cons, List.eraseDups_cons,
        List.filter_cons_of_pos ha, ← ih, List.filter_comm]
    · -- the first writing of `a` goes, and with it every later one
      have hgone : (xs.filter fun b => !b == a).filter p = xs.filter p := by
        rw [List.filter_filter]
        refine List.filter_congr fun b _ => ?_
        by_cases hb : b = a <;> simp [hb, ha]
      rw [List.filter_cons_of_neg ha, List.eraseDups_cons, List.filter_cons_of_neg ha, ← ih, hgone]
termination_by xs.length
decreasing_by
  have := List.length_filter_le (fun b => !b == a) xs
  simp only [List.length_cons]
  omega

/-- Two texts with the same first writings may stand for each other. -/
theorem eraseDups_append_congr (hx : xs.eraseDups = xs'.eraseDups)
    (hy : ys.eraseDups = ys'.eraseDups) : (xs ++ ys).eraseDups = (xs' ++ ys').eraseDups := by
  have hmem : ∀ a, a ∈ xs ↔ a ∈ xs' := by
    intro a
    rw [← List.mem_eraseDups, hx, List.mem_eraseDups]
  have hrest : (fun a => !xs.elem a) = fun a => !xs'.elem a := by
    funext a
    simp [hmem]
  rw [List.eraseDups_append, List.eraseDups_append, hx, List.removeAll, List.removeAll,
    eraseDups_filter, eraseDups_filter, hy, hrest]

/-- What has been written before adds nothing. -/
theorem eraseDups_append_of_subset (h : ys ⊆ xs) : (xs ++ ys).eraseDups = xs.eraseDups := by
  have hnone : ys.removeAll xs = [] := by
    refine List.filter_eq_nil_iff.mpr fun a ha => ?_
    simpa using h ha
  rw [List.eraseDups_append, hnone, List.eraseDups_nil, List.append_nil]

end FirstWritings

/-! ## Spelling -/

/-- `Spelled names spelled` says that `spelled` writes `names` one after the other, each behind
its own dependencies, which are spelled in the same way. -/
inductive Spelled (g : Graph) : List String → List String → Prop where
  | nil : Spelled g [] []
  | cons {name : String} {rest below after : List String} :
      Spelled g (g.deps name) below → Spelled g rest after →
        Spelled g (name :: rest) (below ++ name :: after)

/-- There is one way to spell names. -/
theorem Spelled.unique (h : g.Spelled names spelled) (k : g.Spelled names other) :
    spelled = other := by
  induction h generalizing other with
  | nil =>
    cases k
    rfl
  | cons _ _ ihbelow ihafter =>
    cases k with
    | cons hbelow hafter => rw [ihbelow hbelow, ihafter hafter]

theorem spelled_singleton :
    g.Spelled [name] spelled ↔ ∃ below, g.Spelled (g.deps name) below ∧
      spelled = below ++ [name] := by
  constructor
  · intro h
    cases h with
    | cons hbelow hafter =>
      cases hafter
      exact ⟨_, hbelow, rfl⟩
  · rintro ⟨below, hbelow, rfl⟩
    exact .cons hbelow .nil

/-- Names are spelled one by one. -/
theorem Spelled.join (h : g.Spelled [name] spelled) (k : g.Spelled rest other) :
    g.Spelled (name :: rest) (spelled ++ other) := by
  obtain ⟨below, hbelow, rfl⟩ := spelled_singleton.mp h
  rw [List.append_assoc, List.singleton_append]
  exact .cons hbelow k

/-- Names whose dependencies are spelled within `done`, where they stand too, are spelled
within `done`. -/
theorem exists_spelled_within (hnames : names ⊆ done)
    (h : ∀ n ∈ names, ∃ below, g.Spelled (g.deps n) below ∧ below ⊆ done) :
    ∃ spelled, g.Spelled names spelled ∧ spelled ⊆ done := by
  induction names with
  | nil => exact ⟨[], .nil, by simp⟩
  | cons n rest ih =>
    obtain ⟨below, hbelow, hin⟩ := h n List.mem_cons_self
    obtain ⟨hn, hrest⟩ := List.cons_subset.mp hnames
    obtain ⟨after, hafter, hin'⟩ := ih hrest fun m hm => h m (List.mem_cons_of_mem _ hm)
    refine ⟨below ++ n :: after, .cons hbelow hafter, ?_⟩
    exact List.append_subset.mpr ⟨hin, List.cons_subset.mpr ⟨hn, hin'⟩⟩

/-- In an order nothing is written below a name that does not stand in the order. -/
theorem DependenciesFirst.exists_spelled (h : g.DependenciesFirst order) :
    ∀ n ∈ order, ∃ below, g.Spelled (g.deps n) below ∧ below ⊆ order := by
  induction order using List.reverseRecOn with
  | nil => simp
  | append_singleton before a ih =>
    have hbefore := ih h.of_append
    have hsub : before ⊆ before ++ [a] := List.subset_append_left before [a]
    intro n hn
    rcases List.mem_append.mp hn with hn | hn
    · obtain ⟨below, hbelow, hin⟩ := hbefore n hn
      exact ⟨below, hbelow, List.Subset.trans hin hsub⟩
    · obtain rfl := List.mem_singleton.mp hn
      have hdeps : g.deps n ⊆ before := h before n [] rfl
      obtain ⟨below, hbelow, hin⟩ :=
        exists_spelled_within hdeps fun d hd => hbefore d (hdeps hd)
      exact ⟨below, hbelow, List.Subset.trans hin hsub⟩

/-! ## What is gathered is what is spelled -/

/-- A gathering adds to the names that are done the first writings of what it spells. The names
that it passes over are spelled within those that are done, so they would add nothing. -/
theorem gather_spelled (h : g.gather path done node deps = .ok all) (hdone : g.Arranged done) :
    ∃ spelled, g.Spelled deps spelled ∧ all = (done ++ spelled).eraseDups := by
  fun_induction gather g path done node deps generalizing all with
  | case1 path done node =>
    obtain rfl : done = all := Except.ok.inj h
    refine ⟨[], .nil, ?_⟩
    rw [List.append_nil, eraseDups_of_nodup hdone.distinct]
  | case2 => cases h
  | case3 path done node dep rest _ _ hold ih =>
    -- `dep` is passed over; `done` holds all that it would write
    obtain ⟨below, hbelow, hin⟩ := hdone.sorted.exists_spelled dep hold
    obtain ⟨after, hafter, rfl⟩ := ih h hdone
    refine ⟨below ++ dep :: after, .cons hbelow hafter, ?_⟩
    have hadd : (done ++ (below ++ [dep])).eraseDups = done.eraseDups := by
      refine eraseDups_append_of_subset (List.append_subset.mpr ⟨hin, ?_⟩)
      simpa using hold
    have hcut : done ++ (below ++ dep :: after) = done ++ (below ++ [dep]) ++ after := by simp
    rw [hcut]
    exact eraseDups_append_congr hadd.symm rfl
  | case4 => cases h
  | case5 path done node dep rest hdep _ hnew below hbelow ihbelow ih =>
    -- `below` has the first writings of what `done` and the spelling below `dep` write
    have harranged := arranged_of_gather hbelow hdone
    have hgathered := gathered_of_gather hbelow
    obtain ⟨under, hunder, hwritten⟩ := ihbelow hbelow hdone
    obtain ⟨after, hafter, rfl⟩ := ih h
      (harranged.snoc hdep (hgathered.not_mem hdone.sorted hnew) hgathered.holds)
    refine ⟨under ++ dep :: after, .cons hunder hafter, ?_⟩
    have hsame : below.eraseDups = (done ++ under).eraseDups := by
      rw [eraseDups_of_nodup harranged.distinct, ← hwritten]
    have hcut : done ++ (under ++ dep :: after) = done ++ under ++ ([dep] ++ after) := by simp
    rw [hcut, List.append_assoc]
    exact eraseDups_append_congr hsame rfl
  | case6 => cases h

/-- The prerequisites of a target are the first writings of what its spelling writes. -/
theorem dependencyClosure_spelled (h : g.dependencyClosure target = .ok names) :
    ∃ spelled, g.Spelled [target] spelled ∧ names = spelled.eraseDups := by
  obtain ⟨below, hbelow, rfl, harranged, hall⟩ := dependencyClosure_eq_ok h
  obtain ⟨under, hunder, hwritten⟩ := gather_spelled hbelow (.nil g)
  refine ⟨under ++ [target], spelled_singleton.mpr ⟨under, hunder, rfl⟩, ?_⟩
  have hsame : below.eraseDups = under.eraseDups := by
    rw [eraseDups_of_nodup harranged.distinct]
    exact hwritten
  rw [← eraseDups_append_congr hsame rfl, eraseDups_of_nodup hall.distinct]

/-- Prerequisites found one by one and put in a row have the first writings of the spelling. -/
theorem mapM_dependencyClosure (h : ∀ n ∈ names, ∃ found, g.dependencyClosure n = .ok found) :
    ∃ parts, names.mapM g.dependencyClosure = .ok parts ∧
      ∃ spelled, g.Spelled names spelled ∧ parts.flatten.eraseDups = spelled.eraseDups := by
  induction names with
  | nil => exact ⟨[], rfl, [], .nil, rfl⟩
  | cons n rest ih =>
    obtain ⟨found, hfound⟩ := h n List.mem_cons_self
    obtain ⟨parts, hparts, after, hafter, hsame⟩ := ih fun m hm => h m (List.mem_cons_of_mem _ hm)
    obtain ⟨written, hwritten, hfirst⟩ := dependencyClosure_spelled hfound
    obtain ⟨_, _, _, _, harranged⟩ := dependencyClosure_eq_ok hfound
    refine ⟨found :: parts, ?_, written ++ after, hwritten.join hafter, ?_⟩
    · rw [List.mapM_cons, hfound, hparts]
      rfl
    · rw [List.flatten_cons]
      refine eraseDups_append_congr ?_ hsame
      rw [eraseDups_of_nodup harranged.distinct, hfirst]

/-- Where a target reaches nodes only and no cycle, its prerequisites are those of its
dependencies in turn, found one by one, and then the target, with the first writing of each
name kept. -/
theorem prerequisites_come_from_those_of_the_dependencies
    (hnodes : ∀ n, g.Reaches target n → n ∈ g.names) (hfree : ¬ g.ReachesCycle target) :
    ∃ parts, (g.deps target).mapM g.dependencyClosure = .ok parts ∧
      g.dependencyClosure target = .ok (parts.flatten ++ [target]).eraseDups := by
  have hfound : ∀ d ∈ g.deps target, ∃ found, g.dependencyClosure d = .ok found := by
    intro d hd
    refine dependencyClosure_isOk_iff.mpr ⟨fun n hn => hnodes n (.step hd hn), ?_⟩
    rintro ⟨a, b, hda, hab, hba⟩
    exact hfree ⟨a, b, .step hd hda, hab, hba⟩
  obtain ⟨parts, hparts, under, hunder, hsame⟩ := mapM_dependencyClosure hfound
  obtain ⟨names, hok⟩ := dependencyClosure_isOk_iff.mpr ⟨hnodes, hfree⟩
  obtain ⟨spelled, hspelled, hnames⟩ := dependencyClosure_spelled hok
  obtain ⟨below, hbelow, rfl⟩ := spelled_singleton.mp hspelled
  obtain rfl := hbelow.unique hunder
  refine ⟨parts, hparts, ?_⟩
  rw [hok, hnames, eraseDups_append_congr hsame rfl]

/-- Three dependencies, one of them listed twice, share what they need; each alone would write
it anew. -/
theorem shared_prerequisites_are_written_once :
    let g := Graph.ofList [("t", ["b", "a", "b"]), ("a", ["d", "c"]), ("b", ["c"]), ("c", []),
      ("d", ["c"]), ("z", ["z"])]
    let parts := [["c", "b"], ["c", "d", "a"], ["c", "b"]]
    (∀ n, g.Reaches "t" n → n ∈ g.names) ∧ ¬ g.ReachesCycle "t" ∧
      (g.deps "t").mapM g.dependencyClosure = .ok parts ∧
      g.dependencyClosure "t" = .ok (parts.flatten ++ ["t"]).eraseDups ∧
      (parts.flatten ++ ["t"]).eraseDups = ["c", "b", "d", "a", "t"] := by
  intro g parts
  have hnames : g.names = ["t", "a", "b", "c", "d", "z"] := by decide
  have hdeps : g.deps "t" = ["b", "a", "b"] ∧ g.deps "a" = ["d", "c"] ∧ g.deps "b" = ["c"] ∧
      g.deps "c" = [] ∧ g.deps "d" = ["c"] := by decide
  have hok : g.dependencyClosure "t" = .ok ["c", "b", "d", "a", "t"] := by
    simp [dependencyClosure, gather, hnames, hdeps]
  have hparts : (g.deps "t").mapM g.dependencyClosure = .ok parts := by
    simp [dependencyClosure, gather, hnames, hdeps, parts, bind, Except.bind, pure, Except.pure]
  obtain ⟨hnodes, hfree⟩ := dependencyClosure_isOk_iff.mp ⟨_, hok⟩
  obtain ⟨found, hfound, htarget⟩ :=
    prerequisites_come_from_those_of_the_dependencies hnodes hfree
  obtain rfl : parts = found := by simpa [hparts] using hfound
  exact ⟨hnodes, hfree, hparts, htarget, by decide⟩

end SchemaLedger.Graph
