-- The list of seeders beside a run of them. Both resolve the same seeders: either the run
-- calls them in the order that is listed, or it raises what the list says is wrong and
-- nothing has begun.
import SchemaLedger.Proofs.SeedingRun
import SchemaLedger.Seeding.Listing

namespace SchemaLedger.Seeding

variable {seeders order before after : List Seeder} {q q' s r : Session}

/-! ## What is listed -/

theorem says_reportListing (entries : List ListedSeeder) : (reportListing entries).Says () := by
  have hentries (l : List ListedSeeder) :
      (l.forM fun e => Work.report (.listed e.position e.name e.dependencies)).Says () := by
    induction l with
    | nil => exact Work.says_pure ()
    | cons e rest ih => exact (Work.says_report _).bind ih
  exact (Work.says_report _).bind ((hentries entries).bind (Work.says_report _))

/-- Seeders that are put in order are listed in it. -/
theorem says_list_resolved (hres : resolveAll seeders q = .ok order q') (failFast : Bool) :
    (Seeding.mk seeders failFast).list.Says { entries := listed order } := by
  obtain ⟨_, hin, hsays⟩ := resolveAll_ok hres
  by_cases hempty : seeders = []
  · subst hempty
    obtain rfl := List.perm_nil.mp hin.perm
    exact (Work.says_report _).bind (Work.says_pure _)
  · have hempty : seeders.isEmpty = false := by simpa using hempty
    simp only [list, hempty, Bool.false_eq_true, if_false]
    exact hsays.attempt.bind ((says_reportListing _).bind (Work.says_pure _))

/-- Seeders that are refused are listed as they were registered, with the reason. -/
theorem says_list_refused {f : Failure} (hf : Refused seeders f)
    (hres : ∀ s, resolveAll seeders s = .error f s) (failFast : Bool) :
    (Seeding.mk seeders failFast).list.Says { entries := listed seeders, fault := some f } := by
  have hempty : seeders.isEmpty = false := List.isEmpty_eq_false_iff.mpr hf.ne_nil
  simp only [list, hempty, Bool.false_eq_true, if_false]
  refine (Work.says_attempt hres).bind ?_
  simp only [hf.isEngine, if_true]
  exact (Work.says_report _).bind ((says_reportListing _).bind (Work.says_pure _))

/-! ## Positions -/

/-- An entry is a seeder of the order, with how many come up to it. -/
theorem mem_listed {e : ListedSeeder} :
    e ∈ listed order ↔ ∃ before x after, order = before ++ x :: after ∧
      e = ⟨before.length + 1, x.name, x.dependencies⟩ := by
  unfold listed
  constructor
  · intro he
    obtain ⟨i, hi, rfl⟩ := List.mem_mapIdx.mp he
    refine ⟨order.take i, order[i], order.drop (i + 1), ?_, ?_⟩
    · rw [List.getElem_cons_drop, List.take_append_drop]
    · rw [List.length_take_of_le (Nat.le_of_lt hi)]
  · rintro ⟨before, x, after, rfl, rfl⟩
    rw [List.mapIdx_append, List.mapIdx_cons]
    simp

theorem map_name_listed (order : List Seeder) :
    (listed order).map ListedSeeder.name = order.map Seeder.name := by
  refine List.ext_getElem (by simp [listed]) fun i _ _ => ?_
  simp [listed]

/-- In an order that runs every dependency first, each one is listed before its dependents. -/
theorem InOrder.listed_first (h : InOrder seeders order) :
    ∀ e ∈ listed order, ∀ d ∈ e.dependencies,
      ∃ e' ∈ listed order, e'.name = d ∧ e'.position < e.position := by
  intro e he d hd
  obtain ⟨before, x, after, rfl, rfl⟩ := mem_listed.mp he
  obtain ⟨y, hy, rfl⟩ := List.mem_map.mp (h.first before x after rfl d hd)
  obtain ⟨front, rest, rfl⟩ := List.append_of_mem hy
  refine ⟨_, mem_listed.mpr ⟨front, y, rest ++ x :: after, by simp, rfl⟩, rfl, ?_⟩
  simp only [List.length_append, List.length_cons]
  omega

/-! ## Listing and running -/

/-- A run calls seeders in order as far as their turns return, whatever happens then. -/
theorem run_calls (hres : resolveAll seeders q = .ok order q') :
    ∃ said, ∀ failFast s before after, order = before ++ after →
      (∀ t ∈ turns before (s.saying said), t.Returns) →
      ∃ later, (Session.after ((Seeding.mk seeders failFast).run "" s)).calls =
          s.calls ++ before.map Seeder.call ++ later ∧
        later.Sublist (after.map Seeder.call) := by
  obtain ⟨said, last, hrun⟩ := run_all hres
  refine ⟨said, fun failFast s before after he hret => ?_⟩
  subst he
  obtain ⟨later, hcalls, hsub⟩ := runEach_calls failFast
    { executed := before.map Seeder.name } after (afterTurns before (s.saying said))
  have hcalled := called_of_opens fun t ht => (hret t ht).opens
  rw [calls_afterTurns, hcalled] at hcalls
  refine ⟨later, ?_, hsub⟩
  rw [hrun, calls_concluded, runEach_append failFast {} after hret]
  exact hcalls

/-- The list of any seeders at all is given, and nothing begins. If it says no reason against
them, each dependency comes before its dependents, and a run calls the seeders as listed, as far
as none fails. Otherwise they come as they were registered, and a run raises the reason and
nothing has begun. -/
theorem listing_and_running_seeders_agree (x : Seeding) (s r : Session) :
    ∃ listing s' order, x.list s = .ok listing s' ∧ s'.handle = s.handle ∧ s'.calls = s.calls ∧
      order.Perm x.seeders ∧
      listing.entries = order.mapIdx (fun i y => ⟨i + 1, y.name, y.dependencies⟩) ∧
      ((listing.resolved = true ∧ (listing.entries.map ListedSeeder.name).Nodup ∧
          (∀ e ∈ listing.entries, ∀ d ∈ e.dependencies,
            ∃ e' ∈ listing.entries, e'.name = d ∧ e'.position < e.position) ∧
          ∃ said, ∀ before after, order = before ++ after →
            (∀ t ∈ turns before (r.saying said), t.Returns) →
            ∃ later, (Session.after (x.run "" r)).calls =
                r.calls ++ before.map Seeder.call ++ later ∧
              later.Sublist (after.map Seeder.call)) ∨
        (order = x.seeders ∧ ∃ f r', listing.fault = some f ∧ x.run "" r = .error f r' ∧
          r'.handle = r.handle ∧ r'.calls = r.calls)) := by
  obtain ⟨seeders, failFast⟩ := x
  rcases resolveAll_cases seeders with ⟨hw, order, hin, said, hres⟩ | ⟨f, hf, hres⟩
  · obtain ⟨_, hlist⟩ := says_list_resolved (hres s) failFast
    obtain ⟨said', hcalls⟩ := run_calls (hres s)
    refine ⟨_, _, order, hlist s, rfl, rfl, hin.perm, rfl, .inl ⟨rfl, ?_, hin.listed_first, ?_⟩⟩
    · rw [map_name_listed]
      exact nodup_names (hres s)
    · exact ⟨said', fun before after => hcalls failFast r before after⟩
  · obtain ⟨_, hlist⟩ := says_list_refused hf hres failFast
    exact ⟨_, _, seeders, hlist s, rfl, rfl, .refl _, rfl,
      .inr ⟨rfl, f, _, rfl, run_all_refused hf hres failFast r, rfl, rfl⟩⟩

/-- Two seeders are listed with the one that the other needs first, and called like that. -/
theorem two_seeders_are_called_as_listed :
    let a : Seeder := { name := "a", run := .done }
    let b : Seeder := { name := "b", dependencies := ["a"], run := .done }
    let x : Seeding := { seeders := [b, a] }
    let s : Session := { clock := .still 0 }
    ∃ listing s', x.list s = .ok listing s' ∧ listing.entries = [⟨1, "a", []⟩, ⟨2, "b", ["a"]⟩] ∧
      (Session.after (x.run "" s)).calls = [a.call, b.call] := by
  intro a b x s
  obtain ⟨listing, s', order, hlist, _, _, hperm, hentries, hagree⟩ :=
    listing_and_running_seeders_agree x s s
  have hlisted : (returned? (x.list s)).map (fun l => (l.resolved, l.entries)) =
      some (true, [⟨1, "a", []⟩, ⟨2, "b", ["a"]⟩]) := by decide +kernel
  rw [hlist] at hlisted
  obtain ⟨hresolved, hshown⟩ := Prod.mk.inj (Option.some.inj hlisted)
  have hnames : order.map Seeder.name = ["a", "b"] :=
    (map_name_listed order).symm.trans
      (congrArg (List.map ListedSeeder.name) (hentries.symm.trans hshown))
  obtain rfl : order = [a, b] := by
    obtain ⟨y, z, rfl⟩ := List.length_eq_two.mp hperm.length_eq
    have hy : y = b ∨ y = a := by simpa [x] using hperm.subset List.mem_cons_self
    have hz : z = b ∨ z = a := by
      simpa [x] using hperm.subset (List.mem_cons_of_mem y List.mem_cons_self)
    rcases hy with rfl | rfl
    · exact absurd hnames (by simp [b])
    · rcases hz with rfl | rfl
      · rfl
      · exact absurd hnames (by simp [a])
  refine ⟨listing, s', hlist, hshown, ?_⟩
  rcases hagree with ⟨_, _, _, said, hcalls⟩ | ⟨horder, _⟩
  · have hreturn : ∀ t ∈ turns [a, b] (s.saying said), t.Returns :=
      List.forall_mem_cons.mpr ⟨rfl, List.forall_mem_cons.mpr ⟨rfl, by simp [turns]⟩⟩
    obtain ⟨later, hall, hnone⟩ := hcalls [a, b] [] rfl hreturn
    obtain rfl := List.sublist_nil.mp hnone
    exact hall
  · exact absurd (congrArg (List.map Seeder.name) horder) (by decide)

end SchemaLedger.Seeding
