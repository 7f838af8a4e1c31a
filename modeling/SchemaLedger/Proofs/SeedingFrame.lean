-- What seeding leaves alone. Whatever reports keep and a run of each seeder keeps is kept by
-- every run of them and by their list, also where they cannot be put in order.
import SchemaLedger.Proofs.Discipline
import SchemaLedger.Proofs.SeederListing

namespace SchemaLedger

namespace Seeding

variable {seeders order : List Seeder} {P : Session → Prop} {s : Session}

/-! ## From the request to the seeders -/

/-- A name is resolved to registered seeders, or to nothing; the session only hears of it. -/
theorem resolveFor_any (seeders : List Seeder) (name : String) :
    (∃ order, (∀ x ∈ order, x ∈ seeders) ∧ (resolveFor seeders name).Says order) ∨
      ∃ f, ∀ s, resolveFor seeders name s = .error f s := by
  rcases hfind : find seeders name with f | target
  · refine .inr ⟨f, fun s => ?_⟩
    rw [resolveFor_eq, hfind]
  · rcases hnames : orderFor seeders target.name with f | names
    · refine .inr ⟨f, fun s => ?_⟩
      simp only [resolveFor_eq, hfind, hnames]
    · refine .inl ⟨pick seeders names, fun _ => mem_of_mem_pick,
        [.orderResolvedFor target.name names], fun s => ?_⟩
      simp only [resolveFor_eq, hfind, hnames]

/-- A run takes registered seeders in turn, between reports, or it only reports and fails. -/
theorem run_any (seeders : List Seeder) (failFast : Bool) (name : String) :
    (∃ order said last stops, (∀ x ∈ order, x ∈ seeders) ∧ ∀ s,
        (Seeding.mk seeders failFast).run name s =
          concluded last (runEach stops {} order (s.saying said))) ∨
      ∃ f said, ∀ s, (Seeding.mk seeders failFast).run name s = .error f (s.saying said) := by
  by_cases hname : name = ""
  · subst hname
    rcases resolveAll_cases seeders with ⟨_, order, hin, said, hres⟩ | ⟨f, hf, hres⟩
    · obtain ⟨said', last, hrun⟩ := run_all (hres {})
      exact .inl ⟨order, said', last, failFast, fun _ => hin.perm.mem_iff.mp, hrun failFast⟩
    · exact .inr ⟨f, _, run_all_refused hf hres failFast⟩
  · rcases resolveFor_any seeders name with ⟨order, horder, said, hres⟩ | ⟨f, hres⟩
    · obtain ⟨last, hrun⟩ := run_named hname hres
      exact .inl ⟨order, said, last, true, horder, hrun failFast⟩
    · refine .inr ⟨f, if f.isEngine then [.orderFailedFor name f] else [], fun s => ?_⟩
      have hempty : name.isEmpty = false := by simpa using hname
      simp only [run, runNamed, hempty, Bool.false_eq_true, if_false]
      rw [Work.bind_error (reporting_failed (hres s) _)]

/-! ## What all of it keeps -/

/-- A property of sessions that reports do not touch. -/
def Silent (P : Session → Prop) : Prop := ∀ s events, P s → P (s.saying events)

theorem runEach_keeps (hsilent : Silent P)
    (hone : ∀ x ∈ order, ∀ s, P s → P (Session.after (runOne x s))) (stops : Bool)
    (report : SeedReport) (hs : P s) : P (Session.after (runEach stops report order s)) := by
  induction order generalizing report s with
  | nil => exact hs
  | cons x rest ih =>
    have hx := hone x List.mem_cons_self s hs
    -- the rest starts where the turn ends, with one more report if the seeder failed
    have hnext : P (Turn.mk x s).next := by
      unfold Turn.next
      rcases hrun : runOne x s with ⟨_, s'⟩ | ⟨f, s'⟩
      · rw [hrun] at hx
        exact hx
      · rw [hrun] at hx
        exact hsilent s' _ hx
    rcases runEach_step stops report x rest s with ⟨f, s', hfail, hrun⟩ | ⟨report', hrun⟩
    · rw [hfail] at hx
      rw [hrun]
      exact hx
    · rw [hrun]
      exact ih (fun y hy => hone y (List.mem_cons_of_mem _ hy)) report' hnext

theorem run_keeps (hsilent : Silent P)
    (hone : ∀ x ∈ seeders, ∀ s, P s → P (Session.after (runOne x s))) (failFast : Bool)
    (name : String) (hs : P s) :
    P (Session.after ((Seeding.mk seeders failFast).run name s)) := by
  rcases run_any seeders failFast name with ⟨order, said, last, stops, horder, hrun⟩ | ⟨f, said, hrun⟩
  · have hall := runEach_keeps hsilent (fun x hx => hone x (horder x hx)) stops {}
      (hsilent s said hs)
    rw [hrun]
    rcases hend : runEach stops {} order (s.saying said) with ⟨report, s'⟩ | ⟨f, s'⟩
    · rw [hend] at hall
      exact hsilent s' _ hall
    · rw [hend] at hall
      exact hall
  · rw [hrun]
    exact hsilent s said hs

theorem list_keeps (hsilent : Silent P) (seeders : List Seeder) (failFast : Bool) (hs : P s) :
    P (Session.after ((Seeding.mk seeders failFast).list s)) := by
  rcases resolveAll_cases seeders with ⟨_, order, _, said, hres⟩ | ⟨f, hf, hres⟩
  · obtain ⟨said', hlist⟩ := says_list_resolved (hres {}) failFast
    rw [hlist]
    exact hsilent s said' hs
  · obtain ⟨said', hlist⟩ := says_list_refused hf hres failFast
    rw [hlist]
    exact hsilent s said' hs

/-! ## The rows of a table -/

/-- A session between transactions whose store shows `found` for a table. -/
structure ShowsTable (table : String) (found : Option Table) (s : Session) : Prop where
  between : s.Between
  found : s.store.find? table = found

variable {table : String} {found : Option Table}

theorem silent_showsTable (table : String) (found : Option Table) :
    Silent (ShowsTable table found) :=
  fun _ events hs => ⟨hs.between.saying events, hs.found⟩

/-- A seeder that stays in its transaction, does not name a table and is not broken off leaves the
table. -/
theorem runOne_keeps_table {x : Seeder} (ho : x.run.LeavesOpen) (ha : x.run.Avoids table)
    (hp : x.run.Plain) (hs : ShowsTable table found s) :
    ShowsTable table found (Session.after (runOne x s)) := by
  have hbreaks : (Turn.mk x s).breaksOff? = none :=
    Turn.breaksOff?_of_plain (t := Turn.mk x s) hs.between.faults hp
  rcases (Turn.mk x s).step hs.between ho with
    ⟨_, hreturns, hleaves⟩ | ⟨_, _, f, s', hrun, _, _, hleaves⟩ | ⟨_, g, _, hsome, _⟩
  · have hrun : runOne x s = .ok () (Turn.mk x s).next := hreturns
    rw [hrun]
    refine ⟨hleaves.between hs.between, ?_⟩
    rw [Session.after, hleaves.store_eq]
    exact (Routine.find?_effect ha _ _ _).trans hs.found
  · have hrun : runOne x s = .error f s' := hrun
    rw [hrun]
    refine ⟨hleaves.between hs.between, ?_⟩
    rw [Session.after, hleaves.store_eq]
    exact hs.found
  · exact nomatch hbreaks.symm.trans hsome

end Seeding
end SchemaLedger
