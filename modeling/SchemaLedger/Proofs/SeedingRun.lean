-- Runs of seeders as their turns. A run that goes on after failures reports every seeder as
-- executed or failed and leaves what the executed ones did, unless one is broken off. A run
-- that stops is that run cut at its first failure, and a run of one seeder with its
-- prerequisites always stops.
import Mathlib.Data.List.Nodup
import SchemaLedger.Proofs.SeederResolution
import SchemaLedger.Proofs.SeederTurns

namespace SchemaLedger.Seeding

variable {seeders order before after : List Seeder} {q q' s : Session} {x : Seeder} {name : String}

/-! ## From the request to the turns -/

/-- The result of a run, with its last report if it returns. -/
def concluded (last : SeedReport → Event) :
    EStateM.Result Failure Session SeedReport → EStateM.Result Failure Session SeedReport
  | .ok report s => .ok report (s.saying [last report])
  | .error f s => .error f s

theorem calls_concluded (last : SeedReport → Event)
    (result : EStateM.Result Failure Session SeedReport) :
    (Session.after (concluded last result)).calls = (Session.after result).calls := by
  cases result <;> rfl

theorem bind_conclude (w : Work SeedReport) (last : SeedReport → Event) (s : Session) :
    (w >>= fun report => Work.report (last report) >>= fun _ => pure report) s =
      concluded last (w s) := by
  rcases h : w s with ⟨report, s'⟩ | ⟨f, s'⟩
  · rw [Work.bind_ok h]
    rfl
  · rw [Work.bind_error h]
    rfl

theorem reporting_ok {α : Type} {w : Work α} {a : α} {s' : Session} (h : w s = .ok a s')
    (event : Failure → Event) : reporting w event s = .ok a s' := by
  unfold reporting
  rw [Work.bind_ok (Work.attempt_ok h)]
  rfl

/-- A failure of the engine is reported. -/
theorem reporting_failed {α : Type} {w : Work α} {f : Failure} {s' : Session}
    (h : w s = .error f s') (event : Failure → Event) :
    reporting w event s = .error f (s'.saying (if f.isEngine then [event f] else [])) := by
  unfold reporting
  rw [Work.bind_ok (Work.attempt_error h)]
  rcases hf : f.isEngine with _ | _
  · simp only [hf, Bool.false_eq_true, if_false, Session.saying_nil]
    rfl
  · simp only [hf, if_true]
    rfl

theorem reporting_error {α : Type} {w : Work α} {f : Failure} {s' : Session}
    (h : w s = .error f s') (hf : f.isEngine = true) (event : Failure → Event) :
    reporting w event s = .error f (s'.saying [event f]) := by
  rw [reporting_failed h, if_pos hf]

/-- The last report of a run of all seeders. -/
def lastReport (report : SeedReport) : Event :=
  if report.success then .allSeeded report.executed.length else .someSeedersFailed report.failed

theorem runAll_eq (hne : seeders ≠ []) (failFast : Bool) (s : Session) :
    (Seeding.mk seeders failFast).run "" s =
      (reporting (resolveAll seeders) .orderFailed >>= fun order =>
        runEach failFast {} order >>= fun report =>
          Work.report (lastReport report) >>= fun _ => pure report)
        (s.saying [.seeding seeders.length]) := by
  have hlast (report : SeedReport) : (do
      if report.success then Work.report (.allSeeded report.executed.length)
      else Work.report (.someSeedersFailed report.failed)
      return report) = Work.report (lastReport report) >>= fun _ => pure report := by
    unfold lastReport
    split <;> rfl
  have hempty : seeders.isEmpty = false := by simpa using hne
  have hname : "".isEmpty = true := rfl
  simp only [run, runAll, hempty, hname, if_true, Bool.false_eq_true, if_false, hlast]
  rfl

/-- A run of all seeders takes their turns in the order that they are resolved to. -/
theorem run_all (hres : resolveAll seeders q = .ok order q') :
    ∃ said last, ∀ failFast s, (Seeding.mk seeders failFast).run "" s =
      concluded last (runEach failFast {} order (s.saying said)) := by
  obtain ⟨_, hin, said, hres⟩ := resolveAll_ok hres
  by_cases hempty : seeders = []
  · subst hempty
    obtain rfl := List.perm_nil.mp hin.perm
    refine ⟨[], fun _ => .noSeeders, fun failFast s => ?_⟩
    simp only [run, runAll, runEach, Session.saying, List.append_nil]
    rfl
  · refine ⟨.seeding seeders.length :: said, lastReport, fun failFast s => ?_⟩
    rw [runAll_eq hempty, Work.bind_ok (reporting_ok (hres _) _), Session.saying_saying,
      bind_conclude]
    rfl

/-- A run of one seeder takes the turns that it is resolved to, and stops at a failure whatever
the setting. -/
theorem run_named (hn : name ≠ "") {said : List Event}
    (hres : ∀ s, resolveFor seeders name s = .ok order (s.saying said)) :
    ∃ last, ∀ failFast s, (Seeding.mk seeders failFast).run name s =
      concluded last (runEach true {} order (s.saying said)) := by
  have hname : name.isEmpty = false := by simpa using hn
  refine ⟨fun _ => .namedSeeded ((order.getLast?.map Seeder.name).getD name), fun failFast s => ?_⟩
  simp only [run, runNamed, hname, Bool.false_eq_true, if_false]
  rw [Work.bind_ok (reporting_ok (hres s) _), ← bind_conclude]

theorem run_named_refused (hn : name ≠ "") {f : Failure} (hf : f.isEngine = true)
    (hres : resolveFor seeders name s = .error f s) (failFast : Bool) :
    (Seeding.mk seeders failFast).run name s = .error f (s.saying [.orderFailedFor name f]) := by
  have hname : name.isEmpty = false := by simpa using hn
  simp only [run, runNamed, hname, Bool.false_eq_true, if_false]
  rw [Work.bind_error (reporting_error hres hf _)]

theorem run_all_refused {f : Failure} (hf : Refused seeders f)
    (hres : ∀ s, resolveAll seeders s = .error f s) (failFast : Bool) (s : Session) :
    (Seeding.mk seeders failFast).run "" s =
      .error f (s.saying [.seeding seeders.length, .orderFailed f]) := by
  rw [runAll_eq hf.ne_nil, Work.bind_error (reporting_error (hres _) hf.isEngine _),
    Session.saying_saying]
  rfl

/-! ## Accounting for every seeder -/

/-- What some work returned, if it did. -/
def returned? {α : Type} : EStateM.Result Failure Session α → Option α
  | .ok a _ => some a
  | .error _ _ => none

theorem nodup_names (hres : resolveAll seeders q = .ok order q') :
    (order.map Seeder.name).Nodup := by
  obtain ⟨hw, hin, _⟩ := resolveAll_ok hres
  exact (hin.perm.map Seeder.name).nodup_iff.mpr hw.distinct

theorem leavesOpen_of_resolved (hres : resolveAll seeders q = .ok order q')
    (ho : ∀ y ∈ seeders, y.run.LeavesOpen) : ∀ y ∈ order, y.run.LeavesOpen := by
  obtain ⟨_, hin, _⟩ := resolveAll_ok hres
  exact fun y hy => ho y (hin.perm.subset hy)

/-- Where no name comes twice, a name tells which of some turns it is of. -/
theorem mem_namesOf_filter {ts : List Turn} (hd : (namesOf ts).Nodup) (p : Turn → Bool) {t : Turn}
    (ht : t ∈ ts) : t.seeder.name ∈ namesOf (ts.filter p) ↔ p t = true := by
  unfold namesOf
  constructor
  · intro h
    obtain ⟨u, hu, hname⟩ := List.mem_map.mp h
    obtain ⟨hu, hp⟩ := List.mem_filter.mp hu
    exact List.inj_on_of_nodup_map hd hu ht hname ▸ hp
  · intro hp
    exact List.mem_map_of_mem (List.mem_filter.mpr ⟨ht, hp⟩)

/-- Of seeders with names of their own, each is reported as executed or as failed, and not both. -/
theorem executed_iff_not_failed (hd : (order.map Seeder.name).Nodup) (s : Session) {y : Seeder}
    (hy : y ∈ order) : y.name ∈ (reportOf (turns order s)).executed ↔
      y.name ∉ (reportOf (turns order s)).failed := by
  obtain ⟨t, ht, rfl⟩ : ∃ t ∈ turns order s, t.seeder = y := by
    rw [← map_seeder_turns order s] at hy
    exact List.mem_map.mp hy
  rw [← namesOf_turns order s] at hd
  unfold reportOf
  rw [mem_namesOf_filter hd _ ht, mem_namesOf_filter hd _ ht]
  simp

/-- Both lists of a report keep the running order. -/
theorem namesOf_filter_sublist (p : Turn → Bool) (order : List Seeder) (s : Session) :
    (namesOf ((turns order s).filter p)).Sublist (order.map Seeder.name) := by
  rw [← namesOf_turns order s]
  exact List.filter_sublist.map _

/-- A run of all seeders that goes on after failures returns, if no turn is broken off. Each
seeder is then in just one of its two lists, and both keep the running order; each was called
once unless it got no transaction, and the store holds what the executed seeders' own statements
made of it. Otherwise the first turn that is broken off ends the run, without a report. -/
theorem best_effort_seeding_accounts_for_every_seeder_unless_one_is_broken_off
    (hres : resolveAll seeders q = .ok order q') (hs : s.Between)
    (ho : ∀ y ∈ seeders, y.run.LeavesOpen) :
    ∃ said,
      ((∀ t ∈ turns order (s.saying said), t.breaksOff? = none) ∧
        ∃ report s', (Seeding.mk seeders false).run "" s = .ok report s' ∧
          (order.map Seeder.name).Nodup ∧
          (∀ y ∈ order, y.name ∈ report.executed ↔ y.name ∉ report.failed) ∧
          report.executed.Sublist (order.map Seeder.name) ∧
          report.failed.Sublist (order.map Seeder.name) ∧
          report.executed = namesOf ((turns order (s.saying said)).filter Turn.passes) ∧
          s'.calls = s.calls ++ called (turns order (s.saying said)) ∧
          s'.handle.Idle ∧ s'.store = carried (turns order (s.saying said)) s.store) ∨
      ∃ before x after g s', order = before ++ x :: after ∧
        (∀ t ∈ turns before (s.saying said), t.breaksOff? = none) ∧
        (Seeding.mk seeders false).run "" s = .error g s' ∧
        BrokenOff before x g (s.saying said) s' := by
  obtain ⟨said, last, hrun⟩ := run_all hres
  have hs₀ := hs.saying said
  have ho' := leavesOpen_of_resolved hres ho
  refine ⟨said, ?_⟩
  rcases none_or_first_breaks_off order (s.saying said) with
    hb | ⟨before, x, after, g, rfl, hb, hx⟩
  · have hleaves := afterTurns_leaves hs₀ ho' hb
    have hok := hrun false s
    rw [runEach_best_effort hs₀ ho' hb] at hok
    exact .inl ⟨hb, _, _, hok, nodup_names hres,
      fun y hy => executed_iff_not_failed (nodup_names hres) _ hy,
      namesOf_filter_sublist _ _ _, namesOf_filter_sublist _ _ _, rfl, calls_afterTurns _ _,
      hleaves.settled.idle, hleaves.store_eq⟩
  · obtain ⟨s', hbroken, hraises⟩ := runEach_broken_off hs₀ ho' hb hx
    refine .inr ⟨before, x, after, g, s', rfl, hb, ?_, hbroken⟩
    rw [hrun, runEach_adds hs₀ (fun y hy => ho' y (List.mem_append_left _ hy)) hb, hraises]
    rfl

/-- Of three seeders one fails by itself, and another one's commit and then its rollback are
refused. Both are reported, and the store holds what the third one did. -/
theorem a_seeding_goes_on_after_two_failures :
    let fill : Routine := .ofActions [.send (.statement (.insert "log" [("n", some "x")]))]
    let a : Seeder := { name := "a", run := fill }
    let b : Seeder := { name := "b", dependencies := ["a"], run := fill }
    let c : Seeder := { name := "c", run := .fail (.raised "RuntimeError" "no") }
    let plan : List PlannedFault :=
      [⟨.commit, 2, .store .inactive⟩, ⟨.rollback, 2, .store .closed⟩]
    let log : Table := { name := "log", columns := [{ name := "n" }] }
    let s : Session := { handle := { connection := { base := [log] }, plan }, clock := .still 0 }
    resolveAll [b, a, c] s = .ok [a, c, b] (s.saying [.orderResolved ["a", "c", "b"]]) ∧
      s.Between ∧ (∀ y ∈ [b, a, c], y.run.LeavesOpen) ∧
      ∃ said s', (Seeding.mk [b, a, c] false).run "" s = .ok ⟨["a"], ["c", "b"]⟩ s' ∧
        (∀ y ∈ [a, c, b], y.name ∈ ["a"] ↔ y.name ∉ ["c", "b"]) ∧
        s'.calls = s.calls ++ called (turns [a, c, b] (s.saying said)) ∧
        s'.handle.Idle ∧ s'.store = carried (turns [a, c, b] (s.saying said)) s.store := by
  intro fill a b c plan log s
  have horder : (graphOf [b, a, c]).topologicalOrder = .ok ["a", "c", "b"] := by decide +kernel
  have hres : resolveAll [b, a, c] s =
      .ok [a, c, b] (s.saying [.orderResolved ["a", "c", "b"]]) := by
    rw [resolveAll_eq, orderOfAll_eq (by decide) (Graph.dangling?_eq_none.mp (by decide)), horder]
    rfl
  have hs : s.Between := ⟨rfl, by simp [Handle.StoreFaults, s, plan]⟩
  have hfill : fill.LeavesOpen := .ofActions (by simp [Action.LeavesOpen])
  have ho : ∀ y ∈ [b, a, c], y.run.LeavesOpen := by
    simp [a, b, c, hfill, Routine.LeavesOpen.fail]
  refine ⟨hres, hs, ho, ?_⟩
  have hreport : returned? ((Seeding.mk [b, a, c] false).run "" s) = some ⟨["a"], ["c", "b"]⟩ := by
    decide +kernel
  obtain ⟨said, ⟨_, report, s', hrun, _, hone, _, _, _, hcalls, hidle, hstore⟩ |
      ⟨_, _, _, _, _, _, _, hrun, _⟩⟩ :=
    best_effort_seeding_accounts_for_every_seeder_unless_one_is_broken_off hres hs ho
  · rw [hrun] at hreport
    obtain rfl := Option.some.inj hreport
    exact ⟨said, s', hrun, hone, hcalls, hidle, hstore⟩
  · rw [hrun] at hreport
    cases hreport

/-- The first of two seeders asks to exit. The run that should go on after failures ends with
that: there is no report, the second seeder is not called, and a transaction is open. -/
theorem a_seeding_ends_where_a_seeder_asks_to_exit :
    let exit : Failure := .interrupt "SystemExit" "3"
    let a : Seeder := { name := "a", run := .fail exit }
    let b : Seeder :=
      { name := "b", run := .ofActions [.send (.statement (.insert "log" [("n", some "x")]))] }
    let log : Table := { name := "log", columns := [{ name := "n" }] }
    let s : Session := { handle := { connection := { base := [log] } }, clock := .still 0 }
    (∃ s', resolveAll [a, b] s = .ok [a, b] s') ∧ s.Between ∧
      (∀ y ∈ [a, b], y.run.LeavesOpen) ∧
      ∃ s', (Seeding.mk [a, b] false).run "" s = .error exit s' ∧ s'.calls = [a.call] ∧
        ¬ s'.handle.Idle := by
  intro exit a b log s
  have horder : (graphOf [a, b]).topologicalOrder = .ok ["a", "b"] := by decide +kernel
  have hres : resolveAll [a, b] s = .ok [a, b] (s.saying [.orderResolved ["a", "b"]]) := by
    rw [resolveAll_eq, orderOfAll_eq (by decide) (Graph.dangling?_eq_none.mp (by decide)), horder]
    rfl
  have hs : s.Between := ⟨rfl, Handle.storeFaults_nil⟩
  have ho : ∀ y ∈ [a, b], y.run.LeavesOpen := by
    have hinsert : b.run.LeavesOpen := .ofActions (by simp [Action.LeavesOpen])
    simp [a, hinsert, Routine.LeavesOpen.fail]
  refine ⟨⟨_, hres⟩, hs, ho, ?_⟩
  obtain ⟨said, last, hrun⟩ := run_all hres
  obtain ⟨s', hbroken, hraises⟩ : ∃ s', BrokenOff [] a exit (s.saying said) s' ∧ ∀ failFast report,
      runEach failFast report [a, b] (s.saying said) = .error exit s' :=
    runEach_broken_off (hs.saying said) ho (by simp [turns]) rfl
  have hends : (Seeding.mk [a, b] false).run "" s = .error exit s' := by
    rw [hrun, show runEach false {} [a, b] (s.saying said) = _ from hraises false {}]
    rfl
  refine ⟨s', hends, hbroken.calls, fun hidle => ?_⟩
  cases hbroken.idle.mp hidle

/-! ## Stopping at the first failure -/

/-- How a run of `order` from `s` ends that stops at its first failure. It returns if every
seeder is executed, else it raises the failure of the first one that is not. It has called the
seeders up to there and none after, and left what the executed ones did. If that one is broken
off the run ends with what breaks it off. -/
inductive FailFast (order : List Seeder) (s : Session) :
    EStateM.Result Failure Session SeedReport → Prop
  | finished {s' : Session} :
      (∀ t ∈ turns order s, t.passes = true) → s'.calls = s.calls ++ order.map Seeder.call →
      s.Leaves (carried (turns order s) s.store) s' →
      FailFast order s (.ok { executed := order.map Seeder.name } s')
  | stopped {before after : List Seeder} {x : Seeder} {f : Failure} {s' : Session} :
      order = before ++ x :: after → (∀ t ∈ turns before s, t.passes = true) →
      (Turn.mk x (afterTurns before s)).passes = false →
      (Turn.mk x (afterTurns before s)).breaksOff? = none → f.OfRun x.name →
      s'.calls = s.calls ++ (before.map Seeder.call ++ (Turn.mk x (afterTurns before s)).calls) →
      s.Leaves (carried (turns before s) s.store) s' → FailFast order s (.error f s')
  | brokenOff {before after : List Seeder} {x : Seeder} {g : Failure} {s' : Session} :
      order = before ++ x :: after → (∀ t ∈ turns before s, t.passes = true) →
      BrokenOff before x g s s' → FailFast order s (.error g s')

theorem runEach_fail_fast (hs : s.Between) (ho : ∀ x ∈ order, x.run.LeavesOpen)
    (last : SeedReport → Event) :
    FailFast order s (concluded last (runEach true {} order s)) := by
  rcases all_or_first_not Turn.passes order s with hall | ⟨before, x, after, rfl, hbefore, hx⟩
  · rw [runEach_all_pass hs ho hall]
    refine .finished hall ?_
      ((afterTurns_leaves hs ho (none_breaks_off_of_passes hall)).saying _)
    rw [← called_of_passes hall]
    exact calls_afterTurns order s
  · rcases hb : (Turn.mk x (afterTurns before s)).breaksOff? with _ | g
    · obtain ⟨f, s', hf, hrun, hcalls, hleaves⟩ := runEach_first_failure hs ho hbefore hx hb
      rw [hrun]
      exact .stopped rfl hbefore hx hb hf hcalls hleaves
    · obtain ⟨s', hbroken, hraises⟩ :=
        runEach_broken_off hs ho (none_breaks_off_of_passes hbefore) hb
      have hreturns := returns_of_passes hs (fun y hy => ho y (List.mem_append_left _ hy)) hbefore
      rw [runEach_append true {} _ hreturns, hraises]
      exact .brokenOff rfl hbefore hbroken

/-- What is reported of turns that are all carried through. -/
theorem reportOf_all_pass (h : ∀ t ∈ turns order s, t.passes = true) :
    reportOf (turns order s) = { executed := order.map Seeder.name } := by
  have hpass : (turns order s).filter Turn.passes = turns order s := List.filter_eq_self.mpr h
  have hfail : (turns order s).filter (fun t => !t.passes) = [] :=
    List.filter_eq_nil_iff.mpr fun t ht => by simp [h t ht]
  unfold reportOf
  rw [hpass, hfail, namesOf_turns]
  rfl

/-- What is reported of turns of which the one of `x` is the first that is not carried through. -/
theorem reportOf_first_failure (h : ∀ t ∈ turns before s, t.passes = true)
    (hx : (Turn.mk x (afterTurns before s)).passes = false) (after : List Seeder) :
    ∃ later, (reportOf (turns (before ++ x :: after) s)).failed = x.name :: later ∧
      before.map Seeder.name <+: (reportOf (turns (before ++ x :: after) s)).executed := by
  have hall := reportOf_all_pass h
  have happ (ts us : List Turn) : reportOf (ts ++ us) =
      { executed := (reportOf ts).executed ++ (reportOf us).executed,
        failed := (reportOf ts).failed ++ (reportOf us).failed } := by
    simp [reportOf, namesOf]
  rw [turns_append, happ, hall]
  refine ⟨namesOf ((turns after (Turn.mk x (afterTurns before s)).next).filter fun t => !t.passes),
    ?_, List.prefix_append _ _⟩
  simp only [reportOf, turns, List.filter_cons, hx, Bool.not_false, if_true, List.nil_append]
  rfl

/-- A run of `order` from `s` that stops, beside one that goes on. They return the same if no
seeder fails. Otherwise the one that stops raises the failure of the first seeder that the other
one reports as failed. It has made the other one's calls up to that seeder and none after, and left
what the seeders before it did, all of them executed. The turns start in `s₀`, which is `s` when
the order is known. -/
structure CutAtFirstFailure (order : List Seeder) (s s₀ : Session) (report : SeedReport)
    (s' : Session) (stopping : EStateM.Result Failure Session SeedReport) : Prop where
  same : report.failed = [] → stopping = .ok report s'
  cut : ∀ n later, report.failed = n :: later →
    ∃ before x after f s₁ rest, order = before ++ x :: after ∧ x.name = n ∧
      before.map Seeder.name <+: report.executed ∧ stopping = .error f s₁ ∧ f.OfRun n ∧
      s₁.calls = s.calls ++ (before.map Seeder.call ++ (Turn.mk x (afterTurns before s₀)).calls) ∧
      s'.calls = s₁.calls ++ rest ∧ rest.Sublist (after.map Seeder.call) ∧
      s.Leaves (carried (turns before s₀) s.store) s₁

theorem runEach_cut (hs : s.Between) (ho : ∀ x ∈ order, x.run.LeavesOpen) (said : List Event)
    (hb : ∀ t ∈ turns order (s.saying said), t.breaksOff? = none) (last : SeedReport → Event) :
    ∃ report s', concluded last (runEach false {} order (s.saying said)) = .ok report s' ∧
      CutAtFirstFailure order s (s.saying said) report s'
        (concluded last (runEach true {} order (s.saying said))) := by
  have hs₀ := hs.saying said
  rcases all_or_first_not Turn.passes order (s.saying said) with
    hall | ⟨before, x, after, rfl, hbefore, hx⟩
  · refine ⟨_, _, by rw [runEach_all_pass hs₀ ho hall false]; rfl, fun _ => ?_, fun n later h => ?_⟩
    · rw [runEach_all_pass hs₀ ho hall true]
      rfl
    · cases h
  · have hbx := hb (Turn.mk x (afterTurns before (s.saying said)))
      (by simp [turns_append, turns])
    obtain ⟨later, hfailed, hexecuted⟩ := reportOf_first_failure hbefore hx after
    obtain ⟨f, s₁, hf, hrun, hcalls, hleaves⟩ := runEach_first_failure hs₀ ho hbefore hx hbx
    have hgo := calls_afterTurns_cut hbefore x after
    rw [← hcalls] at hgo
    refine ⟨_, _, by rw [runEach_best_effort hs₀ ho hb]; rfl, fun h => ?_, fun n later' h => ?_⟩
    · cases hfailed.symm.trans h
    · obtain ⟨rfl, _⟩ := List.cons.inj (hfailed.symm.trans h)
      rw [hrun]
      exact ⟨before, x, after, f, s₁, _, rfl, rfl, hexecuted, rfl, hf, hcalls, hgo,
        called_sublist after _, hleaves.settled, hleaves.clock⟩

/-- A run of all seeders that goes on returns where none is broken off, and where it returns the
run that stops is that run cut at its first failure. A run of one seeder with its prerequisites
stops too, whatever the setting, and is of nothing else. -/
theorem fail_fast_seeding_is_best_effort_cut_at_its_first_failure
    (hres : resolveAll seeders q = .ok order q') (hs : s.Between)
    (ho : ∀ y ∈ seeders, y.run.LeavesOpen) :
    (∃ said,
        ((∀ t ∈ turns order (s.saying said), t.breaksOff? = none) →
          ∃ report s', (Seeding.mk seeders false).run "" s = .ok report s') ∧
        (∀ report s', (Seeding.mk seeders false).run "" s = .ok report s' →
          CutAtFirstFailure order s (s.saying said) report s'
            ((Seeding.mk seeders true).run "" s)) ∧
        FailFast order (s.saying said) ((Seeding.mk seeders true).run "" s)) ∧
      ∀ name ≠ "", ∀ failFast,
        (∃ part said, (∀ y ∈ part, y ∈ seeders) ∧
            resolveFor seeders name s = .ok part (s.saying said) ∧
            FailFast part (s.saying said) ((Seeding.mk seeders failFast).run name s)) ∨
          ∃ s', name ∉ seeders.map Seeder.name ∧
            resolveFor seeders name s = .error (.registration (.notFound name)) s ∧
            (Seeding.mk seeders failFast).run name s =
              .error (.registration (.notFound name)) s' ∧
            s'.handle = s.handle ∧ s'.calls = s.calls := by
  obtain ⟨hw, _, _⟩ := resolveAll_ok hres
  constructor
  · obtain ⟨said, last, hrun⟩ := run_all hres
    have hs₀ := hs.saying said
    have ho' := leavesOpen_of_resolved hres ho
    refine ⟨said, fun hb => ?_, fun report s' hok => ?_, ?_⟩
    · obtain ⟨report, s', hok, _⟩ := runEach_cut hs ho' said hb last
      exact ⟨report, s', by rw [hrun, hok]⟩
    · rcases none_or_first_breaks_off order (s.saying said) with
        hb | ⟨before, x, after, g, rfl, hb, hx⟩
      · obtain ⟨report', s₁, hok', hcut⟩ := runEach_cut hs ho' said hb last
        obtain ⟨rfl, rfl⟩ := EStateM.Result.ok.inj (hok.symm.trans ((hrun false s).trans hok'))
        rw [hrun]
        exact hcut
      · -- a run with a turn that is broken off does not return
        obtain ⟨s₁, _, hraises⟩ := runEach_broken_off hs₀ ho' hb hx
        have hends := hrun false s
        rw [runEach_adds hs₀ (fun y hy => ho' y (List.mem_append_left _ hy)) hb, hraises] at hends
        exact nomatch hok.symm.trans hends
    · rw [hrun]
      exact runEach_fail_fast hs₀ ho' last
  · intro name hn failFast
    rcases resolveFor_cases hw name with ⟨part, hpart, said, hpres⟩ | ⟨hname, hnone⟩
    · obtain ⟨last, hrun⟩ := run_named hn hpres
      refine .inl ⟨part, said, hpart, hpres s, ?_⟩
      rw [hrun]
      exact runEach_fail_fast (hs.saying said) (fun y hy => ho y (hpart y hy)) last
    · exact .inr ⟨_, hname, hnone s, run_named_refused hn rfl (hnone s) failFast, rfl, rfl⟩

/-- Of two seeders the second one gets no transaction. The run that stops raises that, and so
does a run of the second one, which needs the first one. -/
theorem a_seeding_stops_at_a_refused_transaction :
    let a : Seeder := { name := "a", run := .done }
    let b : Seeder := { name := "b", dependencies := ["a"], run := .done }
    let plan : List PlannedFault := [⟨.begin, 2, .store .cannotOpen⟩]
    let s : Session := { handle := { plan }, clock := .still 0 }
    resolveAll [b, a] s = .ok [a, b] (s.saying [.orderResolved ["a", "b"]]) ∧ s.Between ∧
      (∀ y ∈ [b, a], y.run.LeavesOpen) ∧
      (∃ f s₁, (Seeding.mk [b, a] true).run "" s = .error f s₁ ∧ f.OfRun "b") ∧
      ∃ part said, resolveFor [b, a] "b" s = .ok part (s.saying said) ∧
        FailFast part (s.saying said) ((Seeding.mk [b, a] false).run "b" s) := by
  intro a b plan s
  have horder : (graphOf [b, a]).topologicalOrder = .ok ["a", "b"] := by decide +kernel
  have hres : resolveAll [b, a] s = .ok [a, b] (s.saying [.orderResolved ["a", "b"]]) := by
    rw [resolveAll_eq, orderOfAll_eq (by decide) (Graph.dangling?_eq_none.mp (by decide)), horder]
    rfl
  have hs : s.Between := ⟨rfl, by simp [Handle.StoreFaults, s, plan]⟩
  have ho : ∀ y ∈ [b, a], y.run.LeavesOpen := by simp [a, b, Routine.LeavesOpen.done]
  refine ⟨hres, hs, ho, ?_⟩
  obtain ⟨⟨said, _, hcut, _⟩, hnamed⟩ :=
    fail_fast_seeding_is_best_effort_cut_at_its_first_failure hres hs ho
  constructor
  · have hreport : returned? ((Seeding.mk [b, a] false).run "" s) = some ⟨["a"], ["b"]⟩ := by
      decide +kernel
    rcases hrun : (Seeding.mk [b, a] false).run "" s with ⟨report, s'⟩ | ⟨f, s'⟩
    · rw [hrun] at hreport
      obtain rfl := Option.some.inj hreport
      obtain ⟨_, _, _, f, s₁, _, _, _, _, hstop, hf, _⟩ := (hcut _ s' hrun).cut "b" [] rfl
      exact ⟨f, s₁, hstop, hf⟩
    · rw [hrun] at hreport
      cases hreport
  · rcases hnamed "b" (by decide) false with ⟨part, said, _, hpart, hff⟩ | ⟨_, hname, _⟩
    · exact ⟨part, said, hpart, hff⟩
    · exact absurd List.mem_cons_self hname

end SchemaLedger.Seeding
