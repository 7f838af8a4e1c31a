-- Which transactions of the engine's own are left open. Every errand closes the
-- transaction that it opened, whatever fails and however, except where a unit is broken off
-- or a failure passes by the handlers of making the ledger's table or of the ledger's part
-- of a migration.
import SchemaLedger.Proofs.Atomicity
import SchemaLedger.Proofs.Fates
import SchemaLedger.Proofs.LedgerAccess
import SchemaLedger.Proofs.StoreContract

namespace SchemaLedger

/-! ## Closing -/

/-- `s'` is what became of `s`: no transaction is live that was not live before, and if
none was open, none is. -/
structure Session.Closes (s s' : Session) : Prop where
  live : ∀ t ∈ s'.handle.connection.live, t ∈ s.handle.connection.live
  idle : s.handle.Idle → s'.handle.Idle

namespace Session

variable {s s' : Session} {us : Tables}

theorem Closes.of_settled (h : s.handle.Settled us s'.handle) : s.Closes s' :=
  ⟨h.live, fun _ => h.idle⟩

theorem Closes.of_barred (h : s.handle.Barred s'.handle) : s.Closes s' :=
  ⟨fun _ ht => h.live ▸ ht, h.idle⟩

end Session

namespace Work

variable {α : Type} {s : Session} {h₀ : Handle} {t : Ticket} {us : Tables}

/-- After a rollback, refused or not, what follows without the handle leaves it settled. -/
theorem rollback_settles
    (hroll : ∃ h', s.handle.rollback t = (s.handle.rollbackAnswer, h') ∧ h₀.Settled us h')
    {k : Unit → Work α} (hk : ∀ u, Keeps Session.handle (k u)) :
    h₀.Settled us (Session.after ((rollback t >>= k) s)).handle := by
  obtain ⟨h', hr, hset⟩ := hroll
  rcases ha : s.handle.rollbackAnswer with f | u
  · rw [ha] at hr
    have herr : rollback t s = .error f { s with handle := h' } := onHandle_error hr
    rw [bind_error herr]
    exact hset
  · rw [ha] at hr
    have hok : rollback t s = .ok u { s with handle := h' } := onHandle_ok hr
    rw [bind_ok hok, hk]
    exact hset

/-- Work that cannot open its transaction leaves the handle barred, whether the failure is
taken up or passes. -/
theorem opening_barred {s : Session} (hn : ¬ s.handle.Opens) {refused : StoreError → Work Ticket}
    (hrefused : ∀ e, ∃ f, ∀ s, ∃ s', refused e s = .error f s' ∧ s'.handle = s.handle)
    (k : Ticket → Work α) :
    s.handle.Barred (Session.after ((begin.orStore refused >>= k) s)).handle := by
  obtain ⟨f, h', hbegin, hbar⟩ := Handle.begin_barred hn
  have herr : begin s = .error f { s with handle := h' } := onHandle_error hbegin
  rcases hf : f.store? with _ | e
  · rw [bind_error (orStore_passed herr hf _)]
    exact hbar
  · obtain rfl := Failure.eq_store hf
    obtain ⟨g, hg⟩ := hrefused e
    obtain ⟨s', hs', hsame⟩ := hg { s with handle := h' }
    rw [bind_error ((orStore_refused herr _).trans hs')]
    simp only [Session.after, hsame]
    exact hbar

end Work

/-! ## Errands -/

/-- What the engine does in a transaction that it opens itself. -/
inductive Errand where
  | ensure (l : Ledger)
  | readApplied (l : Ledger)
  | readLatest (l : Ledger) (limit : Option Int)
  | unit (x : Task)

namespace Errand

def perform : Errand → Work Unit
  | .ensure l => l.ensure
  | .readApplied l => do let _ ← l.readApplied
  | .readLatest l limit => do let _ ← l.readLatest limit
  | .unit x => x.perform

/-- A unit among the errands leaves the end of its transaction to the engine. -/
def LeavesOpen : Errand → Prop
  | .unit x => x.routine.LeavesOpen
  | _ => True

/-- From `s` a failure passes by the handlers of an errand while its transaction is open. A
fault strikes the making of the ledger's table and is none of the store's; or a unit is broken
off; or a migration succeeds and the ledger's part fails with what is neither the store's nor the
ledger's: with a fault that strikes it, for a time without a date, or for a description that is
not passed on to the store. -/
def Strands (s : Session) : Errand → Prop
  | .ensure _ =>
    s.handle.Opens ∧
      ∃ f, s.handle.planned? .execute = some f ∧ f.store? = none
  | .readApplied _ | .readLatest _ _ => False
  | .unit (.apply l m) =>
    let e := (Task.apply l m).effect s
    let fault := Handle.faultAt s.handle.plan .execute e.sent
    s.handle.Opens ∧ (e.Interrupted ∨ e.result = .ok () ∧
      (Calendar.timestamp? (s.clock.nth (s.clock.taken + 1)) = none ∨ StrayFault fault ∨
        fault = none ∧ l.Unbound m.description e.tables))
  | .unit (.revert l m) =>
    let e := (Task.revert l m).effect s
    s.handle.Opens ∧ (e.Interrupted ∨ e.result = .ok () ∧
      StrayFault (Handle.faultAt s.handle.plan .execute e.sent))
  | .unit (.seed x) => s.handle.Opens ∧ ((Task.seed x).effect s).Interrupted

/-- How an errand from `s` leaves the handle `h`: closed, or with its transaction open. -/
def Ends (x : Errand) (s : Session) (h : Handle) : Prop :=
  (¬ x.Strands s ∧ (s.handle.Barred h ∨ ∃ us, s.handle.Settled us h)) ∨
    (x.Strands s ∧ s.handle.Opens ∧ ∃ t us, s.handle.Inside t us h)

theorem Ends.closed {x : Errand} {s : Session} {h : Handle} (us : Tables) (hx : ¬ x.Strands s)
    (hset : s.handle.Settled us h) : x.Ends s h :=
  .inl ⟨hx, .inr ⟨us, hset⟩⟩

theorem ensure_ends (l : Ledger) (s : Session) :
    (Errand.ensure l).Ends s (Session.after (l.ensure s)).handle := by
  rw [Ledger.ensure_eq]
  by_cases hs : s.handle.Opens
  · obtain ⟨t, h₁, hopen, i, hcounts⟩ := Ledger.openOwn_opened hs
    have hstruck : h₁.planned? .execute = s.handle.planned? .execute :=
      Handle.planned?_opened i hcounts (by simp)
    rw [Work.bind_ok hopen]
    rcases l.create_ends (s := { s with handle := h₁ }) i with
      ⟨h', hw, hset, hfree⟩ | ⟨f, h', hw, _, _, _, hroll, hwhy⟩
    · refine .closed (l.made s.store) ?_ ?_
      · rintro ⟨_, f, hf, _⟩
        exact hfree (.inl (by simp [hstruck, hf]))
      · rw [Work.bind_ok (Work.orStore_ok hw _)]
        exact hset
    · rw [hstruck] at hwhy
      rcases hg : f.store? with _ | e
      · rw [Work.bind_error (Work.orStore_passed hw hg _)]
        rcases hwhy with ⟨hf, i'⟩ | ⟨hnone, hset⟩
        · exact .inr ⟨⟨hs, f, hf, hg⟩, hs, t, _, i'⟩
        · refine .closed _ ?_ (hset hg)
          rintro ⟨_, f, hf, _⟩
          exact nomatch hnone.symm.trans hf
      · obtain rfl := Failure.eq_store hg
        refine .closed s.store ?_ ?_
        · rintro ⟨_, g, hg, hnone⟩
          rcases hwhy with ⟨hf, _⟩ | ⟨hf, _⟩
          · obtain rfl := Option.some.inj (hf.symm.trans hg)
            exact nomatch hnone
          · exact nomatch hf.symm.trans hg
        · rw [Work.orStore_refused_bind hw]
          unfold Ledger.notCreated
          rw [bind_assoc]
          refine Work.rollback_settles hroll fun _ => ?_
          exact (Work.keeps_throw _).bind fun _ => Work.report_keeps_handle _
  · refine .inl ⟨fun h => hs h.1, .inl ?_⟩
    exact Work.opening_barred hs (fun e => ⟨_, fun s => ⟨s, rfl, rfl⟩⟩) _

theorem read_ends (l : Ledger) (order : Ledger.Order) (limit : Option Int) (s : Session) :
    s.handle.Barred (Session.after (l.read order limit s)).handle ∨
      s.handle.Settled s.store (Session.after (l.read order limit s)).handle := by
  by_cases hs : s.handle.Opens
  · obtain ⟨h', hset, hread⟩ := l.read_opened hs order
    rw [hread limit, Work.after_ended]
    exact .inr hset
  · exact .inl (Work.opening_barred hs (fun e => ⟨_, fun s => ⟨s, rfl, rfl⟩⟩) _)

theorem Ends.reading {x : Errand} {s : Session} {h : Handle} (hx : ¬ x.Strands s)
    (h' : s.handle.Barred h ∨ s.handle.Settled s.store h) : x.Ends s h :=
  .inl ⟨hx, h'.imp id fun hset => ⟨_, hset⟩⟩

/-- Leaving a result out changes no session. -/
theorem handle_discard {α : Type} (w : Work α) (s : Session) :
    (Session.after ((w >>= fun _ => (pure () : Work Unit)) s)).handle =
      (Session.after (w s)).handle := by
  rcases h : w s with ⟨a, s'⟩ | ⟨f, s'⟩
  · rw [Work.bind_ok h]
    rfl
  · rw [Work.bind_error h]
    rfl

/-- The handle after an operation is the one after its transaction; what comes besides is
reading the clock and reporting. -/
theorem handle_perform (j : Job) (first : Event) (last : String → Int → Event) (s : Session) :
    (Session.after ((j.perform first last >>= fun _ => (pure () : Work Unit)) s)).handle =
      (Session.after (j.run (s.begun first))).handle := by
  rw [handle_discard]
  rcases hrun : j.run (s.begun first) with ⟨⟨⟩, s'⟩ | ⟨f, s'⟩
  · obtain ⟨o, hperform, _⟩ := Job.perform_done hrun last
    rw [hperform]
    rfl
  · rw [Job.perform_failed hrun last]
    rfl

theorem operation_ends {j : Job} {strays : Readings → Option Failure → Tables → Prop}
    (hj : j.Sturdy strays) (ho : j.routine.LeavesOpen) {x : Errand} {s : Session} (first : Event)
    (hx : x.Strands s ↔ s.handle.Opens ∧ j.GoesAstray strays (s.begun first)) :
    x.Ends s (Session.after (j.run (s.begun first))).handle := by
  by_cases hs : s.handle.Opens
  · obtain ⟨hfate, _⟩ := Job.run_fate hj (s := s.begun first) ho hs
    generalize j.run (s.begun first) = r at hfate
    cases hfate with
    | kept _ _ hno hleaves => exact .closed _ (fun h => hno (hx.mp h).2) hleaves.settled
    | undone hno hleaves => exact .closed _ (fun h => hno (hx.mp h).2) hleaves.settled
    | adrift hastray i => exact .inr ⟨hx.mpr ⟨hs, hastray⟩, hs, _, _, i⟩
  · obtain ⟨f, s', hrun, hbar, _⟩ := j.run_barred (s := s.begun first) hs
    rw [hrun]
    exact .inl ⟨fun h => hs (hx.mp h).1, .inl hbar⟩

/-- A seeder's part that fails and is not broken off has its transaction given up. -/
theorem settle_settles {x : Seeder} {t : Ticket} {s s₁ : Session} {h₀ : Handle} {us : Tables}
    {f : Failure} (hbody : Seeding.body x t s = .error f s₁) (hf : f.isInterrupt = false)
    (hroll : ∃ h', s₁.handle.rollback t = (s₁.handle.rollbackAnswer, h') ∧ h₀.Settled us h')
    (start : Int) :
    h₀.Settled us (Session.after
      ((Work.rescue (Seeding.body x t) >>= Seeding.settle x t start) s)).handle := by
  obtain ⟨f', s', hraise, hset, _⟩ := Work.giveUp_raises (α := Unit) hroll x.rollbackRefused
    (Work.says_reportOf f (.seederFailed x.name .run f)) (.ofUnit x.name .run f)
  have hsettle : Seeding.settle x t start (.error f) s₁ = .error f' s' := hraise
  rw [Work.bind_ok (Work.rescue_error hbody hf), hsettle]
  exact hset

/-- The transaction of a seeder is over, whatever fails in it, unless the seeder is broken off. -/
theorem seeding_ends {x : Seeder} (ho : x.run.LeavesOpen) (s : Session) :
    (Errand.unit (.seed x)).Ends s (Session.after (Seeding.runOne x s)).handle := by
  by_cases hs : s.handle.Opens
  · by_cases hbroken : (x.effect s).Interrupted
    · obtain ⟨f, hres, hf⟩ := hbroken
      obtain ⟨t, s', hrun, i, _⟩ := Seeding.runOne_interrupted hs ho hres hf
      rw [hrun]
      exact .inr ⟨⟨hs, f, hres, hf⟩, hs, t, _, i⟩
    obtain ⟨t, h₁, hbegin, i, hn⟩ := Handle.begin_opened hs.idle hs.allowed
    have hopen : Seeding.openFor x (s.begun (.seederRunning x.name)) =
        .ok t { s.begun (.seederRunning x.name) with handle := h₁ } :=
      Work.orStore_ok (Work.onHandle_ok (s := s.begun (.seederRunning x.name)) hbegin) _
    have he : x.run.effect (Handle.faultAt h₁.plan .execute) h₁.counts.execute s.store =
        x.effect s := by
      rw [i.plan, hn]
      rfl
    have hno : ¬ (Errand.unit (.seed x)).Strands s := fun h => hbroken h.2
    rw [Seeding.runOne_eq, Work.bind_ok hopen]
    rcases Seeding.body_cases (s := { s.begun (.seederRunning x.name) with handle := h₁ }) i ho he with
      ⟨f, hres, hbody⟩ | ⟨f, h', _, _, hbody, hset⟩ | ⟨h', _, _, hbody, hset⟩
    · have hf : f.isInterrupt = false := Bool.eq_false_iff.mpr fun hf => hbroken ⟨f, hres, hf⟩
      exact .closed _ hno (settle_settles hbody hf (Handle.rollback_inside (i.inWork _ _)) _)
    · rcases hf : f.isInterrupt with _ | _
      · exact .closed _ hno (settle_settles hbody hf (Handle.rollback_settled hset t) _)
      · -- the refused commit has given the transaction up by itself
        rw [Work.bind_error (Work.rescue_interrupt hbody hf)]
        exact .closed _ hno hset
    · rw [Work.bind_ok (Work.rescue_ok hbody)]
      exact .closed _ hno hset
  · have hrefused : ∀ e, ∃ f, ∀ s : Session, ∃ s', (do
        Work.report (.seederFailed x.name .begin (.store e))
        throw (.cannotStart x.name e) : Work Ticket) s = .error f s' ∧ s'.handle = s.handle :=
      fun e => ⟨_, fun s => ⟨_, rfl, rfl⟩⟩
    rw [Seeding.runOne_eq]
    exact .inl ⟨fun h => hs h.1, .inl (Work.opening_barred
      (s := s.begun (.seederRunning x.name)) hs hrefused _)⟩

/-- Every errand closes its transaction, or leaves it open where a failure passes by. -/
theorem perform_ends (x : Errand) (ho : x.LeavesOpen) (s : Session) :
    x.Ends s (Session.after (x.perform s)).handle := by
  cases x with
  | ensure l => exact ensure_ends l s
  | readApplied l =>
    have hread : (Session.after ((Errand.readApplied l).perform s)).handle =
        (Session.after (l.readApplied s)).handle := handle_discard _ s
    rw [hread]
    exact .reading id (read_ends l _ _ s)
  | readLatest l limit =>
    have hread : (Session.after ((Errand.readLatest l limit).perform s)).handle =
        (Session.after (l.readLatest limit s)).handle := handle_discard _ s
    rw [hread]
    exact .reading id (read_ends l _ _ s)
  | unit x =>
    cases x with
    | apply l m =>
      have hperform : (Errand.unit (.apply l m)).perform = _ := Task.perform_apply l m
      rw [hperform, handle_perform]
      exact operation_ends (j := Job.applying l m) (Job.applying_sturdy l m) ho _ Iff.rfl
    | revert l m =>
      have hperform : (Errand.unit (.revert l m)).perform = _ := Task.perform_revert l m
      rw [hperform, handle_perform]
      exact operation_ends (j := Job.reverting l m) (Job.reverting_sturdy l m) ho _ Iff.rfl
    | seed x => exact seeding_ends ho s

/-- Under any plan of faults and any clock, and whatever a unit does that leaves the end of
its transaction to the engine: an errand leaves its transaction open just when a failure
passes by its handlers. From a session without an open transaction the next one, unless it
is itself refused, can be opened in every other case, and only then. -/
theorem a_transaction_is_left_open_just_when_a_failure_passes_by (x : Errand) (ho : x.LeavesOpen)
    (s : Session) :
    let s' := Session.after (x.perform s)
    (s.Closes s' ↔ ¬ x.Strands s) ∧
      (s.handle.Idle → s'.handle.beginRefusal? = none →
        ((∃ t s'', Work.begin s' = .ok t s'') ↔ ¬ x.Strands s)) := by
  intro s'
  rcases perform_ends x ho s with ⟨hno, hclosed⟩ | ⟨hstrands, hs, t, us, i⟩
  · have hcloses : s.Closes s' := by
      rcases hclosed with hbar | ⟨us, hset⟩
      · exact .of_barred hbar
      · exact .of_settled hset
    refine ⟨⟨fun _ => hno, fun _ => hcloses⟩, fun hidle hnext => ⟨fun _ => hno, fun _ => ?_⟩⟩
    obtain ⟨t, h', hbegin, _⟩ := Handle.begin_opened (hcloses.idle hidle) hnext
    exact ⟨t, _, Work.onHandle_ok hbegin⟩
  · have hopen : ¬ s.Closes s' := fun h => i.not_idle (h.idle hs.idle)
    refine ⟨⟨fun h => absurd h hopen, fun h => absurd hstrands h⟩,
      fun _ _ => ⟨?_, fun h => absurd hstrands h⟩⟩
    rintro ⟨t', s'', hbegin⟩
    obtain ⟨f, h', hrefused⟩ := Handle.calls_transactional.single i.sees
    exact nomatch hbegin.symm.trans (Work.onHandle_error hrefused)

/-- A seeder that is struck by a failure that is not the store's, and whose rollback is then
refused, has its transaction closed all the same. -/
theorem a_seeder_struck_from_outside_is_closed :
    let x : Seeder :=
      { name := "users",
        run := .ofActions [.send (.statement (.delete "users" "name" none))] }
    let plan : List PlannedFault :=
      [⟨.execute, 1, .raised "RuntimeError" "boom"⟩, ⟨.rollback, 1, .store .closed⟩]
    let s : Session := { handle := { plan } }
    x.run.LeavesOpen ∧ s.handle.Idle ∧
      ∃ t s'', Work.begin (Session.after ((Errand.unit (.seed x)).perform s)) = .ok t s'' := by
  intro x plan s
  have ho : (Errand.unit (.seed x)).LeavesOpen :=
    Routine.LeavesOpen.ofActions (by simp [Action.LeavesOpen])
  refine ⟨ho, rfl, ?_⟩
  have hno : ¬ (Errand.unit (.seed x)).Strands s := by
    rintro ⟨_, f, hf, hint⟩
    obtain rfl : .raised "RuntimeError" "boom" = f := Except.error.inj hf
    cases hint
  exact ((a_transaction_is_left_open_just_when_a_failure_passes_by (.unit (.seed x)) ho s).2 rfl
    rfl).mpr hno

/-- A migration whose row is struck by a failure that is neither the store's nor the
ledger's leaves its transaction open, and the next one cannot be opened. -/
theorem a_row_struck_from_outside_leaves_the_transaction_open :
    let m : Migration :=
      { version := "001", down := .done,
        up := .ofActions
          [.send (.statement (.create { name := "t_001", columns := [] } "t_001" false))] }
    let s : Session :=
      { handle :=
          { connection := { base := [({} : Ledger).shape] },
            plan := [⟨.execute, 2, .raised "RuntimeError" "boom"⟩] },
        clock := .still 0 }
    m.up.LeavesOpen ∧ s.handle.Idle ∧
      ∃ s' s'', (Task.apply {} m).perform s = .error (.raised "RuntimeError" "boom") s' ∧
        s'.handle.beginRefusal? = none ∧ ¬ s.Closes s' ∧
        Work.begin s' = .error (.store .nestedTransaction) s'' := by
  intro m s
  refine ⟨Routine.LeavesOpen.ofActions (by simp [Action.LeavesOpen]), rfl, _, _, rfl, rfl, ?_, rfl⟩
  intro h
  cases h.idle rfl

end Errand
end SchemaLedger
