-- Which failures are recorded, and about whom. Migrations run or rolled back together record errors
-- just when they raise a failure that is about a version, and all of them are about that one; a run
-- of seeders records errors about just the seeders that it reports as failed or raises a failure of.
-- A seeder that asks to stop ends the run, and those that failed before it are recorded all the same.
import SchemaLedger.Proofs.Alarms
import SchemaLedger.Proofs.SeederResolution
import SchemaLedger.Proofs.SeedingRun

namespace SchemaLedger

open Work

variable {readings : Nat → Int} {U : String → Failure → Prop}

/-! ## The ledger -/

namespace Ledger

variable {α : Type}

theorem openOwn_accountable : Accountable readings U openOwn :=
  .orStore (onHandle_keeps_alarms _) (Session.steady_discipline readings .empty).begin fun _ =>
    accountable_throw rfl

theorem rollback_accountable (t : Ticket) : Accountable readings U (Work.rollback t) := by
  refine accountable_of_keeps (onHandle_keeps_alarms _)
    (((Session.steady_discipline readings .empty).rollback t).mono ?_)
  rintro f ⟨e, rfl⟩
  rfl

theorem send_keeps_alarms (t : Ticket) (st : Statement) : Keeps Session.alarms (send t st) := by
  unfold send Work.execute
  exact onHandle_keeps_alarms _

theorem ensure_accountable (l : Ledger) : Accountable readings U l.ensure := by
  have d := Session.steady_discipline readings .empty
  unfold ensure
  refine openOwn_accountable.bind fun t => Accountable.bind (.orStore ?_ ?_ fun e => ?_) fun _ =>
    accountable_report _
  · exact (send_keeps_alarms t _).bind fun _ => onHandle_keeps_alarms _
  · exact (d.send t _).bind fun _ => d.commit t
  · exact (rollback_accountable t).bind fun _ => accountable_throw rfl

theorem query_raises {l : Ledger} {order : Order} {limit : Option Int} {ts : Tables} {f : Failure}
    (h : l.query order limit ts = .error f) : f.unit? = none := by
  unfold query at h
  split at h
  next => cases h; rfl
  next =>
    split at h
    next => cases h
    next => cases h; rfl

theorem read_accountable (l : Ledger) (order : Order) (limit : Option Int) :
    Accountable readings U (l.read order limit) := by
  have hquery (t : Ticket) : Obeys (Session.Steady readings) (fun f => f.unit? = none)
      (Work.execute t (l.query order limit)) := by
    refine Session.Steady.onHandle (fun h => (h.execute_counts t _).1) fun h f h' hp he => ?_
    rcases Handle.calls_oneFamily.execute hp he with ⟨e, rfl⟩ | ⟨ts, hts⟩
    · rfl
    · exact query_raises hts
  unfold read
  refine openOwn_accountable.bind fun t => .answer (onHandle_keeps_alarms _) (hquery t) ?_ ?_
  · exact fun rows => (rollback_accountable t).bind fun _ => accountable_pure rows
  · intro f hf
    refine (rollback_accountable t).bind fun _ => ?_
    cases f with
    | store e => exact accountable_throw rfl
    | _ => exact accountable_throw hf

theorem asking_accountable (l : Ledger) (order : Order) (limit : Option Int)
    {k : List LedgerRow → Work α} (hk : ∀ rows, Accountable readings U (k rows)) :
    Accountable readings U (l.asking order limit k) :=
  l.ensure_accountable.bind fun _ => (l.read_accountable order limit).bind hk

/-- A failure of the ledger about a version, or one that is neither the ledger's nor about a unit. -/
def Refuses (version : String) (f : Failure) : Prop :=
  (∃ g, f = .ledger g ∧ g.version? = some version) ∨ f.unit? = none ∧ f.family? ≠ some .ledger

theorem recording_keeps_alarms (l : Ledger) (v : String) (c : Except Failure Cell) (t : Ticket) :
    Keeps Session.alarms (l.recording v c t) := by
  have hstamp : Keeps Session.alarms timestamp := by
    refine now_keeps_alarms.bind fun instant => ?_
    split
    next => exact keeps_pure _
    next => exact keeps_throw _
  unfold recording
  refine hstamp.bind fun _ => ?_
  cases c with
  | error f => exact (onHandle_keeps_alarms _).orStore fun _ => keeps_throw _
  | ok cell =>
    exact Keeps.bind ((send_keeps_alarms t _).orStore fun _ => keeps_throw _) fun _ => keeps_pure ()

theorem insertUnbound_refuses (l : Ledger) (t : Ticket) (v : String) {f : Failure}
    (hf : f.unit? = none ∧ f.family? ≠ some .ledger) :
    Obeys (Session.Steady readings) (Refuses v) (l.insertUnbound t v f) := by
  have d := Session.steady_discipline readings .empty
  have hraise : Obeys (Session.Steady readings) (fun g => (∃ e, g = .store e) ∨ g = f)
      (Work.execute (α := Unit) t fun ts =>
        .error (((Statement.unprepared? ts l.table givenNames).map .store).getD f)) := by
    refine d.execute t _ (fun _ => .inl) fun ts g h => ?_
    obtain rfl := Except.error.inj h
    rcases Statement.unprepared? ts l.table givenNames with _ | e
    · exact .inr rfl
    · exact .inl ⟨e, rfl⟩
  refine hraise.orStore ?_ fun e => obeys_throw (.inl ⟨_, rfl, rfl⟩)
  rintro g (⟨e, rfl⟩ | rfl) hnone
  · cases hnone
  · exact .inr hf

theorem recording_refuses (l : Ledger) (v : String) {c : Except Failure Cell}
    (hc : ∀ f, c = .error f → f.unit? = none ∧ f.family? ≠ some .ledger) (t : Ticket) :
    Obeys (Session.Steady readings) (Refuses v) (l.recording v c t) := by
  have d := Session.steady_discipline readings .empty
  have hstamp : Obeys (Session.Steady readings) (Refuses v) timestamp := by
    refine now_obeys.bind fun instant => ?_
    split
    next => exact obeys_pure _
    next => exact obeys_throw (.inr ⟨rfl, by simp [Failure.family?]⟩)
  unfold recording
  refine hstamp.bind fun _ => ?_
  cases c with
  | error f => exact l.insertUnbound_refuses t v (hc f rfl)
  | ok cell =>
    refine Obeys.bind ((d.send t _).orStore ?_ fun e => obeys_throw (.inl ⟨_, rfl, rfl⟩))
      fun _ => obeys_pure ()
    rintro f ⟨e, rfl⟩ hf
    cases hf

theorem delete_keeps_alarms (l : Ledger) (v : String) (t : Ticket) :
    Keeps Session.alarms (l.delete t v) := by
  unfold delete
  refine Keeps.bind ((send_keeps_alarms t _).orStore fun _ => keeps_throw _) fun k => ?_
  split
  next => exact keeps_throw _
  next => exact keeps_pure ()

theorem delete_refuses (l : Ledger) (v : String) (t : Ticket) :
    Obeys (Session.Steady readings) (Refuses v) (l.delete t v) := by
  have d := Session.steady_discipline readings .empty
  unfold delete
  refine Obeys.bind ((d.send t _).orStore ?_ fun e => obeys_throw (.inl ⟨_, rfl, rfl⟩)) fun k => ?_
  · rintro f ⟨e, rfl⟩ hf
    cases hf
  · split
    next => exact obeys_throw (.inl ⟨_, rfl, rfl⟩)
    next => exact obeys_pure ()

end Ledger

/-! ## One migration -/

namespace Migration

theorem openFor_accountable (v : String) : Accountable readings U (openFor v) :=
  .orStore (onHandle_keeps_alarms _) (Session.steady_discipline readings .empty).begin fun _ =>
    accountable_raise rfl rfl

theorem commitFor_accountable (v : String) (t : Ticket) : Accountable readings U (commitFor v t) :=
  .orStore (onHandle_keeps_alarms _) ((Session.steady_discipline readings .empty).commit t) fun _ =>
    accountable_raise rfl rfl

/-- An operation of a migration can fail without a text, and `f` is raised in place of that. -/
def Untold (m : Migration) (f : Failure) : Prop :=
  f.isInterrupt = false ∧
    (m.up.Passes (fun g => ∃ e, g = .store e) f ∨ m.down.Passes (fun g => ∃ e, g = .store e) f)

theorem describe_error {v : Value} {f : Failure} (h : describe v = .error f) :
    f.unit? = none ∧ f.family? ≠ some .ledger := by
  cases v with
  | int n =>
    simp only [describe] at h
    split at h
    next => cases h
    next =>
      cases h
      exact ⟨rfl, by simp [Failure.family?]⟩
  | list | group | set | map =>
    cases h
    exact ⟨rfl, by simp [Failure.family?]⟩
  | _ => cases h

theorem runRoutine_accountable (m : Migration) (o : Operation) (step : MigrationStep) (t : Ticket)
    {r : Routine} (hu : ∀ f, f.isInterrupt = false → r.Passes (fun g => ∃ e, g = .store e) f →
      U m.version f) : Accountable readings U (m.runRoutine o step t r) := by
  have d := Session.steady_discipline readings .empty
  unfold runRoutine
  refine (accountable_noteCall _ _ _).bind fun _ => .rescued (routine_keeps_alarms t r)
    (d.routine t r) (fun _ => accountable_pure ()) fun f hf _ => ?_
  refine accountable_ofUnit (giveUp_closes (fun _ => rfl) t) rfl ?_
  rintro kind message rfl
  exact hu _ rfl (.untold hf)

/-- A failure of the ledger is recorded as the migration's, any other is about no unit. -/
theorem keepLedger_accountable {v : String} {w : Work Unit} (step : MigrationStep) (t : Ticket)
    (hkeeps : Keeps Session.alarms w)
    (hw : Obeys (Session.Steady readings) (Ledger.Refuses v) w) :
    Accountable readings U (keepLedger v step t w) := by
  unfold keepLedger
  refine .answer hkeeps hw (fun _ => accountable_pure ()) fun f hf => ?_
  dsimp only
  split
  next hledger =>
    rcases hf with ⟨g, rfl, hg⟩ | ⟨-, hother⟩
    · exact accountable_failure (giveUp_closes (fun _ => rfl) t) rfl hg
    · exact absurd hledger hother
  next hother =>
    rcases hf with ⟨g, rfl, -⟩ | ⟨hf, -⟩
    · exact absurd rfl hother
    · exact accountable_throw hf

end Migration

namespace Job

/-- An operation of a migration is accountable if the ledger's part of it refuses as it should. -/
theorem perform_accountable {j : Job} {first : Event} {last : String → Int → Event}
    (hu : ∀ f, f.isInterrupt = false → j.routine.Passes (fun g => ∃ e, g = .store e) f →
      U j.version f)
    (hkeeps : ∀ t, Keeps Session.alarms (j.keep t))
    (hrefuses : ∀ t, Obeys (Session.Steady readings) (Ledger.Refuses j.version) (j.keep t))
    (hfirst : first.level ≠ .error) (hlast : ∀ v ms, (last v ms).level ≠ .error) :
    Accountable readings U (j.perform first last) := by
  have hrun : Accountable readings U j.run := by
    unfold run
    refine (Migration.openFor_accountable _).bind fun t => ?_
    refine (Migration.runRoutine_accountable _ _ _ t hu).bind fun _ => ?_
    refine (Migration.keepLedger_accountable _ t (hkeeps t) (hrefuses t)).bind fun _ => ?_
    exact Migration.commitFor_accountable _ t
  unfold perform
  refine accountable_now.bind fun _ => (accountable_report _ hfirst).bind fun _ => hrun.bind fun _ => ?_
  refine accountable_now.bind fun _ => ?_
  exact (accountable_report _ (hlast _ _)).bind fun _ => accountable_pure _

end Job

namespace Migration

theorem apply_accountable (l : Ledger) {m : Migration} (hu : ∀ f, m.Untold f → U m.version f) :
    Accountable readings U (m.apply l) := by
  rw [apply_eq]
  exact Job.perform_accountable (j := Job.applying l m) (fun f hint hf => hu f ⟨hint, .inl hf⟩)
    (l.recording_keeps_alarms _ _) (l.recording_refuses _ fun _ => describe_error)
    (by simp [Event.level]) (by simp [Event.level])

theorem revert_accountable (l : Ledger) {m : Migration} (hu : ∀ f, m.Untold f → U m.version f) :
    Accountable readings U (m.revert l) := by
  rw [revert_eq]
  exact Job.perform_accountable (j := Job.reverting l m) (fun f hint hf => hu f ⟨hint, .inr hf⟩)
    (l.delete_keeps_alarms _) (l.delete_refuses _) (by simp [Event.level]) (by simp [Event.level])

end Migration

/-! ## Migrations together -/

namespace Migrator

/-- A migration of the version `u` can fail without a text, and `f` is raised in place of that. -/
def Untold (m : Migrator) (u : String) (f : Failure) : Prop :=
  ∃ x ∈ m.catalog.entries, x.version = u ∧ x.Untold f

variable {m : Migrator}

theorem untold (x : Migration) (hx : x ∈ m.catalog.entries) (f : Failure) (hf : x.Untold f) :
    m.Untold x.version f :=
  ⟨x, hx, rfl, hf⟩

theorem applyAll_accountable (l : Ledger) {todo : List Migration}
    (htodo : ∀ x ∈ todo, x ∈ m.catalog.entries) :
    Accountable readings m.Untold (applyAll l todo) := by
  induction todo with
  | nil => exact accountable_pure []
  | cons x rest ih =>
    obtain ⟨hx, hrest⟩ := List.forall_mem_cons.mp htodo
    exact (x.apply_accountable l (untold x hx)).bind fun _ =>
      (ih hrest).bind fun _ => accountable_pure _

/-- A row that no registered migration belongs to stops a rollback, and is recorded as that. -/
theorem revertAll_accountable (m : Migrator) (rows : List LedgerRow) :
    Accountable readings m.Untold (m.revertAll rows) := by
  induction rows with
  | nil => exact accountable_pure []
  | cons r rest ih =>
    unfold revertAll
    split
    next => exact accountable_raise rfl rfl
    next x hx =>
      exact (x.revert_accountable _ (untold x (List.mem_of_find?_eq_some hx))).bind fun _ =>
        ih.bind fun _ => accountable_pure _

theorem run_accountable (m : Migrator) : Accountable readings m.Untold m.run := by
  rw [run_eq]
  refine m.ledger.asking_accountable _ _ fun rows => ?_
  unfold runOn
  dsimp only
  split
  next =>
    exact (accountable_report _).bind fun _ => accountable_pure []
  next =>
    refine (accountable_report _).bind fun _ => ?_
    refine (applyAll_accountable _ fun x hx => (mem_pendingIn.mp hx).1).bind fun _ => ?_
    exact (accountable_report _).bind fun _ => accountable_pure _

theorem rollBack_accountable (m : Migrator) (count : RollbackCount) :
    Accountable readings m.Untold (m.rollBack count) := by
  have hrest (rows : List LedgerRow) : Accountable readings m.Untold (do
      let done ← m.revertAll rows
      Work.report (.allReverted done.length)
      return done) :=
    (m.revertAll_accountable rows).bind fun _ =>
      (accountable_report _).bind fun _ => accountable_pure _
  rw [rollBack_eq]
  refine m.ledger.asking_accountable _ _ fun rows => ?_
  unfold rollBackOn
  split
  next => exact (accountable_report _).bind fun _ => accountable_pure []
  next =>
    cases count with
    | all => exact hrest rows
    | exactly n =>
      dsimp only
      split
      next => exact (accountable_report _).bind fun _ => hrest rows
      next => exact hrest rows

/-- A count that is none is refused before the ledger is asked. -/
theorem rollBackValue_accountable (m : Migrator) (count : Value) :
    Accountable readings m.Untold (m.rollBackValue count) := by
  unfold rollBackValue
  split
  next n _ => exact m.rollBack_accountable n
  next f hrefused =>
    rcases RollbackCount.ofValue_refused hrefused with ⟨c, rfl⟩ | ⟨rfl, _⟩ <;>
    exact accountable_throw rfl

end Migrator

/-! ## Seeders -/

namespace Seeding

variable {s : Session} {x y : Seeder} {order before after : List Seeder} {n : String}
  {counted : List String} {records : List Event}

/-- The seeder `n` failed: it is reported as failed, or what is raised is the failure of its run. -/
def Failed (n : String) : EStateM.Result Failure Session SeedReport → Prop
  | .ok r _ => n ∈ r.failed
  | .error f _ => f.family? = some .execution ∧ f.unit? = some n

theorem failed_iff {r : EStateM.Result Failure Session SeedReport} :
    Failed n r ↔ (∃ report s, r = .ok report s ∧ n ∈ report.failed) ∨
      ∃ f s, r = .error f s ∧ f.family? = some .execution ∧ f.unit? = some n := by
  cases r with
  | ok report s =>
    constructor
    · exact fun h => .inl ⟨report, s, rfl, h⟩
    · rintro (⟨report', s', h, hn⟩ | ⟨f, s', h, -⟩)
      · cases h
        exact hn
      · cases h
  | error f s =>
    constructor
    · exact fun h => .inr ⟨f, s, rfl, h⟩
    · rintro (⟨report, s', h, -⟩ | ⟨f', s', h, hf⟩)
      · cases h
      · cases h
        exact hf

/-! ### One turn -/

/-- The seeder can fail without a text, and `f` is raised in place of that. -/
def Untold (x : Seeder) (u : String) (f : Failure) : Prop :=
  x.name = u ∧ f.isInterrupt = false ∧ x.run.Passes (fun g => ∃ e, g = .store e) f

/-- Before its answer is taken up, what a seeder raises is its own or an error of the store. -/
theorem body_obeys (x : Seeder) (t : Ticket) : Obeys (Session.Steady readings)
    (fun f => x.run.Raises (fun g => ∃ e, g = .store e) f ∨ ∃ e, f = .store e) (body x t) := by
  have d := Session.steady_discipline readings .empty
  refine (noteCall_obeys _ _ _).bind fun _ => ((d.routine t x.run).mono fun _ => .inl).bind
    fun _ => (d.commit t).mono fun _ => .inr

theorem runOne_accountable (x : Seeder) : Accountable readings (Untold x) (runOne x) := by
  have d := Session.steady_discipline readings .empty
  have hbody (t : Ticket) : Keeps Session.alarms (body x t) :=
    (noteCall_keeps_alarms _ _ _).bind fun _ => (routine_keeps_alarms t x.run).bind fun _ =>
      onHandle_keeps_alarms _
  unfold runOne
  refine accountable_now.bind fun start => (accountable_report _).bind fun _ => ?_
  refine Accountable.bind (.orStore (onHandle_keeps_alarms _) d.begin fun e => ?_) fun t => ?_
  · exact accountable_raise rfl rfl
  · refine .rescued (hbody t) (body_obeys x t) ?_ fun f hf _ => ?_
    · exact fun _ => accountable_now.bind fun _ => accountable_report _
    · refine accountable_ofUnit (giveUp_closes (fun _ => rfl) t) rfl ?_
      rintro kind message rfl
      rcases hf with hf | ⟨e, hf⟩
      · exact ⟨rfl, rfl, .untold hf⟩
      · cases hf

/-- A turn raises the failure of its seeder, or what passes by the handlers. -/
theorem runOne_raises (x : Seeder) : Obeys (Session.Steady readings)
    (fun f => f.OfRun x.name ∨ x.run.Passes (fun g => ∃ e, g = .store e) f) (runOne x) := by
  have d := Session.steady_discipline readings .empty
  have hpasses : ∀ f : Failure, (∃ e, f = .store e) → f.store? = none →
      f.OfRun x.name ∨ x.run.Passes (fun g => ∃ e, g = .store e) f := by
    rintro f ⟨e, rfl⟩ hf
    cases hf
  unfold runOne
  refine now_obeys.bind fun start => (report_obeys _).bind fun _ => ?_
  refine Obeys.bind (d.begin.orStore hpasses fun e => ?_) fun t => ?_
  · exact (report_obeys _).bind fun _ => obeys_throw (.inl (.inr ⟨e, rfl⟩))
  · refine (body_obeys x t).rescued ?_ (fun _ => now_obeys.bind fun _ => report_obeys _) ?_
    · rintro f (hf | ⟨e, rfl⟩) hint
      · exact .inr (.interrupt hf hint)
      · cases hint
    · intro f hf hint
      refine ((d.rollback t).orStore hpasses fun _ => report_obeys _).bind fun _ => ?_
      refine Obeys.bind ?_ fun _ => obeys_throw ?_
      · unfold Work.reportOf
        split
        · exact report_obeys _
        · exact obeys_pure ()
      · rcases Failure.ofUnit_run x.name hint with ⟨_, hrun⟩ | ⟨g, hg, hraised, _⟩
        · exact .inl hrun
        · rw [hraised]
          cases f with
          | untold kind message =>
            obtain rfl := Option.some.inj hg
            rcases hf with hf | ⟨e, hf⟩
            · exact .inr (.untold hf)
            · cases hf
          | interrupt => cases hint
          | _ => cases hg

/-- What passes by the handlers of a seeder is no failure of the engine, and about no unit. -/
theorem family?_of_passes {R : Failure → Prop} {r : Routine} {f : Failure} (h : r.Passes R f) :
    f.family? = none ∧ f.unit? = none := by
  obtain ⟨_, _, rfl | rfl⟩ := h.outside <;> exact ⟨rfl, rfl⟩

/-! ### The turns of a run -/

/-- The turns of `before` were taken from `s`, and then the run ended with `g`, which passed by the
handlers of `y`. There is a record of an error about each of those turns that failed. Every other
one says that the transaction of `y`, whose failure had no text, could not be rolled back. -/
structure Unfinished (before : List Seeder) (y : Seeder) (g : Failure) (s : Session)
    (records : List Event) : Prop where
  passes : y.run.Passes (fun f => ∃ e, f = .store e) g
  each : ∀ t ∈ turns before s, ¬ t.Returns → ∃ e ∈ records, e.failing? = some t.seeder.name
  only : ∀ e ∈ records, (∃ t ∈ turns before s, ¬ t.Returns ∧ e.failing? = some t.seeder.name) ∨
    (g.isInterrupt = false ∧ e.unclosed? = some y.name)

/-- How the records of errors in a run of `order` from `s` agree with its outcome. They are about
just the seeders that failed, except those counted before; or the run did not get to its end. -/
inductive Speaks (counted : List String) (order : List Seeder) (s : Session)
    (records : List Event) : EStateM.Result Failure Session SeedReport → Prop
  | ended {r : EStateM.Result Failure Session SeedReport} :
    (∀ n, Failed n r ↔ (∃ e ∈ records, e.failing? = some n) ∨ n ∈ counted) →
    Speaks counted order s records r
  | unfinished {before after : List Seeder} {y : Seeder} {g : Failure} {s' : Session} :
    order = before ++ y :: after → Unfinished before y g s records →
    Speaks counted order s records (.error g s')

/-- A turn returns, and what comes after it speaks for the run. -/
theorem Unfinished.cons_returned {g : Failure} (hx : (Turn.mk x s).Returns)
    (h : Unfinished before y g (Turn.mk x s).next records) :
    Unfinished (x :: before) y g s records := by
  refine ⟨h.passes, List.forall_mem_cons.mpr ⟨fun hnot => absurd hx hnot, h.each⟩, fun e he => ?_⟩
  rcases h.only e he with ⟨t, ht, hwhy⟩ | hlast
  · exact .inl ⟨t, List.mem_cons_of_mem _ ht, hwhy⟩
  · exact .inr hlast

/-- A turn fails, its records are about its seeder, and the run goes on. -/
theorem Unfinished.cons_failed {g : Failure} {first : List Event} (hx : ¬ (Turn.mk x s).Returns)
    (hfirst : Concern (some x.name) first)
    (h : Unfinished before y g (Turn.mk x s).next records) :
    Unfinished (x :: before) y g s (first ++ records) := by
  refine ⟨h.passes, List.forall_mem_cons.mpr ⟨fun _ => ?_, fun t ht hnot => ?_⟩, fun e he => ?_⟩
  · obtain ⟨e, he, hname⟩ := hfirst.failing_iff.mpr (rfl : x.name = x.name)
    exact ⟨e, List.mem_append_left _ he, hname⟩
  · obtain ⟨e, he, hname⟩ := h.each t ht hnot
    exact ⟨e, List.mem_append_right _ he, hname⟩
  · rcases List.mem_append.mp he with he | he
    · exact .inl ⟨_, List.mem_cons_self, hx, hfirst.about e he⟩
    · rcases h.only e he with ⟨t, ht, hwhy⟩ | hlast
      · exact .inl ⟨t, List.mem_cons_of_mem _ ht, hwhy⟩
      · exact .inr hlast

theorem Speaks.cons_returned {r : EStateM.Result Failure Session SeedReport}
    (hx : (Turn.mk x s).Returns) (h : Speaks counted order (Turn.mk x s).next records r) :
    Speaks counted (x :: order) s records r := by
  rcases h with hfailed | ⟨rfl, hcut⟩
  · exact .ended hfailed
  · exact .unfinished (List.cons_append ..).symm (hcut.cons_returned hx)

/-- The run goes on after a failure, and its report gains the seeder. -/
theorem Speaks.cons_failed {first : List Event} {r : EStateM.Result Failure Session SeedReport}
    (hx : ¬ (Turn.mk x s).Returns) (hfirst : Concern (some x.name) first)
    (h : Speaks (counted ++ [x.name]) order (Turn.mk x s).next records r) :
    Speaks counted (x :: order) s (first ++ records) r := by
  rcases h with hfailed | ⟨rfl, hcut⟩
  · refine .ended fun n => ?_
    rw [hfailed n, List.mem_append, List.mem_singleton, ← hfirst.failing_iff]
    simp only [List.mem_append, or_and_right, exists_or]
    constructor
    · rintro (hlater | hbefore | hnow)
      · exact .inl (.inr hlater)
      · exact .inr hbefore
      · exact .inl (.inl hnow)
    · rintro ((hnow | hlater) | hbefore)
      · exact .inr (.inr hnow)
      · exact .inl hlater
      · exact .inr (.inl hbefore)
  · exact .unfinished (List.cons_append ..).symm (hcut.cons_failed hx hfirst)

/-- What ends a run at a turn: the failure of its seeder, which is recorded, or what passes by the
handlers. -/
theorem runOne_tells {f : Failure} {s' : Session} (hs : s.Steady readings)
    (h : runOne x s = .error f s') :
    s'.Steady readings ∧ ∃ first, s'.alarms = s.alarms ++ first ∧
      ((f.OfRun x.name ∧ Concern (some x.name) first) ∨
        (f.isEngine = false ∧ Unfinished [] x f s first)) := by
  obtain ⟨hsteady, first, hfirst, htells⟩ := runOne_accountable x s hs
  obtain ⟨-, hraised⟩ := (runOne_raises x).error hs h
  rw [h] at hsteady hfirst htells
  refine ⟨hsteady, first, hfirst, ?_⟩
  rcases hraised with hrun | hpasses
  · have hunit : f.unit? = some x.name := by
      rcases hrun with ⟨cause, rfl⟩ | ⟨e, rfl⟩ <;> rfl
    rcases htells with hconcern | ⟨hsame, -, hnone, -⟩
    · rw [blamed, hunit] at hconcern
      exact .inl ⟨hrun, hconcern⟩
    · cases hsame
      cases hnone.symm.trans hunit
  · obtain ⟨hfamily, hunit⟩ := family?_of_passes hpasses
    refine .inr ⟨by rw [Failure.isEngine, hfamily]; rfl, hpasses, by simp [turns], fun e he => ?_⟩
    rcases htells with hconcern | ⟨hsame, ⟨hname, hint, -⟩, -, hrecords⟩
    · rw [blamed, hunit] at hconcern
      exact absurd he (hconcern.eq_nil ▸ List.not_mem_nil)
    · cases hsame
      exact .inr ⟨hint, hname ▸ hrecords e he⟩

/-- A turn that returns records nothing. -/
theorem runOne_quiet {s' : Session} (hs : s.Steady readings) (h : runOne x s = .ok () s') :
    s'.Steady readings ∧ s'.alarms = s.alarms := by
  obtain ⟨hsteady, first, hfirst, htells⟩ := runOne_accountable x s hs
  rw [h] at hsteady hfirst htells
  obtain rfl := htells.eq_nil
  exact ⟨hsteady, hfirst.trans (List.append_nil _)⟩

/-- A run that ends with the failure of a seeder speaks for that one, if none failed before. -/
theorem Speaks.of_failure {f : Failure} {s' : Session} (hcounted : counted = [])
    (hf : f.OfRun x.name) (hrecords : Concern (some x.name) records) :
    Speaks counted order s records (.error f s') := by
  have hunit : f.family? = some .execution ∧ f.unit? = some x.name := by
    rcases hf with ⟨cause, rfl⟩ | ⟨e, rfl⟩ <;> exact ⟨rfl, rfl⟩
  refine .ended fun n => ?_
  rw [hcounted, hrecords.failing_iff, Failed, hunit.1, hunit.2]
  simp [eq_comm]

/-- A run that stops has recorded nothing before the failure; one that goes on adds each failed
seeder to its report. -/
theorem runEach_speaks (failFast : Bool) (report : SeedReport) (order : List Seeder)
    (hreport : failFast = true → report.failed = []) (hs : s.Steady readings) :
    ∃ records, (Session.after (runEach failFast report order s)).alarms = s.alarms ++ records ∧
      Speaks report.failed order s records (runEach failFast report order s) := by
  induction order generalizing report s with
  | nil =>
    refine ⟨[], (List.append_nil _).symm, .ended fun n => ?_⟩
    simp only [List.not_mem_nil, false_and, exists_false, false_or]
    rfl
  | cons x rest ih =>
    rcases hrun : runOne x s with ⟨⟨⟩, s₁⟩ | ⟨f, s₁⟩
    · obtain ⟨hsteady, hsame⟩ := runOne_quiet hs hrun
      have hnext : (Turn.mk x s).next = s₁ := by simp only [Turn.next, hrun]
      have hreturns : (Turn.mk x s).Returns := by simp only [Turn.Returns, Turn.next, hrun]
      obtain ⟨records, hrecords, hspeaks⟩ :=
        ih { report with executed := report.executed ++ [x.name] } hreport hsteady
      rw [runEach_returned failFast report hreturns rest, ← hsame]
      rw [← hnext] at hspeaks hrecords ⊢
      exact ⟨records, hrecords, hspeaks.cons_returned hreturns⟩
    · have hnot : ¬ (Turn.mk x s).Returns := by
        intro hreturns
        cases hrun.symm.trans hreturns
      obtain ⟨hsteady, first, hfirst, ⟨hf, hconcern⟩ | ⟨hengine, hcut⟩⟩ := runOne_tells hs hrun
      · rcases hstop : (failFast || !f.isEngine) with _ | _
        · have hfast : failFast = false := (Bool.or_eq_false_iff.mp hstop).1
          have hnext : (Turn.mk x s).next = s₁.saying [.seederSkipped x.name f] := by
            simp only [Turn.next, hrun]
          have hskip : (s₁.saying [.seederSkipped x.name f]).alarms = s.alarms ++ first :=
            (report_keeps_alarms (.seederSkipped x.name f) (by simp [Event.level]) s₁).trans hfirst
          obtain ⟨records, hrecords, hspeaks⟩ :=
            ih { report with failed := report.failed ++ [x.name] } (by simp [hfast])
              (s := s₁.saying [.seederSkipped x.name f]) ⟨hsteady.faults, hsteady.clock⟩
          rw [runEach_went_on hrun hstop report rest]
          rw [hskip, List.append_assoc] at hrecords
          rw [← hnext] at hspeaks hrecords
          exact ⟨first ++ records, hrecords, hspeaks.cons_failed hnot hconcern⟩
        · rw [runEach_stopped hrun hstop report rest]
          rw [hf.isEngine, Bool.not_true, Bool.or_false] at hstop
          exact ⟨first, hfirst, .of_failure (hreport hstop) hf hconcern⟩
      · rw [runEach_stopped hrun (by simp [hengine]) report rest]
        have horder : x :: rest = [] ++ x :: rest := rfl
        exact ⟨first, hfirst, .unfinished horder hcut⟩

/-! ### Runs of seeders -/

/-- The order in which the seeders run that are asked for. -/
def orderOf (x : Seeding) (name : String) : Work (List Seeder) :=
  if name.isEmpty then resolveAll x.seeders else resolveFor x.seeders name

/-- Some work gives an order of seeders, or fails with the failure of no seeder. It does nothing
else but say so, and what it says is about no seeder. -/
def Prepares (w : Work (List Seeder)) : Prop :=
  ∀ s, (∃ order said, w s = .ok order (s.saying said) ∧ ∀ e ∈ said, e.level ≠ .error) ∨
    ∃ f said, w s = .error f (s.saying said) ∧ f.family? ≠ some .execution ∧
      ∀ e ∈ said, e.failing? = none

theorem alarms_saying (s : Session) (said : List Event) :
    (s.saying said).alarms = s.alarms ++ said.filter fun e => e.level = .error :=
  List.filter_append ..

theorem alarms_saying_quiet {said : List Event} (h : ∀ e ∈ said, e.level ≠ .error) (s : Session) :
    (s.saying said).alarms = s.alarms := by
  rw [alarms_saying, List.filter_eq_nil_iff.mpr fun e he => by simpa using h e he, List.append_nil]

theorem Refused.family? {seeders : List Seeder} {f : Failure} (h : Refused seeders f) :
    f.family? ≠ some .execution := by
  cases h <;> simp [Failure.family?]

theorem find_raises {seeders : List Seeder} {name : String} {f : Failure}
    (h : find seeders name = .error f) : f.family? ≠ some .execution := by
  unfold find at h
  rcases requireDistinct_cases seeders with ⟨-, hok⟩ | ⟨n, -, herr⟩
  · rw [hok] at h
    simp only [bind, Except.bind, pure, Except.pure] at h
    split at h
    next => cases h
    next =>
      cases h
      simp [Failure.family?]
  · rw [herr] at h
    cases h
    simp [Failure.family?]

theorem orderFor_raises {seeders : List Seeder} {target : String} {f : Failure}
    (h : orderFor seeders target = .error f) : f.family? ≠ some .execution := by
  unfold orderFor at h
  cases hclosure : (graphOf seeders).dependencyClosure target with
  | ok names =>
    rw [hclosure] at h
    cases h
  | error g =>
    rw [hclosure] at h
    cases h
    cases g <;> simp [Failure.ofGraph, Failure.family?]

theorem resolveAll_prepares (seeders : List Seeder) : Prepares (resolveAll seeders) := by
  intro s
  rw [resolveAll_eq]
  rcases orderOfAll_cases seeders with ⟨names, hok, -⟩ | ⟨f, herr, -, hrefused⟩
  · rw [hok]
    exact .inl ⟨_, _, rfl, by simp [Event.level]⟩
  · rw [herr]
    exact .inr ⟨f, [], by simp only [Session.saying_nil], hrefused.family?, by simp⟩

theorem resolveFor_prepares (seeders : List Seeder) (name : String) :
    Prepares (resolveFor seeders name) := by
  intro s
  rw [resolveFor_eq]
  rcases hfind : find seeders name with f | target
  · exact .inr ⟨f, [], by simp only [Session.saying_nil], find_raises hfind, by simp⟩
  · dsimp only
    rcases horder : orderFor seeders target.name with f | names
    · exact .inr ⟨f, [], by simp only [Session.saying_nil], orderFor_raises horder, by simp⟩
    · exact .inl ⟨_, _, rfl, by simp [Event.level]⟩

/-- How the records of errors in a run from `s` agree with its outcome. They are about just the
seeders that failed, or the run did not get to the end of its order. -/
inductive Answers (x : Seeding) (name : String) (s : Session) (records : List Event) :
    EStateM.Result Failure Session SeedReport → Prop
  | ended {r : EStateM.Result Failure Session SeedReport} :
    (∀ n, (∃ e ∈ records, e.failing? = some n) ↔ Failed n r) → Answers x name s records r
  | unfinished {q q' s' : Session} {before after : List Seeder} {y : Seeder} {g : Failure}
    {said : List Event} :
    x.orderOf name q = .ok (before ++ y :: after) q' →
    Unfinished before y g (s.saying said) records → Answers x name s records (.error g s')

/-- How a run goes once it has begun: where it gets its order, what it reports if it gets none,
whether it stops at a failure, and what it reports at the end. -/
structure Course where
  order : Work (List Seeder)
  refused : Failure → Event
  failFast : Bool
  last : List Seeder → SeedReport → Event

namespace Course

def run (c : Course) : Work SeedReport :=
  reporting c.order c.refused >>= fun order => runEach c.failFast {} order >>= fun report =>
    Work.report (c.last order report) >>= fun _ => pure report

/-- What is reported before the turns and after them is no failure of a seeder. -/
structure Quiet (c : Course) : Prop where
  order : Prepares c.order
  refused (f : Failure) : (c.refused f).failing? = none
  last (order : List Seeder) (r : SeedReport) : (c.last order r).level ≠ .error

variable {c : Course} {x : Seeding} {name : String} {said : List Event}

/-- What ends a run before its turns is the failure of no seeder, and what is said of it as well. -/
theorem answers_refused (hc : c.Quiet) {s₀ : Session} {f : Failure}
    (h : c.order s₀ = .error f (s₀.saying said)) (hfamily : f.family? ≠ some .execution)
    (hnone : ∀ e ∈ said, e.failing? = none) :
    ∃ records, (Session.after (c.run s₀)).alarms = s₀.alarms ++ records ∧
      Answers x name s records (c.run s₀) := by
  have hends : c.run s₀ =
      .error f (s₀.saying (said ++ if f.isEngine then [c.refused f] else [])) := by
    refine Work.bind_error ?_ _
    rw [reporting_failed h, Session.saying_saying]
  rw [hends]
  refine ⟨_, alarms_saying s₀ _, .ended fun n => iff_of_false ?_ fun h => hfamily h.1⟩
  rintro ⟨e, he, hn⟩
  rcases List.mem_append.mp (List.mem_of_mem_filter he) with he | he
  · exact nomatch (hnone e he).symm.trans hn
  · split at he
    next =>
      rw [List.mem_singleton.mp he, hc.refused] at hn
      cases hn
    next => cases he

/-- The turns of a run, and then its report, which is no error. -/
theorem answers_ordered (hc : c.Quiet) {order : List Seeder} {s₀ : Session}
    (h : c.order s₀ = .ok order (s.saying said)) (horder : x.orderOf name = c.order)
    (hs : s.Steady readings) :
    ∃ records, (Session.after (c.run s₀)).alarms = (s.saying said).alarms ++ records ∧
      Answers x name s records (c.run s₀) := by
  have hturns : c.run s₀ =
      concluded (c.last order) (runEach c.failFast {} order (s.saying said)) := by
    unfold run
    rw [Work.bind_ok (reporting_ok h c.refused), bind_conclude]
  have hsaid : (s.saying said).Steady readings := ⟨hs.faults, hs.clock⟩
  obtain ⟨records, hrecords, hspeaks⟩ := runEach_speaks c.failFast {} order (fun _ => rfl) hsaid
  rw [hturns]
  generalize runEach c.failFast {} order (s.saying said) = r at hrecords hspeaks
  refine ⟨records, ?_, ?_⟩
  · rw [← hrecords]
    rcases r with ⟨report, s₁⟩ | ⟨f, s₁⟩
    · exact alarms_saying_quiet (by simpa using hc.last order report) s₁
    · rfl
  · rcases hspeaks with hfailed | ⟨rfl, hcut⟩
    · have hsame (n : String) : Failed n (concluded (c.last order) r) ↔ Failed n r := by
        cases r <;> rfl
      refine .ended fun n => ?_
      rw [hsame, hfailed n, or_iff_left List.not_mem_nil]
    · exact .unfinished (by rw [horder, h]) hcut

/-- A run answers for its seeders if nothing that is said before it is an error. -/
theorem answers (hc : c.Quiet) (horder : x.orderOf name = c.order)
    (hsaid : ∀ e ∈ said, e.level ≠ .error) (hs : s.Steady readings) :
    ∃ records, (Session.after (c.run (s.saying said))).alarms = s.alarms ++ records ∧
      Answers x name s records (c.run (s.saying said)) := by
  rcases hc.order (s.saying said) with ⟨order, later, h, hquiet⟩ | ⟨f, later, h, hfamily, hnone⟩
  · rw [Session.saying_saying] at h
    obtain ⟨records, hrecords, hanswers⟩ := answers_ordered hc h horder hs
    rw [alarms_saying_quiet] at hrecords
    · exact ⟨records, hrecords, hanswers⟩
    · exact fun e he => (List.mem_append.mp he).elim (hsaid e) (hquiet e)
  · obtain ⟨records, hrecords, hanswers⟩ := answers_refused hc h hfamily hnone
    rw [alarms_saying_quiet hsaid] at hrecords
    exact ⟨records, hrecords, hanswers⟩

end Course

/-- The course of a run of all seeders. -/
def courseOfAll (x : Seeding) : Course :=
  ⟨resolveAll x.seeders, .orderFailed, x.failFast, fun _ => lastReport⟩

/-- The course of a run of one seeder with its prerequisites. -/
def courseOf (x : Seeding) (name : String) : Course :=
  ⟨resolveFor x.seeders name, .orderFailedFor name, true,
    fun order _ => .namedSeeded ((order.getLast?.map Seeder.name).getD name)⟩

theorem courseOfAll_quiet (x : Seeding) : x.courseOfAll.Quiet where
  order := resolveAll_prepares _
  refused _ := rfl
  last _ r := by
    change (lastReport r).level ≠ .error
    unfold lastReport
    split <;> simp [Event.level]

theorem courseOf_quiet (x : Seeding) (name : String) : (x.courseOf name).Quiet where
  order := resolveFor_prepares _ _
  refused _ := rfl
  last _ _ := by simp [courseOf, Event.level]

theorem run_answers (x : Seeding) (name : String) (hs : s.Steady readings) :
    ∃ records, (Session.after (x.run name s)).alarms = s.alarms ++ records ∧
      Answers x name s records (x.run name s) := by
  rcases hname : name.isEmpty with _ | _
  · have hrun : x.run name s = (x.courseOf name).run (s.saying []) := by
      simp only [run, hname, Bool.false_eq_true, if_false, Session.saying_nil]
      rfl
    have horder : x.orderOf name = (x.courseOf name).order := by
      simp only [orderOf, hname, Bool.false_eq_true, if_false]
      rfl
    rw [hrun]
    exact Course.answers (x.courseOf_quiet name) horder (by simp) hs
  · obtain rfl : name = "" := String.isEmpty_iff.mp hname
    by_cases hne : x.seeders = []
    · have hrun : x.run "" s = .ok {} (s.saying [.noSeeders]) := by
        simp only [run, runAll, hname, hne, List.isEmpty_nil, if_true]
        rfl
      rw [hrun]
      refine ⟨[], (alarms_saying_quiet (by simp [Event.level]) s).trans (List.append_nil _).symm,
        .ended fun n => ?_⟩
      simp [Failed]
    · have hrun : x.run "" s = x.courseOfAll.run (s.saying [.seeding x.seeders.length]) :=
        runAll_eq hne x.failFast s
      rw [hrun]
      exact Course.answers x.courseOfAll_quiet rfl (by simp [Event.level]) hs

end Seeding

/-! ## Failures and their records -/

/-- Under faults of the store, whatever the units do: running or rolling back migrations records
errors just when it raises a failure that is about a version; then every one of them is about that
version and holds it in its text. Only where the failure of a migration has no text can a record be
left, of its refused rollback, though what is raised is about no version. A run of seeders records
errors about just the seeders that it reports as failed, or whose failure it raises; or else what a
seeder raises passes by the handlers, and ends the run without a report of those that failed before
it and are recorded. -/
theorem failures_are_recorded_with_the_unit_that_failed_unless_one_passes_by (m : Migrator)
    (count : Value) (x : Seeding) (name : String) (s : Session)
    (hs : Handle.StoreFaults s.handle.plan) :
    (∀ w, w = m.run ∨ w = m.rollBackValue count →
      ∃ records, (Session.after (w s)).alarms = s.alarms ++ records ∧
        (((records ≠ [] ↔ ∃ f s' v, w s = .error f s' ∧ f.unit? = some v) ∧
            ∀ f s' v, w s = .error f s' → f.unit? = some v →
              ∀ e ∈ records, e.failing? = some v ∧ v.toList <:+: e.text.toList) ∨
          ∃ u ∈ m.catalog.entries, ∃ f s', w s = .error f s' ∧ u.Untold f ∧ f.unit? = none ∧
            ∀ e ∈ records, e.unclosed? = some u.version)) ∧
    ∃ records, (Session.after (x.run name s)).alarms = s.alarms ++ records ∧
      ((∀ n, (∃ e ∈ records, e.failing? = some n ∧ n.toList <:+: e.text.toList) ↔
          (∃ r s', x.run name s = .ok r s' ∧ n ∈ r.failed) ∨
          ∃ f s', x.run name s = .error f s' ∧ f.family? = some .execution ∧ f.unit? = some n) ∨
        ∃ q q' before y after g s' said, x.orderOf name q = .ok (before ++ y :: after) q' ∧
          x.run name s = .error g s' ∧ Seeding.Unfinished before y g (s.saying said) records) := by
  have hsteady : s.Steady s.clock.nth := ⟨hs, rfl⟩
  constructor
  · intro w hw
    have haccounts : Accountable s.clock.nth m.Untold w := by
      rcases hw with rfl | rfl
      · exact m.run_accountable
      · exact m.rollBackValue_accountable count
    obtain ⟨-, records, hrecords, htells⟩ := haccounts s hsteady
    refine ⟨records, hrecords, ?_⟩
    rcases htells with hconcern | ⟨hrun, ⟨u, hu, rfl, hf⟩, hunit, habout⟩
    · refine .inl ⟨?_, fun f s' v h hv e he => ?_⟩
      · rw [hconcern.some_iff, Option.ne_none_iff_exists']
        simp only [blamed_eq_some]
        constructor
        · rintro ⟨v, f, s', h⟩
          exact ⟨f, s', v, h⟩
        · rintro ⟨f, s', v, h⟩
          exact ⟨v, f, s', h⟩
      · have habout := hconcern.about e he
        rw [blamed_eq_some.mpr ⟨f, s', h, hv⟩] at habout
        exact ⟨habout, (Event.error_of_failing? habout).2⟩
    · exact .inr ⟨u, hu, _, _, hrun, hf, hunit, habout⟩
  · obtain ⟨records, hrecords, hanswers⟩ := x.run_answers name hsteady
    refine ⟨records, hrecords, ?_⟩
    generalize x.run name s = r at hanswers ⊢
    rcases hanswers with hfailed | ⟨horder, hcut⟩
    · refine .inl fun n => ?_
      rw [← Seeding.failed_iff, ← hfailed n]
      constructor
      · rintro ⟨e, he, hn, -⟩
        exact ⟨e, he, hn⟩
      · rintro ⟨e, he, hn⟩
        exact ⟨e, he, hn, (Event.error_of_failing? hn).2⟩
    · exact .inr ⟨_, _, _, _, _, _, _, _, horder, rfl, hcut⟩

/-- A migration fails and its rollback is refused; then two of three seeders fail. -/
theorem a_failed_migration_and_two_failed_seeders_are_recorded :
    let broken : Routine := .fail (.raised "ValueError" "no")
    let catalog : Catalog :=
      { entries := [{ version := "001", up := broken, down := .done }],
        distinct := by decide, named := by decide }
    let m : Migrator := { catalog }
    let x : Seeding :=
      { seeders := [⟨"a", [], broken⟩, ⟨"b", [], .done⟩, ⟨"c", [], broken⟩], failFast := false }
    let s : Session := { handle := { plan := [⟨.rollback, 2, .store .closed⟩] }, clock := .still 0 }
    Handle.StoreFaults s.handle.plan ∧
      (∃ e ∈ (Session.after (m.run s)).alarms, e.failing? = some "001" ∧
        "001".toList <:+: e.text.toList) ∧
      ∀ n, (∃ e ∈ (Session.after (x.run "" s)).alarms, e.failing? = some n ∧
        n.toList <:+: e.text.toList) ↔ n = "a" ∨ n = "c" := by
  intro broken catalog m x s
  have hs : Handle.StoreFaults s.handle.plan := by simp [Handle.StoreFaults, s]
  obtain ⟨hmigrations, records, hrecords, hseeders⟩ :=
    failures_are_recorded_with_the_unit_that_failed_unless_one_passes_by m (.int 1) x "" s hs
  refine ⟨hs, ?_, fun n => ?_⟩
  · obtain ⟨found, hfound, htold⟩ := hmigrations m.run (.inl rfl)
    have hblamed : blamed (m.run s) = some "001" := by decide +kernel
    rcases htold with ⟨hsome, habout⟩ | ⟨_, _, f, s', hrun, -, hunit, -⟩
    · cases hrun : m.run s with
      | ok outcomes s' =>
        rw [hrun] at hblamed
        cases hblamed
      | error f s' =>
        rw [hrun] at hblamed hfound
        obtain ⟨e, he⟩ := List.exists_mem_of_ne_nil _ (hsome.mpr ⟨f, s', "001", hrun, hblamed⟩)
        exact ⟨e, hfound ▸ List.mem_append_right _ he, habout f s' "001" hrun hblamed e he⟩
    · rw [hrun] at hblamed
      cases hunit.symm.trans hblamed
  · have hreport : Seeding.returned? (x.run "" s) = some ⟨["b"], ["a", "c"]⟩ := by decide +kernel
    have hnew : (Session.after (x.run "" s)).alarms = records := hrecords.trans (List.nil_append _)
    rcases hseeders with hseeders | ⟨_, _, _, _, _, _, _, _, _, hraised, _⟩
    · rw [hnew, hseeders n]
      cases h : x.run "" s with
      | ok r s' =>
        rw [h] at hreport
        obtain rfl := Option.some.inj hreport
        simp
      | error f s' =>
        rw [h] at hreport
        cases hreport
    · rw [hraised] at hreport
      cases hreport

/-- One seeder fails and is recorded, and the next one asks to exit. The run that should go on after
failures ends with that: no report names the first one, and no failure of it is raised. -/
theorem a_recorded_failure_is_lost_where_the_next_seeder_asks_to_exit :
    let a : Seeder := { name := "a", run := .fail (.raised "RuntimeError" "no") }
    let b : Seeder := { name := "b", run := .fail (.interrupt "SystemExit" "3") }
    let x : Seeding := { seeders := [a, b], failFast := false }
    let s : Session := { clock := .still 0 }
    (∃ s', x.orderOf "" s = .ok [a, b] s') ∧ a.run.LeavesOpen ∧ b.run.LeavesOpen ∧
      ∃ f s', x.run "" s = .error f s' ∧ f.isInterrupt = true ∧ f.unit? = none ∧
        ∃ e ∈ s'.alarms, e.failing? = some "a" := by
  intro a b x s
  refine ⟨?_, .fail _, .fail _, ?_⟩
  · have horder : (Seeding.graphOf [a, b]).topologicalOrder = .ok ["a", "b"] := by
      decide +kernel
    have hres : Seeding.resolveAll [a, b] s = .ok [a, b] (s.saying [.orderResolved ["a", "b"]]) := by
      rw [Seeding.resolveAll_eq,
        Seeding.orderOfAll_eq (by decide) (Graph.dangling?_eq_none.mp (by decide)), horder]
      rfl
    exact ⟨_, hres⟩
  · have hends : (match x.run "" s with
        | .ok _ _ => false
        | .error f s' =>
          f.isInterrupt && f.unit?.isNone && s'.alarms.any (·.failing? = some "a")) = true := by
      decide +kernel
    rcases hrun : x.run "" s with ⟨r, s'⟩ | ⟨f, s'⟩
    · rw [hrun] at hends
      cases hends
    · rw [hrun] at hends
      obtain ⟨⟨hint, hunit⟩, hsaid⟩ :
          (f.isInterrupt = true ∧ f.unit? = none) ∧ ∃ e ∈ s'.alarms, e.failing? = some "a" := by
        simpa using hends
      exact ⟨f, s', rfl, hint, hunit, hsaid⟩

end SchemaLedger
