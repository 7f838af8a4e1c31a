-- A unit is done whole or not at all. Whatever a unit does in its transaction, and
-- wherever a fault strikes, the store afterwards is the one from before, or the one that
-- the unit and then the engine's own step made of it. Only a unit that is broken off leaves
-- its transaction open.
import SchemaLedger.Proofs.SeederAttempt

namespace SchemaLedger

/-! ## The engine's own step -/

namespace Ledger

variable {l : Ledger} {ts us : Tables} {v a : String} {d : Cell}

/-- What is written of a migration. -/
def given (version : String) (description : Cell) (appliedAt : String) : List (String × Cell) :=
  [("version", some version), ("description", description), ("applied_at", some appliedAt)]

/-- `us` is `ts` with one more row in the ledger's table, under the next id and with
what is given of a migration. The unit may have changed the columns of that table. -/
def Recorded (l : Ledger) (version : String) (description : Cell) (appliedAt : String)
    (ts us : Tables) : Prop :=
  ∃ t row, ts.find? l.table = some t ∧
    row = ⟨t.nextId, Statement.cellsFor t (given version description appliedAt)⟩ ∧
    rowOf t row = ⟨t.nextId, version, description.getD "", appliedAt⟩ ∧
    (∀ x ∈ given version description appliedAt, (t.columnIndex? x.1).isSome) ∧
    t.check t.rows row.cells = .ok () ∧
    us = ts.replace l.table { t with rows := t.rows ++ [row] }

/-- `us` is `ts` without the rows of a version in the ledger's table, of which there
was one at least. -/
def Removed (l : Ledger) (version : String) (ts us : Tables) : Prop :=
  ∃ t i, ts.find? l.table = some t ∧ t.columnIndex? "version" = some i ∧
    (∃ r ∈ t.rows, Table.cellAt r i = some version) ∧
    us = ts.replace l.table
      { t with rows := t.rows.filter fun r => Table.cellAt r i != some version }

/-- A row of given cells shows a cell under every name that its column goes by. -/
theorem textAt_cellsFor {t : Table} {values : List (String × Cell)} {column : String} (n : Nat)
    (cell : Cell) (hc : (t.columnIndex? column).isSome)
    (hv : ∀ c, sameName c column = true →
      (values.find? fun x => sameName x.1 c).map Prod.snd = some cell) :
    textAt t ⟨n, Statement.cellsFor t values⟩ column = cell.getD "" := by
  obtain ⟨i, hi⟩ := Option.isSome_iff_exists.mp hc
  unfold textAt
  rw [hi]
  unfold Table.columnIndex? at hi
  obtain ⟨hlt, hname, _⟩ := List.findIdx?_eq_some_iff_getElem.mp hi
  simp only [Option.map_some, Option.getD_some, Table.cellAt, Statement.cellsFor,
    List.getElem?_map, List.getElem?_eq_getElem hlt, hv _ hname]

theorem rowOf_given {t : Table} (n : Nat) (v : String) (d : Cell) (a : String)
    (h : ∀ x ∈ given v d a, (t.columnIndex? x.1).isSome) :
    rowOf t ⟨n, Statement.cellsFor t (given v d a)⟩ = ⟨n, v, d.getD "", a⟩ := by
  simp only [given, List.forall_mem_cons] at h
  obtain ⟨hversion, hdescription, htime, _⟩ := h
  unfold rowOf
  rw [textAt_cellsFor n (some v) hversion, textAt_cellsFor n d hdescription,
    textAt_cellsFor n (some a) htime]
  · rfl
  · intro c hc
    have other (x : String) : sameName x c = sameName x "applied_at" := by
      rw [sameName_comm, sameName_congr hc, sameName_comm]
    have hother : sameName "version" "applied_at" = false ∧
        sameName "description" "applied_at" = false := by decide
    simp [given, other, hother, sameName_refl]
  · intro c hc
    have other (x : String) : sameName x c = sameName x "description" := by
      rw [sameName_comm, sameName_congr hc, sameName_comm]
    have hother : sameName "version" "description" = false := by decide
    simp [given, other, hother, sameName_refl]
  · intro c hc
    simp [given, sameName_symm hc]

theorem recorded_iff_run :
    l.Recorded v d a ts us ↔ ∃ k, (l.entry v d a).run ts = .ok (k, us) := by
  constructor
  · rintro ⟨t, row, ht, rfl, _, hcols, hcheck, rfl⟩
    exact ⟨1, Statement.insertInto_ok ht hcols hcheck⟩
  · rintro ⟨k, hrun⟩
    obtain ⟨t, ht, hcols, hcheck, _, rfl⟩ := Statement.insertInto_eq hrun
    exact ⟨t, _, ht, rfl, rowOf_given t.nextId v d a hcols, hcols, hcheck, rfl⟩

theorem recorded?_iff {description : Except Failure Cell} {clock : Readings} :
    l.recorded? v description clock ts = some us ↔
      ∃ d a, description = .ok d ∧ Calendar.timestamp? clock.current = some a ∧
        l.Recorded v d a ts us := by
  constructor
  · intro h
    obtain ⟨d, a, k, hd, ha, hrun⟩ := recorded?_eq h
    exact ⟨d, a, hd, ha, recorded_iff_run.mpr ⟨k, hrun⟩⟩
  · rintro ⟨d, a, rfl, ha, h⟩
    obtain ⟨k, hrun⟩ := recorded_iff_run.mp h
    simp only [recorded?, ha, hrun]

theorem countAt_ne_zero (t : Table) (i : Nat) (v : String) :
    t.countAt i (some v) ≠ 0 ↔ ∃ r ∈ t.rows, Table.cellAt r i = some v := by
  unfold Table.countAt Table.matching
  simp [List.filter_eq_nil_iff]

theorem removed?_iff : l.removed? v ts = some us ↔ l.Removed v ts us := by
  constructor
  · intro h
    obtain ⟨k, hk, hrun⟩ := removed?_eq h
    obtain ⟨t, i, ht, hi, rfl, rfl⟩ := run_removal_iff.mp hrun
    exact ⟨t, i, ht, hi, (countAt_ne_zero t i v).mp hk, rfl⟩
  · rintro ⟨t, i, ht, hi, hr, rfl⟩
    have hrun : (l.removal v).run ts =
        .ok (t.countAt i (some v), ts.replace l.table (t.deleteAt i (some v))) :=
      run_removal_iff.mpr ⟨t, i, ht, hi, rfl, rfl⟩
    simp only [removed?, hrun, if_neg ((countAt_ne_zero t i v).mpr hr)]
    rfl

end Ledger

/-! ## Units of work -/

/-- A unit of work: what the engine does in one transaction. -/
inductive Task where
  | apply (l : Ledger) (m : Migration)
  | revert (l : Ledger) (m : Migration)
  | seed (x : Seeder)

namespace Task

def perform : Task → Work Unit
  | .apply l m => do let _ ← m.apply l
  | .revert l m => do let _ ← m.revert l
  | .seed x => Seeding.runOne x

/-- What the unit itself does. -/
def routine : Task → Routine
  | .apply _ m => m.up
  | .revert _ m => m.down
  | .seed x => x.run

/-- What the unit itself comes to from a session, under the faults of its plan. -/
def effect (x : Task) (s : Session) : Effect :=
  x.routine.effect (Handle.faultAt s.handle.plan .execute) s.handle.counts.execute s.store

/-- A migration that is to be applied has a description that the store answers itself, as every
text is. -/
def Describable : Task → Prop
  | .apply _ m => m.Describable
  | _ => True

/-- The engine's own step after a unit that came to `e` makes `us` of the tables: one more
row in the ledger, with the description and the time of the clock's second reading; the
version's row gone; for a seeder nothing. -/
def OwnStep (s : Session) (e : Effect) (us : Tables) : Task → Prop
  | .apply l m =>
    Handle.faultAt s.handle.plan .execute e.sent = none ∧
      ∃ d a, Migration.describe m.description = .ok d ∧
        Calendar.timestamp? (s.clock.nth (s.clock.taken + 1)) = some a ∧
        l.Recorded m.version d a e.tables us
  | .revert l m =>
    Handle.faultAt s.handle.plan .execute e.sent = none ∧ l.Removed m.version e.tables us
  | .seed _ => us = e.tables

/-- Nothing hinders a unit from `s`: its transaction is opened, it succeeds, the engine's
own step makes `us` of what it leaves, and this is committed. -/
structure Completes (x : Task) (s : Session) (us : Tables) : Prop where
  opened : s.handle.beginRefusal? = none
  succeeded : (x.effect s).result = .ok ()
  kept : x.OwnStep s (x.effect s) us
  committed : s.handle.planned? .commit = none

/-- The work of a unit ends with the unit completed, or raises and leaves the store as
it was. Either way no transaction is open. -/
def Whole (x : Task) (s : Session) : Prop :=
  (∃ us s', x.Completes s us ∧ x.perform s = .ok () s' ∧ s.Leaves us s') ∨
    ∃ f s', (∀ us, ¬ x.Completes s us) ∧ x.perform s = .error f s' ∧ s.Leaves s.store s'

/-- The unit is started from `s`, and then `f` breaks it off. -/
structure BreaksOff (x : Task) (s : Session) (f : Failure) : Prop where
  opened : s.handle.beginRefusal? = none
  fails : (x.effect s).result = .error f
  interrupts : f.isInterrupt = true

/-- The work of a unit ends with `f` raised. Its transaction is open and shows what the unit has
done, and the store is as it was. -/
def Adrift (x : Task) (s : Session) (f : Failure) : Prop :=
  ∃ t s', x.perform s = .error f s' ∧ s.handle.Inside t (x.effect s).tables s'.handle ∧
    s'.store = s.store

/-- What is adrift is not whole. -/
theorem Adrift.not_whole {x : Task} {s : Session} {f : Failure} (h : x.Adrift s f) :
    ¬ x.Whole s := by
  obtain ⟨t, s', hrun, i, _⟩ := h
  rintro (⟨us, s₁, _, hdone, _⟩ | ⟨g, s₁, _, hfails, hleaves⟩)
  · exact nomatch hrun.symm.trans hdone
  · obtain ⟨-, rfl⟩ := EStateM.Result.error.inj (hrun.symm.trans hfails)
    exact i.not_idle hleaves.settled.idle

end Task

namespace Job

variable {j : Job} {s : Session} {us : Tables} {f : Failure} {calls : List UnitCall}
  {events : List Event}

/-- Nothing hinders an operation from `s`, which makes `us` of the store. -/
structure Completes (j : Job) (s : Session) (us : Tables) : Prop where
  opened : s.handle.beginRefusal? = none
  succeeded : (j.effect s).result = .ok ()
  kept : Handle.faultAt s.handle.plan .execute (j.effect s).sent = none ∧
    j.part s.clock (j.effect s).tables = some us
  committed : s.handle.planned? .commit = none

theorem Attempt.completes (h : Attempt j s (.ok us) calls events) : j.Completes s us := by
  cases h with
  | done hb hres hf hp hc => exact ⟨hb, hres, ⟨hf, hp⟩, hc⟩

theorem Attempt.not_completes (h : Attempt j s (.error f) calls events) : ¬ j.Completes s us := by
  rintro ⟨hb, hres, ⟨hf, hp⟩, hc⟩
  cases h with
  | unopened hb' => exact nomatch hb.symm.trans hb'
  | failed _ hres' _ _ => exact nomatch hres.symm.trans hres'
  | unkept _ _ hwhy _ _ =>
    rcases hwhy with hf' | hp'
    · exact hf' hf
    · exact nomatch hp.symm.trans hp'
  | uncommitted _ _ hc' => exact nomatch hc.symm.trans hc'

/-- A task that is performed as an operation, and that nothing hinders just when nothing
hinders the operation, is done whole or not at all if its routine is not broken off. -/
theorem whole (hj : j.Sound) {x : Task} {first : Event} {last : String → Int → Event} (hr : s.Ready)
    (ho : j.routine.LeavesOpen)
    (hn : s.handle.beginRefusal? = none → ¬ (j.effect (s.begun first)).Interrupted)
    (hx : x.perform = j.perform first last >>= fun _ => pure ())
    (hc : ∀ us, x.Completes s us ↔ j.Completes (s.begun first) us) : x.Whole s := by
  rcases perform_cases hj hr ho hn first last with
    ⟨f, calls, events, s', hatt, hrun, hreach⟩ | ⟨us, o, s', hatt, hrun, _, _, hreach⟩
  · refine .inr ⟨f, s', ?_, ?_, hreach.leaves⟩
    · intro us h
      exact hatt.not_completes ((hc us).mp h)
    · rw [hx]
      exact Work.bind_error hrun _
  · refine .inl ⟨us, s', (hc us).mpr hatt.completes, ?_, hreach.leaves⟩
    rw [hx]
    exact Work.bind_ok hrun _

/-- A task that is performed as an operation is adrift if the routine is broken off. -/
theorem adrift {x : Task} {first : Event} {last : String → Int → Event} (hr : s.Ready)
    (ho : j.routine.LeavesOpen) (hx : x.perform = j.perform first last >>= fun _ => pure ())
    (he : x.effect s = j.effect (s.begun first)) (hf : x.BreaksOff s f) : x.Adrift s f := by
  obtain ⟨t, s', hrun, i, _⟩ := run_interrupted (s := s.begun first) ⟨hr.idle, hf.opened⟩ ho
    (he ▸ hf.fails) hf.interrupts
  refine ⟨t, s', ?_, he ▸ i, i.base⟩
  rw [hx]
  exact Work.bind_error (perform_failed hrun last) _

end Job

namespace Seeder

variable {x : Seeder} {s : Session} {us : Tables} {f : Failure} {calls : List UnitCall}
  {events : List Event}

theorem Attempt.completes (h : Attempt x s (.ok us) calls events) : (Task.seed x).Completes s us := by
  cases h with
  | done hb hres hc => exact ⟨hb, hres, rfl, hc⟩

theorem Attempt.not_completes (h : Attempt x s (.error f) calls events) :
    ¬ (Task.seed x).Completes s us := by
  rintro ⟨hb, hres, _, hc⟩
  cases h with
  | unopened hb' => exact nomatch hb.symm.trans hb'
  | failed _ hwhy _ _ =>
    rcases hwhy with hres' | ⟨_, hc'⟩
    · exact nomatch hres.symm.trans hres'
    · exact nomatch hc.symm.trans hc'

end Seeder

namespace Task

variable {s : Session}

theorem completes_apply_iff (l : Ledger) (m : Migration) (e : Event) (us : Tables) :
    (Task.apply l m).Completes s us ↔ (Job.applying l m).Completes (s.begun e) us :=
  ⟨fun ⟨hb, hres, ⟨hf, hk⟩, hc⟩ => ⟨hb, hres, ⟨hf, Ledger.recorded?_iff.mpr hk⟩, hc⟩,
    fun ⟨hb, hres, ⟨hf, hk⟩, hc⟩ => ⟨hb, hres, ⟨hf, Ledger.recorded?_iff.mp hk⟩, hc⟩⟩

theorem completes_revert_iff (l : Ledger) (m : Migration) (e : Event) (us : Tables) :
    (Task.revert l m).Completes s us ↔ (Job.reverting l m).Completes (s.begun e) us :=
  ⟨fun ⟨hb, hres, ⟨hf, hk⟩, hc⟩ => ⟨hb, hres, ⟨hf, Ledger.removed?_iff.mpr hk⟩, hc⟩,
    fun ⟨hb, hres, ⟨hf, hk⟩, hc⟩ => ⟨hb, hres, ⟨hf, Ledger.removed?_iff.mp hk⟩, hc⟩⟩

theorem perform_apply (l : Ledger) (m : Migration) :
    (Task.apply l m).perform =
      (Job.applying l m).perform (.applying m.version m.description.shown) .applied >>=
        fun _ => pure () := by
  rw [← Migration.apply_eq]
  rfl

theorem perform_revert (l : Ledger) (m : Migration) :
    (Task.revert l m).perform =
      (Job.reverting l m).perform (.reverting m.version m.description.shown) .reverted >>=
        fun _ => pure () := by
  rw [← Migration.revert_eq]
  rfl

theorem seed_whole {x : Seeder} (hr : s.Ready) (ho : x.run.LeavesOpen)
    (hn : s.handle.beginRefusal? = none → ¬ (x.effect s).Interrupted) : (Task.seed x).Whole s := by
  have hc : ∀ us, (Task.seed x).Completes (s.begun (.seederRunning x.name)) us ↔
      (Task.seed x).Completes s us := fun us =>
    ⟨fun ⟨hb, hres, hk, hc⟩ => ⟨hb, hres, hk, hc⟩,
      fun ⟨hb, hres, hk, hc⟩ => ⟨hb, hres, hk, hc⟩⟩
  rcases Seeding.runOne_cases hr.between ho hn with
    ⟨f, calls, events, s', hatt, hrun, hreach⟩ | ⟨ms, s', hatt, hrun, hreach⟩
  · refine .inr ⟨f, s', ?_, hrun, hreach.leaves⟩
    intro us h
    exact hatt.not_completes ((hc us).mpr h)
  · exact .inl ⟨_, s', (hc _).mp hatt.completes, hrun, hreach.leaves⟩

theorem whole_of_not_broken_off (x : Task) (hr : s.Ready) (ho : x.routine.LeavesOpen)
    (hd : x.Describable) (hn : ∀ f, ¬ x.BreaksOff s f) : x.Whole s := by
  have hn' : s.handle.beginRefusal? = none → ¬ (x.effect s).Interrupted := by
    rintro hb ⟨f, hres, hf⟩
    exact hn f ⟨hb, hres, hf⟩
  cases x with
  | apply l m =>
    exact Job.whole (Job.applying_sound l hd) hr ho hn' (perform_apply l m)
      (completes_apply_iff l m _)
  | revert l m =>
    exact Job.whole (Job.reverting_sound l m) hr ho hn' (perform_revert l m)
      (completes_revert_iff l m _)
  | seed x => exact seed_whole hr ho hn'

theorem adrift_of_broken_off (x : Task) (hr : s.Ready) (ho : x.routine.LeavesOpen) {f : Failure}
    (hf : x.BreaksOff s f) : x.Adrift s f := by
  cases x with
  | apply l m => exact Job.adrift (j := Job.applying l m) hr ho (perform_apply l m) rfl hf
  | revert l m => exact Job.adrift (j := Job.reverting l m) hr ho (perform_revert l m) rfl hf
  | seed x =>
    obtain ⟨t, s', hrun, i, _⟩ :=
      Seeding.runOne_interrupted ⟨hr.idle, hf.opened⟩ ho hf.fails hf.interrupts
    exact ⟨t, s', hrun, i, i.base⟩

/-- A unit of plain failures is not broken off. -/
theorem not_broken_off (x : Task) (hr : s.Ready) (hp : x.routine.Plain) (f : Failure) :
    ¬ x.BreaksOff s f :=
  fun h => hp.not_interrupted hr.faults _ _ ⟨f, h.fails, h.interrupts⟩

/-- Applying a migration, reverting one and running a seeder are each done whole or not at
all, under every clock and wherever faults strike, just when the unit is not broken off. If it
is, the store is as it was, but the transaction of the unit is left open. -/
theorem a_unit_is_done_whole_or_not_at_all_unless_it_is_broken_off (x : Task) {s : Session}
    (hr : s.Ready) (ho : x.routine.LeavesOpen) (hd : x.Describable) :
    (x.Whole s ↔ ∀ f, ¬ x.BreaksOff s f) ∧ ∀ f, x.BreaksOff s f → x.Adrift s f :=
  ⟨⟨fun h _ hf => (adrift_of_broken_off x hr ho hf).not_whole h, whole_of_not_broken_off x hr ho hd⟩,
    fun _ => adrift_of_broken_off x hr ho⟩

/-- A migration that makes a table and writes the ledger's own, and whose commit is refused,
fails and leaves the store. -/
theorem a_refused_commit_leaves_the_store :
    let plan : List PlannedFault :=
      [⟨.commit, 1, .store .inactive⟩, ⟨.rollback, 1, .store .closed⟩]
    let m : Migration :=
      { version := "002", down := .done,
        up := .ofActions
          [.send (.statement (.create { name := "books", columns := [] } "books" false)),
           .send (.statement (.delete "migrations" "version" (some "001")))] }
    let s : Session :=
      { handle := { connection := { base := [({} : Ledger).shape] }, plan }, clock := .still 0 }
    s.Ready ∧ m.up.LeavesOpen ∧ m.Describable ∧
      ∃ f s', (Task.apply {} m).perform s = .error f s' ∧ s.Leaves s.store s' := by
  intro plan m s
  have hr : s.Ready :=
    ⟨rfl, by simp [Handle.StoreFaults, s, plan], Readings.dated_still (by decide) (by decide)⟩
  have ho : m.up.LeavesOpen := Routine.LeavesOpen.ofActions (by simp [Action.LeavesOpen])
  have hp : m.up.Plain := Routine.Plain.ofActions (by simp [Action.Plain])
  have hd : m.Describable := by simp [Migration.Describable, Migration.describe, m]
  refine ⟨hr, ho, hd, ?_⟩
  obtain ⟨hwhole, _⟩ :=
    a_unit_is_done_whole_or_not_at_all_unless_it_is_broken_off (.apply {} m) hr ho hd
  rcases hwhole.mpr (not_broken_off _ hr hp) with ⟨us, _, hdone, _⟩ | ⟨f, s', _, hrun, hleaves⟩
  · exact nomatch hdone.committed
  · exact ⟨f, s', hrun, hleaves⟩

/-- A migration makes a table and asks to exit. Its transaction is left open: it is not done whole,
and no other transaction can be opened. -/
theorem a_migration_that_asks_to_exit_leaves_its_transaction_open :
    let exit : Failure := .interrupt "SystemExit" "3"
    let m : Migration :=
      { version := "001", down := .done,
        up := .ofActions
          [.send (.statement (.create { name := "books", columns := [] } "books" false)),
           .fail exit] }
    let s : Session :=
      { handle := { connection := { base := [({} : Ledger).shape] } }, clock := .still 0 }
    s.Ready ∧ m.up.LeavesOpen ∧ m.Describable ∧ ¬ (Task.apply {} m).Whole s ∧
      ∃ s' s'', (Task.apply {} m).perform s = .error exit s' ∧
        Work.begin s' = .error (.store .nestedTransaction) s'' := by
  intro exit m s
  have hr : s.Ready :=
    ⟨rfl, Handle.storeFaults_nil, Readings.dated_still (by decide) (by decide)⟩
  have ho : m.up.LeavesOpen := Routine.LeavesOpen.ofActions (by simp [Action.LeavesOpen])
  have hd : m.Describable := by simp [Migration.Describable, Migration.describe, m]
  have hf : (Task.apply {} m).BreaksOff s exit := ⟨rfl, rfl, rfl⟩
  have hadrift := adrift_of_broken_off (.apply {} m) hr ho hf
  refine ⟨hr, ho, hd, hadrift.not_whole, ?_⟩
  obtain ⟨t, s', hrun, i, _⟩ := hadrift
  obtain ⟨h', hbegin⟩ : ∃ h', s'.handle.begin = (.error (.store .nestedTransaction), h') := by
    have hb : s'.handle.connection.blocked = none := i.blocked
    have hp : s'.handle.planned? .begin = none := Handle.planned?_nil i.plan _
    unfold Handle.begin
    simp only [hp, Connection.begin, hb, i.work]
    exact ⟨_, rfl⟩
  exact ⟨s', _, hrun, Work.onHandle_error hbegin⟩

end Task
end SchemaLedger
