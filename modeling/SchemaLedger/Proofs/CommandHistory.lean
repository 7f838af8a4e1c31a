-- Commands one after another on one store. Every command finds a ledger in order and leaves
-- one, whatever its units are, and what it tells about the ledger on its way is so.
import SchemaLedger.Proofs.CommandRun
import SchemaLedger.Proofs.RollbackLimit
import SchemaLedger.Proofs.StatusLaw

namespace SchemaLedger

/-! ## How many rows a rollback removes -/

namespace Migrator

variable {m : Migrator} {s : Session} {rows gone : List LedgerRow} {count : RollbackCount}

/-- A count that is too large for the store fails, and only the ledger's table is made. -/
theorem rollBack_uncountable_calm (hc : s.Calm) (hu : m.ledger.Usable s)
    (hl : m.ledger.Has s.store rows) (hcount : ¬ count.Countable) :
    ∃ f s', m.rollBack count s = .error f s' ∧ m.ledger.Holds s'.store rows := by
  obtain ⟨n, rfl, hn⟩ : ∃ n, count = .exactly n ∧ 2 ^ 63 ≤ n := by
    simpa [RollbackCount.Countable] using hcount
  obtain ⟨s₁, hread⟩ := Ledger.found_calm hc hu hl .newestFirst
  obtain ⟨hrun, hstore, _⟩ := rollBack_uncountable hl hn hread
  exact ⟨_, s₁, hrun, hstore ▸ hl.made⟩

/-- The rows that stay and those that are gone are all the rows. -/
theorem length_withdrawn (hd : rows.Nodup) (hg : gone.Nodup) (hmem : ∀ r ∈ gone, r ∈ rows) :
    rows.length = (rows.filter (· ∉ gone)).length + gone.length := by
  have hperm : (rows.filter (· ∈ gone)).Perm gone := by
    rw [List.perm_ext_iff_of_nodup (hd.filter _) hg]
    intro r
    simp only [List.mem_filter, decide_eq_true_eq]
    exact ⟨And.right, fun hr => ⟨hmem r hr, hr⟩⟩
  rw [← hperm.length_eq, Nat.add_comm, List.length_eq_length_filter_add fun r => decide (r ∈ gone)]
  simp

theorem length_first (count : RollbackCount) {found : List LedgerRow} (hp : found.Perm rows) :
    (count.first found).length = (count.first rows).length := by
  cases count with
  | all => exact hp.length_eq
  | exactly n => simp only [RollbackCount.first, List.length_take, hp.length_eq]

/-- A rollback that returns has removed as many rows as its count asks for, and one that fails
leaves a ledger in order too. -/
theorem rollBackValue_calm (hc : s.Calm) (hu : m.ledger.Usable s)
    (hl : m.ledger.Has s.store rows) (hf : ∀ x ∈ m.catalog.entries, x.FairBack m.ledger)
    (value : Value) :
    ∃ rows',
      (∃ outs s' count, m.rollBackValue value s = .ok outs s' ∧ m.ledger.Has s'.store rows' ∧
        RollbackCount.ofValue value = .ok count ∧
        rows.length = rows'.length + (count.first rows).length) ∨
      ∃ f s', m.rollBackValue value s = .error f s' ∧ m.ledger.Has s'.store rows' := by
  unfold rollBackValue
  rcases RollbackCount.ofValue value with f | count
  · exact ⟨rows, .inr ⟨_, s, rfl, hl⟩⟩
  · dsimp only
    by_cases hcount : count.Countable
    · obtain ⟨s₁, gone, units, s', _, _, hend⟩ := rollBack_withdrawn hc hu hl hf hcount
      refine ⟨rows.filter (· ∉ gone), ?_⟩
      rcases hend.ends with ⟨hgone, _, outs, hrun, _⟩ | ⟨_, _, f, _, _, _, _, hrun⟩
      · have hperm := Ledger.sort_ordered.same .newestFirst rows
        have hsub := count.first_sublist (Ledger.sort .newestFirst rows)
        have hd : rows.Nodup := hl.made.distinct.of_map
        rw [hgone] at hsub
        refine .inl ⟨outs, s', count, hrun, .inl hend.holds, rfl, ?_⟩
        rw [← length_first count hperm, hgone]
        exact length_withdrawn hd ((hperm.nodup_iff.mpr hd).sublist hsub)
          fun r hr => hperm.subset (hsub.subset hr)
      · exact .inr ⟨f, s', hrun, .inl hend.holds⟩
    · obtain ⟨f, s', hrun, hholds⟩ := rollBack_uncountable_calm hc hu hl hcount
      exact ⟨rows, .inr ⟨f, s', hrun, .inl hholds⟩⟩

end Migrator

/-! ## What a command comes to -/

namespace World

variable {w : World} {place : List String} {l : Ledger} {rows : List LedgerRow}

theorem sessionAt_calm (w : World) (place : List String) (said : List Event) :
    (w.sessionAt place said).Calm := ⟨rfl, rfl⟩

theorem usable_sessionAt (w : World) (place : List String)
    (hname : Tables.isReserved l.table = false) (said : List Event) :
    l.Usable (w.sessionAt place said) := ⟨rfl, hname⟩

namespace Command

variable (c : w.Command place l)

/-- The migrations and the ledger that a command works with. -/
def migrator : Migrator := ⟨c.catalog, l⟩

theorem migrator_eq : Request.migrator c.settings c.units = pure c.migrator := by
  unfold Request.migrator
  rw [c.registered, c.named]
  rfl

/-- The run of a command printed a status. -/
def Shows (st : Status) : Prop :=
  c.finished.stdout = String.join ((Printed.ofStatus st).out.map (· ++ "\n"))

/-- A command prints what some work gives, or it fails with it. -/
theorem run_of {α : Type} {work : Work α} {print : α → Printed}
    (h : c.invocation.request.perform c.settings c.units = work >>= fun a => pure (print a)) :
    ∃ said,
      (∀ a s, work (w.sessionAt place said) = .ok a s →
        c.finished.exit = .ok (print a).exit ∧
          c.finished.stdout = String.join ((print a).out.map (· ++ "\n")) ∧
          c.finished.calls = s.calls ∧ c.after.storeAt place = s.store) ∧
      ∀ f s, work (w.sessionAt place said) = .error f s →
        c.finished.exit ≠ .ok 0 ∧ c.after.storeAt place = s.store := by
  obtain ⟨said, htells, hstore⟩ := c.run_eq
  rw [h] at htells hstore
  refine ⟨said, fun a s hwork => ?_, fun f s hwork => ?_⟩
  · rw [Work.bind_ok hwork] at htells hstore
    exact ⟨htells.1, htells.2.1, htells.2.2, hstore⟩
  · rw [Work.bind_error hwork] at htells hstore
    exact ⟨htells, hstore⟩

/-! ## The four commands -/

theorem exit_ofOutcomes (done nothing : String) (outs : List Outcome) :
    (Printed.ofOutcomes done nothing outs).exit = 0 := by
  unfold Printed.ofOutcomes
  split <;> rfl

/-- Rows are added, up to the first failure. Nothing is called where nothing is pending. -/
theorem migrate_law (hname : Tables.isReserved l.table = false)
    (hr : c.invocation.request = .migrate) (hl : l.Has (w.storeAt place) rows) :
    ∃ new, l.Has (c.after.storeAt place) (rows ++ new) ∧
      (c.finished.exit = .ok 0 → c.migrator.pendingIn (rows ++ new) = []) ∧
      (c.migrator.pendingIn rows = [] → c.finished.exit = .ok 0 ∧ c.finished.calls = []) := by
  have hperform : c.invocation.request.perform c.settings c.units =
      c.migrator.run >>= fun outs => pure (.ofOutcomes "Migrated" "Nothing to migrate" outs) := by
    rw [hr, Request.perform, c.migrator_eq, pure_bind]
  obtain ⟨said, hreturned, hraised⟩ := c.run_of hperform
  obtain ⟨done, rest, s', hend⟩ := Migrator.run_calm (m := c.migrator)
    (sessionAt_calm w place said) (usable_sessionAt w place hname said) hl c.fair
  obtain ⟨new, hnew, hholds⟩ := hend.holds
  have hpending := Migrator.pendingIn_done hend.split hnew
  refine ⟨new, ?_⟩
  rcases hend.ends with ⟨rfl, _, outs, hrun⟩ | ⟨x, later, f, hrest, _, hrun⟩
  · -- all pending migrations have rows now, so nothing is left over
    obtain ⟨hexit, _, hcalls, hstore⟩ := hreturned outs s' hrun
    rw [exit_ofOutcomes] at hexit
    rw [hstore]
    refine ⟨.inl hholds, fun _ => hpending, fun hnil => ⟨hexit, ?_⟩⟩
    have hdone : done = [] := by simpa [hnil] using hend.split.symm
    rw [hcalls, hend.calls, hdone]
    rfl
  · obtain ⟨hexit, hstore⟩ := hraised f s' hrun
    rw [hstore]
    refine ⟨.inl hholds, fun hzero => absurd hzero hexit, fun hnil => ?_⟩
    have hnone := hend.split
    rw [hnil] at hnone
    rw [hrest] at hnone
    exact absurd (List.append_eq_nil_iff.mp hnone.symm).2 (List.cons_ne_nil x later)

/-- A status is always printed. -/
theorem status_law (hname : Tables.isReserved l.table = false)
    (hr : c.invocation.request = .status) (hl : l.Has (w.storeAt place) rows) :
    l.Has (c.after.storeAt place) rows ∧ c.finished.exit = .ok 0 ∧
      ∃ st, c.Shows st ∧ st.Mirrors c.catalog rows ∧
        st.pendingVersions = (c.migrator.pendingIn rows).map Migration.version := by
  have hperform : c.invocation.request.perform c.settings c.units =
      c.migrator.status >>= fun st => pure (.ofStatus st) := by
    rw [hr, Request.perform, c.migrator_eq, pure_bind]
  obtain ⟨said, hreturned, _⟩ := c.run_of hperform
  obtain ⟨s₁, hstatus, _, hholds, _⟩ := Migrator.status_calm (m := c.migrator)
    (sessionAt_calm w place said) (usable_sessionAt w place hname said) hl
  obtain ⟨hexit, hstdout, _, hstore⟩ := hreturned _ s₁ hstatus
  have hp := Ledger.sort_ordered.same .oldestFirst rows
  rw [hstore]
  exact ⟨.inl hholds, hexit, _, hstdout,
    Status.of_mirrors hholds.distinct hp (Ledger.sort_ordered.oldest hholds.distinct),
    Status.pendingVersions_of (m := c.migrator) hholds.distinct hp⟩

/-- Seeding leaves the ledger's table, whether its seeders fail or not. -/
theorem seed_law {name : String} (hr : c.invocation.request = .seed name) :
    (c.after.storeAt place).find? l.table = (w.storeAt place).find? l.table := by
  obtain ⟨said, _, hstore⟩ := c.run_eq
  have hsilent := Seeding.silent_showsTable l.table ((w.storeAt place).find? l.table)
  have hstart : Seeding.ShowsTable l.table ((w.storeAt place).find? l.table)
      (w.sessionAt place said) := ⟨(sessionAt_calm w place said).between, rfl⟩
  rw [hstore, hr, Request.perform]
  split
  · rw [Work.after_bind_pure]
    exact (Seeding.list_keeps hsilent _ _ hstart).found
  · rw [Work.after_bind_pure]
    exact (Seeding.run_keeps hsilent
      (fun x hx _ hs => by
        obtain ⟨ho, ha, hp⟩ := c.seeders x hx
        exact Seeding.runOne_keeps_table ho ha hp hs)
      _ _ hstart).found

/-- Rows are removed, as many as were asked for if there are so many and none stops it. -/
theorem rollBack_law (hname : Tables.isReserved l.table = false) {text : String}
    (hr : c.invocation.request = .rollBack text) (hl : l.Has (w.storeAt place) rows) :
    ∃ rows', l.Has (c.after.storeAt place) rows' ∧
      (c.finished.exit = .ok 0 → ∃ count, RollbackCount.ofValue (.text text) = .ok count ∧
        rows.length = rows'.length + (count.first rows).length) := by
  have hperform : c.invocation.request.perform c.settings c.units =
      c.migrator.rollBackValue (.text text) >>= fun outs =>
        pure (.ofOutcomes "Rolled back" "Nothing to roll back" outs) := by
    rw [hr, Request.perform, c.migrator_eq, pure_bind]
  obtain ⟨said, hreturned, hraised⟩ := c.run_of hperform
  obtain ⟨rows', hreturns | hraises⟩ := Migrator.rollBackValue_calm (m := c.migrator)
    (sessionAt_calm w place said) (usable_sessionAt w place hname said) hl c.fairBack (.text text)
  · obtain ⟨outs, s', count, hrun, hafter, hv, hlength⟩ := hreturns
    obtain ⟨_, _, _, hstore⟩ := hreturned outs s' hrun
    rw [hstore]
    exact ⟨rows', hafter, fun _ => ⟨count, hv, hlength⟩⟩
  · obtain ⟨f, s', hrun, hafter⟩ := hraises
    obtain ⟨hexit, hstore⟩ := hraised f s' hrun
    rw [hstore]
    exact ⟨rows', hafter, fun hzero => absurd hzero hexit⟩

/-! ## What a command accounts for -/

/-- There is nothing to do: a status says so, and a run calls nothing. -/
def Idles : Prop :=
  (c.invocation.request = .status → c.finished.exit = .ok 0 ∧
    ∃ st, c.Shows st ∧ st.pending = 0 ∧ st.applied = st.total) ∧
  (c.invocation.request = .migrate → c.finished.exit = .ok 0 ∧ c.finished.calls = [])

/-- What a command tells of the ledger, of which it found `rows` and left `rows'`, is so. -/
def Accounts (rows rows' : List LedgerRow) : Prop :=
  match c.invocation.request with
  -- nothing is left for the next command of the same units, whatever else becomes of the world
  | .migrate => c.finished.exit = .ok 0 →
    ∀ w' : World, w'.storeAt place = c.after.storeAt place →
      ∀ next : w'.Command place l, next.units = c.units → next.Idles
  | .rollBack text => c.finished.exit = .ok 0 →
    ∃ count, RollbackCount.ofValue (.text text) = .ok count ∧
      match count with
      | .all => rows' = []
      | .exactly n => rows.length = rows'.length + min n rows.length
  | .status => c.finished.exit = .ok 0 ∧ rows' = rows ∧
    ∃ st, c.Shows st ∧ st.applied + st.pending = st.total ∧
      st.applied + st.orphans.length = rows.length
  | .seed _ => (c.after.storeAt place).find? l.table = (w.storeAt place).find? l.table ∧ rows' = rows

theorem idles (hname : Tables.isReserved l.table = false) (hl : l.Has (w.storeAt place) rows)
    (hnil : c.migrator.pendingIn rows = []) : c.Idles := by
  refine ⟨fun hr => ?_, fun hr => ?_⟩
  · obtain ⟨_, hexit, st, hshows, hmirrors, hpending⟩ := c.status_law hname hr hl
    have hnone : st.pending = 0 := by
      rw [← st.length_pendingVersions, hpending, hnil]
      rfl
    have hall := hmirrors.allEntries
    exact ⟨hexit, st, hshows, hnone, by omega⟩
  · obtain ⟨_, _, _, hidle⟩ := c.migrate_law hname hr hl
    exact hidle hnil

/-- Commands of the same units have the same migrations. -/
theorem migrator_congr {w' : World} {next : w'.Command place l} (h : next.units = c.units) :
    next.migrator = c.migrator := by
  have hnext := next.registered
  rw [h, c.registered] at hnext
  unfold migrator
  rw [Except.ok.inj hnext]

/-- A command that finds a ledger in order leaves one, and accounts for it. -/
theorem accounts (hname : Tables.isReserved l.table = false)
    (hl : l.Has (w.storeAt place) rows) :
    ∃ rows', l.Has (c.after.storeAt place) rows' ∧ c.Accounts rows rows' := by
  rcases hr : c.invocation.request with _ | text | _ | name
  · obtain ⟨new, hafter, hdone, _⟩ := c.migrate_law hname hr hl
    refine ⟨rows ++ new, hafter, ?_⟩
    rw [Accounts, hr]
    intro hexit w' hstore next hunits
    -- the next command has the same migrations, so none of them is pending for it
    have hnil := hdone hexit
    rw [← c.migrator_congr hunits] at hnil
    rw [← hstore] at hafter
    exact next.idles hname hafter hnil
  · obtain ⟨rows', hafter, hcounted⟩ := c.rollBack_law hname hr hl
    refine ⟨rows', hafter, ?_⟩
    rw [Accounts, hr]
    intro hexit
    obtain ⟨count, hv, hlength⟩ := hcounted hexit
    refine ⟨count, hv, ?_⟩
    cases count with
    | all =>
      have hnone : rows'.length = 0 := by simpa [RollbackCount.first] using hlength
      exact List.length_eq_zero_iff.mp hnone
    | exactly n => simpa [RollbackCount.first] using hlength
  · obtain ⟨hafter, hexit, st, hshows, hmirrors, _⟩ := c.status_law hname hr hl
    refine ⟨rows, hafter, ?_⟩
    rw [Accounts, hr]
    exact ⟨hexit, rfl, st, hshows, hmirrors.allEntries, hmirrors.allRows⟩
  · have hkept := c.seed_law hr
    refine ⟨rows, hl.of_find? hkept, ?_⟩
    rw [Accounts, hr]
    exact ⟨hkept, rfl⟩

end Command

/-! ## Commands in sequence -/

/-- Worlds that commands lead to from one whose store is empty. -/
inductive Reached (place : List String) (l : Ledger) : World → Prop
  | start {w : World} : w.storeAt place = [] → Reached place l w
  /-- Between commands all but the store may become something else. -/
  | changed {w w' : World} :
      Reached place l w → w'.storeAt place = w.storeAt place → Reached place l w'
  | ran {w : World} : Reached place l w → (c : w.Command place l) → Reached place l c.after

theorem Reached.has (hname : Tables.isReserved l.table = false) (h : Reached place l w) :
    ∃ rows, l.Has (w.storeAt place) rows := by
  induction h with
  | start hempty =>
    rw [hempty]
    exact ⟨[], .inr ⟨rfl, rfl⟩⟩
  | changed _ hstore ih =>
    rw [hstore]
    exact ih
  | ran _ c ih =>
    obtain ⟨rows, hl⟩ := ih
    obtain ⟨rows', hl', _⟩ := c.accounts hname hl
    exact ⟨rows', hl'⟩

end World
end SchemaLedger
