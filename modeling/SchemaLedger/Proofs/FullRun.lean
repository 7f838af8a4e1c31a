-- The law of a full run. The pending migrations are applied in the order of their versions
-- up to the first that fails: what is before it is done and recorded, it and what is after
-- it leave no trace.
import Mathlib.Data.List.Forall2
import SchemaLedger.Proofs.LedgerStep
import SchemaLedger.Proofs.Pending

namespace SchemaLedger

/-! ## What a run may come to -/

namespace Migration

/-- The call of a migration's routine. -/
def upCall (m : Migration) : UnitCall := ⟨.up, m.version, m.form⟩

/-- What applying a migration comes to on the tables, under the faults of a plan that
strike after `n` commands. -/
def upEffect (m : Migration) (plan : List PlannedFault) (n : Nat) (ts : Tables) : Effect :=
  m.up.effect (Handle.faultAt plan .execute) n ts

end Migration

namespace Migrator

/-- `us` is what migrations make of `ts` one after another: each succeeds, and then its
row is written. -/
inductive Built (l : Ledger) (plan : List PlannedFault) : Tables → List Migration → Tables → Prop
  | nil (ts : Tables) : Built l plan ts [] ts
  | cons {ts us vs : Tables} {x : Migration} {rest : List Migration} {n k : Nat} {d : Cell}
      {a : String} :
      (x.upEffect plan n ts).result = .ok () → Migration.describe x.description = .ok d →
      (l.entry x.version d a).run (x.upEffect plan n ts).tables = .ok (k, us) →
      Built l plan us rest vs → Built l plan ts (x :: rest) vs

/-- Why a migration stops a run in a store: what is raised, and which calls were made for it. -/
inductive Stop (plan : List PlannedFault) (p : Migration) (ts : Tables) :
    Failure → List UnitCall → Prop
  /-- No transaction was opened. -/
  | begin {n : Nat} {e : StoreError} :
      Handle.faultAt plan .begin n = some (.store e) →
      Stop plan p ts (.ledger (.cannotBeginFor p.version e)) []
  /-- The migration itself failed. -/
  | up {n : Nat} {f : Failure} :
      (p.upEffect plan n ts).result = .error f →
      Stop plan p ts (.execution p.version .up f) [p.upCall]
  /-- The row was not written: a fault struck, or there is no description to write. -/
  | record {n : Nat} {g : LedgerFault} :
      (p.upEffect plan n ts).result = .ok () →
      (Handle.faultAt plan .execute (p.upEffect plan n ts).sent ≠ none ∨
        ∀ text, Migration.describe p.description ≠ .ok (some text)) →
      g.version? = some p.version → Stop plan p ts (.ledger g) [p.upCall]
  /-- The transaction was not committed. -/
  | commit {n k : Nat} {e : StoreError} :
      (p.upEffect plan n ts).result = .ok () →
      Handle.faultAt plan .commit k = some (.store e) →
      Stop plan p ts (.ledger (.cannotCommit p.version e)) [p.upCall]

/-- The row of a migration that was applied at a reading of the clock. -/
structure RowOf (clock : Readings) (x : Migration) (r : LedgerRow) : Prop where
  version : r.version = x.version
  description : Migration.describe x.description = .ok (some r.description)
  appliedAt : ∃ n, clock.taken ≤ n ∧ Calendar.timestamp? (clock.nth n) = some r.appliedAt

/-- `new` are the rows of migrations, one each, with ids that count on from those of `rows`. -/
structure Entered (clock : Readings) (rows : List LedgerRow) (done : List Migration)
    (new : List LedgerRow) : Prop where
  each : List.Forall₂ (RowOf clock) done new
  ids : new.map LedgerRow.id = List.range' (Ledger.nextId rows) done.length

/-- How a run of `todo` can end: with all of it done, or at the first migration that fails. -/
structure Stopped (l : Ledger) (s : Session) (rows : List LedgerRow) (todo done : List Migration)
    (new : List LedgerRow) (s' : Session) (r : EStateM.Result Failure Session (List Outcome)) :
    Prop where
  leaves : s.Leaves s'.store s'
  built : Built l s.handle.plan s.store done s'.store
  holds : l.Holds s'.store (rows ++ new)
  entered : Entered s.clock rows done new
  ends :
    (todo = done ∧ s'.calls = s.calls ++ done.map Migration.upCall ∧
      ∃ outs, r = .ok outs s' ∧
        outs.map (fun o => (o.version, o.description)) =
          todo.map fun x => (x.version, x.description)) ∨
    ∃ p later f calls, todo = done ++ p :: later ∧ Stop s.handle.plan p s'.store f calls ∧
      s'.calls = s.calls ++ done.map Migration.upCall ++ calls ∧ r = .error f s'

theorem versions_of_rowOf {clock : Readings} {done : List Migration} {new : List LedgerRow}
    (h : List.Forall₂ (RowOf clock) done new) :
    new.map LedgerRow.version = done.map Migration.version := by
  induction h with
  | nil => rfl
  | cons hr _ ih => rw [List.map_cons, List.map_cons, hr.version, ih]

/-! ## One migration -/

theorem Entered.nil (clock : Readings) (rows : List LedgerRow) : Entered clock rows [] [] :=
  ⟨.nil, rfl⟩

theorem Entered.cons {clock clock' : Readings} {rows : List LedgerRow} {x : Migration}
    {r : LedgerRow} {done : List Migration} {new : List LedgerRow} (hb : clock.Before clock')
    (hr : RowOf clock x r) (hid : r.id = Ledger.nextId rows)
    (h : Entered clock' (rows ++ [r]) done new) : Entered clock rows (x :: done) (r :: new) := by
  constructor
  · refine .cons hr (h.each.imp ?_)
    rintro y q ⟨hv, hd, n, hn, ha⟩
    rw [hb.nth] at ha
    exact ⟨hv, hd, n, Nat.le_trans hb.taken hn, ha⟩
  · rw [List.map_cons, h.ids, hid, Ledger.nextId_append hid, List.length_cons, List.range'_succ]

/-- A failed attempt at a migration of an unblocked store, whose ledger does not have its
version, is one of the reasons to stop. -/
theorem stop_of_attempt {l : Ledger} {p : Migration} {s : Session} {rows : List LedgerRow}
    {f : Failure} {calls : List UnitCall} {events : List Event} (hr : s.Ready)
    (hb : s.handle.connection.blocked = none) (hp : p.Fair l) (hl : l.Holds s.store rows)
    (hnew : p.version ∉ rows.map LedgerRow.version)
    (h : (Job.applying l p).Attempt (s.begun (.applying p.version p.description.shown))
      (.error f) calls events) :
    Stop s.handle.plan p s.store f calls := by
  cases h with
  | @unopened e hrefused =>
    have hfault : s.handle.beginRefusal? = some (.store e) := hrefused
    unfold Handle.beginRefusal? at hfault
    rw [hb, Option.map_none, Option.or_none] at hfault
    exact .begin hfault
  | failed _ hres _ _ =>
    rw [Failure.ofUnit_told _ _ (Failure.isPlain_iff.mp (hp.plain.of_effect hr.faults hres)).2]
    exact .up hres
  | uncommitted _ hres hc => exact .commit hres hc
  | unkept _ hres hwhy hg _ =>
    refine .record hres (hwhy.imp_right fun hnone => ?_) hg
    intro text hd
    obtain ⟨a, ha⟩ := (hr.begun (.applying p.version p.description.shown)).dated.stamp
    have hl' := Job.holds_effect (j := Job.applying l p)
      (s := s.begun (.applying p.version p.description.shown)) hp.avoids hl
    obtain ⟨us, hus⟩ := hl'.recorded?_isSome hnew text ha
    rw [← hd] at hus
    exact nomatch hnone.symm.trans hus

/-! ## Any number of migrations -/

section

variable {l : Ledger} {s s₁ s' : Session} {rows new : List LedgerRow} {x : Migration}
  {rest done : List Migration}

/-- A run of nothing is done. -/
theorem Stopped.nil (hr : s.Ready) (hl : l.Holds s.store rows) :
    Stopped l s rows [] [] [] s (.ok [] s) := by
  refine ⟨hr.leaves, .nil _, ?_, .nil _ _, .inl ⟨rfl, (List.append_nil _).symm, [], rfl, rfl⟩⟩
  rw [List.append_nil]
  exact hl

/-- A run whose first migration fails stops there. -/
theorem Stopped.first {f : Failure} {calls : List UnitCall} (hl : l.Holds s.store rows)
    (hstop : Stop s.handle.plan x s.store f calls) (hleaves : s.Leaves s.store s')
    (hcalls : s'.calls = s.calls ++ calls) :
    Stopped l s rows (x :: rest) [] [] s' (.error f s') := by
  have hstore : s'.store = s.store := hleaves.store_eq
  rw [← hstore] at hleaves hl hstop
  refine ⟨hleaves, ?_, ?_, .nil _ _, .inr ⟨x, rest, f, calls, rfl, hstop, ?_, rfl⟩⟩
  · rw [hstore]
    exact .nil _
  · rw [List.append_nil]
    exact hl
  · rw [hcalls, List.map_nil, List.append_nil]

/-- A run whose first migration is applied goes on like a run of the rest. -/
theorem Stopped.cons {o : Outcome} {r : LedgerRow} {w : Work (List Outcome)}
    (hleaves : s.Leaves s₁.store s₁)
    (hatt : (Job.applying l x).Attempt (s.begun (.applying x.version x.description.shown))
      (.ok s₁.store) [(Job.applying l x).call] [])
    (hv : o.version = x.version) (hd : o.description = x.description)
    (hcalls : s₁.calls = s.calls ++ [(Job.applying l x).call])
    (hrow : RowOf s.clock x r) (hid : r.id = Ledger.nextId rows)
    (h : Stopped l s₁ (rows ++ [r]) rest done new s' (w s₁)) :
    Stopped l s rows (x :: rest) (x :: done) (r :: new) s'
      ((do return o :: (← w) : Work (List Outcome)) s₁) := by
  have hplan : s₁.handle.plan = s.handle.plan := hleaves.settled.plan
  refine ⟨hleaves.trans h.leaves, ?_, ?_, h.entered.cons hleaves.clock hrow hid, ?_⟩
  · have hbuilt := h.built
    rw [hplan] at hbuilt
    cases hatt with
    | done _ hres _ hpart _ =>
      obtain ⟨d, a, k, hd, _, hrun⟩ := Ledger.recorded?_eq hpart
      exact .cons hres hd hrun hbuilt
  · have hholds := h.holds
    rw [List.append_assoc] at hholds
    exact hholds
  · rcases h.ends with ⟨htodo, hc, outs, hw, houts⟩ |
      ⟨p, later, f, calls, htodo, hstop, hc, hw⟩
    · refine .inl ⟨by rw [htodo], ?_, o :: outs, Work.bind_ok hw _, ?_⟩
      · rw [hc, hcalls, List.append_assoc s.calls]
        rfl
      · rw [List.map_cons, List.map_cons, hv, hd, houts]
    · rw [hplan] at hstop
      refine .inr ⟨p, later, f, calls, by rw [htodo, List.cons_append], hstop, ?_,
        Work.bind_error hw _⟩
      rw [hc, hcalls, List.append_assoc s.calls [_]]
      rfl

end

theorem applyAll_stopped {l : Ledger} {todo : List Migration} {s : Session}
    {rows : List LedgerRow} (hr : s.Ready) (hb : s.handle.connection.blocked = none)
    (hl : l.Holds s.store rows) (hf : ∀ x ∈ todo, x.Fair l)
    (hnew : ∀ x ∈ todo, x.version ∉ rows.map LedgerRow.version)
    (hd : todo.Pairwise fun a b => a.version ≠ b.version) :
    ∃ done new s', Stopped l s rows todo done new s' (applyAll l todo s) := by
  induction todo generalizing s rows with
  | nil => exact ⟨[], [], s, .nil hr hl⟩
  | cons x rest ih =>
    have hx := hf x List.mem_cons_self
    unfold applyAll
    rcases Migration.apply_cases hr hx hl with
      ⟨f, calls, events, s', hatt, hrun, hleaves, hcalls⟩ |
        ⟨us, o, s₁, text, a, hatt, hrun, hv, hdesc, hleaves, hcalls, htext, ha, hnotin, hus⟩
    · rw [Work.bind_error hrun]
      exact ⟨[], [], s',
        .first hl (stop_of_attempt hr hb hx hl (hnew x List.mem_cons_self) hatt) hleaves hcalls⟩
    · obtain ⟨hxrest, hdrest⟩ := List.pairwise_cons.mp hd
      obtain rfl : s₁.store = us := hleaves.store_eq
      -- the version that was just recorded is none of the later ones
      have hnew₁ : ∀ y ∈ rest, y.version ∉ (rows ++
          [(⟨Ledger.nextId rows, x.version, text, a⟩ : LedgerRow)]).map LedgerRow.version := by
        intro y hy hmem
        rw [List.map_append, List.mem_append] at hmem
        rcases hmem with hmem | hmem
        · exact hnew y (List.mem_cons_of_mem _ hy) hmem
        · exact hxrest y hy (List.mem_singleton.mp hmem).symm
      have hrow : RowOf s.clock x ⟨Ledger.nextId rows, x.version, text, a⟩ :=
        ⟨rfl, htext, _, Nat.le_succ _, ha⟩
      obtain ⟨done, new, s', hend⟩ := ih (hleaves.ready hr) (hleaves.settled.blocked.trans hb) hus
        (fun y hy => hf y (List.mem_cons_of_mem _ hy)) hnew₁ hdrest
      refine ⟨x :: done, ⟨Ledger.nextId rows, x.version, text, a⟩ :: new, s', ?_⟩
      rw [Work.bind_ok hrun]
      exact hend.cons hleaves hatt hv hdesc hcalls hrow rfl

/-! ## A full run -/

variable {m : Migrator} {s : Session} {rows : List LedgerRow}

/-- The rows are asked for in vain, and the store is as it was or has the ledger's table
now; or all of them are found. Without planned faults it is in vain just when the ledger is
not usable. -/
theorem applied_cases (hr : s.Ready) (hl : m.ledger.Has s.store rows) :
    (∃ f s', m.applied s = .error f s' ∧ s'.calls = s.calls ∧ s.Leaves s'.store s' ∧
        (s'.store = s.store ∨ m.ledger.Usable s ∧ s'.store = m.ledger.made s.store) ∧
        (s.handle.plan = [] → ¬ m.ledger.Usable s ∧ ∃ g, f = .ledger g ∧ g.version? = none)) ∨
      ∃ found s', m.applied s = .ok found s' ∧ s'.calls = s.calls ∧ m.ledger.Usable s ∧
        s.Leaves (m.ledger.made s.store) s' ∧ found.Perm rows := by
  unfold applied
  rcases m.ledger.ensure_cases hr.between with
    ⟨f, s', hrun, hleaves, hcalls, hwhy⟩ | ⟨s₁, hrun, husable, hleaves, hcalls⟩
  · have hstore : s'.store = s.store := hleaves.store_eq
    rw [← hstore] at hleaves
    exact .inl ⟨f, s', Work.bind_error hrun _, hcalls, hleaves, .inl hstore, hwhy⟩
  · have hmade : s₁.store = m.ledger.made s.store := hleaves.store_eq
    have hholds : m.ledger.Holds s₁.store rows := hl.of_leaves hleaves
    have hquery : m.ledger.query .oldestFirst none s₁.store =
        .ok (Ledger.cutTo none (Ledger.sort .oldestFirst rows), s₁.store) := by
      unfold Ledger.query
      rw [hholds.rowsIn]
      rfl
    rw [Work.bind_ok hrun]
    unfold Ledger.readApplied
    rcases m.ledger.read_cases (hleaves.between hr.between) .oldestFirst none with
      ⟨f, s', hread, hleaves', hcalls', hwhy⟩ | ⟨found, s', hread, hfound, hleaves', hcalls'⟩
    · have hstore : s'.store = m.ledger.made s.store := hleaves'.store_eq.trans hmade
      rw [hmade, ← hstore] at hleaves'
      refine .inl ⟨f, s', hread, hcalls'.trans hcalls, hleaves.trans hleaves',
        .inr ⟨husable, hstore⟩, fun hnil => ?_⟩
      rcases hwhy (hleaves.settled.plan.trans hnil) with hblocked | ⟨f', hf'⟩
      · exact absurd (hleaves.settled.blocked.trans husable.opens) hblocked
      · exact nomatch hf'.symm.trans hquery
    · obtain rfl : Ledger.cutTo none (Ledger.sort .oldestFirst rows) = found :=
        congrArg Prod.fst (Except.ok.inj (hquery.symm.trans hfound))
      rw [hmade] at hleaves'
      exact .inr ⟨_, s', hread, hcalls'.trans hcalls, husable, hleaves.trans hleaves',
        List.mergeSort_perm rows _⟩

/-- Reports before and after it change nothing of how a run ends. -/
theorem run_stopped {found : List LedgerRow} {s₁ : Session} (hr : s₁.Ready)
    (hb : s₁.handle.connection.blocked = none) (hl : m.ledger.Holds s₁.store rows)
    (hf : ∀ x ∈ m.catalog.entries, x.Fair m.ledger) (hrun : m.applied s = .ok found s₁)
    (hperm : found.Perm rows) :
    ∃ done new s', Stopped m.ledger s₁ rows (m.pendingIn rows) done new s' (m.run s) := by
  have hpending : m.pending s = .ok (m.pendingIn rows) s₁ := by
    unfold pending
    rw [Work.bind_ok hrun, pendingIn_perm hperm]
    rfl
  unfold run
  rw [Work.bind_ok hpending]
  rcases hempty : (m.pendingIn rows).isEmpty with _ | _
  · have hreport := Work.report_ok (.running (m.pendingIn rows).length) s₁
    rw [if_neg (by simp), Work.bind_ok hreport]
    obtain ⟨done, new, s', hend⟩ := applyAll_stopped
      (s := { s₁ with events := s₁.events ++ [.running (m.pendingIn rows).length] })
      ⟨hr.idle, hr.faults, hr.dated⟩ hb hl
      (fun x hx => hf x (mem_pendingIn.mp hx).1) (fun x hx => (mem_pendingIn.mp hx).2)
      ((m.pendingIn_lt rows).imp fun h e => absurd (e ▸ h) (String.lt_irrefl _))
    have hleaves : s₁.Leaves s'.store s' := ⟨hend.leaves.settled, hend.leaves.clock⟩
    rcases hend.ends with ⟨htodo, hc, outs, hw, houts⟩ | ⟨p, later, f, calls, htodo, hstop, hc, hw⟩
    · rw [Work.bind_ok hw]
      exact ⟨done, new, { s' with events := s'.events ++ [.allApplied outs.length] },
        ⟨hleaves.settled, hleaves.clock⟩, hend.built, hend.holds, hend.entered,
        .inl ⟨htodo, hc, outs, rfl, houts⟩⟩
    · rw [Work.bind_error hw]
      exact ⟨done, new, s', hleaves, hend.built, hend.holds, hend.entered,
        .inr ⟨p, later, f, calls, htodo, hstop, hc, rfl⟩⟩
  · have hnil : m.pendingIn rows = [] := List.isEmpty_iff.mp hempty
    have hend := Stopped.nil (l := m.ledger) hr hl
    rw [if_pos rfl, hnil]
    exact ⟨[], [], { s₁ with events := s₁.events ++ [.nothingPending] },
      ⟨hend.leaves.settled, hend.leaves.clock⟩, hend.built, hend.holds, hend.entered,
      .inl ⟨rfl, (List.append_nil _).symm, [], rfl, rfl⟩⟩

/-- A run fails on the ledger as the reading of its rows does, or it stops as a run of the
pending migrations does. -/
theorem run_cases (hr : s.Ready) (hl : m.ledger.Has s.store rows)
    (hf : ∀ x ∈ m.catalog.entries, x.Fair m.ledger) :
    (∃ f s', m.applied s = .error f s' ∧ m.run s = .error f s' ∧ s'.calls = s.calls ∧
        s.Leaves s'.store s' ∧
        (s'.store = s.store ∨ m.ledger.Usable s ∧ s'.store = m.ledger.made s.store) ∧
        (s.handle.plan = [] → ¬ m.ledger.Usable s ∧ ∃ g, f = .ledger g ∧ g.version? = none)) ∨
      ∃ found s₁ done new s', m.applied s = .ok found s₁ ∧ s₁.calls = s.calls ∧
        m.ledger.Usable s ∧ s.Leaves (m.ledger.made s.store) s₁ ∧
        Stopped m.ledger s₁ rows (m.pendingIn rows) done new s' (m.run s) := by
  rcases applied_cases hr hl with
    ⟨f, s', hrun, hcalls, hleaves, hstore, hwhy⟩ |
      ⟨found, s₁, hrun, hcalls, husable, hleaves, hperm⟩
  · have hpending : m.pending s = .error f s' := Work.bind_error hrun _
    exact .inl ⟨f, s', hrun, Work.bind_error hpending _, hcalls, hleaves, hstore, hwhy⟩
  · have hholds : m.ledger.Holds s₁.store rows := hl.of_leaves hleaves
    obtain ⟨done, new, s', hend⟩ := run_stopped (hleaves.ready hr)
      (hleaves.settled.blocked.trans husable.opens) hholds hf hrun hperm
    exact .inr ⟨found, s₁, done, new, s', hrun, hcalls, husable, hleaves, hend⟩

end Migrator
end SchemaLedger
