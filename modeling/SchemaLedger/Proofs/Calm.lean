-- Sessions without planned faults. On a usable ledger its table can be made sure of and its
-- rows can be read, and how reverting a migration ends is up to its routine and its row
-- alone. The clock plays no part in it: reverting writes no time down.
import SchemaLedger.Proofs.Discipline
import SchemaLedger.Proofs.LedgerAccess

namespace SchemaLedger

namespace Session

/-- A session between transactions for which no fault is planned. -/
structure Calm (s : Session) : Prop where
  idle : s.handle.Idle
  plan : s.handle.plan = []

variable {s s' : Session} {ts : Tables}

theorem Calm.between (hc : s.Calm) : s.Between := by
  refine ⟨hc.idle, ?_⟩
  rw [hc.plan]
  exact Handle.storeFaults_nil

theorem Leaves.calm (h : s.Leaves ts s') (hc : s.Calm) : s'.Calm :=
  ⟨h.settled.idle, h.settled.plan.trans hc.plan⟩

theorem Calm.opens (hc : s.Calm) (hb : s.handle.connection.blocked = none) :
    s.handle.beginRefusal? = none := by
  unfold Handle.beginRefusal?
  rw [Handle.planned?_nil hc.plan, hb]
  rfl

end Session

/-! ## The ledger -/

namespace Ledger

variable {l : Ledger} {s s' : Session} {ts : Tables} {rows : List LedgerRow}

theorem Usable.of_leaves (hu : l.Usable s) (h : s.Leaves ts s') : l.Usable s' :=
  ⟨h.settled.blocked.trans hu.opens, hu.allowed⟩

theorem ensure_calm (hc : s.Calm) (hu : l.Usable s) :
    ∃ s', l.ensure s = .ok () s' ∧ s.Leaves (l.made s.store) s' ∧ s'.calls = s.calls := by
  rcases l.ensure_cases hc.between with ⟨f, s', _, _, _, hwhy⟩ | ⟨s', hrun, _, hleaves, hcalls⟩
  · exact absurd hu (hwhy hc.plan).1
  · exact ⟨s', hrun, hleaves, hcalls⟩

theorem read_calm (hc : s.Calm) (hu : l.Usable s) (hl : l.Holds s.store rows) (order : Order)
    {limit : Option Int} (hlimit : limit.all fits = true) :
    ∃ s', l.read order limit s = .ok (cutTo limit (sort order rows)) s' ∧ s.Leaves s.store s' ∧
      s'.calls = s.calls := by
  have hquery := hl.query_eq order hlimit
  rcases l.read_cases hc.between order limit with
    ⟨f, s', _, _, _, hwhy⟩ | ⟨found, s', hread, hfound, hleaves, hcalls⟩
  · rcases hwhy hc.plan with hblocked | ⟨f', hf'⟩
    · exact absurd hu.opens hblocked
    · exact nomatch hf'.symm.trans hquery
  · obtain rfl : cutTo limit (sort order rows) = found :=
      congrArg Prod.fst (Except.ok.inj (hquery.symm.trans hfound))
    exact ⟨s', hread, hleaves, hcalls⟩

/-- The rows are found in the order that was asked for, and only the table is made. -/
theorem asking_calm {α : Type} (hc : s.Calm) (hu : l.Usable s) (hl : l.Has s.store rows)
    (order : Order) {limit : Option Int} (hlimit : limit.all fits = true)
    (k : List LedgerRow → Work α) :
    ∃ s₁, s.Leaves (l.made s.store) s₁ ∧ l.Holds s₁.store rows ∧ s₁.calls = s.calls ∧
      l.asking order limit k s = k (cutTo limit (sort order rows)) s₁ := by
  obtain ⟨s₁, hensure, hleaves, hcalls⟩ := l.ensure_calm hc hu
  have hholds : l.Holds s₁.store rows := hl.of_leaves hleaves
  obtain ⟨s₂, hread, hleaves', hcalls'⟩ :=
    read_calm (hleaves.calm hc) (hu.of_leaves hleaves) hholds order hlimit
  have hstore : s₂.store = s₁.store := hleaves'.store_eq
  refine ⟨s₂, ?_, hstore ▸ hholds, hcalls'.trans hcalls, ?_⟩
  · rw [hleaves.store_eq] at hleaves'
    exact hleaves.trans hleaves'
  · unfold asking
    rw [Work.bind_ok hensure, Work.bind_ok hread]

theorem asking_all_calm {α : Type} (hc : s.Calm) (hu : l.Usable s) (hl : l.Has s.store rows)
    (k : List LedgerRow → Work α) :
    ∃ s₁, s.Leaves (l.made s.store) s₁ ∧ l.Holds s₁.store rows ∧ s₁.calls = s.calls ∧
      l.asking .oldestFirst none k s = k (sort .oldestFirst rows) s₁ :=
  l.asking_calm hc hu hl .oldestFirst Option.all_none k

end Ledger

/-! ## Reverting -/

namespace Job

variable {l : Ledger} {m : Migration} {s : Session}

/-- The transaction of a migration is opened, and its routine comes to what it comes to
without faults. -/
theorem opened_calm (hc : s.Calm) (hb : s.handle.connection.blocked = none) (j : Job) :
    ∃ t h₁ e, Migration.openFor j.version s = .ok t { s with handle := h₁ } ∧
      s.handle.Inside t s.store h₁ ∧
      j.routine.effect (Handle.faultAt h₁.plan .execute) h₁.counts.execute s.store = e ∧
      e.result = (j.routine.alone s.store).result ∧ e.tables = (j.routine.alone s.store).tables := by
  obtain ⟨t, h₁, hopen, i, _⟩ := Migration.openFor_opened hc.between (hc.opens hb) j.version
  have hplan : h₁.plan = [] := i.plan.trans hc.plan
  refine ⟨t, h₁, _, hopen, i, rfl, ?_⟩
  rw [hplan]
  exact j.routine.effect_unrefused h₁.counts.execute 0 s.store

/-- Without faults an operation fails as its routine does, and leaves the store. -/
theorem run_calm_failed (hc : s.Calm) (hb : s.handle.connection.blocked = none) {j : Job}
    (ho : j.routine.LeavesOpen) (hr : j.routine.Plain) {f : Failure}
    (hf : (j.routine.alone s.store).result = .error f) :
    ∃ s', j.run s = .error (.execution j.version j.operation f) s' ∧ s.Leaves s.store s' ∧
      s'.calls = s.calls ++ [j.call] := by
  obtain ⟨hint, htold⟩ := Failure.isPlain_iff.mp (hr.of_alone hf)
  obtain ⟨t, h₁, e, hopen, i, he, hres, _⟩ := opened_calm hc hb j
  have hp : Handle.StoreFaults h₁.plan := by
    rw [i.plan]
    exact hc.between.faults
  obtain ⟨reports, h', _, hset, hrun⟩ := Migration.runRoutine_failed (m := j.migration)
    (s := { s with handle := h₁ }) ho i hp he (hres.trans hf) hint j.operation j.step
  rw [Failure.ofUnit_told _ _ htold] at hrun
  unfold run
  rw [Work.bind_ok hopen, Work.bind_error hrun]
  exact ⟨_, rfl, ⟨hset, .refl _⟩, rfl⟩

/-- Without faults an operation whose routine and whose ledger's part succeed is done. -/
theorem run_calm_done (hc : s.Calm) (hb : s.handle.connection.blocked = none) {j : Job}
    (ho : j.routine.LeavesOpen) (hok : (j.routine.alone s.store).result = .ok ()) (us : Tables)
    (hkeep : ∀ (s₁ : Session) {t : Ticket},
      s.handle.Inside t (j.routine.alone s.store).tables s₁.handle → s₁.clock = s.clock →
      ∃ h' clock', j.keep t s₁ = .ok () { s₁ with handle := h', clock := clock' } ∧
        s.handle.Inside t us h' ∧ s.clock.Before clock') :
    ∃ s', j.run s = .ok () s' ∧ s.Leaves us s' ∧ s'.calls = s.calls ++ [j.call] := by
  obtain ⟨t, h₁, e, hopen, i, he, hres, htables⟩ := j.opened_calm hc hb
  have hrun := Migration.runRoutine_ok (m := j.migration) (s := { s with handle := h₁ }) ho i he
    (hres.trans hok) j.operation j.step
  have i₂ := i.inWork e.tables e.sent
  rw [htables] at i₂ hrun
  obtain ⟨h₂, clock, hpart, i₃, hbefore⟩ := hkeep
    { s with
      handle := h₁.inWork (j.routine.alone s.store).tables e.sent, calls := s.calls ++ [j.call] }
    i₂ rfl
  obtain ⟨h', hcommit, hset⟩ := Migration.commitFor_done
    (s := { s with handle := h₂, clock := clock, calls := s.calls ++ [j.call] })
    i₃ (Handle.planned?_nil (i₃.plan.trans hc.plan) _) j.version
  refine ⟨{ s with handle := h', clock := clock, calls := s.calls ++ [j.call] }, ?_,
    ⟨hset, hbefore⟩, rfl⟩
  unfold run
  rw [Work.bind_ok hopen]
  exact (Work.bind_ok hrun _).trans
    ((Work.bind_ok (Migration.keepLedger_ok hpart ..) _).trans hcommit)

end Job

/-- Without faults a row that is there is removed. -/
theorem Ledger.delete_calm {l : Ledger} {s : Session} {h₀ : Handle} {t : Ticket} {ts us : Tables}
    (i : h₀.Inside t ts s.handle) (hp : s.handle.plan = []) {v : String} {k : Nat}
    (hrow : (l.removal v).run ts = .ok (k, us)) (hk : k ≠ 0) :
    l.delete t v s =
      .ok () { s with handle := s.handle.inWork us (s.handle.counts.execute + 1) } := by
  have hfaults : Handle.StoreFaults s.handle.plan := by
    rw [hp]
    exact Handle.storeFaults_nil
  unfold delete
  rcases send_inside i hfaults (l.removal v) (.cannotRemove v) with
    ⟨k', us', hw, _, hrow'⟩ | ⟨e, _, hfault | ⟨e', herror⟩⟩
  · obtain ⟨rfl, rfl⟩ := Prod.mk.inj (Except.ok.inj (hrow.symm.trans hrow'))
    exact (Work.bind_ok hw _).trans (by rw [if_neg hk]; rfl)
  · rw [hp] at hfault
    exact absurd rfl hfault
  · exact nomatch hrow.symm.trans herror

/-- Without faults a row that can be added is added, with the time that is read. -/
theorem Ledger.recording_calm {l : Ledger} {s : Session} {h₀ : Handle} {t : Ticket}
    {ts us : Tables} (i : h₀.Inside t ts s.handle) (hp : s.handle.plan = []) {v a : String}
    {d : Cell} {k : Nat} (ha : Calendar.timestamp? s.clock.current = some a)
    (hrow : (l.entry v d a).run ts = .ok (k, us)) :
    l.recording v (.ok d) t s =
      .ok () { s with
        handle := s.handle.inWork us (s.handle.counts.execute + 1), clock := s.clock.next } := by
  have hfaults : Handle.StoreFaults s.handle.plan := by
    rw [hp]
    exact Handle.storeFaults_nil
  unfold recording
  rw [Work.bind_ok (Work.timestamp_ok ha)]
  rcases send_inside (s := { s with clock := s.clock.next }) i hfaults (l.entry v d a)
    (.cannotRecord v) with ⟨k', us', hw, _, hrow'⟩ | ⟨e, _, hfault | ⟨e', herror⟩⟩
  · obtain ⟨rfl, rfl⟩ := Prod.mk.inj (Except.ok.inj (hrow.symm.trans hrow'))
    exact Work.bind_ok hw _
  · rw [hp] at hfault
    exact absurd rfl hfault
  · exact nomatch hrow.symm.trans herror

namespace Migration

variable {l : Ledger} {m : Migration} {s : Session}

/-- The call of a migration's reverse. -/
def downCall (m : Migration) : UnitCall := ⟨.down, m.version, m.form⟩

theorem revert_calm_failed (hc : s.Calm) (hb : s.handle.connection.blocked = none)
    (ho : m.down.LeavesOpen) (hp : m.down.Plain) {f : Failure}
    (hf : (m.down.alone s.store).result = .error f) :
    ∃ s', m.revert l s = .error (.execution m.version .down f) s' ∧ s.Leaves s.store s' ∧
      s'.calls = s.calls ++ [m.downCall] := by
  obtain ⟨s', hrun, hleaves, hcalls⟩ := Job.run_calm_failed (j := Job.reverting l m)
    (s := s.begun (.reverting m.version m.description.shown)) ⟨hc.idle, hc.plan⟩ hb ho hp hf
  rw [revert_eq]
  exact ⟨s', Job.perform_failed hrun _,
    ⟨hleaves.settled, s.clock.before_next.trans hleaves.clock⟩, hcalls⟩

theorem run_reverting_calm (hc : s.Calm) (hb : s.handle.connection.blocked = none)
    (ho : m.down.LeavesOpen) (hok : (m.down.alone s.store).result = .ok ()) {k : Nat} {us : Tables}
    (hrow : (l.removal m.version).run (m.down.alone s.store).tables = .ok (k, us)) (hk : k ≠ 0) :
    ∃ s', (Job.reverting l m).run s = .ok () s' ∧ s.Leaves us s' ∧
      s'.calls = s.calls ++ [m.downCall] := by
  refine Job.run_calm_done (j := Job.reverting l m) hc hb ho hok us fun s₁ t i hclock => ?_
  have hdelete := Ledger.delete_calm i (i.plan.trans hc.plan) hrow hk
  exact ⟨_, s₁.clock, hdelete, i.inWork us _, hclock ▸ .refl _⟩

theorem revert_calm_done (hc : s.Calm) (hb : s.handle.connection.blocked = none)
    (ho : m.down.LeavesOpen) (hok : (m.down.alone s.store).result = .ok ()) {k : Nat} {us : Tables}
    (hrow : (l.removal m.version).run (m.down.alone s.store).tables = .ok (k, us)) (hk : k ≠ 0) :
    ∃ o s', m.revert l s = .ok o s' ∧ o.version = m.version ∧ o.description = m.description ∧
      s.Leaves us s' ∧ s'.calls = s.calls ++ [m.downCall] := by
  obtain ⟨s', hrun, hleaves, hcalls⟩ := run_reverting_calm
    (s := s.begun (.reverting m.version m.description.shown)) ⟨hc.idle, hc.plan⟩ hb ho hok hrow hk
  obtain ⟨o, hperform, hv, hd⟩ := Job.perform_done hrun .reverted
  rw [revert_eq]
  exact ⟨o, _, hperform, hv, hd, ⟨hleaves.settled,
    s.clock.before_next.trans (hleaves.clock.trans s'.clock.before_next)⟩, hcalls⟩

/-! ## Applying -/

theorem apply_calm_failed (hc : s.Calm) (hb : s.handle.connection.blocked = none)
    (ho : m.up.LeavesOpen) (hp : m.up.Plain) {f : Failure}
    (hf : (m.up.alone s.store).result = .error f) :
    ∃ s', m.apply l s = .error (.execution m.version .up f) s' ∧ s.Leaves s.store s' := by
  obtain ⟨s', hrun, hleaves, -⟩ := Job.run_calm_failed (j := Job.applying l m)
    (s := s.begun (.applying m.version m.description.shown)) ⟨hc.idle, hc.plan⟩ hb ho hp hf
  rw [apply_eq]
  exact ⟨s', Job.perform_failed hrun _,
    hleaves.settled, s.clock.before_next.trans hleaves.clock⟩

/-- Without faults a routine that succeeds is recorded at the time that is read, if its version
is new and there is a description to record. -/
theorem apply_calm_done {rows : List LedgerRow} {text a : String} (hc : s.Calm)
    (hb : s.handle.connection.blocked = none) (ho : m.up.LeavesOpen)
    (hok : (m.up.alone s.store).result = .ok ()) (hl : l.Holds (m.up.alone s.store).tables rows)
    (hv : m.version ∉ rows.map LedgerRow.version) (htext : describe m.description = .ok (some text))
    (ha : Calendar.timestamp? (s.clock.nth (s.clock.taken + 1)) = some a) :
    ∃ o s' k, m.apply l s = .ok o s' ∧ s.Leaves s'.store s' ∧
      (l.entry m.version (some text) a).run (m.up.alone s.store).tables = .ok (k, s'.store) := by
  obtain ⟨⟨k, us⟩, hrow⟩ := hl.run_entry_ok hv text a
  obtain ⟨s', hrun, hleaves, -⟩ := Job.run_calm_done (j := Job.applying l m)
    (s := s.begun (.applying m.version m.description.shown)) ⟨hc.idle, hc.plan⟩ hb ho hok us
    fun s₁ {t} i hclock => by
      have hstamp : Calendar.timestamp? s₁.clock.current = some a := by
        rw [hclock]
        exact ha
      have hrecord := Ledger.recording_calm i (i.plan.trans hc.plan) hstamp hrow
      rw [← htext] at hrecord
      exact ⟨_, s₁.clock.next, hrecord, i.inWork us _, hclock ▸ s₁.clock.before_next⟩
  have hstore : s'.store = us := hleaves.store_eq
  obtain ⟨o, hperform, -⟩ := Job.perform_done hrun .applied
  rw [apply_eq]
  refine ⟨o, _, k, hperform, ?_, hstore ▸ hrow⟩
  exact ⟨hstore ▸ hleaves.settled,
    s.clock.before_next.trans (hleaves.clock.trans s'.clock.before_next)⟩

end Migration
end SchemaLedger
