-- One attempt at a unit, from its transaction's opening to its end. Each attempt is
-- one of a few: it says where it stopped, which failure came of it, what was
-- reported, and the store it leaves, which is the old one unless it got to the end.
import SchemaLedger.Migration.Apply
import SchemaLedger.Seeding.Run
import SchemaLedger.Proofs.Effect
import SchemaLedger.Proofs.LedgerRows

namespace SchemaLedger

/-- What an attempt made of a session: the store after `out`, the calls and the reports. -/
structure Session.Reaches (s : Session) (out : Except Failure Tables) (calls : List UnitCall)
    (events : List Event) (s' : Session) : Prop where
  leaves : s.Leaves (s.store.after out) s'
  calls : s'.calls = s.calls ++ calls
  events : s'.events = s.events ++ events

/-- The session when a unit has read the clock and reported that it starts. -/
def Session.begun (s : Session) (first : Event) : Session :=
  { s with clock := s.clock.next, events := s.events ++ [first] }

theorem Session.Ready.begun {s : Session} (hr : s.Ready) (first : Event) : (s.begun first).Ready :=
  ⟨hr.idle, hr.faults, hr.dated⟩

theorem Session.Between.begun {s : Session} (hs : s.Between) (first : Event) :
    (s.begun first).Between :=
  ⟨hs.idle, hs.faults⟩

/-- The result of work that gives nothing but new tables. -/
def Session.ended (s : Session) : Except Failure Tables → EStateM.Result Failure Session Unit
  | .ok _ => .ok () s
  | .error f => .error f s

/-- The reports of a rollback: none, or that it was refused. -/
def GaveUp (refused : StoreError → Event) (reports : List Event) : Prop :=
  reports = [] ∨ ∃ e, reports = [refused e]

namespace Work

/-! ## The ends of a transaction -/

/-- Giving up is never refused; a refused rollback is only reported. -/
theorem giveUp_ok {s : Session} (hp : Handle.StoreFaults s.handle.plan) {t : Ticket} {h' : Handle}
    (hr : s.handle.rollback t = (s.handle.rollbackAnswer, h')) (refused : StoreError → Event) :
    ∃ reports, GaveUp refused reports ∧
      ((rollback t).orStore fun e => report (refused e)) s =
        .ok () { s with handle := h', events := s.events ++ reports } := by
  unfold Handle.rollbackAnswer at hr
  rcases ha : s.handle.planned? .rollback with _ | f
  · rw [ha] at hr
    have hok : rollback t s = .ok () { s with handle := h' } := onHandle_ok hr
    refine ⟨[], .inl rfl, ?_⟩
    rw [orStore_ok hok, List.append_nil]
  · obtain ⟨e, rfl⟩ := hp.of_faultAt ha
    rw [ha] at hr
    have herr : rollback t s = .error (.store e) { s with handle := h' } := onHandle_error hr
    refine ⟨[refused e], .inr ⟨e, rfl⟩, ?_⟩
    rw [orStore_refused herr]
    rfl

end Work

namespace Migration

variable {m : Migration} {s : Session} {h₀ : Handle} {t : Ticket} {ts : Tables}

/-- The report that a migration's transaction could not be rolled back. -/
def rollbackRefused (version : String) (e : StoreError) : Event :=
  .migrationFailed version .rollback (.store e)

theorem giveUp_inside (i : Handle.Inside h₀ t ts s.handle) (hp : Handle.StoreFaults s.handle.plan)
    (v : String) :
    ∃ reports h', GaveUp (rollbackRefused v) reports ∧ h₀.Settled h₀.connection.base h' ∧
      giveUp v t s = .ok () { s with handle := h', events := s.events ++ reports } := by
  obtain ⟨h', hr, hset⟩ := Handle.rollback_inside i
  obtain ⟨reports, hg, hok⟩ := Work.giveUp_ok hp hr (rollbackRefused v)
  exact ⟨reports, h', hg, hset, hok⟩

theorem openFor_refused (hr : s.Between) {e : StoreError}
    (hb : s.handle.beginRefusal? = some (.store e)) (v : String) :
    ∃ s', openFor v s = .error (.ledger (.cannotBeginFor v e)) s' ∧
      s.Reaches (.error (.ledger (.cannotBeginFor v e))) []
        [.migrationFailed v .begin (.store e)] s' := by
  obtain ⟨h', hbegin, hset⟩ := Handle.begin_refused hr.idle hb
  have herr : Work.begin s = .error (.store e) { s with handle := h' } :=
    Work.onHandle_error hbegin
  unfold openFor
  rw [Work.orStore_refused herr]
  exact ⟨_, rfl, ⟨hset, .refl _⟩, (List.append_nil _).symm, rfl⟩

theorem openFor_opened (hr : s.Between) (hb : s.handle.beginRefusal? = none) (v : String) :
    ∃ t h', openFor v s = .ok t { s with handle := h' } ∧
      s.handle.Inside t s.store h' ∧ h'.counts.execute = s.handle.counts.execute := by
  obtain ⟨t, h', hbegin, i, hn⟩ := Handle.begin_opened hr.idle hb
  exact ⟨t, h', Work.orStore_ok (Work.onHandle_ok hbegin) _, i, hn⟩

end Migration

/-! ## The ledger's part -/

/-- In an open transaction `keep` either makes `part` of the tables, or fails with a
failure of the ledger about `version` because a fault struck or `part` gives nothing.
Nothing is reported and no unit is called. -/
def LedgerPart (version : String) (part : Readings → Tables → Option Tables)
    (keep : Ticket → Work Unit) : Prop :=
  ∀ ⦃s : Session⦄ ⦃h₀ : Handle⦄ ⦃t : Ticket⦄ ⦃ts : Tables⦄, h₀.Inside t ts s.handle →
    Handle.StoreFaults s.handle.plan → s.clock.Dated →
    ∃ us h' clock', h₀.Inside t us h' ∧ s.clock.Before clock' ∧
      ((keep t s = .ok () { s with handle := h', clock := clock' } ∧
          Handle.faultAt s.handle.plan .execute s.handle.counts.execute = none ∧
          part s.clock ts = some us) ∨
        ∃ g, keep t s = .error (.ledger g) { s with handle := h', clock := clock' } ∧
          g.version? = some version ∧
          (Handle.faultAt s.handle.plan .execute s.handle.counts.execute ≠ none ∨
            part s.clock ts = none))

namespace Ledger

variable {l : Ledger} {s : Session} {h₀ : Handle} {t : Ticket} {ts : Tables}

/-- A statement of the ledger is answered by the tables, unless a fault strikes it. -/
theorem send_inside (i : h₀.Inside t ts s.handle) (hp : Handle.StoreFaults s.handle.plan)
    (st : Statement) (fault : StoreError → LedgerFault) :
    let w : Work Nat := (send t st).orStore fun e => throw (.ledger (fault e))
    (∃ k us, w s = .ok k { s with handle := s.handle.inWork us (s.handle.counts.execute + 1) } ∧
        Handle.faultAt s.handle.plan .execute s.handle.counts.execute = none ∧
        st.run ts = .ok (k, us)) ∨
      ∃ e, w s = .error (.ledger (fault e))
          { s with handle := s.handle.inWork ts (s.handle.counts.execute + 1) } ∧
        (Handle.faultAt s.handle.plan .execute s.handle.counts.execute ≠ none ∨
          ∃ e', st.run ts = .error e') := by
  have he := Handle.execute_inside i fun ts => (st.run ts).mapError Failure.store
  rcases hf : Handle.faultAt s.handle.plan .execute s.handle.counts.execute with _ | f
  · rcases hr : st.run ts with e | ⟨k, us⟩
    · rw [hf, hr] at he
      exact .inr ⟨e, Work.orStore_refused (Work.execute_error he) _, .inr ⟨e, rfl⟩⟩
    · rw [hf, hr] at he
      exact .inl ⟨k, us, Work.orStore_ok (Work.execute_ok he) _, rfl, rfl⟩
  · obtain ⟨e, rfl⟩ := hp.of_faultAt hf
    rw [hf] at he
    exact .inr ⟨e, Work.orStore_refused (Work.execute_error he) _, .inl (by simp)⟩

/-- Recording a version at the time that is read, if there is a description to record. -/
def recording (l : Ledger) (version : String) (description : Except Failure Cell) (t : Ticket) :
    Work Unit := do
  let stamp ← Work.timestamp
  match description with
  | .ok d => l.insert t version d stamp
  | .error f => l.insertUnbound t version f

/-- A description that is refused by an error of the store is refused like a row. -/
theorem insertUnbound_inside (i : h₀.Inside t ts s.handle)
    (hp : Handle.StoreFaults s.handle.plan) (v : String) (e : StoreError) :
    ∃ e', l.insertUnbound t v (.store e) s = .error (.ledger (.cannotRecord v e'))
      { s with handle := s.handle.inWork ts (s.handle.counts.execute + 1) } := by
  have he := Handle.execute_inside (α := Unit) i fun ts =>
    .error (((Statement.unprepared? ts l.table givenNames).map .store).getD (.store e))
  have hrefused : ∃ e', s.handle.execute (α := Unit) t (fun ts =>
      .error (((Statement.unprepared? ts l.table givenNames).map .store).getD (.store e))) =
        (.error (.store e'), s.handle.inWork ts (s.handle.counts.execute + 1)) := by
    rcases hf : Handle.faultAt s.handle.plan .execute s.handle.counts.execute with _ | f
    · rw [hf] at he
      rcases hu : Statement.unprepared? ts l.table givenNames with _ | e'
      · rw [hu] at he
        exact ⟨e, he⟩
      · rw [hu] at he
        exact ⟨e', he⟩
    · obtain ⟨e', rfl⟩ := hp.of_faultAt hf
      rw [hf] at he
      exact ⟨e', he⟩
  obtain ⟨e', he'⟩ := hrefused
  exact ⟨e', Work.orStore_refused (Work.execute_error he') _⟩

theorem recording_part (l : Ledger) (v : String) {description : Except Failure Cell}
    (hd : ∀ f, description = .error f → ∃ e, f = .store e) :
    LedgerPart v (l.recorded? v description) (l.recording v description) := by
  intro s h₀ t ts i hp hdated
  obtain ⟨a, ha⟩ := hdated.stamp
  have i' : h₀.Inside t ts { s with clock := s.clock.next }.handle := i
  have hstamp := Work.timestamp_ok ha
  cases description with
  | error f =>
    obtain ⟨e, rfl⟩ := hd f rfl
    obtain ⟨e', hw⟩ := insertUnbound_inside (l := l) i' hp v e
    refine ⟨ts, _, s.clock.next, i.inWork ts _, s.clock.before_next,
      .inr ⟨.cannotRecord v e', (Work.bind_ok hstamp _).trans hw, rfl, .inr ?_⟩⟩
    simp only [recorded?, ha]
  | ok d =>
    have hrec : l.recording v (.ok d) t s = l.insert t v d a { s with clock := s.clock.next } :=
      Work.bind_ok hstamp _
    rw [hrec]
    rcases send_inside i' hp (l.entry v d a) (.cannotRecord v) with
      ⟨k, us, hw, hf, hrun⟩ | ⟨e, hw, hwhy⟩
    · refine ⟨us, _, s.clock.next, i.inWork us _, s.clock.before_next,
        .inl ⟨Work.bind_ok hw _, hf, ?_⟩⟩
      simp only [recorded?, ha, hrun]
    · refine ⟨ts, _, s.clock.next, i.inWork ts _, s.clock.before_next,
        .inr ⟨.cannotRecord v e, Work.bind_error hw _, rfl, hwhy.imp id ?_⟩⟩
      rintro ⟨e', hrun⟩
      simp only [recorded?, ha, hrun]

theorem delete_part (l : Ledger) (v : String) :
    LedgerPart v (fun _ => l.removed? v) (fun t => l.delete t v) := by
  intro s h₀ t ts i hp _
  unfold delete
  rcases send_inside i hp (l.removal v) (.cannotRemove v) with
    ⟨k, us, hw, hf, hrun⟩ | ⟨e, hw, hwhy⟩
  · refine ⟨us, _, s.clock, i.inWork us (s.handle.counts.execute + 1), .refl _, ?_⟩
    by_cases hk : k = 0
    · refine .inr ⟨.vanished v, ?_, rfl, .inr ?_⟩
      · exact (Work.bind_ok hw _).trans (by rw [if_pos hk]; rfl)
      · simp only [removed?, hrun, if_pos hk]
    · refine .inl ⟨?_, hf, ?_⟩
      · exact (Work.bind_ok hw _).trans (by rw [if_neg hk]; rfl)
      · simp only [removed?, hrun, if_neg hk]
  · refine ⟨ts, _, s.clock, i.inWork ts _, .refl _,
      .inr ⟨.cannotRemove v e, Work.bind_error hw _, rfl, hwhy.imp id ?_⟩⟩
    rintro ⟨e', hrun⟩
    simp only [removed?, hrun]

end Ledger

/-! ## One operation of a migration -/

/-- The description of a migration is stored, or refused by an error of the store. A whole
number of more than 64 bits is neither. -/
def Migration.Describable (m : Migration) : Prop :=
  ∀ f, describe m.description = .error f → ∃ e, f = .store e

/-- What passes by the handlers of a migration, if the failures that the store and the plan
answer with are among `R`: what passes when its routines are run, and the failure of a
description that the store does not refuse itself. -/
inductive Migration.Passes (R : Failure → Prop) (m : Migration) : Failure → Prop where
  | up {f : Failure} : m.up.Passes R f → Passes R m f
  | down {f : Failure} : m.down.Passes R f → Passes R m f
  | description {f : Failure} : describe m.description = .error f → f.store? = none → Passes R m f

/-- One operation of a migration: the routine that it runs, how its failures are
reported, and the ledger's part. -/
structure Job where
  migration : Migration
  operation : Operation
  routine : Routine
  /-- The steps that the routine and the ledger's part are. -/
  step : MigrationStep
  mark : MigrationStep
  part : Readings → Tables → Option Tables
  keep : Ticket → Work Unit

namespace Job

def version (j : Job) : String := j.migration.version

/-- The call of the migration's routine. -/
def call (j : Job) : UnitCall := ⟨j.operation, j.version, j.migration.form⟩

/-- All of an operation in one transaction. -/
def run (j : Job) : Work Unit := do
  let t ← Migration.openFor j.version
  j.migration.runRoutine j.operation j.step t j.routine
  Migration.keepLedger j.version j.mark t (j.keep t)
  Migration.commitFor j.version t

/-- What the routine comes to from a session, under the faults of its plan. -/
def effect (j : Job) (s : Session) : Effect :=
  j.routine.effect (Handle.faultAt s.handle.plan .execute) s.handle.counts.execute s.store

/-- Applying a migration. -/
def applying (l : Ledger) (m : Migration) : Job where
  migration := m
  operation := .up
  routine := m.up
  step := .up
  mark := .record
  part := l.recorded? m.version (Migration.describe m.description)
  keep := l.recording m.version (Migration.describe m.description)

/-- Reverting a migration. -/
def reverting (l : Ledger) (m : Migration) : Job where
  migration := m
  operation := .down
  routine := m.down
  step := .down
  mark := .remove
  part := fun _ => l.removed? m.version
  keep := fun t => l.delete t m.version

/-- Under faults of the store the ledger's part is done, or fails with one of the ledger. -/
def Sound (j : Job) : Prop := LedgerPart j.version j.part j.keep

theorem applying_sound (l : Ledger) {m : Migration} (hm : m.Describable) :
    (applying l m).Sound :=
  l.recording_part m.version hm

theorem reverting_sound (l : Ledger) (m : Migration) : (reverting l m).Sound :=
  l.delete_part m.version

/-- How an operation from `s` can end: what it comes to, the calls and the reports. -/
inductive Attempt (j : Job) (s : Session) :
    Except Failure Tables → List UnitCall → List Event → Prop
  /-- No transaction could be opened. -/
  | unopened {e : StoreError} :
      s.handle.beginRefusal? = some (.store e) →
      Attempt j s (.error (.ledger (.cannotBeginFor j.version e))) []
        [.migrationFailed j.version .begin (.store e)]
  /-- The routine failed, and was not broken off. -/
  | failed {f : Failure} {reports : List Event} :
      s.handle.beginRefusal? = none → (j.effect s).result = .error f → f.isInterrupt = false →
      GaveUp (Migration.rollbackRefused j.version) reports →
      Attempt j s (.error (.ofUnit j.version j.operation f)) [j.call]
        (reports ++ f.reported (.migrationFailed j.version j.step f))
  /-- The ledger could not do its part. -/
  | unkept {g : LedgerFault} {reports : List Event} :
      s.handle.beginRefusal? = none → (j.effect s).result = .ok () →
      (Handle.faultAt s.handle.plan .execute (j.effect s).sent ≠ none ∨
        j.part s.clock (j.effect s).tables = none) →
      g.version? = some j.version → GaveUp (Migration.rollbackRefused j.version) reports →
      Attempt j s (.error (.ledger g)) [j.call]
        (reports ++ [.migrationFailed j.version j.mark (.ledger g)])
  /-- The transaction could not be committed. -/
  | uncommitted {e : StoreError} :
      s.handle.beginRefusal? = none → (j.effect s).result = .ok () →
      s.handle.planned? .commit = some (.store e) →
      Attempt j s (.error (.ledger (.cannotCommit j.version e))) [j.call]
        [.migrationFailed j.version .commit (.store e)]
  /-- Everything was committed. -/
  | done {us : Tables} :
      s.handle.beginRefusal? = none → (j.effect s).result = .ok () →
      Handle.faultAt s.handle.plan .execute (j.effect s).sent = none →
      j.part s.clock (j.effect s).tables = some us → s.handle.planned? .commit = none →
      Attempt j s (.ok us) [j.call] []

end Job

namespace Migration

variable {m : Migration} {s s₁ : Session} {h₀ : Handle} {t : Ticket} {ts : Tables}

theorem runRoutine_ok {r : Routine} (ho : r.LeavesOpen) (i : h₀.Inside t ts s.handle) {e : Effect}
    (he : r.effect (Handle.faultAt s.handle.plan .execute) s.handle.counts.execute ts = e)
    (hres : e.result = .ok ()) (op : Operation) (step : MigrationStep) :
    m.runRoutine op step t r s =
      .ok () { s with
        handle := s.handle.inWork e.tables e.sent, calls := s.calls ++ [⟨op, m.version, m.form⟩] } := by
  have i' : h₀.Inside t ts
    { s with calls := s.calls ++ [⟨op, m.version, m.form⟩] : Session }.handle := i
  have hrun := Routine.run_inside ho i'
  rw [he] at hrun
  unfold Session.outcomeOf at hrun
  rw [hres] at hrun
  unfold runRoutine
  rw [Work.bind_ok (Work.noteCall_ok ..), Work.bind_ok (Work.rescue_ok hrun)]
  rfl

/-- A routine that is broken off ends what is going on, with its transaction open. -/
theorem runRoutine_interrupted {r : Routine} (ho : r.LeavesOpen)
    (i : h₀.Inside t ts s.handle) {e : Effect}
    (he : r.effect (Handle.faultAt s.handle.plan .execute) s.handle.counts.execute ts = e)
    {f : Failure} (hres : e.result = .error f) (hf : f.isInterrupt = true) (op : Operation)
    (step : MigrationStep) :
    m.runRoutine op step t r s =
      .error f { s with
        handle := s.handle.inWork e.tables e.sent, calls := s.calls ++ [⟨op, m.version, m.form⟩] } := by
  have i' : h₀.Inside t ts
    { s with calls := s.calls ++ [⟨op, m.version, m.form⟩] : Session }.handle := i
  have hrun := Routine.run_inside ho i'
  rw [he] at hrun
  unfold Session.outcomeOf at hrun
  rw [hres] at hrun
  unfold runRoutine
  rw [Work.bind_ok (Work.noteCall_ok ..), Work.bind_error (Work.rescue_interrupt hrun hf)]
  rfl

theorem runRoutine_failed {r : Routine} (ho : r.LeavesOpen) (i : h₀.Inside t ts s.handle)
    (hp : Handle.StoreFaults s.handle.plan) {e : Effect}
    (he : r.effect (Handle.faultAt s.handle.plan .execute) s.handle.counts.execute ts = e)
    {f : Failure} (hres : e.result = .error f) (hf : f.isInterrupt = false) (op : Operation)
    (step : MigrationStep) :
    ∃ reports h', GaveUp (rollbackRefused m.version) reports ∧
      h₀.Settled h₀.connection.base h' ∧
      m.runRoutine op step t r s =
        .error (.ofUnit m.version op f) { s with
          handle := h', calls := s.calls ++ [⟨op, m.version, m.form⟩],
          events := s.events ++ (reports ++ f.reported (.migrationFailed m.version step f)) } := by
  have i' : h₀.Inside t ts
    { s with calls := s.calls ++ [⟨op, m.version, m.form⟩] : Session }.handle := i
  have hrun := Routine.run_inside ho i'
  rw [he] at hrun
  unfold Session.outcomeOf at hrun
  rw [hres] at hrun
  have i₂ : h₀.Inside t e.tables
    (Session.inWork { s with calls := s.calls ++ [⟨op, m.version, m.form⟩] } e).handle :=
    i'.inWork _ _
  obtain ⟨reports, h', hg, hset, hok⟩ := giveUp_inside i₂ hp m.version
  refine ⟨reports, h', hg, hset, ?_⟩
  unfold runRoutine
  rw [Work.bind_ok (Work.noteCall_ok ..), Work.bind_ok (Work.rescue_error hrun hf)]
  dsimp only
  rw [Work.bind_ok hok, Work.bind_ok (Work.reportOf_ok ..), ← List.append_assoc]
  rfl

theorem keepLedger_ok {w : Work Unit} (hw : w s = .ok () s₁) (v : String) (step : MigrationStep)
    (t : Ticket) : keepLedger v step t w s = .ok () s₁ := by
  unfold keepLedger
  rw [Work.bind_ok (Work.attempt_ok hw)]
  rfl

theorem keepLedger_failed {w : Work Unit} {g : LedgerFault} (hw : w s = .error (.ledger g) s₁)
    (i : h₀.Inside t ts s₁.handle) (hp : Handle.StoreFaults s₁.handle.plan) (v : String)
    (step : MigrationStep) :
    ∃ reports h', GaveUp (rollbackRefused v) reports ∧ h₀.Settled h₀.connection.base h' ∧
      keepLedger v step t w s =
        .error (.ledger g) { s₁ with
          handle := h',
          events := s₁.events ++ (reports ++ [.migrationFailed v step (.ledger g)]) } := by
  obtain ⟨reports, h', hg, hset, hok⟩ := giveUp_inside i hp v
  refine ⟨reports, h', hg, hset, ?_⟩
  unfold keepLedger
  rw [Work.bind_ok (Work.attempt_error hw)]
  simp only [Failure.family?, if_true]
  rw [Work.bind_ok hok, Work.bind_ok (Work.report_ok ..), ← List.append_assoc]
  rfl

theorem commitFor_done (i : h₀.Inside t ts s.handle) (hc : s.handle.planned? .commit = none)
    (v : String) :
    ∃ h', commitFor v t s = .ok () { s with handle := h' } ∧ h₀.Settled ts h' := by
  obtain ⟨h', hcommit, hset⟩ := Handle.commit_done i hc
  have hok : Work.commit t s = .ok () { s with handle := h' } := Work.onHandle_ok hcommit
  exact ⟨h', Work.orStore_ok hok _, hset⟩

theorem commitFor_refused (i : h₀.Inside t ts s.handle) {e : StoreError}
    (hc : s.handle.planned? .commit = some (.store e)) (v : String) :
    ∃ h', h₀.Settled h₀.connection.base h' ∧
      commitFor v t s =
        .error (.ledger (.cannotCommit v e)) { s with
          handle := h', events := s.events ++ [.migrationFailed v .commit (.store e)] } := by
  obtain ⟨h', hcommit, hset⟩ := Handle.commit_refused i hc
  have herr : Work.commit t s = .error (.store e) { s with handle := h' } :=
    Work.onHandle_error hcommit
  exact ⟨h', hset, Work.orStore_refused herr _⟩

end Migration
namespace Job

/-- What an operation can end as, for the session `s` that it started from. -/
def Ends (j : Job) (s : Session) (r : EStateM.Result Failure Session Unit) : Prop :=
  ∃ out calls events s', Attempt j s out calls events ∧ r = s'.ended out ∧
    s.Reaches out calls events s'

/-- The rest of an operation whose routine has succeeded. -/
theorem ends_after_routine {j : Job} (hj : j.Sound) {s s₁ : Session} {t : Ticket} (hr : s.Ready)
    (hb : s.handle.beginRefusal? = none) (hres : (j.effect s).result = .ok ())
    (i : s.handle.Inside t (j.effect s).tables s₁.handle)
    (hsent : s₁.handle.counts.execute = (j.effect s).sent) (hclock : s₁.clock = s.clock)
    (hcalls : s₁.calls = s.calls ++ [j.call]) (hevents : s₁.events = s.events) :
    j.Ends s ((Migration.keepLedger j.version j.mark t (j.keep t) >>= fun _ =>
      Migration.commitFor j.version t) s₁) := by
  have hp : Handle.StoreFaults s₁.handle.plan := by
    rw [i.plan]
    exact hr.faults
  obtain ⟨us, h', clock', i', hbefore, hkeep⟩ := hj i hp (hclock ▸ hr.dated)
  have hp' : Handle.StoreFaults h'.plan := by
    rw [i'.plan]
    exact hr.faults
  rw [i.plan, hsent, hclock] at hkeep
  rw [hclock] at hbefore
  rcases hkeep with ⟨hk, hfault, hpart⟩ | ⟨g, hk, hg, hwhy⟩
  · rw [Work.bind_ok (Migration.keepLedger_ok hk j.version j.mark t)]
    have hc : h'.planned? .commit = s.handle.planned? .commit := by
      unfold Handle.planned? CallCounts.get
      rw [i'.plan, i'.commits]
    rcases hcommit : s.handle.planned? .commit with _ | f
    · obtain ⟨h₂, hdone, hset⟩ := Migration.commitFor_done
        (s := { s₁ with handle := h', clock := clock' }) i' (hc.trans hcommit) j.version
      refine ⟨_, _, _, _, .done hb hres hfault hpart hcommit, hdone, ⟨hset, hbefore⟩, hcalls, ?_⟩
      rw [List.append_nil]
      exact hevents
    · obtain ⟨e, rfl⟩ := hr.faults.of_faultAt hcommit
      obtain ⟨h₂, hset, hdone⟩ := Migration.commitFor_refused
        (s := { s₁ with handle := h', clock := clock' }) i' (hc.trans hcommit) j.version
      exact ⟨_, _, _, _, .uncommitted hb hres hcommit, hdone, ⟨hset, hbefore⟩, hcalls, by rw [hevents]⟩
  · obtain ⟨reports, h₂, hgave, hset, hfail⟩ :=
      Migration.keepLedger_failed hk i' hp' j.version j.mark
    rw [Work.bind_error hfail]
    exact ⟨_, _, _, _, .unkept hb hres hwhy hg hgave, rfl, ⟨hset, hbefore⟩, hcalls, by rw [hevents]⟩

/-- An operation whose routine is broken off ends what is going on, with its transaction open. -/
theorem run_interrupted {j : Job} {s : Session} (hs : s.handle.Opens) (ho : j.routine.LeavesOpen)
    {f : Failure} (hres : (j.effect s).result = .error f) (hf : f.isInterrupt = true) :
    ∃ t s', j.run s = .error f s' ∧ s.handle.Inside t (j.effect s).tables s'.handle ∧
      s'.calls = s.calls ++ [j.call] ∧ s'.events = s.events := by
  obtain ⟨t, h₁, hbegin, i, hn⟩ := Handle.begin_opened hs.idle hs.allowed
  have hopen : Migration.openFor j.version s = .ok t { s with handle := h₁ } :=
    Work.orStore_ok (Work.onHandle_ok hbegin) _
  have he : j.routine.effect (Handle.faultAt h₁.plan .execute) h₁.counts.execute s.store =
      j.effect s := by
    rw [i.plan, hn]
    rfl
  unfold run
  rw [Work.bind_ok hopen, Work.bind_error (Migration.runRoutine_interrupted (m := j.migration)
    (s := { s with handle := h₁ }) ho i he hres hf j.operation j.step)]
  exact ⟨t, _, rfl, i.inWork _ _, rfl, rfl⟩

/-- Every operation from a session without an open transaction ends as an attempt does,
and then no transaction is open, unless its routine is started and broken off. -/
theorem run_ends {j : Job} (hj : j.Sound) {s : Session} (hr : s.Ready)
    (ho : j.routine.LeavesOpen)
    (hn : s.handle.beginRefusal? = none → ¬ (j.effect s).Interrupted) : j.Ends s (j.run s) := by
  unfold run
  rcases hb : s.handle.beginRefusal? with _ | f
  · obtain ⟨t, h₁, hopen, i, hcount⟩ := Migration.openFor_opened hr.between hb j.version
    rw [Work.bind_ok hopen]
    have hp : Handle.StoreFaults h₁.plan := by
      rw [i.plan]
      exact hr.faults
    have he : j.routine.effect (Handle.faultAt h₁.plan .execute) h₁.counts.execute s.store =
        j.effect s := by
      rw [i.plan, hcount]
      rfl
    rcases hres : (j.effect s).result with f | _
    · have hf : f.isInterrupt = false := Bool.eq_false_iff.mpr fun hf => hn hb ⟨f, hres, hf⟩
      obtain ⟨reports, h', hg, hset, hrun⟩ := Migration.runRoutine_failed
        (s := { s with handle := h₁ }) ho i hp he hres hf j.operation j.step
      rw [Work.bind_error hrun]
      exact ⟨_, _, _, _, .failed hb hres hf hg, rfl, ⟨hset, .refl _⟩, rfl, rfl⟩
    · rw [Work.bind_ok (Migration.runRoutine_ok (s := { s with handle := h₁ }) ho i he hres
        j.operation j.step)]
      exact ends_after_routine hj hr hb hres (i.inWork _ _) rfl rfl rfl rfl
  · obtain ⟨e, rfl⟩ := hr.faults.of_beginRefusal? hb
    obtain ⟨s', hopen, hreach⟩ := Migration.openFor_refused hr.between hb j.version
    rw [Work.bind_error hopen]
    exact ⟨_, _, _, s', .unopened hb, rfl, hreach⟩

/-- An operation as the engine performs it: timed, and reported before and after. -/
def perform (j : Job) (first : Event) (last : String → Int → Event) : Work Outcome := do
  let start ← Work.now
  Work.report first
  j.run
  let done := j.migration.outcome start (← Work.now)
  Work.report (last j.version done.milliseconds)
  return done

theorem perform_failed {j : Job} {s s' : Session} {f : Failure} {first : Event}
    (h : j.run (s.begun first) = .error f s') (last : String → Int → Event) :
    j.perform first last s = .error f s' :=
  Work.bind_error h _

/-- An operation that got to the end only reads the clock and reports after it. -/
theorem perform_done {j : Job} {s s' : Session} {first : Event}
    (h : j.run (s.begun first) = .ok () s') (last : String → Int → Event) :
    ∃ o, j.perform first last s =
        .ok o { s' with
          clock := s'.clock.next, events := s'.events ++ [last j.version o.milliseconds] } ∧
      o.version = j.version ∧ o.description = j.migration.description := by
  have hperform : j.perform first last s =
      (j.run >>= fun _ => do
        let done := j.migration.outcome s.clock.current (← Work.now)
        Work.report (last j.version done.milliseconds)
        return done) (s.begun first) := rfl
  rw [hperform, Work.bind_ok h]
  exact ⟨_, rfl, rfl, rfl⟩

/-- A performed operation raises the failure of an attempt and leaves the store as it
was, or gives the outcome of an attempt that got to the end. -/
theorem perform_cases {j : Job} (hj : j.Sound) {s : Session} (hr : s.Ready)
    (ho : j.routine.LeavesOpen)
    (hn : s.handle.beginRefusal? = none → ¬ (j.effect s).Interrupted) (first : Event)
    (last : String → Int → Event) :
    (∃ f calls events s', Attempt j (s.begun first) (.error f) calls events ∧
        j.perform first last s = .error f s' ∧
        s.Reaches (.error f) calls (first :: events) s') ∨
      ∃ us o s', Attempt j (s.begun first) (.ok us) [j.call] [] ∧
        j.perform first last s = .ok o s' ∧ o.version = j.version ∧
        o.description = j.migration.description ∧
        s.Reaches (.ok us) [j.call] [first, last j.version o.milliseconds] s' := by
  obtain ⟨out, calls, events, s', hatt, hrun, hreach⟩ := run_ends hj (hr.begun first) ho hn
  rcases out with f | us
  · refine .inl ⟨f, calls, events, s', hatt, perform_failed hrun last,
      ⟨hreach.leaves.settled, s.clock.before_next.trans hreach.leaves.clock⟩, hreach.calls, ?_⟩
    rw [hreach.events]
    exact List.append_assoc s.events [first] events
  · obtain ⟨rfl, rfl⟩ : calls = [j.call] ∧ events = [] := by
      cases hatt
      exact ⟨rfl, rfl⟩
    obtain ⟨o, hperform, hv, hd⟩ := perform_done hrun last
    refine .inr ⟨us, o, _, hatt, hperform, hv, hd, ⟨hreach.leaves.settled,
      s.clock.before_next.trans (hreach.leaves.clock.trans s'.clock.before_next)⟩,
      hreach.calls, ?_⟩
    simp only [hreach.events, Session.begun, List.append_nil, List.append_assoc]
    rfl

end Job

namespace Migration

theorem timestamp_error {s s' : Session} {f : Failure} (h : Work.timestamp s = .error f s') :
    f = .noSuchDate := by
  unfold Work.timestamp at h
  rw [Work.bind_ok (Work.now_ok s)] at h
  rcases ht : Calendar.timestamp? s.clock.current with _ | stamp
  · rw [ht] at h
    cases h
    rfl
  · rw [ht] at h
    cases h

/-- A clock without a date fails beside the ledger's part as it does within it. -/
theorem keepLedger_timestamp (v : String) (step : MigrationStep) (t : Ticket)
    (k : String → Work Unit) :
    (do let stamp ← Work.timestamp; keepLedger v step t (k stamp)) =
      keepLedger v step t (do let stamp ← Work.timestamp; k stamp) := by
  funext s
  rcases h : Work.timestamp s with ⟨stamp, s'⟩ | ⟨f, s'⟩
  · rw [Work.bind_ok h]
    unfold keepLedger Work.attempt
    simp only [bind, EStateM.bind, h]
  · obtain rfl := timestamp_error h
    rw [Work.bind_error h]
    unfold keepLedger
    rw [Work.bind_ok (Work.attempt_error (Work.bind_error h _))]
    rfl

theorem apply_eq (l : Ledger) (m : Migration) :
    m.apply l = (Job.applying l m).perform (.applying m.version m.description.shown) .applied := by
  unfold apply Job.perform Job.run
  simp only [bind_assoc, Job.applying, Ledger.recording, ← keepLedger_timestamp]
  rfl

theorem revert_eq (l : Ledger) (m : Migration) :
    m.revert l =
      (Job.reverting l m).perform (.reverting m.version m.description.shown) .reverted := by
  unfold revert Job.perform Job.run
  simp only [bind_assoc, Job.reverting]
  rfl

end Migration
end SchemaLedger
