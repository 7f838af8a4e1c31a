-- How an operation on a migration ends under any plan of faults and any clock. Its
-- transaction is committed or given up, except where the ledger's part fails with a
-- failure that is neither the store's nor the ledger's: then it stays open.
import SchemaLedger.Proofs.Attempt

namespace SchemaLedger

namespace Work

variable {α : Type} {s s' : Session} {h₀ : Handle} {t : Ticket} {us : Tables}

/-- A transaction that is given up for a failure: some failure is raised, which under a
fault of the rollback may be another one, and the rollback has been done. -/
theorem giveUp_raises
    (hroll : ∃ h', s.handle.rollback t = (s.handle.rollbackAnswer, h') ∧ h₀.Settled us h')
    (refused : StoreError → Event) {told : Work Unit} (htold : Says told ()) (f : Failure) :
    ∃ f' s', ((rollback t).orStore (fun e => report (refused e)) >>= fun _ =>
        told >>= fun _ => (throw f : Work α)) s = .error f' s' ∧
      h₀.Settled us s'.handle ∧ s'.clock = s.clock ∧ s'.calls = s.calls := by
  obtain ⟨h', hr, hset⟩ := hroll
  obtain ⟨said, hsaid⟩ := htold
  unfold Handle.rollbackAnswer at hr
  rcases ha : s.handle.planned? .rollback with _ | g
  · rw [ha] at hr
    have hok : rollback t s = .ok () { s with handle := h' } := onHandle_ok hr
    rw [bind_ok (orStore_ok hok _), bind_ok (hsaid _)]
    exact ⟨_, _, rfl, hset, rfl, rfl⟩
  · rw [ha] at hr
    have herr : rollback t s = .error g { s with handle := h' } := onHandle_error hr
    rcases hg : g.store? with _ | e'
    · rw [bind_error (orStore_passed herr hg _)]
      exact ⟨_, _, rfl, hset, rfl, rfl⟩
    · obtain rfl := Failure.eq_store hg
      rw [bind_ok ((orStore_refused herr _).trans (report_ok ..)), bind_ok (hsaid _)]
      exact ⟨_, _, rfl, hset, rfl, rfl⟩

end Work

/-! ## The ledger's part, under any plan -/

/-- A failure that is neither of the store nor of the ledger. -/
def Failure.Stray (f : Failure) : Prop := f.store? = none ∧ f.family? ≠ some .ledger

/-- A fault strikes with a stray failure. -/
def StrayFault (fault : Option Failure) : Prop := ∃ f, fault = some f ∧ f.Stray

/-- In an open transaction the ledger's part of `j`, whatever the plan and the clock, is
made of the tables, or fails: with a stray failure just when `strays` says so of the clock,
of the fault that strikes its statement and of the tables, and otherwise with one of the
ledger. -/
def Job.Sturdy (j : Job) (strays : Readings → Option Failure → Tables → Prop) : Prop :=
  ∀ ⦃s : Session⦄ ⦃h₀ : Handle⦄ ⦃t : Ticket⦄ ⦃ts : Tables⦄, h₀.Inside t ts s.handle →
    let fault := Handle.faultAt s.handle.plan .execute s.handle.counts.execute
    ∃ us h' clock', h₀.Inside t us h' ∧ s.clock.Before clock' ∧
      ((j.keep t s = .ok () { s with handle := h', clock := clock' } ∧
          j.part s.clock ts = some us ∧ ¬ strays s.clock fault ts) ∨
        ∃ f, j.keep t s = .error f { s with handle := h', clock := clock' } ∧
          (strays s.clock fault ts ↔ f.family? ≠ some .ledger))

namespace Ledger

variable {l : Ledger} {s : Session} {h₀ : Handle} {t : Ticket} {ts : Tables}

/-- How a statement of the ledger is answered: by the tables, or by a failure of the
ledger, or by the stray failure that a fault strikes it with. -/
theorem send_struck (i : h₀.Inside t ts s.handle) (st : Statement) (fault : StoreError → LedgerFault) :
    let w : Work Nat := (send t st).orStore fun e => throw (.ledger (fault e))
    let struck := Handle.faultAt s.handle.plan .execute s.handle.counts.execute
    (∃ k us, w s = .ok k { s with handle := s.handle.inWork us (s.handle.counts.execute + 1) } ∧
        st.run ts = .ok (k, us) ∧ struck = none) ∨
      ∃ f, w s = .error f { s with handle := s.handle.inWork ts (s.handle.counts.execute + 1) } ∧
        (StrayFault struck ↔ f.family? ≠ some .ledger) := by
  have he := Handle.execute_inside i fun ts => (st.run ts).mapError Failure.store
  rcases hf : Handle.faultAt s.handle.plan .execute s.handle.counts.execute with _ | f
  · rcases hr : st.run ts with e | ⟨k, us⟩
    · rw [hf, hr] at he
      refine .inr ⟨_, Work.orStore_refused (Work.execute_error he) _, ?_⟩
      simp [StrayFault, Failure.family?]
    · rw [hf, hr] at he
      exact .inl ⟨k, us, Work.orStore_ok (Work.execute_ok he) _, rfl, rfl⟩
  · rw [hf] at he
    rcases hg : f.store? with _ | e
    · refine .inr ⟨f, Work.orStore_passed (Work.execute_error he) hg _, ?_⟩
      simp [StrayFault, Failure.Stray, hg]
    · obtain rfl := Failure.eq_store hg
      refine .inr ⟨_, Work.orStore_refused (Work.execute_error he) _, ?_⟩
      simp [StrayFault, Failure.Stray, hg, Failure.family?]

/-- The row of a migration is prepared, and then its description fails with a stray failure. -/
def Unbound (l : Ledger) (description : Value) (ts : Tables) : Prop :=
  Statement.unprepared? ts l.table givenNames = none ∧
    ∃ f, Migration.describe description = .error f ∧ f.Stray

/-- How a description that cannot be passed on is answered: by a failure of the ledger, or by
a stray failure, that of a fault or its own. -/
theorem insertUnbound_struck (i : h₀.Inside t ts s.handle) (v : String) (f : Failure) :
    let struck := Handle.faultAt s.handle.plan .execute s.handle.counts.execute
    ∃ f', l.insertUnbound t v f s = .error f'
        { s with handle := s.handle.inWork ts (s.handle.counts.execute + 1) } ∧
      ((StrayFault struck ∨
          struck = none ∧ Statement.unprepared? ts l.table givenNames = none ∧ f.Stray) ↔
        f'.family? ≠ some .ledger) := by
  intro struck
  have he := Handle.execute_inside (α := Unit) i fun ts =>
    .error (((Statement.unprepared? ts l.table givenNames).map .store).getD f)
  -- what the statement itself comes to, unless it is handled
  have hpasses {g : Failure} (hg : s.handle.execute (α := Unit) t (fun ts =>
      .error (((Statement.unprepared? ts l.table givenNames).map .store).getD f)) =
        (.error g, s.handle.inWork ts (s.handle.counts.execute + 1))) :
      ∃ f', l.insertUnbound t v f s = .error f'
          { s with handle := s.handle.inWork ts (s.handle.counts.execute + 1) } ∧
        (g.Stray ↔ f'.family? ≠ some .ledger) := by
    rcases hnone : g.store? with _ | e
    · refine ⟨g, Work.orStore_passed (Work.execute_error hg) hnone _, ?_⟩
      simp [Failure.Stray, hnone]
    · obtain rfl := Failure.eq_store hnone
      refine ⟨_, Work.orStore_refused (Work.execute_error hg) _, ?_⟩
      simp [Failure.Stray, hnone, Failure.family?]
  rcases hf : Handle.faultAt s.handle.plan .execute s.handle.counts.execute with _ | g
  · have hstruck : struck = none := hf
    rw [hf] at he
    rcases hu : Statement.unprepared? ts l.table givenNames with _ | e
    · rw [hu] at he
      obtain ⟨f', hrun, hwhy⟩ := hpasses he
      exact ⟨f', hrun, by simpa [hstruck, StrayFault] using hwhy⟩
    · rw [hu] at he
      obtain ⟨f', hrun, hwhy⟩ := hpasses he
      refine ⟨f', hrun, ?_⟩
      rw [← hwhy]
      simp [hstruck, StrayFault, Failure.Stray, Failure.store?]
  · have hstruck : struck = some g := hf
    rw [hf] at he
    obtain ⟨f', hrun, hwhy⟩ := hpasses he
    exact ⟨f', hrun, by simpa [hstruck, StrayFault] using hwhy⟩

end Ledger

namespace Job

variable {l : Ledger} {m : Migration}

/-- Once it has a time to give, the ledger's part is to record the migration. -/
theorem applying_keep (l : Ledger) (m : Migration) {s : Session} {a : String}
    (ha : Calendar.timestamp? s.clock.current = some a) (t : Ticket) :
    (applying l m).keep t s = m.record l t a { s with clock := s.clock.next } :=
  Work.bind_ok (Work.timestamp_ok ha) _

theorem applying_sturdy (l : Ledger) (m : Migration) :
    (applying l m).Sturdy fun clock fault ts =>
      Calendar.timestamp? clock.current = none ∨ StrayFault fault ∨
        fault = none ∧ l.Unbound m.description ts := by
  intro s h₀ t ts i
  rcases ha : Calendar.timestamp? s.clock.current with _ | a
  · refine ⟨ts, s.handle, s.clock.next, i, s.clock.before_next, .inr ⟨.noSuchDate, ?_, ?_⟩⟩
    · refine Work.bind_error ?_ _
      unfold Work.timestamp
      rw [Work.bind_ok (Work.now_ok s), ha]
      rfl
    · simp [ha, Failure.family?]
  · have i' : h₀.Inside t ts { s with clock := s.clock.next }.handle := i
    rw [applying_keep l m ha t]
    unfold Migration.record
    rcases hd : Migration.describe m.description with f | d
    · obtain ⟨f', hrun, hwhy⟩ := Ledger.insertUnbound_struck (l := l) i' m.version f
      refine ⟨ts, _, s.clock.next, i.inWork ts _, s.clock.before_next, .inr ⟨f', hrun, ?_⟩⟩
      rw [← hwhy]
      simp [ha, Ledger.Unbound, hd]
    · rcases Ledger.send_struck i' (l.entry m.version d a) (.cannotRecord m.version) with
        ⟨k, us, hw, hrun, hfault⟩ | ⟨f, hw, hwhy⟩
      · refine ⟨us, _, s.clock.next, i.inWork us _, s.clock.before_next,
          .inl ⟨Work.bind_ok hw _, ?_, ?_⟩⟩
        · simp only [applying, Ledger.recorded?, ha, hd, hrun]
        · rw [show Handle.faultAt s.handle.plan .execute s.handle.counts.execute = none from hfault]
          simp [ha, StrayFault, Ledger.Unbound, hd]
      · refine ⟨ts, _, s.clock.next, i.inWork ts _, s.clock.before_next,
          .inr ⟨f, Work.bind_error hw _, ?_⟩⟩
        simpa [ha, Ledger.Unbound, hd] using hwhy

theorem reverting_sturdy (l : Ledger) (m : Migration) :
    (reverting l m).Sturdy fun _ fault _ => StrayFault fault := by
  intro s h₀ t ts i fault
  have hkeep : (reverting l m).keep t s = l.delete t m.version s := rfl
  rw [hkeep]
  unfold Ledger.delete
  rcases Ledger.send_struck i (l.removal m.version) (.cannotRemove m.version) with
    ⟨k, us, hw, hrun, hfault⟩ | ⟨f, hw, hwhy⟩
  · have hno : ¬ StrayFault fault := by
      rw [show fault = none from hfault]
      simp [StrayFault]
    refine ⟨us, _, s.clock, i.inWork us (s.handle.counts.execute + 1), .refl _, ?_⟩
    by_cases hk : k = 0
    · refine .inr ⟨.ledger (.vanished m.version), ?_, by simp [hno, Failure.family?]⟩
      exact (Work.bind_ok hw _).trans (by rw [if_pos hk]; rfl)
    · refine .inl ⟨?_, ?_, hno⟩
      · exact (Work.bind_ok hw _).trans (by rw [if_neg hk]; rfl)
      · simp only [reverting, Ledger.removed?, hrun, if_neg hk]
  · exact ⟨ts, _, s.clock, i.inWork ts _, .refl _, .inr ⟨f, Work.bind_error hw _, hwhy⟩⟩

/-! ## The fate of an operation -/

/-- The routine of an operation from `s` is broken off, or it succeeds and the ledger's part
then goes astray. -/
def GoesAstray (j : Job) (strays : Readings → Option Failure → Tables → Prop) (s : Session) : Prop :=
  (j.effect s).Interrupted ∨
    (j.effect s).result = .ok () ∧
      strays s.clock (Handle.faultAt s.handle.plan .execute (j.effect s).sent) (j.effect s).tables

/-- What becomes of the transaction of an operation from `s`, once it is opened. -/
inductive Fate (j : Job) (strays : Readings → Option Failure → Tables → Prop) (s : Session) :
    EStateM.Result Failure Session Unit → Prop
  /-- Everything was committed. -/
  | kept {us : Tables} {s' : Session} :
      (j.effect s).result = .ok () → j.part s.clock (j.effect s).tables = some us →
      ¬ j.GoesAstray strays s → s.Leaves us s' → Fate j strays s (.ok () s')
  /-- It was given up. -/
  | undone {f : Failure} {s' : Session} :
      ¬ j.GoesAstray strays s → s.Leaves s.store s' → Fate j strays s (.error f s')
  /-- It is still open. -/
  | adrift {f : Failure} {s' : Session} {t : Ticket} {us : Tables} :
      j.GoesAstray strays s → s.handle.Inside t us s'.handle → Fate j strays s (.error f s')

/-- An operation that cannot open its transaction fails, and calls nothing. -/
theorem run_barred (j : Job) {s : Session} (hn : ¬ s.handle.Opens) :
    ∃ f s', j.run s = .error f s' ∧ s.handle.Barred s'.handle ∧ s'.calls = s.calls := by
  obtain ⟨f, h', hbegin, hbar⟩ := Handle.begin_barred hn
  have herr : Work.begin s = .error f { s with handle := h' } := Work.onHandle_error hbegin
  unfold run
  rcases hf : f.store? with _ | e
  · have hopen : Migration.openFor j.version s = .error f { s with handle := h' } :=
      Work.orStore_passed herr hf _
    rw [Work.bind_error hopen]
    exact ⟨_, _, rfl, hbar, rfl⟩
  · obtain rfl := Failure.eq_store hf
    have hopen : Migration.openFor j.version s = _ := Work.orStore_refused herr _
    rw [Work.bind_error hopen]
    exact ⟨_, _, rfl, hbar, rfl⟩

variable {strays : Readings → Option Failure → Tables → Prop}

/-- The end of an operation whose routine and whose ledger's part are done. -/
theorem commitFor_fate {h₀ : Handle} {t : Ticket} {us : Tables} {s : Session}
    (i : h₀.Inside t us s.handle) (v : String) :
    (∃ s', Migration.commitFor v t s = .ok () s' ∧ h₀.Settled us s'.handle ∧
        s'.clock = s.clock ∧ s'.calls = s.calls) ∨
      ∃ f s', Migration.commitFor v t s = .error f s' ∧ h₀.Settled h₀.connection.base s'.handle ∧
        s'.clock = s.clock ∧ s'.calls = s.calls := by
  rcases Handle.commit_inside i with ⟨h', hdone, hset⟩ | ⟨f, h', hfail, hset⟩
  · have hok : Work.commit t s = .ok () { s with handle := h' } := Work.onHandle_ok hdone
    exact .inl ⟨_, Work.orStore_ok hok _, hset, rfl, rfl⟩
  · have herr : Work.commit t s = .error f { s with handle := h' } := Work.onHandle_error hfail
    rcases hf : f.store? with _ | e
    · exact .inr ⟨f, _, Work.orStore_passed herr hf _, hset, rfl, rfl⟩
    · obtain rfl := Failure.eq_store hf
      exact .inr ⟨_, _, Work.orStore_refused herr _, hset, rfl, rfl⟩

/-- A routine that fails in its transaction has the transaction given up. -/
theorem runRoutine_fate {m : Migration} {r : Routine} (ho : r.LeavesOpen) {s : Session}
    {h₀ : Handle} {t : Ticket} {ts : Tables} (i : h₀.Inside t ts s.handle) {e : Effect}
    (he : r.effect (Handle.faultAt s.handle.plan .execute) s.handle.counts.execute ts = e)
    {f : Failure} (hres : e.result = .error f) (hf : f.isInterrupt = false) (op : Operation)
    (step : MigrationStep) :
    ∃ f' s', m.runRoutine op step t r s = .error f' s' ∧
      h₀.Settled h₀.connection.base s'.handle ∧ s'.clock = s.clock ∧
      s'.calls = s.calls ++ [⟨op, m.version, m.form⟩] := by
  have i' : h₀.Inside t ts
    { s with calls := s.calls ++ [⟨op, m.version, m.form⟩] : Session }.handle := i
  have hrun := Routine.run_inside ho i'
  rw [he] at hrun
  unfold Session.outcomeOf at hrun
  rw [hres] at hrun
  unfold Migration.runRoutine
  rw [Work.bind_ok (Work.noteCall_ok ..), Work.bind_ok (Work.rescue_error hrun hf)]
  exact Work.giveUp_raises (s := Session.inWork _ e) (Handle.rollback_inside (i'.inWork _ _))
    (Migration.rollbackRefused m.version) (Work.says_reportOf f _) _

/-- A failure of the ledger's part has the transaction given up if it is one of the ledger,
and is raised with the transaction open if not. -/
theorem keepLedger_fate {w : Work Unit} {s s₁ : Session} {f : Failure} (hw : w s = .error f s₁)
    {h₀ : Handle} {t : Ticket} {us : Tables} (i : h₀.Inside t us s₁.handle) (v : String)
    (step : MigrationStep) :
    ∃ f' s', Migration.keepLedger v step t w s = .error f' s' ∧ s'.clock = s₁.clock ∧
      s'.calls = s₁.calls ∧
      ((f.family? = some .ledger ∧ h₀.Settled h₀.connection.base s'.handle) ∨
        (f.family? ≠ some .ledger ∧ h₀.Inside t us s'.handle)) := by
  unfold Migration.keepLedger
  rw [Work.bind_ok (Work.attempt_error hw)]
  by_cases hf : f.family? = some .ledger
  · obtain ⟨f', s', hraise, hset, hclock, hcalls⟩ := Work.giveUp_raises (α := Unit)
      (Handle.rollback_inside i) (Migration.rollbackRefused v)
      (Work.says_report (.migrationFailed v step f)) f
    refine ⟨f', s', ?_, hclock, hcalls, .inl ⟨hf, hset⟩⟩
    simp only [if_pos hf]
    exact hraise
  · refine ⟨f, s₁, ?_, rfl, rfl, .inr ⟨hf, i⟩⟩
    simp only [if_neg hf]
    rfl

/-- What becomes of an operation whose routine has succeeded. -/
theorem fate_after_routine {j : Job} (hj : j.Sturdy strays) {s s₁ : Session} {t : Ticket}
    (hres : (j.effect s).result = .ok ()) {r : EStateM.Result Failure Session Unit}
    (hr : (Migration.keepLedger j.version j.mark t (j.keep t) >>= fun _ =>
      Migration.commitFor j.version t) s₁ = r)
    (i : s.handle.Inside t (j.effect s).tables s₁.handle)
    (hsent : s₁.handle.counts.execute = (j.effect s).sent) (hclock : s₁.clock = s.clock) :
    j.Fate strays s r ∧ (Session.after r).calls = s₁.calls := by
  subst hr
  obtain ⟨us, h', clock', i', hbefore, hkeep⟩ := hj i
  rw [i.plan, hsent, hclock] at hkeep
  rw [hclock] at hbefore
  rcases hkeep with ⟨hk, hpart, hno⟩ | ⟨f, hk, hwhy⟩
  · rw [Work.bind_ok (Migration.keepLedger_ok hk j.version j.mark t)]
    have hstrays : ¬ j.GoesAstray strays s := by
      rintro (⟨f, hf, -⟩ | ⟨-, hstrays⟩)
      · exact nomatch hf.symm.trans hres
      · exact hno hstrays
    rcases commitFor_fate (s := { s₁ with handle := h', clock := clock' }) i' j.version with
      ⟨s', hdone, hset, hc, hcalls⟩ | ⟨f, s', hfail, hset, hc, hcalls⟩
    · rw [hdone]
      exact ⟨.kept hres hpart hstrays ⟨hset, hc ▸ hbefore⟩, hcalls⟩
    · rw [hfail]
      exact ⟨.undone hstrays ⟨hset, hc ▸ hbefore⟩, hcalls⟩
  · obtain ⟨f', s', hfail, hc, hcalls, hend⟩ := keepLedger_fate hk i' j.version j.mark
    rw [Work.bind_error hfail]
    rcases hend with ⟨hf, hset⟩ | ⟨hf, hin⟩
    · refine ⟨.undone ?_ ⟨hset, hc ▸ hbefore⟩, hcalls⟩
      rintro (⟨g, hg, -⟩ | ⟨-, hstrays⟩)
      · exact nomatch hg.symm.trans hres
      · exact hwhy.mp hstrays hf
    · exact ⟨.adrift (.inr ⟨hres, hwhy.mpr hf⟩) hin, hcalls⟩

/-- Every operation that can open its transaction calls its unit, and ends as a fate does. -/
theorem run_fate {j : Job} (hj : j.Sturdy strays) {s : Session} (ho : j.routine.LeavesOpen)
    (hs : s.handle.Opens) :
    j.Fate strays s (j.run s) ∧ (Session.after (j.run s)).calls = s.calls ++ [j.call] := by
  by_cases hbroken : (j.effect s).Interrupted
  · obtain ⟨f, hres, hf⟩ := hbroken
    obtain ⟨t, s', hrun, i, hcalls, _⟩ := run_interrupted hs ho hres hf
    rw [hrun]
    exact ⟨.adrift (.inl ⟨f, hres, hf⟩) i, hcalls⟩
  obtain ⟨t, h₁, hbegin, i, hn⟩ := Handle.begin_opened hs.idle hs.allowed
  have hopen : Migration.openFor j.version s = .ok t { s with handle := h₁ } :=
    Work.orStore_ok (Work.onHandle_ok hbegin) _
  have he : j.routine.effect (Handle.faultAt h₁.plan .execute) h₁.counts.execute s.store =
      j.effect s := by
    rw [i.plan, hn]
    rfl
  unfold run
  rw [Work.bind_ok hopen]
  rcases hres : (j.effect s).result with f | _
  · have hf : f.isInterrupt = false := Bool.eq_false_iff.mpr fun hf => hbroken ⟨f, hres, hf⟩
    obtain ⟨f', s', hrun, hset, hclock, hcalls⟩ := runRoutine_fate (m := j.migration)
      (s := { s with handle := h₁ }) ho i he hres hf j.operation j.step
    rw [Work.bind_error hrun]
    refine ⟨.undone ?_ ⟨hset, hclock ▸ .refl _⟩, hcalls⟩
    rintro (hbroken' | ⟨hok, _⟩)
    · exact hbroken hbroken'
    · exact nomatch hok.symm.trans hres
  · rw [Work.bind_ok (Migration.runRoutine_ok (s := { s with handle := h₁ }) ho i he hres
      j.operation j.step)]
    exact fate_after_routine hj hres rfl (i.inWork _ _) rfl rfl

/-- From any session, under any plan and any clock: an operation returns with what its routine
and then the ledger's part made of the store, or fails and what is permanent is as it was. -/
theorem perform_store {j : Job} (hj : j.Sturdy strays) (ho : j.routine.LeavesOpen) (s : Session)
    (first : Event) (last : String → Int → Event) :
    (∃ f s', j.perform first last s = .error f s' ∧ s'.store = s.store) ∨
      ∃ us o s', j.perform first last s = .ok o s' ∧
        j.part s.clock.next (j.effect (s.begun first)).tables = some us ∧ s'.store = us := by
  by_cases hs : s.handle.Opens
  · obtain ⟨hfate, _⟩ := run_fate hj (s := s.begun first) ho hs
    generalize hrun : j.run (s.begun first) = r at hfate
    cases hfate with
    | kept _ hpart _ hleaves =>
      obtain ⟨o, hperform, _⟩ := perform_done hrun last
      exact .inr ⟨_, o, _, hperform, hpart, hleaves.store_eq⟩
    | undone _ hleaves => exact .inl ⟨_, _, perform_failed hrun last, hleaves.store_eq⟩
    | adrift _ i => exact .inl ⟨_, _, perform_failed hrun last, i.base⟩
  · obtain ⟨f, s', hrun, hbar, _⟩ := j.run_barred (s := s.begun first) hs
    exact .inl ⟨f, s', perform_failed hrun last, hbar.base⟩

end Job

end SchemaLedger
