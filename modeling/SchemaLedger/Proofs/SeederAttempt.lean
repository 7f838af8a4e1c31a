-- One attempt at a seeder, from its transaction's opening to its end. The seeder's
-- failure and a refused commit are handled alike, so an attempt stops before the
-- transaction, fails in it, or commits all that the seeder did.
import SchemaLedger.Proofs.Attempt

namespace SchemaLedger

namespace Seeder

/-- What a seeder comes to from a session, under the faults of its plan. -/
def effect (x : Seeder) (s : Session) : Effect :=
  x.run.effect (Handle.faultAt s.handle.plan .execute) s.handle.counts.execute s.store

/-- The call of the seeder's routine. -/
def call (x : Seeder) : UnitCall := ⟨.run, x.name, .coded⟩

/-- The report that a seeder's transaction could not be rolled back. -/
def rollbackRefused (x : Seeder) (e : StoreError) : Event := .seederFailed x.name .rollback (.store e)

/-- How a run of one seeder from `s` can end: what it comes to, the calls and the reports. -/
inductive Attempt (x : Seeder) (s : Session) :
    Except Failure Tables → List UnitCall → List Event → Prop
  /-- No transaction could be opened. -/
  | unopened {e : StoreError} :
      s.handle.beginRefusal? = some (.store e) →
      Attempt x s (.error (.cannotStart x.name e)) [] [.seederFailed x.name .begin (.store e)]
  /-- The routine failed and was not broken off, or what it did could not be committed. -/
  | failed {f : Failure} {reports : List Event} :
      s.handle.beginRefusal? = none →
      ((x.effect s).result = .error f ∨
        ((x.effect s).result = .ok () ∧ s.handle.planned? .commit = some f)) →
      f.isInterrupt = false → GaveUp x.rollbackRefused reports →
      Attempt x s (.error (.ofUnit x.name .run f)) [x.call]
        (reports ++ f.reported (.seederFailed x.name .run f))
  /-- Everything was committed. -/
  | done :
      s.handle.beginRefusal? = none → (x.effect s).result = .ok () →
      s.handle.planned? .commit = none →
      Attempt x s (.ok (x.effect s).tables) [x.call] []

end Seeder

namespace Seeding

variable {s s₁ : Session} {x : Seeder} {t : Ticket} {h₀ : Handle} {ts : Tables}

/-- The seeder's own part of a run: its routine, and then the commit. -/
def body (x : Seeder) (t : Ticket) : Work Unit := do
  Work.noteCall .run x.name .coded
  x.run.run t
  Work.commit t

/-- What a run does with the answer of the seeder's part. -/
def settle (x : Seeder) (t : Ticket) (start : Int) : Except Failure Unit → Work Unit
  | .error f => do
    giveUp x.name t
    Work.reportOf f (.seederFailed x.name .run f)
    throw (.ofUnit x.name .run f)
  | .ok _ => do Work.report (.seederDone x.name (Work.elapsed start (← Work.now)))

/-- The transaction of a run. -/
def openFor (x : Seeder) : Work Ticket :=
  Work.begin.orStore fun e => do
    Work.report (.seederFailed x.name .begin (.store e))
    throw (.cannotStart x.name e)

theorem runOne_eq (x : Seeder) (s : Session) :
    runOne x s =
      (openFor x >>= fun t => Work.rescue (body x t) >>= settle x t s.clock.current)
        (s.begun (.seederRunning x.name)) := by
  have h : runOne x = Work.now >>= fun start => Work.report (.seederRunning x.name) >>= fun _ =>
      openFor x >>= fun t => Work.rescue (body x t) >>= settle x t start := by
    unfold runOne
    congr
  rw [h]
  rfl

theorem openFor_opened (hr : s.Between) (hb : s.handle.beginRefusal? = none) (x : Seeder) :
    ∃ t h', openFor x s = .ok t { s with handle := h' } ∧
      s.handle.Inside t s.store h' ∧ h'.counts.execute = s.handle.counts.execute := by
  obtain ⟨t, h', hbegin, i, hn⟩ := Handle.begin_opened hr.idle hb
  exact ⟨t, h', Work.orStore_ok (Work.onHandle_ok hbegin) _, i, hn⟩

theorem openFor_refused (hr : s.Between) {e : StoreError}
    (hb : s.handle.beginRefusal? = some (.store e)) (x : Seeder) :
    ∃ s', openFor x s = .error (.cannotStart x.name e) s' ∧
      s.Reaches (.error (.cannotStart x.name e)) [] [.seederFailed x.name .begin (.store e)] s' := by
  obtain ⟨h', hbegin, hset⟩ := Handle.begin_refused hr.idle hb
  have herr : Work.begin s = .error (.store e) { s with handle := h' } :=
    Work.onHandle_error hbegin
  unfold openFor
  rw [Work.orStore_refused herr]
  exact ⟨_, rfl, ⟨hset, .refl _⟩, (List.append_nil _).symm, rfl⟩

/-- A failed seeder's transaction is given up, reported and raised. -/
theorem settle_failed (hp : Handle.StoreFaults s.handle.plan) {h' : Handle}
    (hroll : s.handle.rollback t = (s.handle.rollbackAnswer, h')) (f : Failure) (start : Int) :
    ∃ reports, GaveUp x.rollbackRefused reports ∧
      settle x t start (.error f) s =
        .error (.ofUnit x.name .run f) { s with
          handle := h',
          events := s.events ++ (reports ++ f.reported (.seederFailed x.name .run f)) } := by
  obtain ⟨reports, hg, hok⟩ := Work.giveUp_ok hp hroll x.rollbackRefused
  have hgive : giveUp x.name t s = .ok () { s with handle := h', events := s.events ++ reports } :=
    hok
  refine ⟨reports, hg, ?_⟩
  simp only [settle]
  rw [Work.bind_ok hgive, Work.bind_ok (Work.reportOf_ok ..), ← List.append_assoc]
  rfl

/-- The seeder's part, in its transaction: its failure comes up, or that of the commit, which
has given the transaction up then; or what the routine did is committed. -/
theorem body_cases (i : h₀.Inside t ts s.handle) (ho : x.run.LeavesOpen) {e : Effect}
    (he : x.run.effect (Handle.faultAt s.handle.plan .execute) s.handle.counts.execute ts = e) :
    (∃ f, e.result = .error f ∧
        body x t s = .error f { s with
          handle := s.handle.inWork e.tables e.sent, calls := s.calls ++ [x.call] }) ∨
      (∃ f h', e.result = .ok () ∧
        Handle.faultAt h₀.plan .commit h₀.counts.commit = some f ∧
        body x t s = .error f { s with handle := h', calls := s.calls ++ [x.call] } ∧
        h₀.Settled h₀.connection.base h') ∨
      ∃ h', e.result = .ok () ∧ Handle.faultAt h₀.plan .commit h₀.counts.commit = none ∧
        body x t s = .ok () { s with handle := h', calls := s.calls ++ [x.call] } ∧
        h₀.Settled e.tables h' := by
  have hrun := Routine.run_inside ho (s := { s with calls := s.calls ++ [x.call] }) i
  rw [he] at hrun
  unfold Session.outcomeOf Session.inWork at hrun
  have i' := i.inWork e.tables e.sent
  have hc : (s.handle.inWork e.tables e.sent).planned? .commit =
      Handle.faultAt h₀.plan .commit h₀.counts.commit := by
    unfold Handle.planned? CallCounts.get
    rw [i'.plan, i'.commits]
    rfl
  have hbody : body x t s = (x.run.run t >>= fun _ => Work.commit t)
      { s with calls := s.calls ++ [x.call] } := rfl
  rw [hbody]
  rcases hres : e.result with f | _
  · rw [hres] at hrun
    exact .inl ⟨f, rfl, Work.bind_error hrun _⟩
  · rw [hres] at hrun
    rw [Work.bind_ok hrun]
    rcases hcommit : Handle.faultAt h₀.plan .commit h₀.counts.commit with _ | f
    · obtain ⟨h', hdone, hset⟩ := Handle.commit_done i' (hc.trans hcommit)
      exact .inr (.inr ⟨h', rfl, rfl, Work.onHandle_ok hdone, hset⟩)
    · obtain ⟨h', hfail, hset⟩ := Handle.commit_refused i' (hc.trans hcommit)
      exact .inr (.inl ⟨f, h', rfl, rfl, Work.onHandle_error hfail, hset⟩)

/-- A seeder whose routine is broken off ends what is going on, with its transaction open. -/
theorem runOne_interrupted {s : Session} (hs : s.handle.Opens) {x : Seeder} (ho : x.run.LeavesOpen)
    {f : Failure} (hres : (x.effect s).result = .error f) (hf : f.isInterrupt = true) :
    ∃ t s', runOne x s = .error f s' ∧ s.handle.Inside t (x.effect s).tables s'.handle ∧
      s'.calls = s.calls ++ [x.call] ∧ s'.events = s.events ++ [.seederRunning x.name] := by
  obtain ⟨t, h₁, hbegin, i, hn⟩ := Handle.begin_opened hs.idle hs.allowed
  have hopen : openFor x (s.begun (.seederRunning x.name)) =
      .ok t { s.begun (.seederRunning x.name) with handle := h₁ } :=
    Work.orStore_ok (Work.onHandle_ok (s := s.begun (.seederRunning x.name)) hbegin) _
  have he : x.run.effect (Handle.faultAt h₁.plan .execute) h₁.counts.execute s.store =
      x.effect s := by
    rw [i.plan, hn]
    rfl
  rw [runOne_eq, Work.bind_ok hopen]
  rcases body_cases (s := { s.begun (.seederRunning x.name) with handle := h₁ }) i ho he with
    ⟨g, hfails, hbody⟩ | ⟨_, _, hok, _⟩ | ⟨_, hok, _⟩
  · obtain rfl : f = g := Except.error.inj (hres.symm.trans hfails)
    rw [Work.bind_error (Work.rescue_interrupt hbody hf)]
    exact ⟨t, _, rfl, i.inWork _ _, rfl, rfl⟩
  · exact nomatch hres.symm.trans hok
  · exact nomatch hres.symm.trans hok

/-- The seeder's part is not broken off: a failure of it is handled. -/
theorem settle_cases (i : h₀.Inside t ts s.handle) (hp : Handle.StoreFaults h₀.plan)
    (ho : x.run.LeavesOpen) {e : Effect}
    (he : x.run.effect (Handle.faultAt s.handle.plan .execute) s.handle.counts.execute ts = e)
    (hn : ¬ e.Interrupted) (start : Int) :
    (∃ f reports h', (e.result = .error f ∨ (e.result = .ok () ∧
          Handle.faultAt h₀.plan .commit h₀.counts.commit = some f)) ∧ f.isInterrupt = false ∧
        GaveUp x.rollbackRefused reports ∧ h₀.Settled h₀.connection.base h' ∧
        (Work.rescue (body x t) >>= settle x t start) s =
          .error (.ofUnit x.name .run f) { s with
            handle := h', calls := s.calls ++ [x.call],
            events := s.events ++ (reports ++ f.reported (.seederFailed x.name .run f)) }) ∨
      ∃ h', e.result = .ok () ∧ Handle.faultAt h₀.plan .commit h₀.counts.commit = none ∧
        h₀.Settled e.tables h' ∧
        (Work.rescue (body x t) >>= settle x t start) s =
          settle x t start (.ok ()) { s with handle := h', calls := s.calls ++ [x.call] } := by
  -- what a failure of the seeder's part comes to, once the transaction can be given up
  have fails {f : Failure} {h₁ : Handle} (hint : f.isInterrupt = false)
      (hbody : body x t s = .error f { s with handle := h₁, calls := s.calls ++ [x.call] })
      (hplan : h₁.plan = h₀.plan)
      (hroll : ∃ h', h₁.rollback t = (h₁.rollbackAnswer, h') ∧
        h₀.Settled h₀.connection.base h') :
      ∃ reports h', GaveUp x.rollbackRefused reports ∧ h₀.Settled h₀.connection.base h' ∧
        (Work.rescue (body x t) >>= settle x t start) s =
          .error (.ofUnit x.name .run f) { s with
            handle := h', calls := s.calls ++ [x.call],
            events := s.events ++ (reports ++ f.reported (.seederFailed x.name .run f)) } := by
    obtain ⟨h', hrolled, hset⟩ := hroll
    obtain ⟨reports, hg, hfail⟩ := settle_failed (x := x)
      (s := { s with handle := h₁, calls := s.calls ++ [x.call] }) (hplan ▸ hp) hrolled f start
    rw [Work.bind_ok (Work.rescue_error hbody hint)]
    exact ⟨reports, h', hg, hset, hfail⟩
  rcases body_cases i ho he with
    ⟨f, hres, hbody⟩ | ⟨f, h₁, hres, hcommit, hbody, hset⟩ | ⟨h', hres, hcommit, hbody, hset⟩
  · have hint : f.isInterrupt = false := Bool.eq_false_iff.mpr fun hf => hn ⟨f, hres, hf⟩
    have i' := i.inWork e.tables e.sent
    obtain ⟨reports, h', hg, hset, hrun⟩ := fails hint hbody i'.plan (Handle.rollback_inside i')
    exact .inl ⟨f, reports, h', .inl hres, hint, hg, hset, hrun⟩
  · obtain ⟨e', rfl⟩ := hp.of_faultAt hcommit
    obtain ⟨reports, h', hg, hset', hrun⟩ :=
      fails rfl hbody hset.plan (Handle.rollback_settled hset t)
    exact .inl ⟨_, reports, h', .inr ⟨hres, hcommit⟩, rfl, hg, hset', hrun⟩
  · exact .inr ⟨h', hres, hcommit, hset, Work.bind_ok (Work.rescue_ok hbody) _⟩

/-- Unless its routine is started and broken off, a run of one seeder raises the failure of an
attempt and leaves the store as it was, or returns after an attempt that got to the end. -/
theorem runOne_cases {s : Session} (hr : s.Between) {x : Seeder} (ho : x.run.LeavesOpen)
    (hn : s.handle.beginRefusal? = none → ¬ (x.effect s).Interrupted) :
    (∃ f calls events s',
        x.Attempt (s.begun (.seederRunning x.name)) (.error f) calls events ∧
        runOne x s = .error f s' ∧
        s.Reaches (.error f) calls (.seederRunning x.name :: events) s') ∨
      ∃ ms s', x.Attempt (s.begun (.seederRunning x.name)) (.ok (x.effect s).tables) [x.call] [] ∧
        runOne x s = .ok () s' ∧
        s.Reaches (.ok (x.effect s).tables) [x.call]
          [.seederRunning x.name, .seederDone x.name ms] s' := by
  rw [runOne_eq]
  have hr₁ := hr.begun (.seederRunning x.name)
  rcases hb : s.handle.beginRefusal? with _ | f
  · obtain ⟨t, h₁, hopen, i, hcount⟩ := openFor_opened hr₁ hb x
    rw [Work.bind_ok hopen]
    have he : x.run.effect (Handle.faultAt h₁.plan .execute) h₁.counts.execute s.store =
        x.effect s := by
      rw [i.plan, hcount]
      rfl
    rcases settle_cases (s := { s.begun (.seederRunning x.name) with handle := h₁ }) i hr.faults ho
        he (hn hb) s.clock.current with
      ⟨f, reports, h', hwhy, hint, hg, hset, hfail⟩ | ⟨h', hres, hcommit, hset, hdone⟩
    · rw [hfail]
      refine .inl ⟨_, _, _, _, .failed hb hwhy hint hg, rfl, ⟨hset, s.clock.before_next⟩, rfl, ?_⟩
      exact List.append_assoc s.events [_] _
    · rw [hdone]
      refine .inr ⟨Work.elapsed s.clock.current s.clock.next.current, _, .done hb hres hcommit, rfl,
        ⟨hset, s.clock.before_next.trans (Readings.before_next _)⟩, rfl, ?_⟩
      exact List.append_assoc s.events [_] _
  · obtain ⟨e, rfl⟩ := hr.faults.of_beginRefusal? hb
    obtain ⟨s', hopen, hreach⟩ := openFor_refused hr₁ hb x
    rw [Work.bind_error hopen]
    refine .inl ⟨_, _, _, s', .unopened hb, rfl, ⟨hreach.leaves.settled,
      s.clock.before_next.trans hreach.leaves.clock⟩,
      hreach.calls, ?_⟩
    rw [hreach.events]
    exact List.append_assoc s.events [_] _

end Seeding
end SchemaLedger
