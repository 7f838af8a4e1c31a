-- What all work of the engine keeps, and what it may raise. If the calls on the handle
-- keep a property of the session, and what they raise is taken up, then so does every
-- operation that is made of them.
import SchemaLedger.Migration.Status
import SchemaLedger.Proofs.Attempt
import SchemaLedger.Proofs.Pending
import SchemaLedger.Seeding.Run

namespace SchemaLedger

/-! ## Work that obeys -/

namespace Work

variable {α β : Type} {P : Session → Prop} {Q R : Failure → Prop} {w : Work α} {s s' : Session}
  {a : α} {f : Failure}

/-- Some work keeps `P`, whether it returns or fails, and what it raises is among `Q`. -/
def Obeys (P : Session → Prop) (Q : Failure → Prop) (w : Work α) : Prop :=
  ∀ s, P s → P (Session.after (w s)) ∧ ∀ f s', w s = .error f s' → Q f

theorem Obeys.ok (hw : Obeys P Q w) (hs : P s) (h : w s = .ok a s') : P s' := by
  have hkept := (hw s hs).1
  rw [h] at hkept
  exact hkept

theorem Obeys.error (hw : Obeys P Q w) (hs : P s) (h : w s = .error f s') : P s' ∧ Q f := by
  obtain ⟨hkept, hraised⟩ := hw s hs
  rw [h] at hkept
  exact ⟨hkept, hraised f s' h⟩

theorem Obeys.mono (hw : Obeys P R w) (h : ∀ f, R f → Q f) : Obeys P Q w :=
  fun s hs => ⟨(hw s hs).1, fun f s' he => h f ((hw s hs).2 f s' he)⟩

theorem obeys_pure (a : α) : Obeys P Q (pure a : Work α) := fun _ hs => ⟨hs, fun _ _ h => nomatch h⟩

theorem obeys_throw (h : Q f) : Obeys P Q (throw f : Work α) := by
  refine fun s hs => ⟨hs, fun f' s' he => ?_⟩
  cases he
  exact h

/-- What follows some work has to obey after the results that the work can give. -/
theorem Obeys.bind_of (hw : Obeys P Q w) {k : α → Work β}
    (hk : ∀ s a s', w s = .ok a s' → Obeys P Q (k a)) : Obeys P Q (w >>= k) := by
  intro s hs
  rcases h : w s with ⟨a, s₁⟩ | ⟨f, s₁⟩
  · rw [bind_ok h]
    exact hk s a s₁ h s₁ (hw.ok hs h)
  · rw [bind_error h]
    obtain ⟨hkept, hraised⟩ := hw.error hs h
    refine ⟨hkept, fun f' s' he => ?_⟩
    cases he
    exact hraised

theorem Obeys.bind (hw : Obeys P Q w) {k : α → Work β} (hk : ∀ a, Obeys P Q (k a)) :
    Obeys P Q (w >>= k) :=
  hw.bind_of fun _ a _ _ => hk a

/-- The answer of attempted work is a result, or a failure that the work may raise. -/
theorem Obeys.answer (hw : Obeys P R w) {k : Except Failure α → Work β}
    (hok : ∀ a, Obeys P Q (k (.ok a))) (herror : ∀ f, R f → Obeys P Q (k (.error f))) :
    Obeys P Q (attempt w >>= k) := by
  intro s hs
  rcases h : w s with ⟨a, s₁⟩ | ⟨f, s₁⟩
  · rw [bind_ok (attempt_ok h)]
    exact hok a s₁ (hw.ok hs h)
  · rw [bind_ok (attempt_error h)]
    obtain ⟨hkept, hraised⟩ := hw.error hs h
    exact herror f hraised s₁ hkept

/-- The answer of work that is rescued is a result or a failure that the work may raise, and no
request to stop, which passes. -/
theorem Obeys.rescued (hw : Obeys P R w) (hpasses : ∀ f, R f → f.isInterrupt = true → Q f)
    {k : Except Failure α → Work β} (hok : ∀ a, Obeys P Q (k (.ok a)))
    (herror : ∀ f, R f → f.isInterrupt = false → Obeys P Q (k (.error f))) :
    Obeys P Q (rescue w >>= k) := by
  intro s hs
  rcases h : w s with ⟨a, s₁⟩ | ⟨f, s₁⟩
  · rw [bind_ok (rescue_ok h)]
    exact hok a s₁ (hw.ok hs h)
  · obtain ⟨hkept, hraised⟩ := hw.error hs h
    rcases hf : f.isInterrupt with _ | _
    · rw [bind_ok (rescue_error h hf)]
      exact herror f hraised hf s₁ hkept
    · rw [bind_error (rescue_interrupt h hf)]
      refine ⟨hkept, fun f' s' he => ?_⟩
      cases he
      exact hpasses f hraised hf

theorem Obeys.orStore (hw : Obeys P R w) (hpasses : ∀ f, R f → f.store? = none → Q f)
    {k : StoreError → Work α} (hk : ∀ e, Obeys P Q (k e)) : Obeys P Q (w.orStore k) := by
  intro s hs
  rcases h : w s with ⟨a, s₁⟩ | ⟨f, s₁⟩
  · rw [orStore_ok h]
    exact ⟨hw.ok hs h, fun _ _ he => nomatch he⟩
  · obtain ⟨hkept, hraised⟩ := hw.error hs h
    cases f with
    | store e =>
      rw [orStore_refused h]
      exact hk e s₁ hkept
    | _ =>
      simp only [Work.orStore, h]
      refine ⟨hkept, fun f' s' he => ?_⟩
      cases he
      exact hpasses _ hraised rfl

end Work

/-! ## Asking the ledger first -/

namespace Ledger

variable {α : Type}

/-- Makes sure of the ledger, reads its rows and goes on with them. -/
def asking (l : Ledger) (order : Order) (limit : Option Int) (k : List LedgerRow → Work α) :
    Work α := do
  l.ensure
  let rows ← l.read order limit
  k rows

end Ledger

namespace Migrator

/-- What a run does with the rows of the ledger. -/
def runOn (m : Migrator) (rows : List LedgerRow) : Work (List Outcome) := do
  let todo := m.pendingIn rows
  if todo.isEmpty then
    Work.report .nothingPending
    return []
  else
    Work.report (.running todo.length)
    let done ← applyAll m.ledger todo
    Work.report (.allApplied done.length)
    return done

/-- What a rollback does with the rows that it has read. -/
def rollBackOn (m : Migrator) (count : RollbackCount) (rows : List LedgerRow) :
    Work (List Outcome) := do
  if rows.isEmpty then
    Work.report .nothingToRevert
    return []
  else
    match count with
    | .exactly n => if rows.length < n then Work.report (.fewerThanAsked rows.length n)
    | .all => pure ()
    let done ← m.revertAll rows
    Work.report (.allReverted done.length)
    return done

/-- What a status says of the rows of the ledger. -/
def statusOn (m : Migrator) (rows : List LedgerRow) : Work Status := do
  let s := Status.of m.catalog rows
  s.events.forM Work.report
  return s

theorem applied_eq (m : Migrator) : m.applied = m.ledger.asking .oldestFirst none pure := by
  unfold applied Ledger.asking
  simp only [bind_pure]
  rfl

theorem applied_bind {α : Type} (m : Migrator) (k : List LedgerRow → Work α) :
    m.applied >>= k = m.ledger.asking .oldestFirst none k := by
  unfold applied Ledger.asking
  rw [bind_assoc]
  rfl

theorem pending_eq (m : Migrator) :
    m.pending = m.ledger.asking .oldestFirst none fun rows => pure (m.pendingIn rows) :=
  m.applied_bind _

theorem isApplied_eq (m : Migrator) (version : String) :
    m.isApplied version =
      m.ledger.asking .oldestFirst none fun rows => pure (rows.any (·.version == version)) :=
  m.applied_bind _

theorem run_eq (m : Migrator) : m.run = m.ledger.asking .oldestFirst none m.runOn := by
  unfold run pending
  rw [bind_assoc, ← applied_bind]
  rfl

theorem rollBack_eq (m : Migrator) (count : RollbackCount) :
    m.rollBack count = m.ledger.asking .newestFirst count.limit? (m.rollBackOn count) := rfl

theorem rollBackValue_ok {m : Migrator} {value : Value} {count : RollbackCount}
    (h : RollbackCount.ofValue value = .ok count) : m.rollBackValue value = m.rollBack count := by
  unfold rollBackValue
  rw [h]

theorem status_eq (m : Migrator) : m.status = m.ledger.asking .oldestFirst none m.statusOn :=
  m.applied_bind _

end Migrator

/-! ## The discipline -/

open Work

/-- The calls on the handle keep `P` and raise failures among `R`; the store's errors are
among them, and all others of them are among `Q`, as are the engine's own failures. -/
structure Discipline (P : Session → Prop) (R Q : Failure → Prop) : Prop where
  begin : Obeys P R begin
  execute {α : Type} (t : Ticket) (step : Tables → Except Failure (α × Tables))
    {S : Failure → Prop} :
    (∀ f, R f → S f) → (∀ ts f, step ts = .error f → S f) → Obeys P S (execute t step)
  commit (t : Ticket) : Obeys P R (commit t)
  rollback (t : Ticket) : Obeys P R (rollback t)
  now : Obeys P Q now
  report (e : Event) : Obeys P Q (report e)
  noteCall (o : Operation) (u : String) (form : Form) : Obeys P Q (noteCall o u form)
  store (e : StoreError) : R (.store e)
  passes (f : Failure) : R f → f.store? = none → Q f
  engine (f : Failure) : f.isEngine = true → Q f
  /-- Asking a failure without a text for one raises what is among `Q`. -/
  untold (kind message : String) : R (.untold kind message) → Q (.raised kind message)
  /-- Where `P` holds and the clock shows no date, saying so is among `Q`. -/
  undated (s : Session) : P s → Calendar.timestamp? s.clock.current = none → Q .noSuchDate

namespace Discipline

variable {P : Session → Prop} {R Q : Failure → Prop} (d : Discipline P R Q)
include d

theorem step_raises {st : Statement} {ts : Tables} {f : Failure}
    (h : (st.run ts).mapError Failure.store = .error f) : R f := by
  rcases hr : st.run ts with e | x
  · rw [hr] at h
    cases h
    exact d.store e
  · rw [hr] at h
    cases h

theorem send (t : Ticket) (st : Statement) : Obeys P R (Ledger.send t st) :=
  d.execute t _ (fun _ h => h) fun _ _ h => d.step_raises h

/-- A routine only reaches the store through calls, and is answered with what they raise. -/
theorem routine (t : Ticket) (r : Routine) : Obeys P (r.Raises R) (r.run t) := by
  induction r with
  | done => exact obeys_pure ()
  | fail f => exact obeys_throw (.fail f)
  | send c next ih =>
    refine (d.execute t _ (fun _ h => h) ?_).answer
      (fun ts => (ih (.ok ts)).mono fun f => .send (.ok ts) (by simp))
      fun g hg => (ih (.error g)).mono fun f => .send (.error g) (by simpa using hg)
    intro ts f h
    rcases hr : c.run ts with g | us
    · rw [hr] at h
      obtain ⟨e, rfl⟩ := Command.eq_store_of_run hr
      obtain rfl : .store e = f := Except.error.inj h
      exact d.store e
    · rw [hr] at h
      cases h
  | commit next ih =>
    exact (d.commit t).answer (fun u => (ih (.ok u)).mono fun f => .commit (.ok u) (by simp))
      fun g hg => (ih (.error g)).mono fun f => .commit (.error g) (by simpa using hg)
  | rollback next ih =>
    exact (d.rollback t).answer (fun u => (ih (.ok u)).mono fun f => .rollback (.ok u) (by simp))
      fun g hg => (ih (.error g)).mono fun f => .rollback (.error g) (by simpa using hg)

theorem reportOf (f : Failure) (e : Event) : Obeys P Q (Work.reportOf f e) := by
  unfold Work.reportOf
  split
  · exact d.report e
  · exact obeys_pure ()

/-- What is raised about a unit that failed is a failure of the engine, or the one that is
raised for the want of a text. -/
theorem throw_ofUnit {α : Type} {unit : String} {o : Operation} {f : Failure}
    (huntold : ∀ kind message, f = .untold kind message → Q (.raised kind message)) :
    Obeys P Q (throw (.ofUnit unit o f) : Work α) := by
  refine obeys_throw ?_
  cases f with
  | untold kind message => exact huntold kind message rfl
  | _ => exact d.engine _ rfl

/-- Giving up a transaction raises no error of the store. -/
theorem giveUp (t : Ticket) (refused : StoreError → Event) :
    Obeys P Q ((Work.rollback t).orStore fun e => Work.report (refused e)) :=
  (d.rollback t).orStore d.passes fun _ => d.report _

/-! ## The ledger -/

theorem openOwn : Obeys P Q Ledger.openOwn :=
  d.begin.orStore d.passes fun _ => obeys_throw (d.engine _ rfl)

/-- Making sure of the table raises what is among `Q`, or what its rollback raises. -/
theorem ensure (l : Ledger) : Obeys P (fun f => R f ∨ Q f) l.ensure := by
  unfold Ledger.ensure
  refine (d.openOwn.mono fun _ => .inr).bind fun t => Obeys.bind ?_ fun _ =>
    (d.report _).mono fun _ => .inr
  refine (((d.send t _).bind fun _ => d.commit t).orStore ?_ fun e => ?_)
  · exact fun f hf _ => .inl hf
  · exact ((d.rollback t).mono fun _ => .inl).bind fun _ => obeys_throw (.inr (d.engine _ rfl))

theorem query_raises {l : Ledger} {order : Ledger.Order} {limit : Option Int}
    (hlimit : limit.all Ledger.fits = true ∨ R .limitTooLarge) {ts : Tables} {f : Failure}
    (h : l.query order limit ts = .error f) : R f := by
  unfold Ledger.query at h
  rcases hr : l.rowsIn ts with e | rows
  · rw [hr] at h
    cases h
    exact d.store e
  · rw [hr] at h
    dsimp only at h
    split at h
    · cases h
    · rename_i hlarge
      cases h
      exact hlimit.resolve_left hlarge

theorem read (l : Ledger) (order : Ledger.Order) {limit : Option Int}
    (hlimit : limit.all Ledger.fits = true ∨ R .limitTooLarge) :
    Obeys P (fun f => R f ∨ Q f) (l.read order limit) := by
  unfold Ledger.read
  refine (d.openOwn.mono fun _ => .inr).bind fun t => ?_
  have hquery :=
    d.execute t (l.query order limit) (fun _ h => h) fun _ _ h => d.query_raises hlimit h
  have hroll : Obeys P (fun f => R f ∨ Q f) (Work.rollback t) := (d.rollback t).mono fun _ => .inl
  refine hquery.answer (fun rows => hroll.bind fun _ => obeys_pure rows) fun f hf =>
    hroll.bind fun _ => ?_
  cases f with
  | store e => exact obeys_throw (.inr (d.engine _ rfl))
  | _ => exact obeys_throw (.inl hf)

/-! ## One migration -/

theorem insertUnbound (l : Ledger) (t : Ticket) (v : String) {f : Failure}
    (hf : f.store? = none → Q f) : Obeys P Q (l.insertUnbound t v f) := by
  have hexecute : Obeys P (fun g => R g ∨ g = f) (Work.execute (α := Unit) t fun ts =>
      .error (((Statement.unprepared? ts l.table Ledger.givenNames).map .store).getD f)) := by
    refine d.execute t _ (fun _ => .inl) fun ts g h => ?_
    obtain rfl := Except.error.inj h
    rcases Statement.unprepared? ts l.table Ledger.givenNames with _ | e
    · exact .inr rfl
    · exact .inl (d.store e)
  refine hexecute.orStore ?_ fun e => obeys_throw (d.engine _ rfl)
  rintro g (hg | rfl) hnone
  · exact d.passes g hg hnone
  · exact hf hnone

theorem recording (l : Ledger) (v : String) {c : Except Failure Cell}
    (hc : ∀ f, c = .error f → f.store? = none → Q f) (t : Ticket) :
    Obeys P Q (l.recording v c t) := by
  have hstamp : Obeys P Q timestamp := by
    intro s hs
    have hnow := d.now.ok hs (now_ok s)
    unfold timestamp
    rw [bind_ok (now_ok s)]
    rcases ha : Calendar.timestamp? s.clock.current with _ | a
    · exact obeys_throw (d.undated s hs ha) _ hnow
    · exact obeys_pure a _ hnow
  refine hstamp.bind fun a => ?_
  cases c with
  | error f => exact d.insertUnbound l t v (hc f rfl)
  | ok cell =>
    exact ((d.send t _).orStore d.passes fun e => obeys_throw (d.engine _ rfl)).bind
      fun _ => obeys_pure ()

theorem delete (l : Ledger) (t : Ticket) (v : String) : Obeys P Q (l.delete t v) := by
  unfold Ledger.delete
  refine ((d.send t _).orStore d.passes fun e => obeys_throw (d.engine _ rfl)).bind fun k => ?_
  split
  · exact obeys_throw (d.engine _ rfl)
  · exact obeys_pure ()

theorem openFor (v : String) : Obeys P Q (Migration.openFor v) :=
  d.begin.orStore d.passes fun _ => (d.report _).bind fun _ => obeys_throw (d.engine _ rfl)

theorem commitFor (v : String) (t : Ticket) : Obeys P Q (Migration.commitFor v t) :=
  (d.commit t).orStore d.passes fun _ => (d.report _).bind fun _ => obeys_throw (d.engine _ rfl)

theorem runRoutine (m : Migration) (o : Operation) (step : MigrationStep) (t : Ticket) {r : Routine}
    (hr : ∀ f, r.Passes R f → Q f) : Obeys P Q (m.runRoutine o step t r) := by
  unfold Migration.runRoutine
  refine (d.noteCall _ _ _).bind fun _ => (d.routine t r).rescued
    (fun f hf hint => hr f (.interrupt hf hint)) (fun _ => obeys_pure ()) fun f hf _ => ?_
  refine (d.giveUp t _).bind fun _ => (d.reportOf _ _).bind fun _ => d.throw_ofUnit ?_
  rintro kind message rfl
  exact hr _ (.untold hf)

theorem keepLedger (v : String) (step : MigrationStep) (t : Ticket) {w : Work Unit}
    (hw : Obeys P Q w) : Obeys P Q (Migration.keepLedger v step t w) := by
  unfold Migration.keepLedger
  refine hw.answer (fun _ => obeys_pure ()) fun f hf => ?_
  dsimp only
  split
  · exact (d.giveUp t _).bind fun _ => (d.report _).bind fun _ => obeys_throw hf
  · exact obeys_throw hf

theorem perform {j : Job} (hr : ∀ f, j.routine.Passes R f → Q f) (hkeep : ∀ t, Obeys P Q (j.keep t))
    (first : Event) (last : String → Int → Event) : Obeys P Q (j.perform first last) := by
  have hrun : Obeys P Q j.run :=
    (d.openFor _).bind fun t => (d.runRoutine _ _ _ t hr).bind fun _ =>
      (d.keepLedger _ _ t (hkeep t)).bind fun _ => d.commitFor _ t
  exact d.now.bind fun _ => (d.report _).bind fun _ => hrun.bind fun _ => d.now.bind fun _ =>
    (d.report _).bind fun _ => obeys_pure _

theorem apply (l : Ledger) {m : Migration} (hm : ∀ f, m.Passes R f → Q f) :
    Obeys P Q (m.apply l) := by
  rw [Migration.apply_eq]
  exact d.perform (j := Job.applying l m) (fun f hf => hm f (.up hf))
    (d.recording l _ fun f hf hnone => hm f (.description hf hnone)) _ _

theorem revert (l : Ledger) {m : Migration} (hm : ∀ f, m.Passes R f → Q f) :
    Obeys P Q (m.revert l) := by
  rw [Migration.revert_eq]
  exact d.perform (j := Job.reverting l m) (fun f hf => hm f (.down hf))
    (fun t => d.delete l t _) _ _

/-! ## One seeder -/

theorem runOne {x : Seeder} (hx : ∀ f, x.run.Passes R f → Q f) : Obeys P Q (Seeding.runOne x) := by
  have hopen : Obeys P Q (Work.begin.orStore fun e => do
      Work.report (.seederFailed x.name .begin (.store e))
      throw (.cannotStart x.name e)) :=
    d.begin.orStore d.passes fun _ => (d.report _).bind fun _ => obeys_throw (d.engine _ rfl)
  have hnote : Obeys P (fun f => x.run.Raises R f ∨ R f) (Work.noteCall .run x.name .coded) :=
    fun s hs => ⟨(d.noteCall _ _ _ s hs).1, fun _ _ h => nomatch h⟩
  have hbody (t : Ticket) : Obeys P (fun f => x.run.Raises R f ∨ R f) (do
      Work.noteCall .run x.name .coded
      x.run.run t
      Work.commit t) :=
    hnote.bind fun _ => ((d.routine t x.run).mono fun _ => .inl).bind fun _ =>
      (d.commit t).mono fun _ => .inr
  refine d.now.bind fun _ => (d.report _).bind fun _ => hopen.bind fun t => ?_
  refine (hbody t).rescued ?_ (fun _ => d.now.bind fun _ => d.report _) fun f hf _ => ?_
  · rintro f (hf | hf) hint
    · exact hx f (.interrupt hf hint)
    · refine d.passes f hf ?_
      cases f with
      | store => cases hint
      | _ => rfl
  · refine (d.giveUp t _).bind fun _ => (d.reportOf _ _).bind fun _ => d.throw_ofUnit ?_
    rintro kind message rfl
    exact hf.elim (fun hf => hx _ (.untold hf)) (d.untold kind message)

/-! ## Migrations together -/

theorem applyAll (l : Ledger) {todo : List Migration} (hq : ∀ x ∈ todo, ∀ f, x.Passes R f → Q f) :
    Obeys P Q (Migrator.applyAll l todo) := by
  induction todo with
  | nil => exact obeys_pure []
  | cons m rest ih =>
    obtain ⟨hm, hrest⟩ := List.forall_mem_cons.mp hq
    exact (d.apply l hm).bind fun _ => (ih hrest).bind fun _ => obeys_pure _

theorem revertAll {m : Migrator} (hq : ∀ x ∈ m.catalog.entries, ∀ f, x.Passes R f → Q f)
    (rows : List LedgerRow) : Obeys P Q (m.revertAll rows) := by
  induction rows with
  | nil => exact obeys_pure []
  | cons r rest ih =>
    unfold Migrator.revertAll
    split
    · exact (d.report _).bind fun _ => obeys_throw (d.engine _ rfl)
    · rename_i x hx
      exact (d.revert _ (hq x (List.mem_of_find?_eq_some hx))).bind fun _ => ih.bind fun _ => obeys_pure _

theorem asking {α : Type} (l : Ledger) (order : Ledger.Order) {limit : Option Int}
    (hlimit : limit.all Ledger.fits = true ∨ R .limitTooLarge) {k : List LedgerRow → Work α}
    (hk : ∀ rows, Obeys P Q (k rows)) : Obeys P (fun f => R f ∨ Q f) (l.asking order limit k) :=
  (d.ensure l).bind fun _ => (d.read l order hlimit).bind fun rows => (hk rows).mono fun _ => .inr

theorem runOn {m : Migrator} (hq : ∀ x ∈ m.catalog.entries, ∀ f, x.Passes R f → Q f)
    (rows : List LedgerRow) : Obeys P Q (m.runOn rows) := by
  have htodo : ∀ x ∈ m.pendingIn rows, ∀ f, x.Passes R f → Q f :=
    fun x hx => hq x ((Migrator.mem_pendingIn.mp hx).1)
  unfold Migrator.runOn
  dsimp only
  split
  · exact (d.report _).bind fun _ => obeys_pure []
  · exact (d.report _).bind fun _ => (d.applyAll _ htodo).bind fun _ =>
      (d.report _).bind fun _ => obeys_pure _

theorem rollBackOn {m : Migrator} (hq : ∀ x ∈ m.catalog.entries, ∀ f, x.Passes R f → Q f)
    (count : RollbackCount) (rows : List LedgerRow) : Obeys P Q (m.rollBackOn count rows) := by
  have hrest : Obeys P Q (do
      let done ← m.revertAll rows
      Work.report (.allReverted done.length)
      return done) :=
    (d.revertAll hq rows).bind fun _ => (d.report _).bind fun _ => obeys_pure _
  unfold Migrator.rollBackOn
  split
  · exact (d.report _).bind fun _ => obeys_pure []
  · cases count with
    | all => exact hrest
    | exactly n =>
      dsimp only
      split
      · exact (d.report _).bind fun _ => hrest
      · exact hrest

theorem statusOn (m : Migrator) (rows : List LedgerRow) : Obeys P Q (m.statusOn rows) := by
  have hreports (events : List Event) : Obeys P Q (events.forM Work.report) := by
    induction events with
    | nil => exact obeys_pure ()
    | cons e rest ih => exact (d.report e).bind fun _ => ih
  exact (hreports _).bind fun _ => obeys_pure _

end Discipline
end SchemaLedger
