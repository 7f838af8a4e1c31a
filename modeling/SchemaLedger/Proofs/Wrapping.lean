-- What access to the ledger raises when every fault is the store's own. Each error of the
-- store is wrapped, by the ledger or by the step of a unit that met it, but for one kind:
-- the rollback of a transaction of the ledger's own is not guarded.
import SchemaLedger.Proofs.CountText
import SchemaLedger.Proofs.Discipline
import SchemaLedger.Proofs.LedgerAccess
import SchemaLedger.Proofs.Newest
import SchemaLedger.Proofs.StoreContract

namespace SchemaLedger

/-! ## Sessions with faults of the store -/

/-- Every planned fault is the store's own, and `readings` are those of the clock. -/
structure Session.Steady (readings : Nat → Int) (s : Session) : Prop where
  faults : Handle.StoreFaults s.handle.plan
  clock : s.clock.nth = readings

/-- What access to the ledger raises beside errors of the store: a failure of the engine, one that
says of a clock that it shows no date, or one that passes by the handlers of a migration. -/
inductive Failure.Beside (readings : Nat → Int) (c : Catalog) : Failure → Prop where
  | engine {f : Failure} : f.isEngine = true → Beside readings c f
  | undated {n : Nat} : Calendar.timestamp? (readings n) = none → Beside readings c .noSuchDate
  | unit {m : Migration} {f : Failure} :
    m ∈ c.entries → m.Passes (fun g => ∃ e, g = .store e) f → Beside readings c f

theorem Migration.Passes.ne_store {R : Failure → Prop} {m : Migration} {f : Failure}
    (h : m.Passes R f) (e : StoreError) : f ≠ .store e := by
  rintro rfl
  rcases h with h | h | ⟨_, hnone⟩
  · obtain ⟨_, _, h | h⟩ := h.outside <;> cases h
  · obtain ⟨_, _, h | h⟩ := h.outside <;> cases h
  · cases hnone

theorem Failure.Beside.ne_store {readings : Nat → Int} {c : Catalog} {f : Failure}
    (h : f.Beside readings c) (e : StoreError) : f ≠ .store e := by
  cases h with
  | engine h =>
    rintro rfl
    cases h
  | undated => simp
  | unit _ h => exact h.ne_store e

namespace Session

variable {readings : Nat → Int}

theorem Steady.onHandle {α : Type} {call : Handle → Except Failure α × Handle} {R : Failure → Prop}
    (hplan : ∀ h, (call h).2.plan = h.plan)
    (hraise : ∀ h f h', Handle.StoreFaults h.plan → call h = (.error f, h') → R f) :
    Work.Obeys (Steady readings) R (Work.onHandle call) := by
  intro s hs
  have hkept (h' : Handle) (hsame : (call s.handle).2 = h') : Steady readings { s with handle := h' } := by
    refine ⟨?_, hs.clock⟩
    rw [← hsame, hplan]
    exact hs.faults
  rcases hc : call s.handle with ⟨f | a, h'⟩
  · rw [Work.onHandle_error hc]
    refine ⟨hkept h' (by rw [hc]), fun f' s' he => ?_⟩
    cases he
    exact hraise _ _ _ hs.faults hc
  · rw [Work.onHandle_ok hc]
    exact ⟨hkept h' (by rw [hc]), fun _ _ he => nomatch he⟩

/-- Under faults of the store all calls raise errors of the store. -/
theorem steady_discipline (readings : Nat → Int) (c : Catalog) :
    Discipline (Steady readings) (fun f => ∃ e, f = .store e) (Failure.Beside readings c) where
  begin :=
    Steady.onHandle (fun h => h.begin_counts.1) fun _ _ _ => Handle.calls_oneFamily.begin
  execute t step _ hcall hstep := by
    refine Steady.onHandle (fun h => (h.execute_counts t step).1) fun h f h' hp he => ?_
    rcases Handle.calls_oneFamily.execute hp he with hstore | ⟨ts, hts⟩
    · exact hcall f hstore
    · exact hstep ts f hts
  commit t :=
    Steady.onHandle (fun h => (h.commit_counts t).1) fun _ _ _ => Handle.calls_oneFamily.commit
  rollback t :=
    Steady.onHandle (fun h => (h.rollback_counts t).1) fun _ _ _ => Handle.calls_oneFamily.rollback
  now s hs := ⟨⟨hs.faults, hs.clock⟩, fun _ _ he => nomatch he⟩
  report _ s hs := ⟨⟨hs.faults, hs.clock⟩, fun _ _ he => nomatch he⟩
  noteCall _ _ _ s hs := ⟨⟨hs.faults, hs.clock⟩, fun _ _ he => nomatch he⟩
  store e := ⟨e, rfl⟩
  passes f := by
    rintro ⟨e, rfl⟩ h
    cases h
  engine _ h := .engine h
  untold _ _ := by
    rintro ⟨e, he⟩
    cases he
  undated s hs h := by
    have hnone : Calendar.timestamp? (readings s.clock.taken) = none := by rwa [← hs.clock]
    exact .undated hnone

end Session

/-! ## The ledger's own transactions -/

/-- The plan, and how many transactions were to be opened and to be given up. -/
def Session.tally (s : Session) : List PlannedFault × Nat × Nat :=
  (s.handle.plan, s.handle.counts.begin, s.handle.counts.rollback)

namespace Ledger

variable {l : Ledger} {s s' : Session}

/-- The making of the table neither opens a transaction nor gives one up. -/
theorem creating_keeps_tally (l : Ledger) (t : Ticket) :
    Work.Keeps Session.tally (l.creating t) := by
  refine Work.Keeps.bind (fun s => ?_) fun _ s => ?_
  · obtain ⟨hplan, hcounts⟩ := s.handle.execute_counts t fun ts =>
      (l.creation.run ts).mapError Failure.store
    unfold send Work.execute Session.tally
    rw [Work.onHandle_after, hplan, hcounts]
    rfl
  · obtain ⟨hplan, hcounts⟩ := s.handle.commit_counts t
    unfold Work.commit Session.tally
    rw [Work.onHandle_after, hplan, hcounts]
    rfl

theorem planned?_rollback (h : s'.tally = s.tally) :
    s'.handle.planned? .rollback = s.handle.planned? .rollback := by
  obtain ⟨hplan, hcounts⟩ := Prod.mk.inj h
  unfold Handle.planned? CallCounts.get
  rw [hplan, (Prod.mk.inj hcounts).2]

/-- What cannot be opened fails with a failure of the ledger. -/
theorem openOwn_barred (hp : Handle.StoreFaults s.handle.plan) (hn : ¬ s.handle.Opens) :
    ∃ g s', openOwn s = .error (.ledger g) s' := by
  obtain ⟨f, h', hbegin, _⟩ := Handle.begin_barred hn
  have herr : Work.begin s = .error f { s with handle := h' } := Work.onHandle_error hbegin
  obtain ⟨_, e, rfl⟩ := (Session.steady_discipline s.clock.nth .empty).begin.error ⟨hp, rfl⟩ herr
  exact ⟨_, _, Work.orStore_refused herr _⟩

/-- A rollback raises an error of the store where a fault strikes it, and else nothing. -/
theorem rollback_raises (hp : Handle.StoreFaults s.handle.plan) (t : Ticket) :
    (s.handle.planned? .rollback = none ∧ ∃ s', Work.rollback t s = .ok () s') ∨
      (s.handle.planned? .rollback ≠ none ∧ ∃ e s', Work.rollback t s = .error (.store e) s') := by
  have hanswer : (s.handle.rollback t).1 = s.handle.rollbackAnswer := by
    unfold Handle.rollback Handle.rollbackAnswer
    rcases s.handle.planned? .rollback with _ | f <;> rfl
  unfold Handle.rollbackAnswer at hanswer
  rcases ha : s.handle.planned? .rollback with _ | f
  · rw [ha] at hanswer
    exact .inl ⟨rfl, _, Work.onHandle_ok (Prod.ext hanswer rfl)⟩
  · obtain ⟨e, rfl⟩ := hp.of_faultAt ha
    rw [ha] at hanswer
    exact .inr ⟨by simp, e, _, Work.onHandle_error (Prod.ext hanswer rfl)⟩

/-! ### Making sure of the table -/

section Opened

variable {t : Ticket} {ts us : Tables} {h₁ h' : Handle}

theorem hindered_opened (i : s.handle.Inside t ts h₁)
    (hcounts : h₁.counts = s.handle.counts.add .begin) : l.Hindered h₁ ↔ l.Hindered s.handle := by
  unfold Hindered
  rw [Handle.planned?_opened i hcounts (by simp), Handle.planned?_opened i hcounts (by simp)]

/-- After the table was made only a fault keeps the next transaction from being opened. -/
theorem opens_after_creating (hs : s.handle.Opens)
    (hcounts : h₁.counts = s.handle.counts.add .begin) (hset : s.handle.Settled us h')
    (hafter : Session.tally { s with handle := h' } = Session.tally { s with handle := h₁ }) :
    h'.Opens ↔ Handle.faultAt s.handle.plan .begin (s.handle.counts.begin + 1) = none := by
  have hone : h'.counts.begin = s.handle.counts.begin + 1 := by
    rw [(Prod.mk.inj (Prod.mk.inj hafter).2).1, hcounts]
    rfl
  have hbegin : h'.planned? .begin =
      Handle.faultAt s.handle.plan .begin (s.handle.counts.begin + 1) := by
    unfold Handle.planned? Handle.faultAt CallCounts.get
    rw [hset.plan, hone]
  have hblocked : h'.connection.blocked = none :=
    hset.blocked.trans (not_blocked_of_opened hs.allowed)
  rw [← hbegin]
  refine ⟨fun h => (Option.or_eq_none_iff.mp h.allowed).1, fun h => ⟨hset.idle, ?_⟩⟩
  exact Option.or_eq_none_iff.mpr ⟨h, by simp [hblocked]⟩

/-- Where the table could not be made a rollback follows, and what that raises comes first. -/
theorem not_created_raises {e : StoreError} (hp : Handle.StoreFaults h'.plan)
    (hw : l.creating t { s with handle := h₁ } = .error (.store e) { s with handle := h' }) :
    ∃ f s', ((l.creating t).orStore (l.notCreated t) >>= fun _ =>
        Work.report (.ledgerReady l.table)) { s with handle := h₁ } = .error f s' ∧
      ((∃ e, f = .store e) ↔ h'.planned? .rollback ≠ none) := by
  rw [Work.orStore_refused_bind hw]
  rcases rollback_raises (s := { s with handle := h' }) hp t with
    ⟨hnone, s', hroll⟩ | ⟨hsome, e', s', hroll⟩
  · exact ⟨_, _, Work.bind_error (Work.bind_ok hroll _) _, by simp [hnone]⟩
  · exact ⟨_, _, Work.bind_error (Work.bind_error hroll _) _, by simp [hsome]⟩

end Opened

/-- Making sure of the table returns where it can open a transaction and nothing hinders it;
then only a fault on the next opening keeps the next transaction from being opened. It raises
an error of the store where a hindrance has it roll back and the rollback is refused. -/
theorem ensure_raises (hp : Handle.StoreFaults s.handle.plan) :
    (∃ s', l.ensure s = .ok () s' ∧ ¬ l.Hindered s.handle ∧ s.handle.Opens ∧
        s'.handle.planned? .rollback = s.handle.planned? .rollback ∧
        (s'.handle.Opens ↔
          Handle.faultAt s.handle.plan .begin (s.handle.counts.begin + 1) = none)) ∨
      ∃ f s', l.ensure s = .error f s' ∧ (s.handle.Opens → l.Hindered s.handle) ∧
        ((∃ e, f = .store e) ↔ s.handle.Opens ∧ s.handle.planned? .rollback ≠ none) := by
  rw [l.ensure_eq]
  by_cases hs : s.handle.Opens
  · obtain ⟨t, h₁, hopen, i, hcounts⟩ := openOwn_opened hs
    have hkept := l.creating_keeps_tally t
    have hrollback : h₁.planned? .rollback = s.handle.planned? .rollback :=
      Handle.planned?_opened i hcounts (by simp)
    rw [Work.bind_ok hopen]
    rcases l.create_ends (s := { s with handle := h₁ }) i with
      ⟨h', hw, hset, hfree⟩ | ⟨f, h', hw, hhind, hplan, hstore, _⟩
    · have hafter := hkept.ok hw
      exact .inl ⟨_, Work.bind_ok (Work.orStore_ok hw _) _, mt (hindered_opened i hcounts).mpr hfree,
        hs, (planned?_rollback hafter).trans hrollback, opens_after_creating hs hcounts hset hafter⟩
    · have hafter := hkept.error hw
      obtain ⟨e, rfl⟩ := hstore hp
      have hp' : Handle.StoreFaults h'.plan := hplan ▸ hp
      obtain ⟨f, s', hrun, hraised⟩ := not_created_raises hp' hw
      have hsame : h'.planned? .rollback = s.handle.planned? .rollback :=
        (planned?_rollback hafter).trans hrollback
      refine .inr ⟨f, s', hrun, fun _ => (hindered_opened i hcounts).mp hhind, ?_⟩
      rw [hraised, hsame]
      exact ⟨fun h => ⟨hs, h⟩, And.right⟩
  · obtain ⟨g, s', hopen⟩ := openOwn_barred hp hs
    rw [Work.bind_error hopen]
    exact .inr ⟨_, _, rfl, fun h => absurd h hs, by simp [hs]⟩

/-! ### Reading -/

theorem unread_ne_store (f : Failure) (e : StoreError) : unread f ≠ .store e := by
  cases f <;> simp [unread]

/-- In an answer only the rollback raises an error of the store. -/
theorem answerTo_raises (hp : Handle.StoreFaults s.handle.plan) (order : Order)
    (limit : Option Int) :
    (∃ e, l.answerTo s order limit = .error (.store e)) ↔ s.handle.planned? .rollback ≠ none := by
  unfold answerTo
  rcases hrollback : s.handle.planned? .rollback with _ | f
  · have hnone : ¬ (none : Option Failure) ≠ none := fun h => h rfl
    rcases s.handle.planned? .execute with _ | f
    · rcases l.query order limit s.store with f | found
      · exact iff_of_false (fun ⟨e, he⟩ => unread_ne_store f e (Except.error.inj he)) hnone
      · exact iff_of_false (fun ⟨_, he⟩ => nomatch he) hnone
    · exact iff_of_false (fun ⟨e, he⟩ => unread_ne_store f e (Except.error.inj he)) hnone
  · obtain ⟨e, rfl⟩ := hp.of_faultAt hrollback
    simp

/-- Reading raises an error of the store just where the rollback that ends it is refused. -/
theorem read_raises (hp : Handle.StoreFaults s.handle.plan) (order : Order) (limit : Option Int) :
    (∃ e s', l.read order limit s = .error (.store e) s') ↔
      s.handle.Opens ∧ s.handle.planned? .rollback ≠ none := by
  by_cases hs : s.handle.Opens
  · obtain ⟨h', _, hread⟩ := l.read_opened hs order
    rw [hread limit, ← l.answerTo_raises hp order limit]
    rcases l.answerTo s order limit with f | rows
    · simp [Work.ended, hs]
    · simp [Work.ended]
  · obtain ⟨g, s', hopen⟩ := openOwn_barred hp hs
    unfold read
    rw [Work.bind_error hopen]
    refine ⟨?_, fun h => absurd h.1 hs⟩
    rintro ⟨e, s'', he⟩
    cases he

/-- From `s` the rollback of a transaction of the ledger's own is reached, and is refused:
the one after a hindered making of the table, or the one that ends the reading. -/
structure Struck (l : Ledger) (s : Session) : Prop where
  opens : s.handle.Opens
  refused : s.handle.planned? .rollback ≠ none
  reached : l.Hindered s.handle ∨
    Handle.faultAt s.handle.plan .begin (s.handle.counts.begin + 1) = none

/-- Work that asks the ledger first and then raises no error of the store raises one just
where a rollback of the ledger's own is struck. -/
theorem asking_raises {α : Type} (hp : Handle.StoreFaults s.handle.plan) {order : Order}
    {limit : Option Int} (hlimit : limit.all fits = true) {k : List LedgerRow → Work α} {c : Catalog}
    (hk : ∀ rows, Work.Obeys (Session.Steady s.clock.nth) (Failure.Beside s.clock.nth c) (k rows)) :
    (∃ e s', l.asking order limit k s = .error (.store e) s') ↔ l.Struck s := by
  have d := Session.steady_discipline s.clock.nth c
  have hsteady : Session.Steady s.clock.nth s := ⟨hp, rfl⟩
  unfold asking
  rcases l.ensure_raises hp with
    ⟨s₁, hensure, hfree, hs, hanswer, hnext⟩ | ⟨f, s₁, hensure, hhind, hwhy⟩
  · have hs₁ := (d.ensure l).ok hsteady hensure
    have hread := read_raises (l := l) hs₁.faults order limit
    rw [Work.bind_ok hensure]
    constructor
    · rintro ⟨e, s', he⟩
      rcases hr : l.read order limit s₁ with ⟨rows, s₂⟩ | ⟨f, s₂⟩
      · rw [Work.bind_ok hr] at he
        have hs₂ := (d.read l order (.inl hlimit)).ok hs₁ hr
        exact absurd rfl (((hk rows).error hs₂ he).2.ne_store e)
      · rw [Work.bind_error hr] at he
        cases he
        obtain ⟨hopens, hrefused⟩ := hread.mp ⟨e, _, hr⟩
        exact ⟨hs, hanswer ▸ hrefused, .inr (hnext.mp hopens)⟩
    · rintro ⟨_, hrefused, hreached⟩
      have hopens := hnext.mpr (hreached.resolve_left hfree)
      obtain ⟨e, s', hr⟩ := hread.mpr ⟨hopens, hanswer ▸ hrefused⟩
      exact ⟨e, s', Work.bind_error hr _⟩
  · rw [Work.bind_error hensure]
    constructor
    · rintro ⟨e, s', he⟩
      cases he
      obtain ⟨hs, hrefused⟩ := hwhy.mp ⟨e, rfl⟩
      exact ⟨hs, hrefused, .inl (hhind hs)⟩
    · rintro ⟨hs, hrefused, _⟩
      obtain ⟨e, rfl⟩ := hwhy.mpr ⟨hs, hrefused⟩
      exact ⟨e, s₁, rfl⟩

end Ledger

/-! ## Access to the ledger -/

/-- What the engine does with the ledger, for its migrations together. -/
inductive Access where
  | run
  | rollBack (count : Value)
  | status
  | applied
  | pending
  | isApplied (version : String)

namespace Access

def perform (m : Migrator) : Access → Work Unit
  | .run => do let _ ← m.run
  | .rollBack count => do let _ ← m.rollBackValue count
  | .status => do let _ ← m.status
  | .applied => do let _ ← m.applied
  | .pending => do let _ ← m.pending
  | .isApplied version => do let _ ← m.isApplied version

/-- The ledger is asked at all: a rollback is refused before that if its count is none. -/
def Asks : Access → Prop
  | .rollBack count => ∃ n, RollbackCount.ofValue count = .ok n
  | _ => True

/-- A count of a rollback is one that the store can count to. -/
def Countable : Access → Prop
  | .rollBack count => ∀ n, RollbackCount.ofValue count = .ok n → n.Countable
  | _ => True

/-- A count of a rollback cannot be written out. -/
def Unwritable : Access → Prop
  | .rollBack count => count.isWritable = false
  | _ => False

/-- Access that asks the ledger asks it first, and what follows raises no error of the store. -/
theorem perform_asking (m : Migrator) {x : Access} (hx : x.Countable) (ha : x.Asks)
    (readings : Nat → Int) :
    ∃ order limit, ∃ k : List LedgerRow → Work Unit, x.perform m = m.ledger.asking order limit k ∧
      limit.all Ledger.fits = true ∧
      ∀ rows, Work.Obeys (Session.Steady readings) (Failure.Beside readings m.catalog) (k rows) := by
  have d := Session.steady_discipline readings m.catalog
  have hunits : ∀ x ∈ m.catalog.entries, ∀ f, x.Passes (fun g => ∃ e, g = .store e) f →
      f.Beside readings m.catalog := fun _ hx _ => .unit hx
  have asking {α : Type} {w : Work α} {order : Ledger.Order} {limit : Option Int}
      {k : List LedgerRow → Work α} (hw : w = m.ledger.asking order limit k)
      (hlimit : limit.all Ledger.fits = true)
      (hk : ∀ rows, Work.Obeys (Session.Steady readings) (Failure.Beside readings m.catalog) (k rows)) :
      ∃ order limit, ∃ k : List LedgerRow → Work Unit,
        (w >>= fun _ => pure ()) = m.ledger.asking order limit k ∧
        limit.all Ledger.fits = true ∧
        ∀ rows, Work.Obeys (Session.Steady readings) (Failure.Beside readings m.catalog) (k rows) := by
    refine ⟨order, limit, fun rows => k rows >>= fun _ => pure (), ?_, hlimit,
      fun rows => (hk rows).bind fun _ => Work.obeys_pure ()⟩
    rw [hw]
    unfold Ledger.asking
    simp only [bind_assoc]
  cases x with
  | run => exact asking m.run_eq rfl (d.runOn hunits)
  | rollBack count =>
    obtain ⟨n, hn⟩ := ha
    refine asking ((Migrator.rollBackValue_ok hn).trans (m.rollBack_eq n)) ?_ (d.rollBackOn hunits n)
    exact RollbackCount.Countable.fits (hx n hn)
  | status => exact asking m.status_eq rfl (d.statusOn m)
  | applied => exact asking m.applied_eq rfl fun rows => Work.obeys_pure rows
  | pending => exact asking m.pending_eq rfl fun _ => Work.obeys_pure _
  | isApplied version => exact asking (m.isApplied_eq version) rfl fun _ => Work.obeys_pure _

/-- A count that is refused is refused with a failure of the engine if it can be written out. -/
theorem perform_refused (m : Migrator) {x : Access} (ha : ¬ x.Asks) (s : Session) :
    ∃ f, x.perform m s = .error f s ∧
      (f.isEngine = true ∨ f = .file .numberTooLong ∧ x.Unwritable) := by
  cases x with
  | rollBack count =>
    rcases hcount : RollbackCount.ofValue count with f | n
    · have hvalue : m.rollBackValue count = throw f := by
        unfold Migrator.rollBackValue
        rw [hcount]
      have hwhy : f.isEngine = true ∨ f = .file .numberTooLong ∧ count.isWritable = false := by
        rcases RollbackCount.ofValue_refused hcount with ⟨_, rfl⟩ | hlong
        · exact .inl rfl
        · exact .inr hlong
      refine ⟨f, Work.bind_error ?_ _, hwhy⟩
      rw [hvalue]
      rfl
    · exact absurd ⟨n, hcount⟩ ha
  | _ => exact absurd trivial ha

/-- Under every plan of faults of the store, whatever the units do and the store holds:
access to the ledger raises an error of the store just where a rollback of the ledger's own
is struck. What else it raises is a failure of the engine, or says of a clock that it shows no
date or of a count that it cannot be written out, or it passes by the handlers of a migration. -/
theorem a_store_error_escapes_just_from_a_struck_rollback (m : Migrator) (x : Access)
    (hx : x.Countable) (s : Session) (hp : Handle.StoreFaults s.handle.plan) :
    ((∃ e s', x.perform m s = .error (.store e) s') ↔ x.Asks ∧ m.ledger.Struck s) ∧
      ∀ f s', x.perform m s = .error f s' →
        f.isEngine = true ∨ (∃ e, f = .store e) ∨ (f = .noSuchDate ∧ ¬ s.clock.Dated) ∨
          (f = .file .numberTooLong ∧ x.Unwritable) ∨
          ∃ u ∈ m.catalog.entries, u.Passes (fun g => ∃ e, g = .store e) f := by
  have hsteady : Session.Steady s.clock.nth s := ⟨hp, rfl⟩
  by_cases ha : x.Asks
  · obtain ⟨order, limit, k, hperform, hlimit, hk⟩ := perform_asking m hx ha s.clock.nth
    rw [hperform]
    refine ⟨?_, fun f s' he => ?_⟩
    · rw [Ledger.asking_raises hp hlimit hk]
      simp [ha]
    · have d := Session.steady_discipline s.clock.nth m.catalog
      rcases ((d.asking m.ledger order (.inl hlimit) hk).error hsteady he).2 with hstore | hbeside
      · exact .inr (.inl hstore)
      cases hbeside with
      | engine hengine => exact .inl hengine
      | undated hn =>
        refine .inr (.inr (.inl ⟨rfl, fun hdated => ?_⟩))
        unfold Calendar.timestamp? at hn
        rw [if_pos (hdated _)] at hn
        cases hn
      | unit hu hpasses => exact .inr (.inr (.inr (.inr ⟨_, hu, hpasses⟩)))
  · obtain ⟨f, hrefused, hwhy⟩ := perform_refused m ha s
    rw [hrefused]
    have hstore (e : StoreError) : f ≠ .store e := by
      rintro rfl
      rcases hwhy with h | ⟨h, _⟩ <;> cases h
    refine ⟨by simp [ha, hstore], fun f' s' he => ?_⟩
    cases he
    exact hwhy.imp id fun h => .inr (.inr (.inl h))

/-- A run whose first rollback is refused, after its table could not be made, raises the
store's error as it is. -/
theorem a_run_raises_the_error_of_a_struck_rollback :
    let plan : List PlannedFault :=
      [⟨.commit, 1, .store .inactive⟩, ⟨.rollback, 1, .store .closed⟩]
    let s : Session := { handle := { plan } }
    Access.run.Countable ∧ Handle.StoreFaults s.handle.plan ∧
      ∃ e s', Access.run.perform { catalog := .empty } s = .error (.store e) s' := by
  intro plan s
  have hp : Handle.StoreFaults s.handle.plan := by simp [Handle.StoreFaults, s, plan]
  refine ⟨trivial, hp, ?_⟩
  refine (a_store_error_escapes_just_from_a_struck_rollback _ .run trivial s hp).1.mpr ⟨trivial, ?_⟩
  exact ⟨⟨rfl, rfl⟩, by decide, .inl (.inr (.inr (by decide)))⟩

/-- A status whose reading ends with a refused rollback raises the store's error as it is. -/
theorem a_status_raises_the_error_of_a_struck_rollback :
    let s : Session :=
      { handle := { plan := [⟨.rollback, 1, .store (.stated "SQLAlchemyError" "lost connection")⟩] } }
    Handle.StoreFaults s.handle.plan ∧ s.handle.Idle ∧
      ∃ s', Access.status.perform { catalog := .empty } s =
        .error (.store (.stated "SQLAlchemyError" "lost connection")) s' := by
  intro s
  exact ⟨by simp [Handle.StoreFaults, s], rfl, _, rfl⟩

end Access
end SchemaLedger
