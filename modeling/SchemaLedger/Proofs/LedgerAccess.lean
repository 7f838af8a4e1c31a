-- The ledger's own transactions. Making sure of the table changes no more than that the
-- table is there; reading changes nothing; and neither calls a unit.
import SchemaLedger.Proofs.Attempt

namespace SchemaLedger.Ledger

variable {l : Ledger} {s : Session}

/-! ## Opening -/

theorem openOwn_refused (hr : s.Between) {e : StoreError}
    (hb : s.handle.beginRefusal? = some (.store e)) :
    ∃ h', openOwn s = .error (.ledger (.cannotBegin e)) { s with handle := h' } ∧
      s.handle.Settled s.store h' := by
  obtain ⟨h', hbegin, hset⟩ := Handle.begin_refused hr.idle hb
  have herr : Work.begin s = .error (.store e) { s with handle := h' } :=
    Work.onHandle_error hbegin
  exact ⟨h', Work.orStore_refused herr _, hset⟩

theorem openOwn_opened (hs : s.handle.Opens) :
    ∃ t h₁, openOwn s = .ok t { s with handle := h₁ } ∧ s.handle.Inside t s.store h₁ ∧
      h₁.counts = s.handle.counts.add .begin := by
  obtain ⟨t, h₁, hbegin, i, _⟩ := Handle.begin_opened hs.idle hs.allowed
  refine ⟨t, h₁, Work.orStore_ok (Work.onHandle_ok hbegin) _, i, ?_⟩
  rw [← s.handle.begin_counts.2, hbegin]

theorem openOwn_shut (hn : ¬ s.handle.Opens) :
    ∃ f h', openOwn s = .error f { s with handle := h' } ∧ s.handle.Barred h' := by
  obtain ⟨f, h', hbegin, hbar⟩ := Handle.begin_barred hn
  have herr : Work.begin s = .error f { s with handle := h' } := Work.onHandle_error hbegin
  rcases hf : f.store? with _ | e
  · exact ⟨f, h', Work.orStore_passed herr hf _, hbar⟩
  · obtain rfl := Failure.eq_store hf
    exact ⟨_, h', Work.orStore_refused herr _, hbar⟩

/-- Without planned faults only a blocked store keeps a transaction from being opened. -/
theorem blocked_of_refusal {h : Handle} {f : Failure} (hb : h.beginRefusal? = some f)
    (hp : h.plan = []) : h.connection.blocked ≠ none := by
  intro hblocked
  unfold Handle.beginRefusal? at hb
  rw [Handle.planned?_nil hp, hblocked] at hb
  exact nomatch hb

theorem not_blocked_of_opened {h : Handle} (hb : h.beginRefusal? = none) :
    h.connection.blocked = none :=
  Option.map_eq_none_iff.mp (Option.or_eq_none_iff.mp hb).2

/-! ## Making sure of the table -/

/-- The store can be opened, and it allows a table of the ledger's name. -/
structure Usable (l : Ledger) (s : Session) : Prop where
  opens : s.handle.connection.blocked = none
  allowed : Tables.isReserved l.table = false

/-- When the table was made the ledger holds the rows that it had. -/
theorem Has.of_leaves {rows : List LedgerRow} (hl : l.Has s.store rows)
    (h : s.Leaves (l.made s.store) s') : l.Holds s'.store rows := by
  rw [h.store_eq]
  exact hl.made

/-- The making of the table, up to its commit. -/
def creating (l : Ledger) (t : Ticket) : Work Unit := do
  let _ ← send t l.creation
  Work.commit t

/-- What is done when the store refuses to make the table. -/
def notCreated (l : Ledger) (t : Ticket) (e : StoreError) : Work Unit := do
  Work.rollback t
  throw (.ledger (.cannotCreate l.table e))

theorem ensure_eq (l : Ledger) :
    l.ensure = openOwn >>= fun t => (l.creating t).orStore (l.notCreated t) >>= fun _ =>
      Work.report (.ledgerReady l.table) := rfl

/-- From `h` the making of the table is hindered: by a fault on its statement or on its
commit, or by a name that the store keeps to itself. -/
def Hindered (l : Ledger) (h : Handle) : Prop :=
  h.planned? .execute ≠ none ∨ Tables.isReserved l.table = true ∨ h.planned? .commit ≠ none

/-- Under any plan the making of the table is committed, or is hindered and fails so that a
rollback gives it up. Before that rollback the transaction is open when a fault has struck
the statement, and is over when the commit has failed with a failure that is not the store's. -/
theorem create_ends (l : Ledger) {s : Session} {h₀ : Handle} {t : Ticket} {ts : Tables}
    (i : h₀.Inside t ts s.handle) :
    (∃ h', l.creating t s = .ok () { s with handle := h' } ∧ h₀.Settled (l.made ts) h' ∧
        ¬ l.Hindered s.handle) ∨
      ∃ f h', l.creating t s = .error f { s with handle := h' } ∧ l.Hindered s.handle ∧
        h'.plan = h₀.plan ∧ (Handle.StoreFaults h₀.plan → ∃ e, f = .store e) ∧
        (∃ h'', h'.rollback t = (h'.rollbackAnswer, h'') ∧ h₀.Settled h₀.connection.base h'') ∧
        ((s.handle.planned? .execute = some f ∧ h₀.Inside t ts h') ∨
          (s.handle.planned? .execute = none ∧
            (f.store? = none → h₀.Settled h₀.connection.base h'))) := by
  have he := Handle.execute_inside i fun ts => (l.creation.run ts).mapError Failure.store
  have hrun := l.run_creation ts
  unfold Hindered
  rcases hf : s.handle.planned? .execute with _ | f
  · rw [show Handle.faultAt s.handle.plan .execute s.handle.counts.execute = none from hf] at he
    rcases hres : Tables.isReserved l.table with _ | _
    · rw [hres] at hrun
      rw [hrun] at he
      have hcreate : l.creating t s = Work.commit t
          { s with handle := s.handle.inWork (l.made ts) (s.handle.counts.execute + 1) } :=
        Work.bind_ok (Work.execute_ok he) _
      have i' := i.inWork (l.made ts) (s.handle.counts.execute + 1)
      rw [hcreate]
      rcases hc : s.handle.planned? .commit with _ | f
      · obtain ⟨h', hdone, hset⟩ := Handle.commit_done i' hc
        exact .inl ⟨h', Work.onHandle_ok hdone, hset, by simp⟩
      · obtain ⟨h', hfail, hset⟩ := Handle.commit_refused i' hc
        exact .inr ⟨f, h', Work.onHandle_error hfail, by simp, hset.plan,
          fun hp => (i.plan ▸ hp : Handle.StoreFaults s.handle.plan).of_faultAt hc,
          Handle.rollback_settled hset t, .inr ⟨rfl, fun _ => hset⟩⟩
    · rw [hres] at hrun
      rw [hrun] at he
      exact .inr ⟨_, _, Work.bind_error (Work.execute_error he) _, by simp, i.plan,
        fun _ => ⟨_, rfl⟩, Handle.rollback_inside (i.inWork ts _), .inr ⟨rfl, fun h => nomatch h⟩⟩
  · rw [show Handle.faultAt s.handle.plan .execute s.handle.counts.execute = some f from hf] at he
    have i' := i.inWork ts (s.handle.counts.execute + 1)
    exact .inr ⟨f, _, Work.bind_error (Work.execute_error he) _, by simp, i.plan,
      fun hp => (i.plan ▸ hp : Handle.StoreFaults s.handle.plan).of_faultAt hf,
      Handle.rollback_inside i', .inl ⟨rfl, i'⟩⟩

/-- Without planned faults only the name of the table hinders its making. -/
theorem Hindered.reserved {h : Handle} (hh : l.Hindered h) (hp : h.plan = []) :
    Tables.isReserved l.table = true := by
  rcases hh with hh | hh | hh
  · exact absurd (Handle.planned?_nil hp _) hh
  · exact hh
  · exact absurd (Handle.planned?_nil hp _) hh

/-- Making sure of the table fails and leaves the store, or the table is there after it.
Without planned faults it fails just when the ledger is not usable, and as a failure of it. -/
theorem ensure_cases (l : Ledger) (hr : s.Between) :
    (∃ f s', l.ensure s = .error f s' ∧ s.Leaves s.store s' ∧ s'.calls = s.calls ∧
        (s.handle.plan = [] → ¬ l.Usable s ∧ ∃ g, f = .ledger g ∧ g.version? = none)) ∨
      ∃ s', l.ensure s = .ok () s' ∧ l.Usable s ∧ s.Leaves (l.made s.store) s' ∧
        s'.calls = s.calls := by
  rw [ensure_eq]
  rcases hb : s.handle.beginRefusal? with _ | f
  · obtain ⟨t, h₁, hopen, i, _⟩ := openOwn_opened ⟨hr.idle, hb⟩
    rw [Work.bind_ok hopen]
    rcases l.create_ends (s := { s with handle := h₁ }) i with
      ⟨h', hw, hset, hfree⟩ | ⟨f, h', hw, hhind, hplan, hstore, ⟨h'', hroll, hset⟩, _⟩
    · have hallowed : Tables.isReserved l.table = false :=
        eq_false_of_ne_true fun hres => hfree (.inr (.inl hres))
      exact .inr ⟨{ s with handle := h', events := s.events ++ [.ledgerReady l.table] },
        Work.bind_ok (Work.orStore_ok hw _) _, ⟨not_blocked_of_opened hb, hallowed⟩,
        ⟨hset, .refl _⟩, rfl⟩
    · obtain ⟨e, rfl⟩ := hstore hr.faults
      rw [Work.orStore_refused_bind hw]
      unfold Handle.rollbackAnswer at hroll
      rcases ha : h'.planned? .rollback with _ | f
      · rw [ha] at hroll
        have hfails : l.notCreated t e { s with handle := h' } =
            .error (.ledger (.cannotCreate l.table e)) { s with handle := h'' } :=
          Work.bind_ok (Work.onHandle_ok hroll) _
        refine .inl ⟨_, _, Work.bind_error hfails _, ⟨hset, .refl _⟩, rfl, fun hnil => ⟨?_, _, rfl, rfl⟩⟩
        rintro ⟨_, hallowed⟩
        exact nomatch hallowed.symm.trans (hhind.reserved (i.plan.trans hnil))
      · rw [ha] at hroll
        have hfails : l.notCreated t e { s with handle := h' } = .error f { s with handle := h'' } :=
          Work.bind_error (Work.onHandle_error hroll) _
        exact .inl ⟨_, _, Work.bind_error hfails _, ⟨hset, .refl _⟩, rfl,
          fun hnil => nomatch ha.symm.trans (Handle.planned?_nil (hplan.trans hnil) _)⟩
  · obtain ⟨e, rfl⟩ := hr.faults.of_beginRefusal? hb
    obtain ⟨h', hopen, hset⟩ := openOwn_refused hr hb
    rw [Work.bind_error hopen]
    exact .inl ⟨_, _, rfl, ⟨hset, .refl _⟩, rfl,
      fun hnil => ⟨fun hu => blocked_of_refusal hb hnil hu.opens, _, rfl, rfl⟩⟩

/-- From any session and under any plan: making sure of the table makes it and calls no unit,
or fails and what is permanent is as it was. -/
theorem ensure_store (l : Ledger) (s : Session) :
    (∃ f s', l.ensure s = .error f s' ∧ s'.store = s.store) ∨
      ∃ s', l.ensure s = .ok () s' ∧ s'.store = l.made s.store ∧ s'.calls = s.calls := by
  rw [ensure_eq]
  by_cases hs : s.handle.Opens
  · obtain ⟨t, h₁, hopen, i, _⟩ := openOwn_opened hs
    rw [Work.bind_ok hopen]
    rcases l.create_ends (s := { s with handle := h₁ }) i with
      ⟨h', hw, hset, _⟩ | ⟨f, h', hw, _, _, _, ⟨h'', hroll, hset⟩, hwhy⟩
    · exact .inr ⟨_, Work.bind_ok (Work.orStore_ok hw _) _, hset.base, rfl⟩
    · rcases hf : f.store? with _ | e
      · refine .inl ⟨f, _, Work.bind_error (Work.orStore_passed hw hf _) _, ?_⟩
        rcases hwhy with ⟨_, i'⟩ | ⟨_, hset'⟩
        · exact i'.base
        · exact (hset' hf).base
      · obtain rfl := Failure.eq_store hf
        rw [Work.orStore_refused_bind hw]
        rcases ha : h'.rollbackAnswer with g | u
        · rw [ha] at hroll
          have hfails : l.notCreated t e { s with handle := h' } =
              .error g { s with handle := h'' } :=
            Work.bind_error (Work.onHandle_error hroll) _
          exact .inl ⟨_, _, Work.bind_error hfails _, hset.base⟩
        · rw [ha] at hroll
          have hfails : l.notCreated t e { s with handle := h' } =
              .error (.ledger (.cannotCreate l.table e)) { s with handle := h'' } :=
            Work.bind_ok (Work.onHandle_ok hroll) _
          exact .inl ⟨_, _, Work.bind_error hfails _, hset.base⟩
  · obtain ⟨f, h', hopen, hbar⟩ := openOwn_shut hs
    exact .inl ⟨f, _, Work.bind_error hopen _, hbar.base⟩

theorem ensure_made (h : l.ensure s = .ok () s') :
    s'.store = l.made s.store ∧ s'.calls = s.calls := by
  rcases l.ensure_store s with ⟨f, s₁, hrun, _⟩ | ⟨s₁, hrun, hmade⟩
  · exact nomatch h.symm.trans hrun
  · cases h.symm.trans hrun
    exact hmade

/-! ## Reading -/

theorem query_tables {order : Order} {limit : Option Int} {ts us : Tables} {rows : List LedgerRow}
    (h : l.query order limit ts = .ok (rows, us)) : us = ts := by
  unfold query at h
  split at h
  · cases h
  · split at h <;> cases h
    rfl

theorem Holds.query_eq {ts : Tables} {rows : List LedgerRow} (hl : l.Holds ts rows) (order : Order)
    {limit : Option Int} (hlimit : limit.all fits = true) :
    l.query order limit ts = .ok (cutTo limit (sort order rows), ts) := by
  unfold query
  rw [hl.rowsIn]
  exact if_pos hlimit

/-- In a transaction a query gives a planned fault, or what it finds in the tables. -/
theorem query_inside {h₀ : Handle} {t : Ticket} {ts : Tables} (i : h₀.Inside t ts s.handle)
    (order : Order) (limit : Option Int) :
    Work.attempt (Work.execute t (l.query order limit)) s =
      .ok (match s.handle.planned? .execute with
          | some f => .error f
          | none => (l.query order limit ts).map Prod.fst)
        { s with handle := s.handle.inWork ts (s.handle.counts.execute + 1) } := by
  have he := Handle.execute_inside i (l.query order limit)
  rcases hf : s.handle.planned? .execute with _ | f
  · rw [show Handle.faultAt s.handle.plan .execute s.handle.counts.execute = none from hf] at he
    rcases hq : l.query order limit ts with f | ⟨rows, us⟩
    · rw [hq] at he
      exact Work.attempt_error (Work.execute_error he)
    · obtain rfl := query_tables hq
      rw [hq] at he
      exact Work.attempt_ok (Work.execute_ok he)
  · rw [show Handle.faultAt s.handle.plan .execute s.handle.counts.execute = some f from hf] at he
    exact Work.attempt_error (Work.execute_error he)

/-- What a reading raises when its query fails. -/
def unread : Failure → Failure
  | .store e => .ledger (.cannotRead e)
  | f => f

/-- What a reading comes to that could open its transaction. The query is answered first, but
the rollback that follows it is not guarded, so what that raises takes the answer's place. -/
def answerTo (l : Ledger) (s : Session) (order : Order) (limit : Option Int) :
    Except Failure (List LedgerRow) :=
  match s.handle.planned? .rollback, s.handle.planned? .execute with
  | some f, _ => .error f
  | none, some f => .error (unread f)
  | none, none => ((l.query order limit s.store).map Prod.fst).mapError unread

/-- A reading that can open its transaction leaves the store and gives its answer. -/
theorem read_opened (l : Ledger) (hs : s.handle.Opens) (order : Order) :
    ∃ h', s.handle.Settled s.store h' ∧ ∀ limit,
      l.read order limit s = Work.ended (l.answerTo s order limit) { s with handle := h' } := by
  obtain ⟨t, h₁, hopen, i, hcounts⟩ := openOwn_opened hs
  have hexecute : h₁.planned? .execute = s.handle.planned? .execute :=
    Handle.planned?_opened i hcounts (by simp)
  have i' := i.inWork s.store (h₁.counts.execute + 1)
  obtain ⟨h', hroll, hset⟩ := Handle.rollback_inside i'
  rw [Handle.rollbackAnswer_inside i'] at hroll
  unfold Handle.rollbackAnswer at hroll
  refine ⟨h', hset, fun limit => ?_⟩
  have hanswer := query_inside (l := l) (s := { s with handle := h₁ }) i order limit
  rw [hexecute] at hanswer
  unfold read answerTo
  rw [Work.bind_ok hopen, Work.bind_ok hanswer]
  rcases hrollback : s.handle.planned? .rollback with _ | f
  · rw [hrollback] at hroll
    have hdone : Work.rollback t
        { s with handle := h₁.inWork s.store (h₁.counts.execute + 1) } =
          .ok () { s with handle := h' } := Work.onHandle_ok hroll
    rw [Work.bind_ok hdone]
    rcases s.handle.planned? .execute with _ | f
    · rcases l.query order limit s.store with f | ⟨rows, us⟩
      · cases f <;> rfl
      · rfl
    · cases f <;> rfl
  · rw [hrollback] at hroll
    have hfail : Work.rollback t
        { s with handle := h₁.inWork s.store (h₁.counts.execute + 1) } =
          .error f { s with handle := h' } := Work.onHandle_error hroll
    exact Work.bind_error hfail _

/-- Reading changes nothing that is permanent, from any session and under any plan. -/
theorem read_store (l : Ledger) (order : Order) (limit : Option Int) (s : Session) :
    (Session.after (l.read order limit s)).store = s.store := by
  by_cases hs : s.handle.Opens
  · obtain ⟨h', hset, hread⟩ := l.read_opened hs order
    rw [hread limit, Work.after_ended]
    exact hset.base
  · obtain ⟨f, h', hopen, hbar⟩ := openOwn_shut hs
    unfold read
    rw [Work.bind_error hopen]
    exact hbar.base

/-- The answer is what the query gives, or a fault strikes and it fails alike under every limit. -/
theorem answerTo_cases (l : Ledger) (s : Session) (order : Order) :
    (s.handle.planned? .execute = none ∧ s.handle.planned? .rollback = none ∧
        ∀ limit, l.answerTo s order limit =
          ((l.query order limit s.store).map Prod.fst).mapError unread) ∨
      ((s.handle.planned? .execute ≠ none ∨ s.handle.planned? .rollback ≠ none) ∧
        ∃ f, ∀ limit, l.answerTo s order limit = .error f) := by
  unfold answerTo
  rcases s.handle.planned? .rollback with _ | f
  · rcases s.handle.planned? .execute with _ | f
    · exact .inl ⟨rfl, rfl, fun _ => rfl⟩
    · exact .inr ⟨.inl (by simp), unread f, fun _ => rfl⟩
  · exact .inr ⟨.inr (by simp), f, fun _ => rfl⟩

section Answer

variable {order : Order} {limit : Option Int}

/-- The rows of an answer are those that the query finds. -/
theorem query_of_answerTo {rows : List LedgerRow} (h : l.answerTo s order limit = .ok rows) :
    l.query order limit s.store = .ok (rows, s.store) := by
  rcases l.answerTo_cases s order with ⟨_, _, hfree⟩ | ⟨_, f, hstruck⟩
  · rw [hfree] at h
    rcases hq : l.query order limit s.store with f | ⟨found, us⟩
    · rw [hq] at h
      cases h
    · rw [hq] at h
      cases h
      rw [query_tables hq]
  · exact nomatch h.symm.trans (hstruck limit)

/-- Without planned faults an answer fails only as its query does. -/
theorem query_failed_of_answerTo {f : Failure} (h : l.answerTo s order limit = .error f)
    (hp : s.handle.plan = []) : ∃ f', l.query order limit s.store = .error f' := by
  rcases l.answerTo_cases s order with ⟨_, _, hfree⟩ | ⟨hstruck, _⟩
  · rw [hfree] at h
    rcases hq : l.query order limit s.store with f' | ⟨found, us⟩
    · exact ⟨f', rfl⟩
    · rw [hq] at h
      cases h
  · simp [Handle.planned?_nil hp] at hstruck

end Answer

/-- A reading fails, or gives what the query finds; it leaves the store either way. -/
theorem read_cases (l : Ledger) (hr : s.Between) (order : Order) (limit : Option Int) :
    (∃ f s', l.read order limit s = .error f s' ∧ s.Leaves s.store s' ∧ s'.calls = s.calls ∧
        (s.handle.plan = [] →
          s.handle.connection.blocked ≠ none ∨ ∃ f', l.query order limit s.store = .error f')) ∨
      ∃ rows s', l.read order limit s = .ok rows s' ∧
        l.query order limit s.store = .ok (rows, s.store) ∧
        s.Leaves s.store s' ∧ s'.calls = s.calls := by
  rcases hb : s.handle.beginRefusal? with _ | f
  · obtain ⟨h', hset, hread⟩ := l.read_opened ⟨hr.idle, hb⟩ order
    rw [hread limit]
    rcases ha : l.answerTo s order limit with f | rows
    · exact .inl ⟨f, _, rfl, ⟨hset, .refl _⟩, rfl,
        fun hnil => .inr (query_failed_of_answerTo ha hnil)⟩
    · exact .inr ⟨rows, _, rfl, query_of_answerTo ha, ⟨hset, .refl _⟩, rfl⟩
  · obtain ⟨e, rfl⟩ := hr.faults.of_beginRefusal? hb
    obtain ⟨h', hopen, hset⟩ := openOwn_refused hr hb
    exact .inl ⟨_, _, Work.bind_error hopen _, ⟨hset, .refl _⟩, rfl,
      fun hnil => .inl (blocked_of_refusal hb hnil)⟩

end SchemaLedger.Ledger
