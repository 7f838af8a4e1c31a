-- A rollback count that is no smaller than the ledger. As long as the store can count so far it
-- asks for all rows, and the rollback does the same as one of all but for what it reports. A
-- larger count fails where the rows could be read, before any unit is called.
import SchemaLedger.Proofs.Reports
import SchemaLedger.Proofs.Rollback

namespace SchemaLedger

/-! ## Reading up to a limit -/

namespace Ledger

variable {l : Ledger} {s s' : Session} {rows : List LedgerRow}

/-- The rows up to a limit, if the store can count so far. -/
def upTo (rows : List LedgerRow) (limit : Option Int) : Except Failure (List LedgerRow) :=
  if limit.all fits then .ok (cutTo limit rows) else .error .limitTooLarge

theorem query_upTo {ts : Tables} (hrows : l.rowsIn ts = .ok rows) (order : Order)
    (limit : Option Int) :
    l.query order limit ts = (upTo (sort order rows) limit).map fun found => (found, ts) := by
  unfold query upTo
  rw [hrows]
  dsimp only
  split <;> rfl

/-- A reading fails alike under every limit, or gives the rows up to that limit and leaves the
store. -/
theorem read_upTo (hrows : l.rowsIn s.store = .ok rows) (order : Order) :
    (∃ f s₁, ∀ limit, l.read order limit s = .error f s₁) ∨
      ∃ s₁, s₁.store = s.store ∧ s₁.calls = s.calls ∧
        ∀ limit, l.read order limit s = Work.ended (upTo (sort order rows) limit) s₁ := by
  by_cases hs : s.handle.Opens
  · obtain ⟨h', hset, hread⟩ := l.read_opened hs order
    rcases l.answerTo_cases s order with ⟨_, _, hfree⟩ | ⟨_, f, hstruck⟩
    · refine .inr ⟨{ s with handle := h' }, hset.base, rfl, fun limit => ?_⟩
      rw [hread, hfree, query_upTo hrows]
      unfold upTo
      split <;> rfl
    · refine .inl ⟨f, { s with handle := h' }, fun limit => ?_⟩
      rw [hread, hstruck]
      rfl
  · obtain ⟨f, h', hopen, -⟩ := openOwn_shut hs
    exact .inl ⟨f, _, fun limit => Work.bind_error hopen _⟩

/-- Makes sure of the ledger and reads its rows. -/
def found (l : Ledger) (order : Order) (limit : Option Int) : Work (List LedgerRow) := do
  l.ensure
  l.read order limit

theorem asking_eq_found {α : Type} (l : Ledger) (order : Order) (limit : Option Int)
    (k : List LedgerRow → Work α) : l.asking order limit k = l.found order limit >>= k :=
  (bind_assoc _ _ _).symm

/-- Asked for its rows, a ledger in order or without a table fails alike under every limit, or
gives the rows up to that limit; it is made then, and no unit is called. -/
theorem found_upTo (hl : l.Has s.store rows) (order : Order) :
    (∃ f s₁, ∀ limit, l.found order limit s = .error f s₁) ∨
      ∃ s₁, s₁.store = l.made s.store ∧ s₁.calls = s.calls ∧
        ∀ limit, l.found order limit s = Work.ended (upTo (sort order rows) limit) s₁ := by
  unfold found
  rcases hensure : l.ensure s with ⟨_, s₁⟩ | ⟨f, s₁⟩
  · obtain ⟨hstore, hcalls⟩ := ensure_made hensure
    have hrows : l.rowsIn s₁.store = .ok rows := by
      rw [hstore]
      exact hl.made.rowsIn
    rcases read_upTo hrows order with ⟨f, s₂, hread⟩ | ⟨s₂, hstore', hcalls', hread⟩
    · exact .inl ⟨f, s₂, fun limit => (Work.bind_ok hensure _).trans (hread limit)⟩
    · exact .inr ⟨s₂, hstore'.trans hstore, hcalls'.trans hcalls,
        fun limit => (Work.bind_ok hensure _).trans (hread limit)⟩
  · exact .inl ⟨f, s₁, fun _ => Work.bind_error hensure _⟩

theorem found_calm (hc : s.Calm) (hu : l.Usable s) (hl : l.Has s.store rows) (order : Order) :
    ∃ s₁, l.found order none s = .ok (sort order rows) s₁ := by
  obtain ⟨s₁, _, _, _, hasking⟩ := l.asking_calm hc hu hl order Option.all_none pure
  rw [asking_eq_found, bind_pure] at hasking
  exact ⟨s₁, hasking⟩

end Ledger

/-! ## Counts that leave no row out -/

namespace RollbackCount

theorem upTo_all (rows : List LedgerRow) : Ledger.upTo rows all.limit? = .ok rows := rfl

/-- A count that is no smaller than the ledger cuts nothing off. -/
theorem upTo_exactly {n : Nat} {rows : List LedgerRow} (hlength : rows.length ≤ n)
    (hn : n < 2 ^ 63) : Ledger.upTo rows (exactly n).limit? = .ok rows := by
  have hcount : (exactly n).Countable := by
    rintro _ ⟨⟩
    exact hn
  unfold Ledger.upTo
  rw [if_pos hcount.fits, cutTo_limit?]
  exact congrArg Except.ok (List.take_of_length_le hlength)

theorem upTo_uncountable {n : Nat} (hn : 2 ^ 63 ≤ n) (rows : List LedgerRow) :
    Ledger.upTo rows (exactly n).limit? = .error .limitTooLarge := by
  refine if_neg ?_
  simp only [limit?, Option.all_some, Ledger.fits, Bool.and_eq_true, decide_eq_true_eq]
  omega

end RollbackCount

/-! ## Rollbacks -/

namespace Migrator

variable {m : Migrator} {s : Session} {rows : List LedgerRow} {n : Nat}

theorem rollBack_eq_found (m : Migrator) (count : RollbackCount) :
    m.rollBack count = m.ledger.found .newestFirst count.limit? >>= m.rollBackOn count := by
  rw [rollBack_eq, Ledger.asking_eq_found]

/-- A count that the store can hold and that is no smaller than the ledger means all. -/
theorem rollBack_exactly_all (hl : m.ledger.Has s.store rows) (hlength : rows.length ≤ n)
    (hn : n < 2 ^ 63) : EndsAlike (m.rollBack (.exactly n) s) (m.rollBack .all s) := by
  rw [rollBack_eq_found, rollBack_eq_found]
  rcases Ledger.found_upTo hl .newestFirst with ⟨f, s₁, hfound⟩ | ⟨s₁, _, _, hfound⟩
  · rw [Work.bind_error (hfound _), Work.bind_error (hfound _)]
    exact .refl _
  · have hsorted : (Ledger.sort .newestFirst rows).length ≤ n := by
      rwa [(Ledger.sort_ordered.same .newestFirst rows).length_eq]
    have hexactly := hfound (RollbackCount.exactly n).limit?
    rw [RollbackCount.upTo_exactly hsorted hn] at hexactly
    have hall := hfound RollbackCount.all.limit?
    rw [RollbackCount.upTo_all] at hall
    rw [Work.bind_ok hexactly, Work.bind_ok hall]
    exact Work.alike_rollBackOn m (.exactly n) _ s₁ s₁ (.refl s₁)

/-- Where the rows cannot be read a rollback fails alike whatever is asked for. -/
theorem rollBack_unread (hl : m.ledger.Has s.store rows) {f : Failure} {s₁ : Session}
    (hread : m.ledger.found .newestFirst none s = .error f s₁) (count : RollbackCount) :
    m.rollBack count s = .error f s₁ := by
  rw [rollBack_eq_found]
  rcases Ledger.found_upTo hl .newestFirst with ⟨f', s₂, hfound⟩ | ⟨s₂, _, _, hfound⟩
  · obtain ⟨rfl, rfl⟩ := EStateM.Result.error.inj (hread.symm.trans (hfound none))
    exact Work.bind_error (hfound _) _
  · exact nomatch hread.symm.trans (hfound none)

/-- Where the rows can be read a count that the store cannot hold fails. -/
theorem rollBack_uncountable (hl : m.ledger.Has s.store rows) (hn : 2 ^ 63 ≤ n)
    {found : List LedgerRow} {s₁ : Session}
    (hread : m.ledger.found .newestFirst none s = .ok found s₁) :
    m.rollBack (.exactly n) s = .error .limitTooLarge s₁ ∧ s₁.store = m.ledger.made s.store ∧
      s₁.calls = s.calls := by
  rw [rollBack_eq_found]
  rcases Ledger.found_upTo hl .newestFirst with ⟨f, s₂, hfound⟩ | ⟨s₂, hstore, hcalls, hfound⟩
  · exact nomatch hread.symm.trans (hfound none)
  · obtain ⟨-, rfl⟩ := EStateM.Result.ok.inj (hread.symm.trans (hfound none))
    have hexactly := hfound (RollbackCount.exactly n).limit?
    rw [RollbackCount.upTo_uncountable hn] at hexactly
    exact ⟨Work.bind_error hexactly _, hstore, hcalls⟩

/-- A count that is no smaller than the ledger means all, if the store can hold it. If not, the
rollback fails as one of all does where the rows cannot be read; where they can be, it fails
for the count alone, with the ledger made and no unit called. -/
theorem a_count_of_all_the_rows_means_all_where_the_store_can_hold_it
    (hl : m.ledger.Has s.store rows) {value word : Value}
    (hvalue : RollbackCount.ofValue value = .ok (.exactly n))
    (hword : RollbackCount.ofValue word = .ok .all) (hlength : rows.length ≤ n) :
    (n < 2 ^ 63 → EndsAlike (m.rollBackValue value s) (m.rollBackValue word s)) ∧
      (2 ^ 63 ≤ n →
        (∀ f s₁, m.ledger.found .newestFirst none s = .error f s₁ →
          m.rollBackValue value s = .error f s₁ ∧ m.rollBackValue word s = .error f s₁) ∧
        ∀ found s₁, m.ledger.found .newestFirst none s = .ok found s₁ →
          m.rollBackValue value s = .error .limitTooLarge s₁ ∧
            s₁.store = m.ledger.made s.store ∧ s₁.calls = s.calls) := by
  rw [rollBackValue_ok hvalue, rollBackValue_ok hword]
  refine ⟨rollBack_exactly_all hl hlength, fun hn => ⟨?_, ?_⟩⟩
  · intro f s₁ hread
    exact ⟨rollBack_unread hl hread _, rollBack_unread hl hread _⟩
  · intro found s₁ hread
    exact rollBack_uncountable hl hn hread

/-- Five of one row are all of it. So is the least number that the store cannot hold, but it
fails. -/
theorem counts_beyond_the_ledger_and_beyond_the_store :
    let catalog : Catalog :=
      { entries := [{ version := "001", up := .done, down := .done }],
        distinct := by decide, named := by decide }
    let m : Migrator := { catalog }
    let rows : List LedgerRow := [⟨5, "001", "books", "noon"⟩]
    let s : Session := { handle := { connection := { base := [m.ledger.filled rows] } } }
    let all : Value := .text "ALL"
    let huge : Value := .text "9223372036854775808"
    m.ledger.Has s.store rows ∧ RollbackCount.ofValue all = .ok .all ∧
      RollbackCount.ofValue (.int 5) = .ok (.exactly 5) ∧
      RollbackCount.ofValue huge = .ok (.exactly (2 ^ 63)) ∧ rows.length ≤ 5 ∧
      EndsAlike (m.rollBackValue (.int 5) s) (m.rollBackValue all s) ∧
      ∃ s₁, m.rollBackValue huge s = .error .limitTooLarge s₁ ∧ s₁.store = s.store ∧
        s₁.calls = [] := by
  intro catalog m rows s all huge
  have hl : m.ledger.Holds s.store rows := Ledger.holds_filled m.ledger (by decide)
  have hall : RollbackCount.ofValue all = .ok .all := rfl
  have hfive : RollbackCount.ofValue (.int 5) = .ok (.exactly 5) := rfl
  have hhuge : RollbackCount.ofValue huge = .ok (.exactly (2 ^ 63)) := rfl
  refine ⟨.inl hl, hall, hfive, hhuge, by decide, ?_, ?_⟩
  · exact (a_count_of_all_the_rows_means_all_where_the_store_can_hold_it (.inl hl) hfive hall
      (by decide)).1 (by decide)
  · obtain ⟨s₁, hread⟩ :=
      m.ledger.found_calm (s := s) ⟨rfl, rfl⟩ ⟨rfl, by decide⟩ (.inl hl) .newestFirst
    have huncountable := (a_count_of_all_the_rows_means_all_where_the_store_can_hold_it (.inl hl)
      hhuge hall (by decide)).2 (Nat.le_refl _)
    obtain ⟨hrun, hstore, hcalls⟩ := huncountable.2 _ s₁ hread
    rw [hl.made_eq] at hstore
    exact ⟨s₁, hrun, hstore, hcalls⟩

/-- The one row of a ledger is reverted when all are asked for. The least number that the store
cannot hold is accepted as a count, and fails. -/
theorem a_count_that_the_store_cannot_hold_is_not_all :
    let catalog : Catalog :=
      { entries := [{ version := "001", up := .done, down := .done }],
        distinct := by decide, named := by decide }
    let m : Migrator := { catalog }
    let row : LedgerRow := ⟨5, "001", "books", "noon"⟩
    let s : Session := { handle := { connection := { base := [m.ledger.filled [row]] } } }
    let huge : Value := .text "9223372036854775808"
    m.ledger.Holds s.store [row] ∧
      RollbackCount.ofValue huge = .ok (.exactly (2 ^ 63)) ∧ [row].length ≤ 2 ^ 63 ∧
      (∃ s₁, m.rollBackValue huge s = .error .limitTooLarge s₁ ∧ m.ledger.Holds s₁.store [row] ∧
        s₁.calls = []) ∧
      (∃ outs s₁, m.rollBackValue (.text "all") s = .ok outs s₁ ∧ m.ledger.Holds s₁.store []) ∧
      ¬ EndsAlike (m.rollBackValue huge s) (m.rollBackValue (.text "all") s) := by
  intro catalog m row s huge
  have hc : s.Calm := ⟨rfl, rfl⟩
  have hu : m.ledger.Usable s := ⟨rfl, by decide⟩
  have hl : m.ledger.Holds s.store [row] := Ledger.holds_filled m.ledger (by decide)
  have hhuge : RollbackCount.ofValue huge = .ok (.exactly (2 ^ 63)) := rfl
  have hword : RollbackCount.ofValue (.text "all") = .ok .all := rfl
  have hfair : ∀ x ∈ m.catalog.entries, x.FairBack m.ledger := by
    simp only [m, catalog, List.forall_mem_singleton]
    exact ⟨.done, .done, .done⟩
  have hfails : ∃ s₁, m.rollBackValue huge s = .error .limitTooLarge s₁ ∧
      m.ledger.Holds s₁.store [row] ∧ s₁.calls = [] := by
    obtain ⟨s₁, hread⟩ := Ledger.found_calm hc hu (.inl hl) .newestFirst
    obtain ⟨hrun, hstore, hcalls⟩ := rollBack_uncountable (.inl hl) (Nat.le_refl (2 ^ 63)) hread
    rw [hl.made_eq] at hstore
    exact ⟨s₁, (rollBackValue_ok hhuge).symm ▸ hrun, hstore ▸ hl, hcalls⟩
  have hreverts : ∃ outs s₁, m.rollBackValue (.text "all") s = .ok outs s₁ ∧
      m.ledger.Holds s₁.store [] := by
    obtain ⟨s₁, gone, units, s', _, _, hend⟩ :=
      rollBack_withdrawn hc hu (.inl hl) hfair (nofun : RollbackCount.all.Countable)
    rw [← rollBackValue_ok hword] at hend
    have hchosen : RollbackCount.first .all (Ledger.sort .newestFirst [row]) = [row] :=
      List.mergeSort_singleton row
    rw [hchosen] at hend
    have hholds := hend.holds
    rcases hend.ends with ⟨rfl, _, outs, hrun, _⟩ | ⟨r, later, f, calls, hstops, hhalt, _, _⟩
    · rw [List.filter_eq_nil_iff.mpr (by simp)] at hholds
      exact ⟨outs, s', hrun, hholds⟩
    · -- the row has a migration, whose reverse does nothing
      have hr : r = row := by
        have hmem : r ∈ [row] := hstops ▸ List.mem_append_right gone List.mem_cons_self
        exact List.mem_singleton.mp hmem
      cases hhalt with
      | unregistered h => exact absurd (hr ▸ List.mem_singleton_self "001") h
      | down hx _ hdown =>
        obtain rfl := List.mem_singleton.mp hx
        cases hdown
  refine ⟨hl, hhuge, by decide, hfails, hreverts, ?_⟩
  obtain ⟨s₁, hfails, _⟩ := hfails
  obtain ⟨outs, s₂, hreverts, _⟩ := hreverts
  rw [hfails, hreverts]
  exact nofun

end Migrator
end SchemaLedger
