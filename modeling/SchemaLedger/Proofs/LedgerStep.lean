-- What applying a migration does to a ledger in order. A routine that avoids the ledger's
-- table leaves its rows to the engine: applying adds one row, and if it fails it leaves all
-- of them.
import SchemaLedger.Proofs.LedgerAccess

namespace SchemaLedger

namespace Job

variable {l : Ledger} {s : Session} {rows : List LedgerRow}

/-- After a routine that avoids the ledger's table the ledger is in order as before. -/
theorem holds_effect {j : Job} (ha : j.routine.Avoids l.table) (h : l.Holds s.store rows) :
    l.Holds (j.effect s).tables rows :=
  h.of_find? (Routine.find?_effect ha _ _ _)

end Job

namespace Migration

variable {l : Ledger} {m : Migration} {s : Session} {rows : List LedgerRow}

/-- Applying a migration neither ends its transaction nor names the ledger's table; it fails
with plain failures only, and its description is stored or refused by the store. -/
structure Fair (l : Ledger) (m : Migration) : Prop where
  leavesOpen : m.up.LeavesOpen
  avoids : m.up.Avoids l.table
  plain : m.up.Plain
  describable : m.Describable

theorem Fair.holds_alone {ts : Tables} (hm : m.Fair l) (h : l.Holds ts rows) :
    l.Holds (m.up.alone ts).tables rows :=
  h.of_find? (Routine.find?_effect hm.avoids _ _ _)

/-- Applying a migration fails as an attempt does and leaves the store, or its version was
not in the ledger and is its last row now. -/
theorem apply_cases (hr : s.Ready) (hm : m.Fair l) (hl : l.Holds s.store rows) :
    (∃ f calls events s',
        (Job.applying l m).Attempt (s.begun (.applying m.version m.description.shown))
          (.error f) calls events ∧
        m.apply l s = .error f s' ∧ s.Leaves s.store s' ∧ s'.calls = s.calls ++ calls) ∨
      ∃ us o s' text a,
        (Job.applying l m).Attempt (s.begun (.applying m.version m.description.shown))
          (.ok us) [(Job.applying l m).call] [] ∧
        m.apply l s = .ok o s' ∧ o.version = m.version ∧ o.description = m.description ∧
        s.Leaves us s' ∧ s'.calls = s.calls ++ [(Job.applying l m).call] ∧
        describe m.description = .ok (some text) ∧
        Calendar.timestamp? (s.clock.nth (s.clock.taken + 1)) = some a ∧
        m.version ∉ rows.map LedgerRow.version ∧
        l.Holds us (rows ++ [⟨Ledger.nextId rows, m.version, text, a⟩]) := by
  rw [apply_eq]
  rcases Job.perform_cases (Job.applying_sound l hm.describable) hr hm.leavesOpen
      (fun _ => hm.plain.not_interrupted hr.faults _ _)
      (.applying m.version m.description.shown) .applied with
    ⟨f, calls, events, s', hatt, hrun, hreach⟩ | ⟨us, o, s', hatt, hrun, hv, hd, hreach⟩
  · exact .inl ⟨f, calls, events, s', hatt, hrun, hreach.leaves, hreach.calls⟩
  · have hpart : l.recorded? m.version (describe m.description) s.clock.next
        ((Job.applying l m).effect (s.begun (.applying m.version m.description.shown))).tables =
          some us := by
      cases hatt with
      | done _ _ _ hp _ => exact hp
    have hl' : l.Holds ((Job.applying l m).effect
        (s.begun (.applying m.version m.description.shown))).tables rows :=
      Job.holds_effect (j := Job.applying l m) hm.avoids hl
    obtain ⟨text, a, htext, hstamp, hnew, hus⟩ := hl'.of_recorded? hpart
    exact .inr ⟨us, o, s', text, a, hatt, hrun, hv, hd, hreach.leaves, hreach.calls, htext,
      hstamp, hnew, hus⟩

end Migration
end SchemaLedger
