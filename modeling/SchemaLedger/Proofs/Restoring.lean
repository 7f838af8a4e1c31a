-- Where the reverse of a migration restores what applying it changed, reverting it takes
-- back the whole application: the tables of the migration, and of the ledger the row and
-- its id.
import SchemaLedger.Proofs.FullRun
import SchemaLedger.Proofs.Rollback

namespace SchemaLedger

/-! ## Stores that hold the same tables -/

/-- Two stores hold the same tables, in whatever order these were created. -/
def Tables.Same (ts us : Tables) : Prop := ∀ name, ts.find? name = us.find? name

namespace Ledger

/-- Two stores hold the same tables, but for the ledger. -/
def Agree (l : Ledger) (ts us : Tables) : Prop :=
  ∀ name, sameName l.table name = false → ts.find? name = us.find? name

variable {l : Ledger} {ts us vs : Tables} {rows : List LedgerRow}

/-- Of a table with one row more, whose version is new, removing that version leaves the
table. -/
theorem Shows.delete_new {t : Table} (hs : Shows t rows) {v : String}
    (hv : v ∉ rows.map LedgerRow.version) {r : Row}
    (hr : Table.matching 0 (some v) r = true) :
    { t with rows := t.rows ++ [r] }.countAt 0 (some v) = 1 ∧
      { t with rows := t.rows ++ [r] }.deleteAt 0 (some v) = t := by
  have hold : ∀ q ∈ t.rows, Table.matching 0 (some v) q = false := by
    intro q hq
    rw [hs.rows] at hq
    obtain ⟨row, hrow, rfl⟩ := List.mem_map.mp hq
    rw [matching_row, beq_eq_false_iff_ne]
    intro he
    exact hv (he ▸ List.mem_map_of_mem hrow)
  have hnone : t.rows.filter (Table.matching 0 (some v)) = [] := by
    rw [List.filter_eq_nil_iff]
    intro q hq
    simp [hold q hq]
  have hall : (t.rows.filter fun q => !Table.matching 0 (some v) q) = t.rows := by
    rw [List.filter_eq_self]
    intro q hq
    simp [hold q hq]
  constructor
  · simp [Table.countAt, List.filter_append, hnone, hr]
  · simp [Table.deleteAt, List.filter_append, hall, hr]

/-- Removing what was just recorded gives the ledger's table back as it was, and leaves
every other table. -/
theorem Holds.undo_entry (h : l.Holds ts rows) {v a : String} {d : Cell} {k : Nat}
    (hrun : (l.entry v d a).run ts = .ok (k, us)) (hvs : vs.find? l.table = us.find? l.table) :
    ∃ ws, (l.removal v).run vs = .ok (1, ws) ∧ ws.find? l.table = ts.find? l.table ∧
      l.Agree ws vs := by
  obtain ⟨t, ht, hs⟩ := h.shown
  have hn : sameName t.name l.table = true := Tables.sameName_of_find? ht
  rw [run_entry ht hs.columns] at hrun
  rcases hcheck : t.check t.rows [some v, d, some a] with e | _
  · rw [hcheck] at hrun
    cases hrun
  · rw [hcheck] at hrun
    cases hrun
    have hv := ((h.check_entry ht v d a).mp hcheck).2
    obtain ⟨hcount, hdelete⟩ := hs.delete_new hv (r := ⟨t.nextId, [some v, d, some a]⟩)
      (by simp [Table.matching, Table.cellAt])
    have hfind := hvs.trans (Tables.find?_replace_self ht hn)
    refine ⟨vs.replace l.table t, ?_, ?_, ?_⟩
    · rw [run_removal_iff]
      exact ⟨_, 0, hfind, columnIndex?_version hs.columns, hcount.symm, by rw [hdelete]⟩
    · rw [Tables.find?_replace_self hfind hn, ht]
    · intro name hname
      exact Tables.find?_replace_other hname hn

end Ledger

/-! ## One migration -/

namespace Migration

variable {l : Ledger} {m : Migration} {s s₁ q : Session} {rows : List LedgerRow}

/-- In every store that holds the tables of `us` the reverse of a migration succeeds and
gives the tables of `ts`, but for the ledger. -/
def Restores (l : Ledger) (m : Migration) (ts us : Tables) : Prop :=
  ∀ vs, us.Same vs → (m.down.alone vs).result = .ok () ∧ l.Agree ts (m.down.alone vs).tables

/-- A migration that was applied has succeeded on the tables, and then its row was written. -/
theorem apply_made (hr : s.Ready) (hl : l.Holds s.store rows) (hf : m.Fair l) {o : Outcome}
    (happ : m.apply l s = .ok o s₁) :
    ∃ n d k a, (m.upEffect s.handle.plan n s.store).result = .ok () ∧
      (l.entry m.version d a).run (m.upEffect s.handle.plan n s.store).tables =
        .ok (k, s₁.store) := by
  rcases apply_cases hr hf hl with
    ⟨f, _, _, s', _, hrun, _, _⟩ | ⟨us, o₁, s', _, _, hatt, hrun, _, _, hleaves, _, _, _, _, _⟩
  · exact nomatch happ.symm.trans hrun
  · obtain ⟨-, rfl⟩ : o = o₁ ∧ s₁ = s' := by
      rw [hrun] at happ
      cases happ
      exact ⟨rfl, rfl⟩
    obtain rfl : s₁.store = us := hleaves.store_eq
    cases hatt with
    | done _ hres _ hpart _ =>
      obtain ⟨d, a, k, _, _, hrow⟩ := Ledger.recorded?_eq hpart
      exact ⟨_, d, k, a, hres, hrow⟩

/-- What applying a migration made is taken back by reverting it, ledger and all. -/
theorem revert_applied (hr : s.Ready) (hl : l.Holds s.store rows) (hf : m.Fair l)
    (hfb : m.FairBack l) {o : Outcome} (happ : m.apply l s = .ok o s₁)
    (hback : m.Restores l s.store s₁.store) (hc : q.Calm)
    (hb : q.handle.connection.blocked = none) (hsame : s₁.store.Same q.store) :
    ∃ o' q', m.revert l q = .ok o' q' ∧ o'.version = m.version ∧ o'.description = m.description ∧
      q.Leaves q'.store q' ∧ q'.calls = q.calls ++ [m.downCall] ∧ s.store.Same q'.store := by
  obtain ⟨n, d, k, a, _, hrow⟩ := apply_made hr hl hf happ
  have hup : (m.upEffect s.handle.plan n s.store).tables.find? l.table = s.store.find? l.table :=
    Routine.find?_effect hf.avoids _ _ _
  have hdown : (m.down.alone q.store).tables.find? l.table = s₁.store.find? l.table :=
    (Routine.find?_effect hfb.avoids _ _ _).trans (hsame l.table).symm
  obtain ⟨hok, hagree⟩ := hback q.store hsame
  obtain ⟨ws, hremoved, hledger, hothers⟩ := (hl.of_find? hup).undo_entry hrow hdown
  obtain ⟨o', q', hrevert, hv, hd, hleaves, hcalls⟩ :=
    revert_calm_done hc hb hfb.leavesOpen hok hremoved (by omega)
  obtain rfl : q'.store = ws := hleaves.store_eq
  refine ⟨o', q', hrevert, hv, hd, hleaves, hcalls, fun name => ?_⟩
  rcases hname : sameName l.table name with _ | _
  · rw [hothers name hname]
    exact hagree name hname
  · rw [← Tables.find?_congr hname, ← Tables.find?_congr hname, hledger, hup]

/-- A migration that creates a table and drops it again is restored by its reverse. -/
theorem restores_creation (hr : s.Ready) (hl : l.Holds s.store rows) (hf : m.Fair l)
    {table : Table} {spelled : String}
    (hup : m.up = .ofActions [.send (.statement (.create table spelled false))])
    (hdown : m.down = .ofActions [.send (.statement (.drop table.name))])
    {o : Outcome} (happ : m.apply l s = .ok o s₁) (hn : sameName l.table table.name = false) :
    m.Restores l s.store s₁.store := by
  obtain ⟨n, d, k, a, hok, hrow⟩ := apply_made hr hl hf happ
  obtain ⟨hnone, hmade⟩ : s.store.find? table.name = none ∧
      (m.upEffect s.handle.plan n s.store).tables = s.store ++ [table] := by
    unfold upEffect at hok ⊢
    rw [hup, Routine.effect_send] at hok ⊢
    rcases hanswer : Command.answer (.statement (.create table spelled false))
        (Handle.faultAt s.handle.plan .execute n) s.store with f | us
    · rw [hanswer] at hok
      cases hok
    · exact Command.answer_create hanswer
  have hnew : ∀ name, sameName l.table name = false →
      s₁.store.find? name = Tables.find? (s.store ++ [table]) name := by
    intro name hname
    rw [← hmade]
    refine Statement.run_tabular.frame (fun t ht => ?_) hrow
    cases ht
    exact hname
  intro vs hsame
  have hthere : vs.find? table.name = some table := by
    rw [← hsame, hnew _ hn]
    exact Tables.find?_append_new hnone (sameName_refl _)
  have hdropped : m.down.alone vs = ⟨.ok (), vs.remove table.name, 1⟩ := by
    have hrun : Command.run (.statement (.drop table.name)) vs = .ok (vs.remove table.name) := by
      simp only [Command.run, Command.read, Statement.step, Statement.run, hthere]
      rfl
    unfold Routine.alone
    rw [hdown, Routine.effect_send]
    simp only [Command.answer, hrun]
  rw [hdropped]
  refine ⟨rfl, fun name hname => ?_⟩
  dsimp only
  rcases hsame' : sameName table.name name with _ | _
  · rw [Tables.find?_remove_other hsame', ← hsame, hnew name hname,
      Tables.find?_append_other hsame']
  · rw [Tables.find?_remove_self hsame', ← Tables.find?_congr hsame', hnone]

end Migration
end SchemaLedger
