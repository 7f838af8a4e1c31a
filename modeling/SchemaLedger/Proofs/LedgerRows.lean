-- The ledger's table as a list of rows. A ledger in order has the ledger's columns,
-- rows that give all of them, and no version twice; recording adds one row at the
-- end, removing takes out the row of a version, and both keep the order.
import SchemaLedger.Migration.Ledger
import SchemaLedger.Proofs.Frame

namespace SchemaLedger

/-- A row of the ledger as its table holds it. -/
def LedgerRow.row (r : LedgerRow) : Row := ⟨r.id, [some r.version, some r.description, some r.appliedAt]⟩

namespace Ledger

/-- The columns of every ledger. -/
def columns : List Column :=
  [{ name := "version", required := true, unique := true },
   { name := "description", required := true }, { name := "applied_at", required := true }]

/-- A table has the ledger's columns and holds `rows`. -/
structure Shows (t : Table) (rows : List LedgerRow) : Prop where
  key : t.key = some "id"
  columns : t.columns = columns
  rows : t.rows = rows.map LedgerRow.row

/-- The ledger of a store is in order and holds `rows`: no version comes twice. -/
structure Holds (l : Ledger) (ts : Tables) (rows : List LedgerRow) : Prop where
  shown : ∃ t, ts.find? l.table = some t ∧ Shows t rows
  distinct : (rows.map LedgerRow.version).Nodup

/-- The store has no table of the ledger's name. -/
def Absent (l : Ledger) (ts : Tables) : Prop := ts.find? l.table = none

/-- The ledger of a store is in order, and empty if its table is not there yet. -/
def Has (l : Ledger) (ts : Tables) (rows : List LedgerRow) : Prop :=
  l.Holds ts rows ∨ (l.Absent ts ∧ rows = [])

variable {l : Ledger} {t : Table} {ts us : Tables} {rows : List LedgerRow}

/-! ## Reading -/

theorem columnIndex?_version (h : t.columns = columns) : t.columnIndex? "version" = some 0 := by
  unfold Table.columnIndex?
  rw [h]
  decide

theorem columnIndex?_description (h : t.columns = columns) :
    t.columnIndex? "description" = some 1 := by
  unfold Table.columnIndex?
  rw [h]
  decide

theorem columnIndex?_appliedAt (h : t.columns = columns) :
    t.columnIndex? "applied_at" = some 2 := by
  unfold Table.columnIndex?
  rw [h]
  decide

theorem rowOf_row (h : t.columns = columns) (r : LedgerRow) : rowOf t r.row = r := by
  simp [rowOf, textAt, columnIndex?_version h, columnIndex?_description h,
    columnIndex?_appliedAt h, Table.cellAt, LedgerRow.row]

theorem no_column_missing (hk : t.key = some "id") (hc : t.columns = columns) :
    (columnNames.find? fun c => !t.hasColumn c) = none := by
  unfold Table.hasColumn Table.columnIndex?
  rw [hk, hc]
  decide

/-- What is read from a ledger in order is its rows. -/
theorem Holds.rowsIn (h : l.Holds ts rows) : l.rowsIn ts = .ok rows := by
  obtain ⟨t, ht, hs⟩ := h.shown
  unfold Ledger.rowsIn
  rw [ht]
  simp only [no_column_missing hs.key hs.columns, hs.rows, List.map_map]
  congr 1
  rw [← List.map_id rows, List.map_map]
  exact List.map_congr_left fun r _ => rowOf_row hs.columns r

theorem Holds.of_find? (h : l.Holds ts rows) (hf : us.find? l.table = ts.find? l.table) :
    l.Holds us rows := by
  obtain ⟨t, ht, hs⟩ := h.shown
  exact ⟨⟨t, hf.trans ht, hs⟩, h.distinct⟩

theorem Has.of_find? (h : l.Has ts rows) (hf : us.find? l.table = ts.find? l.table) :
    l.Has us rows := by
  rcases h with h | ⟨habsent, hrows⟩
  · exact .inl (h.of_find? hf)
  · exact .inr ⟨hf.trans habsent, hrows⟩

/-- The ledger's table with rows in it. -/
def filled (l : Ledger) (rows : List LedgerRow) : Table :=
  { l.shape with rows := rows.map LedgerRow.row }

theorem holds_filled (l : Ledger) {rows : List LedgerRow}
    (h : (rows.map LedgerRow.version).Nodup) {others : Tables} :
    l.Holds (l.filled rows :: others) rows := by
  refine ⟨⟨l.filled rows, ?_, rfl, rfl, rfl⟩, h⟩
  exact List.find?_cons_of_pos (sameName_refl l.table)

/-! ## Recording -/

/-- The statement that records a version. -/
def entry (l : Ledger) (version : String) (description : Cell) (appliedAt : String) : Statement :=
  .insert l.table
    [("version", some version), ("description", description), ("applied_at", some appliedAt)]

theorem cellsFor_entry (h : t.columns = columns) (v : String) (d : Cell) (a : String) :
    Statement.cellsFor t [("version", some v), ("description", d), ("applied_at", some a)] =
      [some v, d, some a] := by
  unfold Statement.cellsFor
  rw [h]
  simp [columns, sameName]

theorem missing?_entry (h : t.columns = columns) (v : String) (d : Cell) (a : String) :
    t.missing? [some v, d, some a] = none ↔ d ≠ none := by
  unfold Table.missing?
  rw [h]
  cases d <;> simp [columns]

theorem duplicateIn?_entry (h : t.columns = columns) (v : String) (d : Cell) (a : String) :
    t.duplicateIn? (rows.map LedgerRow.row) [some v, d, some a] = none ↔
      v ∉ rows.map LedgerRow.version := by
  unfold Table.duplicateIn?
  rw [h]
  simp [columns, Table.cellAt, LedgerRow.row]

/-- The id of the next row of a ledger. -/
def nextId (rows : List LedgerRow) : Nat := (rows.map LedgerRow.id).foldl max 0 + 1

theorem nextId_append {r : LedgerRow}
    (h : r.id = nextId rows) : nextId (rows ++ [r]) = nextId rows + 1 := by
  unfold nextId at *
  rw [List.map_append, List.foldl_append]
  simp only [List.map_cons, List.map_nil, List.foldl_cons, List.foldl_nil, h]
  omega

theorem Shows.nextId (h : Shows t rows) : t.nextId = Ledger.nextId rows := by
  unfold Table.nextId Ledger.nextId
  rw [h.rows, List.map_map]
  rfl

/-- A version can be recorded if the ledger does not have it and a description is given. -/
theorem Holds.check_entry (h : l.Holds ts rows) (ht : ts.find? l.table = some t) (v : String)
    (d : Cell) (a : String) :
    t.check t.rows [some v, d, some a] = .ok () ↔ d ≠ none ∧ v ∉ rows.map LedgerRow.version := by
  obtain ⟨t', ht', hs⟩ := h.shown
  obtain rfl := Option.some.inj (ht.symm.trans ht')
  rw [← missing?_entry hs.columns v d a, ← duplicateIn?_entry hs.columns v d a, ← hs.rows]
  unfold Table.check
  rcases t.missing? [some v, d, some a] with _ | c
  · rcases t.duplicateIn? t.rows [some v, d, some a] with _ | c <;> simp
  · simp

/-- Recording in a table with the ledger's columns is one checked insertion. -/
theorem run_entry (ht : ts.find? l.table = some t) (hc : t.columns = columns) (v : String)
    (d : Cell) (a : String) :
    (l.entry v d a).run ts =
      match t.check t.rows [some v, d, some a] with
      | .error e => .error e
      | .ok () =>
        .ok (1, ts.replace l.table
          { t with rows := t.rows ++ [⟨t.nextId, [some v, d, some a]⟩] }) := by
  simp only [entry, Statement.run, Statement.insertInto, ht, cellsFor_entry hc,
    Table.insertCells, List.find?_cons, List.find?_nil, columnIndex?_version hc,
    columnIndex?_description hc, columnIndex?_appliedAt hc, Option.isNone_some]
  rcases t.check t.rows [some v, d, some a] with e | _ <;> rfl

theorem Holds.append (h : l.Holds ts rows) (ht : ts.find? l.table = some t) {r : LedgerRow}
    (hid : r.id = t.nextId) (hv : r.version ∉ rows.map LedgerRow.version) :
    l.Holds (ts.replace l.table { t with rows := t.rows ++ [⟨t.nextId, r.row.cells⟩] })
      (rows ++ [r]) := by
  obtain ⟨t', ht', hs⟩ := h.shown
  obtain rfl := Option.some.inj (ht.symm.trans ht')
  have hn : sameName t.name l.table = true := Tables.sameName_of_find? ht
  refine ⟨⟨_, Tables.find?_replace_self ht hn, hs.key, hs.columns, ?_⟩, ?_⟩
  · simp only [hs.rows, List.map_append, List.map_cons, List.map_nil, ← hid]
    rfl
  · rw [List.map_append, List.map_cons, List.map_nil, List.nodup_append]
    refine ⟨h.distinct, by simp, ?_⟩
    intro a ha b hb hab
    rw [List.mem_singleton.mp hb] at hab
    exact hv (hab ▸ ha)

/-- What was recorded is one new row at the end, of a version that was not there. -/
theorem Holds.of_run_entry (h : l.Holds ts rows) {v a : String} {d : Cell} {k : Nat}
    (hr : (l.entry v d a).run ts = .ok (k, us)) :
    ∃ text, d = some text ∧ v ∉ rows.map LedgerRow.version ∧
      l.Holds us (rows ++ [⟨nextId rows, v, text, a⟩]) := by
  obtain ⟨t, ht, hs⟩ := h.shown
  rw [run_entry ht hs.columns] at hr
  rcases hc : t.check t.rows [some v, d, some a] with e | _
  · rw [hc] at hr
    cases hr
  · rw [hc] at hr
    cases hr
    obtain ⟨hd, hv⟩ := (h.check_entry ht v d a).mp hc
    obtain ⟨text, rfl⟩ := Option.ne_none_iff_exists'.mp hd
    exact ⟨text, rfl, hv, h.append ht (r := ⟨nextId rows, v, text, a⟩) hs.nextId.symm hv⟩

theorem Holds.run_entry_ok (h : l.Holds ts rows) {v : String} (hv : v ∉ rows.map LedgerRow.version)
    (text a : String) : ∃ p, (l.entry v (some text) a).run ts = .ok p := by
  obtain ⟨t, ht, hs⟩ := h.shown
  rw [run_entry ht hs.columns, (h.check_entry ht v (some text) a).mpr ⟨by simp, hv⟩]
  exact ⟨_, rfl⟩

/-! ## Removing -/

/-- The statement that removes a version. -/
def removal (l : Ledger) (version : String) : Statement := .delete l.table "version" (some version)

theorem run_removal_iff {v : String} {k : Nat} :
    (l.removal v).run ts = .ok (k, us) ↔
      ∃ t i, ts.find? l.table = some t ∧ t.columnIndex? "version" = some i ∧
        k = t.countAt i (some v) ∧ us = ts.replace l.table (t.deleteAt i (some v)) := by
  simp only [removal, Statement.run]
  rcases ts.find? l.table with _ | t
  · simp
  · rcases hi : t.columnIndex? "version" with _ | i
    · simp [hi]
    · simp [hi, eq_comm]

theorem matching_row (v : String) (r : LedgerRow) :
    Table.matching 0 (some v) r.row = (r.version == v) := by
  simp [Table.matching, Table.cellAt, LedgerRow.row]

/-- Removing counts the rows of a version and takes them out. -/
theorem Holds.run_removal (h : l.Holds ts rows) (v : String) :
    ∃ us, (l.removal v).run ts = .ok ((rows.filter (·.version == v)).length, us) ∧
      l.Holds us (rows.filter fun r => !(r.version == v)) := by
  obtain ⟨t, ht, hs⟩ := h.shown
  have hn : sameName t.name l.table = true := Tables.sameName_of_find? ht
  refine ⟨ts.replace l.table (t.deleteAt 0 (some v)),
    run_removal_iff.mpr ⟨t, 0, ht, columnIndex?_version hs.columns, ?_, rfl⟩, ?_⟩
  · unfold Table.countAt
    rw [hs.rows, List.filter_map, List.length_map]
    simp only [Function.comp_def, matching_row]
  · refine ⟨⟨_, Tables.find?_replace_self ht hn, hs.key, hs.columns, ?_⟩, ?_⟩
    · unfold Table.deleteAt
      simp only [hs.rows, List.filter_map, Function.comp_def, matching_row]
    · exact h.distinct.sublist (List.filter_sublist.map _)

/-! ## Making sure of the table -/

/-- The statement that creates the table unless it is there. -/
def creation (l : Ledger) : Statement := .create l.shape l.table true

/-- The tables with the ledger's table, which is added unless it is there. -/
def made (l : Ledger) (ts : Tables) : Tables :=
  if (ts.find? l.table).isSome then ts else ts ++ [l.shape]

theorem run_creation (l : Ledger) (ts : Tables) :
    l.creation.run ts =
      if Tables.isReserved l.table then .error (.reservedName l.table) else .ok (0, l.made ts) := by
  have hname : l.shape.name = l.table := rfl
  simp only [creation, Statement.run, made, hname, if_true]
  split
  · rfl
  · split
    · rfl
    · rfl

theorem Holds.made_eq (h : l.Holds ts rows) : l.made ts = ts := by
  obtain ⟨t, ht, _⟩ := h.shown
  unfold made
  rw [ht]
  rfl

/-- After the table is made sure of, the ledger is in order and no row was lost. -/
theorem Has.made (h : l.Has ts rows) : l.Holds (l.made ts) rows := by
  rcases h with h | ⟨h, rfl⟩
  · rw [h.made_eq]
    exact h
  · have hnone : ts.find? l.table = none := h
    unfold Ledger.made
    rw [hnone]
    refine ⟨⟨l.shape, ?_, rfl, rfl, rfl⟩, List.nodup_nil⟩
    exact Tables.find?_append_new h (sameName_refl l.table)

/-! ## The ledger's part of a transaction -/

/-- The tables after a version was recorded at the time that the clock shows, if it can be.
There may be no description that can be stored. -/
def recorded? (l : Ledger) (version : String) (description : Except Failure Cell)
    (clock : Readings) (ts : Tables) : Option Tables :=
  match Calendar.timestamp? clock.current, description with
  | some a, .ok d =>
    match (l.entry version d a).run ts with
    | .ok (_, us) => some us
    | .error _ => none
  | _, _ => none

/-- The tables after a version was removed, if it was there. -/
def removed? (l : Ledger) (version : String) (ts : Tables) : Option Tables :=
  match (l.removal version).run ts with
  | .ok (n, us) => if n = 0 then none else some us
  | .error _ => none

theorem recorded?_eq {v : String} {description : Except Failure Cell} {clock : Readings}
    (h : l.recorded? v description clock ts = some us) :
    ∃ d a k, description = .ok d ∧ Calendar.timestamp? clock.current = some a ∧
      (l.entry v d a).run ts = .ok (k, us) := by
  unfold recorded? at h
  split at h
  · rename_i a d ha
    split at h
    · rename_i k us' hr
      obtain rfl := Option.some.inj h
      exact ⟨d, a, k, rfl, ha, hr⟩
    · cases h
  · cases h

/-- A version that has no row can be recorded. -/
theorem Holds.recorded?_isSome (h : l.Holds ts rows) {v : String}
    (hv : v ∉ rows.map LedgerRow.version) (text : String) {clock : Readings} {a : String}
    (ha : Calendar.timestamp? clock.current = some a) :
    ∃ us, l.recorded? v (.ok (some text)) clock ts = some us := by
  obtain ⟨⟨k, us⟩, hrun⟩ := h.run_entry_ok hv text a
  refine ⟨us, ?_⟩
  simp only [recorded?, ha, hrun]

theorem removed?_eq {v : String} (h : l.removed? v ts = some us) :
    ∃ k, k ≠ 0 ∧ (l.removal v).run ts = .ok (k, us) := by
  unfold removed? at h
  split at h
  · rename_i k us' hr
    split at h
    · cases h
    · rename_i hk
      obtain rfl := Option.some.inj h
      exact ⟨k, hk, hr⟩
  · cases h

/-- Recording adds a row for a version that had none, with the time that was read. -/
theorem Holds.of_recorded? (h : l.Holds ts rows) {v : String}
    {description : Except Failure Cell} {clock : Readings}
    (hr : l.recorded? v description clock ts = some us) :
    ∃ text a, description = .ok (some text) ∧ Calendar.timestamp? clock.current = some a ∧
      v ∉ rows.map LedgerRow.version ∧ l.Holds us (rows ++ [⟨nextId rows, v, text, a⟩]) := by
  obtain ⟨d, a, k, rfl, ha, hrun⟩ := recorded?_eq hr
  obtain ⟨text, rfl, hv, hh⟩ := h.of_run_entry hrun
  exact ⟨text, a, rfl, ha, hv, hh⟩

/-- Removing takes out the row of a version that had one. -/
theorem Holds.of_removed? (h : l.Holds ts rows) {v : String} (hr : l.removed? v ts = some us) :
    v ∈ rows.map LedgerRow.version ∧ l.Holds us (rows.filter fun r => !(r.version == v)) := by
  obtain ⟨k, hk, hrun⟩ := removed?_eq hr
  obtain ⟨vs, hrun', hh⟩ := h.run_removal v
  rw [hrun] at hrun'
  obtain ⟨rfl, rfl⟩ := Prod.mk.inj (Except.ok.inj hrun')
  refine ⟨?_, hh⟩
  obtain ⟨r, hr⟩ := List.exists_mem_of_length_pos (Nat.pos_of_ne_zero hk)
  obtain ⟨hm, hv⟩ := List.mem_filter.mp hr
  exact List.mem_map.mpr ⟨r, hm, beq_iff_eq.mp hv⟩

end Ledger
end SchemaLedger
