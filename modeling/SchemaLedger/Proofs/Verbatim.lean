-- Texts in a script. A migration whose script inserts a quoted text adds one row with just this
-- text, unless the text holds what a value is looked for; then the migration fails.
import SchemaLedger.Migration.Draft
import SchemaLedger.Proofs.Calm
import SchemaLedger.Proofs.Insertions
import SchemaLedger.Proofs.ScriptSplit

namespace SchemaLedger

/-! ## A row with a name -/

namespace Table

/-- A row can be added that gives a name and nothing else. -/
structure TakesName (t : Table) : Prop where
  named : (t.columnIndex? "name").isSome
  repeats : ∀ c ∈ t.columns, sameName "name" c.name = true → c.unique = false
  omits : ∀ c ∈ t.columns, sameName "name" c.name = false → c.required = false

/-- The cell of a row with a name. -/
def nameCell (x : String) (c : Column) : Cell := if sameName "name" c.name then some x else none

/-- The next row, if it has a name. -/
def nameRow (t : Table) (x : String) : Row := ⟨t.nextId, t.columns.map (nameCell x)⟩

/-- The table with one more row, which has a name. -/
def withName (t : Table) (x : String) : Table := { t with rows := t.rows ++ [t.nameRow x] }

variable {t : Table} {x : String}

theorem cellsFor_name (t : Table) (x : String) :
    Statement.cellsFor t [("name", some x)] = t.columns.map (nameCell x) := by
  refine List.map_congr_left fun c _ => ?_
  cases h : sameName "name" c.name <;> simp [nameCell, h]

theorem TakesName.check (h : t.TakesName) (rows : List Row) (x : String) :
    t.check rows (t.columns.map (nameCell x)) = .ok () := by
  have hmissing : t.missing? (t.columns.map (nameCell x)) = none := by
    rw [missing?, ← List.map_prod_left_eq_zip, Option.map_eq_none_iff, List.find?_eq_none]
    rintro _ hp
    obtain ⟨c, hc, rfl⟩ := List.mem_map.mp hp
    cases hn : sameName "name" c.name with
    | true => simp [nameCell, hn]
    | false => simp [h.omits c hc hn]
  have hduplicate : t.duplicateIn? rows (t.columns.map (nameCell x)) = none := by
    have hcells : t.columns.map (nameCell x) = t.columns.zipIdx.map fun p => nameCell x p.1 := by
      rw [← Function.comp_def, ← List.map_map, List.zipIdx_map_fst]
    rw [duplicateIn?, hcells, ← List.map_prod_left_eq_zip, Option.map_eq_none_iff,
      List.find?_eq_none]
    rintro _ hp
    obtain ⟨⟨c, i⟩, hc, rfl⟩ := List.mem_map.mp hp
    cases hn : sameName "name" c.name with
    | true => simp [h.repeats c (List.fst_mem_of_mem_zipIdx hc) hn]
    | false => simp [nameCell, hn]
  rw [Table.check, hmissing, hduplicate]

theorem TakesName.run_insert (h : t.TakesName) {ts : Tables} {n : String} (ht : ts.find? n = some t)
    (x : String) :
    (Statement.insert n [("name", some x)]).run ts = .ok (1, ts.replace n (t.withName x)) := by
  have hcheck := h.check t.rows x
  rw [← cellsFor_name] at hcheck
  rw [Statement.run, Statement.insertInto_ok ht (by simpa using h.named) hcheck, cellsFor_name]
  rfl

theorem TakesName.cellAt_name (h : t.TakesName) (x : String) :
    (t.columnIndex? "name").map (cellAt (t.nameRow x)) = some (some x) := by
  obtain ⟨i, hi⟩ := Option.isSome_iff_exists.mp h.named
  obtain ⟨hlt, hname, -⟩ := List.findIdx?_eq_some_iff_getElem.mp hi
  rw [hi]
  simp [cellAt, nameRow, List.getElem?_eq_getElem hlt, nameCell, sameName_symm hname]

end Table

/-! ## Inserting a text -/

namespace Migration

variable {l : Ledger} {m : Migration} {s : Session}

/-- The forward script of a migration inserts a text into a table. -/
def Inserts (m : Migration) (table text : String) : Prop :=
  ∃ description down d,
    Draft.ofSql (.text m.version) (.text description) (Sql.insertion table text ++ ";") down = .ok d ∧
      d.accept? = some m

variable {n x : String}

/-- What a migration that is given as two scripts does. -/
theorem of_ofSql {v up down : String} {description : Value} {d : Draft}
    (hdraft : Draft.ofSql (.text v) description up down = .ok d) (haccept : d.accept? = some m) :
    m.description = description ∧ m.up = .ofScript (Sql.statements up) := by
  unfold Draft.ofSql at hdraft
  split at hdraft
  · cases hdraft
  · split at hdraft
    · cases hdraft
    · cases hdraft
      simp only [Draft.accept?] at haccept
      split at haccept
      · cases haccept
      · cases haccept
        exact ⟨rfl, rfl⟩

theorem Inserts.description (h : m.Inserts n x) :
    ∃ text, describe m.description = .ok (some text) := by
  obtain ⟨description, down, d, hdraft, haccept⟩ := h
  rw [(of_ofSql hdraft haccept).1]
  exact ⟨description, rfl⟩

theorem Inserts.up (h : m.Inserts n x) (hn : Sql.PlainName n) (hx : Sql.Quotable x.toList) :
    m.up = .ofScript [Sql.insertion n x] := by
  obtain ⟨description, down, d, hdraft, haccept⟩ := h
  rw [(of_ofSql hdraft haccept).2, Sql.statements_one (Sql.simple_insertion hn.word hx)]

/-- There is such a migration under every version. -/
theorem exists_inserts (hn : Sql.PlainName n) (hx : Sql.Quotable x.toList) {v : String}
    (hv : v ≠ "") : ∃ m : Migration, m.version = v ∧ m.Inserts n x := by
  have hscript : (Text.trim (Sql.insertion n x ++ ";").toList).isEmpty = false := by
    have htrim := Sql.trim_part (Sql.simple_insertion hn.word hx) []
    rw [List.nil_append] at htrim
    have hchars : (Sql.insertion n x ++ ";").toList = (Sql.insertion n x).toList ++ [';'] := by simp
    rw [hchars, htrim]
    simp
  have hempty : v.isEmpty = false := by simpa using hv
  let change : Change :=
    { form := .sql, up := .ofScript (Sql.statements (Sql.insertion n x ++ ";")),
      down := .ofScript (Sql.statements "SELECT 1") }
  refine ⟨{ change with version := v }, rfl, "", "SELECT 1", { change with version := .text v },
    ?_, ?_⟩
  · have hdown : (Text.trim "SELECT 1".toList).isEmpty = false := by decide +kernel
    rw [Draft.ofSql, hscript, hdown]
    rfl
  · simp [Draft.accept?, hempty]

/-- What the script comes to is what its one statement comes to. -/
theorem Inserts.alone_eq (h : m.Inserts n x) (hn : Sql.PlainName n) (hx : Sql.Quotable x.toList)
    (ts : Tables) :
    m.up.alone ts =
      match (Command.text (Sql.insertion n x)).run ts with
      | .ok us => ⟨.ok (), us, 1⟩
      | .error f => ⟨.error f, ts, 1⟩ := by
  rw [h.up hn hx]
  exact Routine.effect_send _ _ 0 ts

theorem Inserts.alone_done (h : m.Inserts n x) (hn : Sql.PlainName n) (hx : Sql.Quotable x.toList)
    (hverbatim : Sql.Verbatim x.toList) {ts : Tables} {t : Table} (ht : ts.find? n = some t)
    (htn : t.TakesName) : m.up.alone ts = ⟨.ok (), ts.replace n (t.withName x), 1⟩ := by
  have hread := (Sql.readStatement_insertion hn hx).1 hverbatim
  have hrun : (Command.text (Sql.insertion n x)).run ts = .ok (ts.replace n (t.withName x)) := by
    rw [Command.run, Command.read, hread]
    simp only [Statement.step, htn.run_insert ht]
    rfl
  rw [h.alone_eq hn hx, hrun]

theorem Inserts.alone_failed (h : m.Inserts n x) (hn : Sql.PlainName n) (hx : Sql.Quotable x.toList)
    (hnot : ¬ Sql.Verbatim x.toList) (ts : Tables) :
    ∃ e, m.up.alone ts = ⟨.error (.store e), ts, 1⟩ := by
  obtain ⟨e, hread⟩ := (Sql.readStatement_insertion hn hx).2 hnot
  have hrun : (Command.text (Sql.insertion n x)).run ts = .error (.store e) := by
    rw [Command.run, Command.read, hread]
  exact ⟨e, by rw [h.alone_eq hn hx, hrun]⟩

theorem Inserts.leavesOpen (h : m.Inserts n x) (hn : Sql.PlainName n) (hx : Sql.Quotable x.toList) :
    m.up.LeavesOpen := by
  rw [h.up hn hx]
  exact .ofScript _

theorem Inserts.plain (h : m.Inserts n x) (hn : Sql.PlainName n) (hx : Sql.Quotable x.toList) :
    m.up.Plain := by
  rw [h.up hn hx]
  exact .ofScript _

/-- A table in which a row can have a name is not the ledger's. -/
theorem sameName_ledger {rows : List LedgerRow} {ts : Tables} {t : Table} (hl : l.Holds ts rows)
    (ht : ts.find? n = some t) (htn : t.TakesName) : sameName n l.table = false := by
  rw [Bool.eq_false_iff]
  intro hsame
  obtain ⟨u, hu, hshows⟩ := hl.shown
  obtain rfl : t = u := Option.some.inj (ht.symm.trans ((Tables.find?_congr hsame _).trans hu))
  have hnamed := htn.named
  rw [Table.columnIndex?, hshows.columns] at hnamed
  exact absurd hnamed (by decide)

/-- A text in quotes is inserted as it stands, unless it holds something that a value is looked
for or a null character. Then the migration fails and leaves the store as it was. -/
theorem a_quoted_text_is_inserted_as_it_stands_unless_a_value_is_looked_for_in_it
    {rows : List LedgerRow} {t : Table} (hc : s.Calm) (hb : s.handle.connection.blocked = none)
    (hd : s.clock.Dated) (hl : l.Holds s.store rows) (hn : Sql.PlainName n)
    (ht : s.store.find? n = some t) (htn : t.TakesName) (hx : Sql.Quotable x.toList)
    (hm : m.Inserts n x) (hv : m.version ∉ rows.map LedgerRow.version) :
    (Sql.Verbatim x.toList → ∃ o s' r row, m.apply l s = .ok o s' ∧ s.Leaves s'.store s' ∧
        s'.store.find? n = some { t with rows := t.rows ++ [r] } ∧
        (t.columnIndex? "name").map (Table.cellAt r) = some (some x) ∧
        l.Holds s'.store (rows ++ [row]) ∧ row.version = m.version ∧
        ∀ other, sameName n other = false → sameName l.table other = false →
          s'.store.find? other = s.store.find? other) ∧
      (¬ Sql.Verbatim x.toList → ∃ e s',
        m.apply l s = .error (.execution m.version .up (.store e)) s' ∧ s.Leaves s.store s') := by
  have ho : m.up.LeavesOpen := hm.leavesOpen hn hx
  have hother : sameName n l.table = false := sameName_ledger hl ht htn
  have hname : sameName t.name n = true := Tables.sameName_of_find? ht
  constructor
  · intro hverbatim
    have hdone := hm.alone_done hn hx hverbatim ht htn
    have hholds : l.Holds (m.up.alone s.store).tables rows := by
      rw [hdone]
      exact hl.of_find? (Tables.find?_replace_other hother hname)
    obtain ⟨text, htext⟩ := hm.description
    obtain ⟨a, ha⟩ := (show s.clock.next.Dated from hd).stamp
    obtain ⟨o, s', k, happly, hleaves, hentry⟩ :=
      apply_calm_done hc hb ho (congrArg Effect.result hdone) hholds hv htext ha
    obtain ⟨_, _, _, hafter⟩ := hholds.of_run_entry hentry
    rw [hdone] at hentry
    have hframe (other : String) (h : sameName l.table other = false) :
        s'.store.find? other = (s.store.replace n (t.withName x)).find? other :=
      Statement.run_tabular.frame (by rintro _ ⟨⟩; exact h) hentry
    refine ⟨o, s', t.nameRow x, _, happly, hleaves, ?_, htn.cellAt_name x, hafter, rfl, ?_⟩
    · rw [hframe n (sameName_comm n l.table ▸ hother)]
      exact Tables.find?_replace_self ht hname
    · intro other hnot hnot'
      rw [hframe other hnot']
      exact Tables.find?_replace_other hnot hname
  · intro hnot
    obtain ⟨e, hfailed⟩ := hm.alone_failed hn hx hnot s.store
    obtain ⟨s', happly, hleaves⟩ :=
      apply_calm_failed (l := l) hc hb ho (hm.plain hn hx) (congrArg Effect.result hfailed)
    exact ⟨e, s', happly, hleaves⟩

/-! ## Two texts -/

/-- Colons, percent signs, semicolons and dashes are plain characters of a text where no value is
looked for. -/
theorem a_time_and_a_semicolon_are_inserted_as_they_stand :
    let l : Ledger := {}
    let t : Table := { name := "t", columns := [{ name := "name" }] }
    let s : Session :=
      { handle := { connection := { base := [l.filled [], t] } }, clock := .still 0 }
    ∃ m : Migration, m.Inserts "t" "at 10:30; -- 5 %" ∧ ∃ o s' r, m.apply l s = .ok o s' ∧
      s'.store.find? "t" = some { t with rows := [r] } ∧
      Table.cellAt r 0 = some "at 10:30; -- 5 %" := by
  intro l t s
  have hc : s.Calm := ⟨rfl, rfl⟩
  have hl : l.Holds s.store [] := Ledger.holds_filled l (by decide)
  have hd : s.clock.Dated := Readings.dated_still (by decide) (by decide)
  have hn : Sql.PlainName "t" := ⟨by decide +kernel, by decide⟩
  have hx : Sql.Quotable "at 10:30; -- 5 %".toList := by simp [Sql.Quotable]
  have htn : t.TakesName := ⟨by decide, by simp [t], by simp [t]⟩
  obtain ⟨m, -, hm⟩ := exists_inserts hn hx (show "001" ≠ "" by decide)
  obtain ⟨o, s', r, _, happly, -, hfind, hcell, -⟩ :=
    (a_quoted_text_is_inserted_as_it_stands_unless_a_value_is_looked_for_in_it hc rfl hd hl
      hn (by decide) htn hx hm (by simp)).1 ⟨by decide, by decide⟩
  exact ⟨m, hm, o, s', r, happly, hfind, Option.some.inj hcell⟩

/-- A colon and a word in the quotes make the migration fail. -/
theorem a_colon_and_a_word_in_quotes_are_not_inserted :
    let l : Ledger := {}
    let t : Table := { name := "t", columns := [{ name := "name" }] }
    let s : Session :=
      { handle := { connection := { base := [l.filled [], t] } }, clock := .still 0 }
    Sql.Quotable ":foo".toList ∧ t.TakesName ∧ s.store.find? "t" = some t ∧
      ∃ m : Migration, m.Inserts "t" ":foo" ∧ ∃ s',
        m.apply l s = .error (.execution "001" .up (.store (.unboundParameter "foo"))) s' ∧
        s'.store.find? "t" = some t := by
  intro l t s
  have hc : s.Calm := ⟨rfl, rfl⟩
  have hn : Sql.PlainName "t" := ⟨by decide +kernel, by decide⟩
  have hx : Sql.Quotable ":foo".toList := by simp [Sql.Quotable]
  have htn : t.TakesName := ⟨by decide, by simp [t], by simp [t]⟩
  have hread : Sql.readStatement (Sql.insertion "t" ":foo") = .error (.unboundParameter "foo") := by
    decide +kernel
  obtain ⟨m, hversion, hm⟩ := exists_inserts hn hx (show "001" ≠ "" by decide)
  have hfails : (m.up.alone s.store).result = .error (.store (.unboundParameter "foo")) := by
    rw [hm.alone_eq hn hx, Command.run, Command.read, hread]
  obtain ⟨s', happly, hleaves⟩ :=
    apply_calm_failed (l := l) hc rfl (hm.leavesOpen hn hx) (hm.plain hn hx) hfails
  rw [hversion] at happly
  refine ⟨hx, htn, by decide, m, hm, s', happly, ?_⟩
  rw [hleaves.store_eq]
  decide

end Migration

end SchemaLedger
