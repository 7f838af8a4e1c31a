-- Stores apart from the times in the ledger. A statement that does not name a table does
-- the same whatever that table holds, so units that overlook the times come to the same
-- on stores that differ in nothing else, and so does recording a migration.
import SchemaLedger.Proofs.Effect
import SchemaLedger.Proofs.LedgerRows

namespace SchemaLedger

/-! ## Another content of one table -/

namespace Tables

variable {ts : Tables} {name other : String} {g : Table → Table} {t new : Table}

/-- The tables with what `g` makes of the tables of a name. -/
def onTable (name : String) (g : Table → Table) (ts : Tables) : Tables :=
  ts.map fun t => if sameName t.name name then g t else t

theorem find?_onTable_other (hg : ∀ t, (g t).name = t.name) (h : sameName name other = false) :
    (ts.onTable name g).find? other = ts.find? other := by
  unfold onTable find?
  induction ts with
  | nil => rfl
  | cons x xs ih =>
    rcases hx : sameName x.name name with _ | _
    · simp only [List.map_cons, hx, Bool.false_eq_true, if_false, List.find?_cons, ih]
    · simp only [List.map_cons, hx, if_true, List.find?_cons, hg, sameName_congr hx, h, ih]

theorem find?_onTable_self (hg : ∀ t, (g t).name = t.name) :
    (ts.onTable name g).find? name = (ts.find? name).map g := by
  unfold onTable find?
  induction ts with
  | nil => rfl
  | cons x xs ih =>
    rcases hx : sameName x.name name with _ | _
    · simp only [List.map_cons, hx, Bool.false_eq_true, if_false, List.find?_cons, ih]
    · simp only [List.map_cons, hx, if_true, List.find?_cons, hg, Option.map_some]

theorem replace_onTable_other (hg : ∀ t, (g t).name = t.name) (h : sameName name other = false)
    (hn : sameName new.name other = true) :
    (ts.onTable name g).replace other new = (ts.replace other new).onTable name g := by
  unfold onTable replace
  rw [List.map_map, List.map_map]
  refine List.map_congr_left fun x _ => ?_
  have hnew : sameName new.name name = false := by
    rw [sameName_congr hn, sameName_comm, h]
  rcases hx : sameName x.name name with _ | _
  · rcases hy : sameName x.name other with _ | _ <;> simp [hx, hy, hnew]
  · simp [hx, hg, sameName_congr hx, h]

theorem replace_onTable_self (hg : ∀ t, (g t).name = t.name) (hn : sameName new.name name = true) :
    (ts.replace name new).onTable name g = (ts.onTable name g).replace name (g new) := by
  unfold onTable replace
  rw [List.map_map, List.map_map]
  refine List.map_congr_left fun x _ => ?_
  rcases hx : sameName x.name name with _ | _ <;> simp [hx, hn, hg]

theorem remove_onTable (hg : ∀ t, (g t).name = t.name) :
    (ts.onTable name g).remove other = (ts.remove other).onTable name g := by
  unfold onTable remove
  rw [List.filter_map]
  congr 1
  refine List.filter_congr fun x _ => ?_
  rcases hx : sameName x.name name with _ | _ <;> simp [hx, hg]

theorem append_onTable (h : sameName t.name name = false) :
    onTable name g (ts ++ [t]) = ts.onTable name g ++ [t] := by
  unfold onTable
  simp [h]

end Tables

namespace Statement

variable {ts : Tables} {name : String} {g : Table → Table}

theorem insertInto_onTable (hg : ∀ t, (g t).name = t.name) {other : String}
    (h : sameName name other = false) (values : List (String × Cell)) :
    insertInto (ts.onTable name g) other values =
      (insertInto ts other values).map fun p => (p.1, p.2.onTable name g) := by
  simp only [insertInto, Tables.find?_onTable_other hg h]
  split
  · rfl
  · rename_i t ht
    split
    · rfl
    · split
      · rfl
      · rename_i u hu
        obtain ⟨_, rfl⟩ := Table.insertCells_eq hu
        have hn : sameName ({ t with rows := t.rows ++ [⟨t.nextId, cellsFor t values⟩] } : Table).name
            other = true := (Tables.sameName_of_find? ht :)
        simp only [Except.map, Tables.replace_onTable_other hg h hn]

theorem onTable_onTable (hg : ∀ t, (g t).name = t.name) {other : String}
    {change : Table → Except StoreError (Nat × Table)} (h : sameName name other = false)
    (hname : ∀ t n u, change t = .ok (n, u) → u.name = t.name) :
    onTable (ts.onTable name g) other change =
      (onTable ts other change).map fun p => (p.1, p.2.onTable name g) := by
  simp only [onTable, Tables.find?_onTable_other hg h]
  split
  · rfl
  · rename_i t ht
    split
    · rfl
    · rename_i n u hu
      have hn : sameName u.name other = true := by
        rw [hname t _ _ hu]
        exact Tables.sameName_of_find? ht
      simp only [Except.map, Tables.replace_onTable_other hg h hn]

theorem lookUp_onTable (hg : ∀ t, (g t).name = t.name) {other shown : String}
    {columns : List String} (h : sameName name other = false) :
    lookUp (ts.onTable name g) other shown columns =
      (lookUp ts other shown columns).map fun p => (p.1, p.2.onTable name g) := by
  simp only [lookUp, Tables.find?_onTable_other hg h]
  split
  · rfl
  · split <;> rfl

/-- A statement does the same whatever a table that it does not name holds. -/
theorem run_onTable (hg : ∀ t, (g t).name = t.name) {s : Statement}
    (hs : ∀ n, s.table? = some n → sameName n name = false) :
    s.run (ts.onTable name g) = (s.run ts).map fun p => (p.1, p.2.onTable name g) := by
  have named : ∀ {n : String}, s.table? = some n → sameName name n = false := by
    intro n hn
    rw [sameName_comm, hs n hn]
  cases s with
  | create table spelled ifAbsent =>
    simp only [run, Tables.find?_onTable_other hg (named rfl)]
    split
    · rfl
    · split
      · split <;> rfl
      · simp only [Except.map, Tables.append_onTable (hs _ rfl)]
  | drop other =>
    simp only [run, Tables.find?_onTable_other hg (named rfl)]
    split
    · rfl
    · simp only [Except.map, Tables.remove_onTable hg]
  | insert other values => exact insertInto_onTable hg (named rfl) values
  | insertMissing other column value =>
    simp only [run, Tables.find?_onTable_other hg (named rfl),
      insertInto_onTable hg (named rfl)]
    split
    · rfl
    · split
      · rfl
      · split <;> rfl
  | delete other column value =>
    simp only [run, Tables.find?_onTable_other hg (named rfl)]
    split
    · rfl
    · rename_i t ht
      split
      · rfl
      · rename_i i _
        have hn : sameName (t.deleteAt i value).name other = true :=
          (Tables.sameName_of_find? ht :)
        simp only [Except.map, Tables.replace_onTable_other hg (named rfl) hn]
  | update other target new column value =>
    simp only [run, Tables.find?_onTable_other hg (named rfl)]
    split
    · rfl
    · rename_i t ht
      split
      · rfl
      · rfl
      · split
        · rfl
        · rename_i u hu
          have hn : sameName u.name other = true := by
            rw [(Table.updateAt_go_sameHead _ _ hu).1]
            exact Tables.sameName_of_find? ht
          simp only [Except.map, Tables.replace_onTable_other hg (named rfl) hn]
  | insertValues other values => exact onTable_onTable hg (named rfl) insertedBy_name
  | addColumn other c => exact onTable_onTable hg (named rfl) addedBy_name
  | select other columns => exact lookUp_onTable hg (named rfl)
  | index other columns => exact lookUp_onTable hg (named rfl)
  | nothing => rfl

end Statement

theorem Command.run_onTable {ts : Tables} {name : String} {g : Table → Table}
    (hg : ∀ t, (g t).name = t.name) {c : Command}
    (hc : ∀ s, c.read = .ok s → ∀ t, s.table? = some t → sameName t name = false) :
    c.run (ts.onTable name g) = (c.run ts).map fun us => us.onTable name g := by
  unfold Command.run
  rcases hs : c.read with e | s
  · rfl
  · simp only [Statement.step, Statement.run_onTable hg (hc s hs)]
    rcases s.run ts with e | p <;> rfl

/-! ## The times of the ledger -/

/-- A table without what it holds as times. -/
def Table.untimed (t : Table) : Table :=
  match t.columnIndex? "applied_at" with
  | none => t
  | some i => { t with rows := t.rows.map fun r => { r with cells := r.cells.set i none } }

theorem Table.untimed_name (t : Table) : t.untimed.name = t.name := by
  unfold untimed
  split <;> rfl

namespace Ledger

/-- A store without the times of its ledger. All else of it is there: every other table,
and the ids, the versions and the descriptions of the ledger. -/
def timeless (l : Ledger) (ts : Tables) : Tables := ts.onTable l.table Table.untimed

end Ledger

namespace Routine

/-- What a routine does next does not depend on the times of a ledger. -/
inductive Overlooks (l : Ledger) : Routine → Prop where
  | done : Overlooks l .done
  | fail (f : Failure) : Overlooks l (.fail f)
  | send (c : Command) {next : Except Failure Tables → Routine} :
    (∀ ts us, l.timeless ts = l.timeless us → next (.ok ts) = next (.ok us)) →
    (∀ answer, Overlooks l (next answer)) → Overlooks l (.send c next)
  | commit {next : Except Failure Unit → Routine} :
    (∀ answer, Overlooks l (next answer)) → Overlooks l (.commit next)
  | rollback {next : Except Failure Unit → Routine} :
    (∀ answer, Overlooks l (next answer)) → Overlooks l (.rollback next)

theorem Overlooks.ofActions (l : Ledger) (actions : List Action) :
    (Routine.ofActions actions).Overlooks l := by
  induction actions with
  | nil => exact .done
  | cons a rest ih =>
    have next {α : Type} (answer : Except Failure α) :
        (Routine.orFail (Routine.ofActions rest) answer).Overlooks l := by
      cases answer with
      | ok => exact ih
      | error f => exact .fail f
    cases a with
    | send c => exact .send c (fun _ _ _ => rfl) next
    | fail f => exact .fail f
    | commit => exact .commit next
    | rollback => exact .rollback next

/-- On stores that differ in the times of the ledger alone a command that does not name it
is refused alike, or leaves stores that differ in nothing else again. -/
theorem run_of_timeless {l : Ledger} {c : Command} {ts us : Tables}
    (hc : ∀ s, c.read = .ok s → ∀ t, s.table? = some t → sameName t l.table = false)
    (h : l.timeless ts = l.timeless us) :
    (∃ f, c.run ts = .error f ∧ c.run us = .error f) ∨
      ∃ ts' us', c.run ts = .ok ts' ∧ c.run us = .ok us' ∧ l.timeless ts' = l.timeless us' := by
  have hts : c.run (l.timeless ts) = (c.run ts).map l.timeless :=
    Command.run_onTable Table.untimed_name hc
  have hus : c.run (l.timeless us) = (c.run us).map l.timeless :=
    Command.run_onTable Table.untimed_name hc
  rw [h, hus] at hts
  rcases hrt : c.run ts with f | ts' <;> rcases hru : c.run us with f' | us' <;>
    rw [hrt, hru] at hts
  · cases hts
    exact .inl ⟨_, rfl, rfl⟩
  · cases hts
  · cases hts
  · exact .inr ⟨ts', us', rfl, rfl, (Except.ok.inj hts).symm⟩

/-- A routine that overlooks the times of the ledger comes to the same on stores that
differ in nothing else. -/
theorem effect_of_timeless {l : Ledger} {r : Routine} (ho : r.Overlooks l) (ha : r.Avoids l.table)
    {ts us : Tables} (h : l.timeless ts = l.timeless us) (refused : Nat → Option Failure) (n : Nat) :
    (r.effect refused n ts).result = (r.effect refused n us).result ∧
      l.timeless (r.effect refused n ts).tables = l.timeless (r.effect refused n us).tables := by
  induction ho generalizing n ts us with
  | done => exact ⟨rfl, h⟩
  | fail f => exact ⟨rfl, h⟩
  | send c hnext _ ih =>
    cases ha with
    | send _ hc hrest =>
      simp only [effect, Command.answer]
      rcases refused n with _ | f
      · rcases run_of_timeless hc h with ⟨f, hrt, hru⟩ | ⟨ts', us', hrt, hru, h'⟩
        · rw [hrt, hru]
          exact ih _ (hrest _) h (n + 1)
        · rw [hrt, hru, hnext ts' us' h']
          exact ih _ (hrest _) h' (n + 1)
      · exact ih _ (hrest _) h (n + 1)
  | commit _ ih =>
    cases ha with
    | commit hrest => exact ih _ (hrest _) h n
  | rollback _ ih =>
    cases ha with
    | rollback hrest => exact ih _ (hrest _) h n

end Routine

/-! ## Recording at another time -/

namespace Ledger

variable {l : Ledger} {ts us : Tables} {rows rows' : List LedgerRow}

/-- A row without its time. -/
def untimedRow (r : Row) : Row := { r with cells := r.cells.set 2 none }

theorem untimed_eq {t : Table} (h : t.columns = columns) :
    t.untimed = { t with rows := t.rows.map untimedRow } := by
  unfold Table.untimed
  rw [columnIndex?_appliedAt h]
  rfl

/-- The ledgers of two stores that differ in its times alone have the same rows but for them. -/
theorem rows_of_timeless (h : l.Holds ts rows) (h' : l.Holds us rows')
    (ht : l.timeless ts = l.timeless us) :
    rows.map (fun r => (r.id, r.version)) = rows'.map fun r => (r.id, r.version) := by
  obtain ⟨t, hft, hs⟩ := h.shown
  obtain ⟨u, hfu, hs'⟩ := h'.shown
  have hfind := congrArg (fun vs : Tables => vs.find? l.table) ht
  simp only [timeless, Tables.find?_onTable_self Table.untimed_name, hft, hfu, Option.map_some,
    Option.some.injEq, untimed_eq hs.columns, untimed_eq hs'.columns] at hfind
  have hrows := congrArg Table.rows hfind
  simp only [hs.rows, hs'.rows, List.map_map] at hrows
  have hkeys := congrArg (List.map fun r : Row => (r.id, (r.cells.head?.getD none).getD "")) hrows
  simpa [List.map_map, Function.comp_def, untimedRow, LedgerRow.row] using hkeys

theorem nextId_of_timeless (h : l.Holds ts rows) (h' : l.Holds us rows')
    (ht : l.timeless ts = l.timeless us) : nextId rows = nextId rows' := by
  have hids := congrArg (List.map Prod.fst) (rows_of_timeless h h' ht)
  rw [List.map_map, List.map_map] at hids
  unfold nextId
  exact congrArg (fun ids : List Nat => ids.foldl max 0 + 1) hids

/-- Apart from the time, recording a migration adds the same row at every time. -/
theorem timeless_entry (h : l.Holds ts rows) {v a : String} {d : Cell} {k : Nat} {vs : Tables}
    (hrun : (l.entry v d a).run ts = .ok (k, vs)) :
    ∃ w, (l.timeless ts).find? l.table = some w ∧
      l.timeless vs = (l.timeless ts).replace l.table
        { w with rows := w.rows ++ [⟨nextId rows, [some v, d, none]⟩] } := by
  obtain ⟨t, hft, hs⟩ := h.shown
  have hn : sameName ({ t with rows := t.rows ++ [⟨t.nextId, [some v, d, some a]⟩] } : Table).name
      l.table = true := (Tables.sameName_of_find? hft :)
  refine ⟨t.untimed, ?_, ?_⟩
  · unfold timeless
    rw [Tables.find?_onTable_self Table.untimed_name, hft]
    rfl
  · rw [run_entry hft hs.columns] at hrun
    rcases hc : t.check t.rows [some v, d, some a] with e | _
    · rw [hc] at hrun
      cases hrun
    · rw [hc] at hrun
      cases hrun
      have hcols : ({ t with
          rows := t.rows ++ [⟨t.nextId, [some v, d, some a]⟩] } : Table).columns = columns :=
        hs.columns
      unfold timeless
      rw [Tables.replace_onTable_self Table.untimed_name hn, untimed_eq hcols, untimed_eq hs.columns,
        List.map_append, hs.nextId]
      rfl

theorem entry_of_timeless (h : l.Holds ts rows) (h' : l.Holds us rows')
    (ht : l.timeless ts = l.timeless us) {v a a' : String} {d : Cell} {k k' : Nat} {vs vs' : Tables}
    (hrun : (l.entry v d a).run ts = .ok (k, vs))
    (hrun' : (l.entry v d a').run us = .ok (k', vs')) : l.timeless vs = l.timeless vs' := by
  obtain ⟨w, hw, hvs⟩ := timeless_entry h hrun
  obtain ⟨w', hw', hvs'⟩ := timeless_entry h' hrun'
  rw [← ht] at hw' hvs'
  obtain rfl := Option.some.inj (hw.symm.trans hw')
  rw [hvs, hvs', nextId_of_timeless h h' ht]

end Ledger
end SchemaLedger
