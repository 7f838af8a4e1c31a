-- What a statement leaves alone. A statement changes at most the one table that it
-- names, so a table of another name is the same before and after.
import SchemaLedger.Store.Statement

namespace SchemaLedger

/-! ## Names -/

theorem sameName_comm (a b : String) : sameName a b = sameName b a :=
  Bool.eq_iff_iff.mpr ⟨sameName_symm, sameName_symm⟩

/-- Names that are the same are the same to every third name. -/
theorem sameName_congr {a b : String} (h : sameName a b = true) (c : String) :
    sameName a c = sameName b c :=
  Bool.eq_iff_iff.mpr ⟨sameName_trans (sameName_symm h), sameName_trans h⟩

/-! ## Looking up a table -/

namespace Tables

variable {ts : Tables} {name other : String} {t new : Table}

theorem sameName_of_find? (h : ts.find? name = some t) : sameName t.name name = true :=
  List.find?_some (p := fun u : Table => sameName u.name name) (l := ts) h

theorem find?_congr {a b : String} (h : sameName a b = true) (ts : Tables) :
    ts.find? a = ts.find? b := by
  unfold find?
  congr 1
  funext t
  rw [sameName_comm t.name a, sameName_comm t.name b, sameName_congr h]

theorem find?_replace_self (h : ts.find? name = some t) (hn : sameName new.name name = true) :
    (ts.replace name new).find? name = some new := by
  unfold find? replace at *
  induction ts with
  | nil => simp at h
  | cons x xs ih =>
    rcases hx : sameName x.name name with _ | _
    · simp only [List.map_cons, List.find?_cons, hx, Bool.false_eq_true, if_false] at h ⊢
      exact ih h
    · simp [hx, hn]

theorem find?_replace_other (h : sameName name other = false)
    (hn : sameName new.name name = true) : (ts.replace name new).find? other = ts.find? other := by
  unfold find? replace
  induction ts with
  | nil => rfl
  | cons x xs ih =>
    rcases hx : sameName x.name name with _ | _
    · simp only [List.map_cons, List.find?_cons, hx, Bool.false_eq_true, if_false, ih]
    · simp only [List.map_cons, List.find?_cons, hx, if_true, ih, sameName_congr hn,
        sameName_congr hx, h]

theorem find?_remove_other (h : sameName name other = false) :
    (ts.remove name).find? other = ts.find? other := by
  unfold find? remove
  induction ts with
  | nil => rfl
  | cons x xs ih =>
    rcases hx : sameName x.name name with _ | _
    · simp only [List.filter_cons, hx, Bool.not_false, if_true, List.find?_cons, ih]
    · simp only [List.filter_cons, hx, Bool.not_true, Bool.false_eq_true, if_false,
        List.find?_cons, ih, sameName_congr hx, h]

theorem find?_remove_self (h : sameName name other = true) :
    (ts.remove name).find? other = none := by
  unfold find? remove
  rw [List.find?_eq_none]
  intro t ht hn
  have hne := (List.mem_filter.mp ht).2
  rw [sameName_trans hn (sameName_symm h)] at hne
  cases hne

theorem find?_append_other (h : sameName t.name other = false) :
    find? (ts ++ [t]) other = ts.find? other := by
  unfold find?
  simp [List.find?_append, h]

theorem find?_append_new (h : ts.find? name = none) (hn : sameName t.name name = true) :
    find? (ts ++ [t]) name = some t := by
  unfold find? at *
  simp [List.find?_append, h, hn]

end Tables

/-! ## Changing the rows of a table -/

namespace Table

/-- A change of rows keeps the name, the key and the columns. -/
def SameHead (t u : Table) : Prop := u.name = t.name ∧ u.key = t.key ∧ u.columns = t.columns

theorem insertCells_eq {t u : Table} {cells : List Cell} (h : t.insertCells cells = .ok u) :
    t.check t.rows cells = .ok () ∧ u = { t with rows := t.rows ++ [⟨t.nextId, cells⟩] } := by
  unfold insertCells at h
  split at h
  · cases h
  · rename_i hc
    exact ⟨hc, (Except.ok.inj h).symm⟩

theorem updateAt_go_sameHead {t u : Table} {target : Nat} {new : Cell} {i : Nat} {value : Cell}
    (rest done : List Row) (h : updateAt.go t target new i value rest done = .ok u) :
    t.SameHead u := by
  induction rest generalizing done with
  | nil =>
    simp only [updateAt.go, Except.ok.injEq] at h
    subst h
    exact ⟨rfl, rfl, rfl⟩
  | cons r rest ih =>
    simp only [updateAt.go] at h
    split at h
    · split at h
      · cases h
      · exact ih _ h
    · exact ih _ h

theorem insertAt_name {t u : Table} {key : String} {id : Nat} {cells : List Cell}
    (h : t.insertAt key id cells = .ok u) : u.name = t.name := by
  unfold insertAt at h
  split at h
  · cases h
  · split at h <;> cases h
    rfl

theorem insertValues_name {t u : Table} {values : List Cell} (h : t.insertValues values = .ok u) :
    u.name = t.name := by
  -- a row with the next id is the one of `insertCells`
  have hcells {cells : List Cell} (h : t.insertCells cells = .ok u) : u.name = t.name := by
    obtain ⟨-, rfl⟩ := insertCells_eq h
    rfl
  unfold insertValues at h
  split at h
  · cases h
  · split at h
    · exact hcells h
    · split at h
      · exact insertAt_name h
      · cases h
    · exact hcells h

theorem addColumn_name {t u : Table} {c : Column} (h : t.addColumn c = .ok u) :
    u.name = t.name := by
  unfold addColumn at h
  split at h
  · cases h
  · split at h
    · cases h
    · split at h <;> cases h
      rfl

end Table

/-! ## The frame of a statement -/

namespace Statement

/-- What an insertion into a table leaves. -/
theorem insertInto_eq {ts us : Tables} {name : String} {values : List (String × Cell)} {k : Nat}
    (h : insertInto ts name values = .ok (k, us)) :
    ∃ t, ts.find? name = some t ∧ (∀ v ∈ values, (t.columnIndex? v.1).isSome) ∧
      t.check t.rows (cellsFor t values) = .ok () ∧ k = 1 ∧
      us = ts.replace name { t with rows := t.rows ++ [⟨t.nextId, cellsFor t values⟩] } := by
  unfold insertInto at h
  split at h
  · cases h
  · rename_i t ht
    split at h
    · cases h
    · rename_i hcols
      split at h
      · cases h
      · rename_i u hu
        obtain ⟨hc, rfl⟩ := Table.insertCells_eq hu
        simp only [Except.ok.injEq, Prod.mk.injEq] at h
        refine ⟨t, ht, ?_, hc, h.1.symm, h.2.symm⟩
        intro v hv
        have := List.find?_eq_none.mp hcols v hv
        simpa [Option.isSome_iff_ne_none] using this

/-- An insertion whose columns are there and whose cells are allowed is done. -/
theorem insertInto_ok {ts : Tables} {name : String} {values : List (String × Cell)} {t : Table}
    (ht : ts.find? name = some t) (hcols : ∀ v ∈ values, (t.columnIndex? v.1).isSome)
    (hc : t.check t.rows (cellsFor t values) = .ok ()) :
    insertInto ts name values =
      .ok (1, ts.replace name { t with rows := t.rows ++ [⟨t.nextId, cellsFor t values⟩] }) := by
  have hnone : (values.find? fun v => (t.columnIndex? v.1).isNone) = none :=
    List.find?_eq_none.mpr fun v hv => by simpa [Option.isSome_iff_ne_none] using hcols v hv
  simp only [insertInto, ht, hnone, Table.insertCells, hc]

theorem insertInto_find?_other {ts us : Tables} {name other : String}
    {values : List (String × Cell)} {k : Nat} (hn : sameName name other = false)
    (h : insertInto ts name values = .ok (k, us)) : us.find? other = ts.find? other := by
  obtain ⟨t, ht, _, _, _, rfl⟩ := insertInto_eq h
  have ht' : sameName t.name name = true := Tables.sameName_of_find? ht
  exact Tables.find?_replace_other hn ht'

theorem onTable_find?_other {ts us : Tables} {name other : String}
    {change : Table → Except StoreError (Nat × Table)} {k : Nat}
    (hn : sameName name other = false) (hname : ∀ t n u, change t = .ok (n, u) → u.name = t.name)
    (h : onTable ts name change = .ok (k, us)) : us.find? other = ts.find? other := by
  unfold onTable at h
  split at h
  · cases h
  · rename_i t ht
    split at h
    · cases h
    · rename_i n u hu
      cases h
      refine Tables.find?_replace_other hn ?_
      rw [hname t _ _ hu]
      exact Tables.sameName_of_find? ht

theorem insertedBy_name {values : List Cell} (t : Table) (n : Nat) (u : Table)
    (h : (t.insertValues values).map (1, ·) = .ok (n, u)) : u.name = t.name := by
  rcases hv : t.insertValues values with e | v
  · rw [hv] at h
    cases h
  · rw [hv] at h
    cases h
    exact Table.insertValues_name hv

theorem addedBy_name {c : Column} (t : Table) (n : Nat) (u : Table)
    (h : (t.addColumn c).map (0, ·) = .ok (n, u)) : u.name = t.name := by
  rcases hv : t.addColumn c with e | v
  · rw [hv] at h
    cases h
  · rw [hv] at h
    cases h
    exact Table.addColumn_name hv

theorem lookUp_eq {ts us : Tables} {name shown : String} {columns : List String} {k : Nat}
    (h : lookUp ts name shown columns = .ok (k, us)) : us = ts := by
  unfold lookUp at h
  split at h
  · cases h
  · split at h <;> cases h
    rfl

/-- A table that a statement does not name is as it was. -/
theorem find?_of_run {s : Statement} {ts us : Tables} {k : Nat} {other : String}
    (hs : ∀ n, s.table? = some n → sameName n other = false) (h : s.run ts = .ok (k, us)) :
    us.find? other = ts.find? other := by
  cases s with
  | create table spelled ifAbsent =>
    simp only [run] at h
    split at h
    · cases h
    · split at h
      · split at h <;> cases h
        rfl
      · cases h
        exact Tables.find?_append_other (hs _ rfl)
  | drop name =>
    simp only [run] at h
    split at h <;> cases h
    exact Tables.find?_remove_other (hs _ rfl)
  | insert name values => exact insertInto_find?_other (hs _ rfl) h
  | insertMissing name column value =>
    simp only [run] at h
    split at h
    · cases h
    · split at h
      · cases h
      · split at h
        · cases h
          rfl
        · exact insertInto_find?_other (hs _ rfl) h
  | delete name column value =>
    simp only [run] at h
    split at h
    · cases h
    · rename_i t ht
      have ht' : sameName t.name name = true := Tables.sameName_of_find? ht
      split at h <;> cases h
      exact Tables.find?_replace_other (hs _ rfl) ht'
  | update name target new column value =>
    simp only [run] at h
    split at h
    · cases h
    · rename_i t ht
      split at h
      · cases h
      · cases h
      · split at h
        · cases h
        · rename_i u hu
          cases h
          refine Tables.find?_replace_other (hs _ rfl) ?_
          rw [(Table.updateAt_go_sameHead _ _ hu).1]
          exact Tables.sameName_of_find? ht
  | insertValues name values => exact onTable_find?_other (hs _ rfl) insertedBy_name h
  | addColumn name c => exact onTable_find?_other (hs _ rfl) addedBy_name h
  | select name columns => rw [lookUp_eq h]
  | index name columns => rw [lookUp_eq h]
  | nothing =>
    simp only [run] at h
    cases h
    rfl

end Statement
end SchemaLedger
