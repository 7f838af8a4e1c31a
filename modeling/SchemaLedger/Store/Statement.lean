-- Statements: what a unit or the engine asks of the store. A statement either
-- gives new tables or is refused, and a refused statement changes nothing.
import SchemaLedger.Store.Table

namespace SchemaLedger

inductive Statement where
  /-- Creates a table. `spelled` is its name as the statement writes it; with
  `ifAbsent` a table that is there is left alone. -/
  | create (table : Table) (spelled : String) (ifAbsent : Bool)
  | drop (table : String)
  | insert (table : String) (values : List (String × Cell))
  /-- Inserts a row of values by their places. -/
  | insertValues (table : String) (values : List Cell)
  /-- Inserts a value into a column unless some row has it there. -/
  | insertMissing (table column : String) (value : Cell)
  /-- Deletes the rows that have a value in a column. -/
  | delete (table column : String) (value : Cell)
  /-- Writes a value into one column of the rows that have a value in another. -/
  | update (table target : String) (new : Cell) (column : String) (value : Cell)
  | addColumn (table : String) (column : Column)
  /-- Reads columns of a table. -/
  | select (table : String) (columns : List String)
  /-- Makes an index that asks nothing of its columns, so that only the table and the columns
  have to be there. Names of indexes are not kept. -/
  | index (table : String) (columns : List String)
  /-- A statement that reads no table and writes none. -/
  | nothing
  deriving DecidableEq, Repr

namespace Statement

/-- The cells of a new row: the given values under their columns, nothing elsewhere. -/
def cellsFor (t : Table) (values : List (String × Cell)) : List Cell :=
  t.columns.map fun c => ((values.find? fun v => sameName v.1 c.name).map Prod.snd).getD none

def insertInto (ts : Tables) (name : String) (values : List (String × Cell)) :
    Except StoreError (Nat × Tables) :=
  match ts.find? name with
  | none => .error (.noSuchTable name)
  | some t =>
    match values.find? fun v => (t.columnIndex? v.1).isNone with
    | some v => .error (.noColumnNamed name v.1)
    | none =>
      match t.insertCells (cellsFor t values) with
      | .error e => .error e
      | .ok t => .ok (1, ts.replace name t)

/-- Changes a table. -/
def onTable (ts : Tables) (name : String) (change : Table → Except StoreError (Nat × Table)) :
    Except StoreError (Nat × Tables) :=
  match ts.find? name with
  | none => .error (.noSuchTable name)
  | some t =>
    match change t with
    | .error e => .error e
    | .ok (n, t') => .ok (n, ts.replace name t')

/-- Looks up columns of a table and changes nothing. -/
def lookUp (ts : Tables) (name shown : String) (columns : List String) :
    Except StoreError (Nat × Tables) :=
  match ts.find? name with
  | none => .error (.noSuchTable shown)
  | some t =>
    match columns.find? fun c => !t.hasColumn c with
    | some c => .error (.noSuchColumn c)
    | none => .ok (0, ts)

/-- Why a row with values in some columns cannot even be prepared: the table or a column
is not there. -/
def unprepared? (ts : Tables) (name : String) (columns : List String) : Option StoreError :=
  match ts.find? name with
  | none => some (.noSuchTable name)
  | some t =>
    (columns.find? fun c => (t.columnIndex? c).isNone).map fun c => .noColumnNamed name c

/-- Runs a statement: how many rows it touched, and the tables after it. -/
def run (ts : Tables) : Statement → Except StoreError (Nat × Tables)
  | .create table spelled ifAbsent =>
    if Tables.isReserved table.name then .error (.reservedName table.name)
    else if (ts.find? table.name).isSome then
      if ifAbsent then .ok (0, ts) else .error (.tableExists spelled)
    else .ok (0, ts ++ [table])
  | .drop name =>
    match ts.find? name with
    | none => .error (.noSuchTable name)
    | some _ => .ok (0, ts.remove name)
  | .insert name values => insertInto ts name values
  | .insertMissing name column value =>
    match ts.find? name with
    | none => .error (.noSuchTable name)
    | some t =>
      match t.columnIndex? column with
      | none => .error (.noColumnNamed name column)
      | some i => if 0 < t.countAt i value then .ok (0, ts) else insertInto ts name [(column, value)]
  | .delete name column value =>
    match ts.find? name with
    | none => .error (.noSuchTable name)
    | some t =>
      match t.columnIndex? column with
      | none => .error (.noSuchColumn column)
      | some i => .ok (t.countAt i value, ts.replace name (t.deleteAt i value))
  | .update name target new column value =>
    match ts.find? name with
    | none => .error (.noSuchTable name)
    | some t =>
      match t.columnIndex? target, t.columnIndex? column with
      | none, _ => .error (.noSuchColumn target)
      | _, none => .error (.noSuchColumn column)
      | some j, some i =>
        match t.updateAt j new i value with
        | .error e => .error e
        | .ok t' => .ok (t.countAt i value, ts.replace name t')
  | .insertValues name values => onTable ts name fun t => (t.insertValues values).map (1, ·)
  | .addColumn name c => onTable ts name fun t => (t.addColumn c).map (0, ·)
  | .select name columns => lookUp ts name name columns
  | .index name columns => lookUp ts name ("main." ++ name) columns
  | .nothing => .ok (0, ts)

/-- The table that a statement names. -/
def table? : Statement → Option String
  | .create t _ _ => some t.name
  | .drop t | .insert t _ | .insertValues t _ | .insertMissing t _ _ | .delete t _ _
  | .update t _ _ _ _ | .addColumn t _ | .select t _ | .index t _ => some t
  | .nothing => none

end Statement
end SchemaLedger
