-- Tables: rows under the columns of a table, in the order of their ids. A table
-- keeps what its columns require; rows that would break it are refused.
import SchemaLedger.Failure

namespace SchemaLedger

/-- A value in a column: a text, or nothing. -/
abbrev Cell := Option String

/-- What a column asks of its values. -/
structure Column where
  name : String
  /-- A value has to be given. -/
  required : Bool := false
  /-- No two rows may have the same value. -/
  unique : Bool := false
  deriving DecidableEq, Repr

structure Row where
  id : Nat
  cells : List Cell
  deriving DecidableEq, Repr

/-- Names of tables and columns differ only by more than the case of ASCII letters. -/
def sameName (a b : String) : Bool := a.toList.map Char.toLower == b.toList.map Char.toLower

theorem sameName_iff {a b : String} :
    sameName a b = true ↔ a.toList.map Char.toLower = b.toList.map Char.toLower := by
  simp [sameName]

theorem sameName_refl (a : String) : sameName a a = true := by simp [sameName]

theorem sameName_symm {a b : String} (h : sameName a b = true) : sameName b a = true := by
  simp only [sameName_iff] at h ⊢
  exact h.symm

theorem sameName_trans {a b c : String} (h : sameName a b = true) (k : sameName b c = true) :
    sameName a c = true := by
  simp only [sameName_iff] at h k ⊢
  exact h.trans k

/-- A table. `key` names the column that shows the id of a row, if there is one;
the other columns hold cells. -/
structure Table where
  name : String
  key : Option String := some "id"
  columns : List Column
  rows : List Row := []
  deriving DecidableEq, Repr

namespace Table

/-- The id of the next row: one more than the largest. -/
def nextId (t : Table) : Nat := (t.rows.map Row.id).foldl max 0 + 1

def columnIndex? (t : Table) (column : String) : Option Nat :=
  t.columns.findIdx? fun c => sameName c.name column

/-- The cell of a row in the column at an index. -/
def cellAt (r : Row) (i : Nat) : Cell := (r.cells[i]?).getD none

/-- The first required column without a value. -/
def missing? (t : Table) (cells : List Cell) : Option Column :=
  ((t.columns.zip cells).find? fun p => p.1.required && p.2.isNone).map Prod.fst

/-- A value that a unique column holds already in one of the rows. -/
def duplicateIn? (t : Table) (rows : List Row) (cells : List Cell) : Option Column :=
  ((t.columns.zipIdx.zip cells).find? fun p =>
    p.1.1.unique && p.2.isSome && rows.any fun r => cellAt r p.1.2 == p.2).map fun p => p.1.1

/-- Refuses cells that a column does not allow beside the given rows. -/
def check (t : Table) (rows : List Row) (cells : List Cell) : Except StoreError Unit :=
  match t.missing? cells with
  | some c => .error (.missing t.name c.name)
  | none =>
    match t.duplicateIn? rows cells with
    | some c => .error (.duplicate t.name c.name)
    | none => .ok ()

/-- Adds a row with the next id. -/
def insertCells (t : Table) (cells : List Cell) : Except StoreError Table :=
  match t.check t.rows cells with
  | .error e => .error e
  | .ok () => .ok { t with rows := t.rows ++ [⟨t.nextId, cells⟩] }

/-- How many columns a table shows, that of the key with them. -/
def width (t : Table) : Nat := t.columns.length + (if t.key.isSome then 1 else 0)

/-- Adds a row with a given id, where the ids put it. -/
def insertAt (t : Table) (key : String) (id : Nat) (cells : List Cell) : Except StoreError Table :=
  if t.rows.any (·.id == id) then .error (.duplicate t.name key)
  else
    match t.check t.rows cells with
    | .error e => .error e
    | .ok () =>
      let (before, after) := t.rows.partition (·.id < id)
      .ok { t with rows := before ++ ⟨id, cells⟩ :: after }

/-- Adds a row of values by their places. The key stands first, and its value is a number, or
nothing for the next one. -/
def insertValues (t : Table) (values : List Cell) : Except StoreError Table :=
  if values.length ≠ t.width then .error (.wrongWidth t.name t.width values.length)
  else
    match t.key, values with
    | some _, none :: cells => t.insertCells cells
    | some key, some id :: cells =>
      match id.toNat? with
      | some n => t.insertAt key n cells
      | none => .error (.stated "IntegrityError" "(sqlite3.IntegrityError) datatype mismatch")
    | _, cells => t.insertCells cells

/-- A name is that of a column, or of the key. -/
def hasColumn (t : Table) (name : String) : Bool :=
  t.key.any (sameName · name) || (t.columnIndex? name).isSome

/-- Adds a column, in which no row has a value. -/
def addColumn (t : Table) (c : Column) : Except StoreError Table :=
  if t.hasColumn c.name then .error (.duplicateColumn c.name)
  else if c.unique then
    .error (.stated "OperationalError" "(sqlite3.OperationalError) Cannot add a UNIQUE column")
  else if c.required && !t.rows.isEmpty then
    .error (.stated "OperationalError"
      "(sqlite3.OperationalError) Cannot add a NOT NULL column with default value NULL")
  else
    .ok { t with columns := t.columns ++ [c],
                 rows := t.rows.map fun r => { r with cells := r.cells ++ [none] } }

/-- The rows whose cell in the column at `i` is the given value. No value equals nothing. -/
def matching (i : Nat) (value : Cell) (r : Row) : Bool := value.isSome && cellAt r i == value

/-- Removes the rows with a value in a column. -/
def deleteAt (t : Table) (i : Nat) (value : Cell) : Table :=
  { t with rows := t.rows.filter fun r => !matching i value r }

/-- Writes a value into a column of the rows that have a value in another. -/
def updateAt (t : Table) (target : Nat) (new : Cell) (i : Nat) (value : Cell) :
    Except StoreError Table :=
  go t.rows []
where
  go : List Row → List Row → Except StoreError Table
    | [], done => .ok { t with rows := done }
    | r :: rest, done =>
      if matching i value r then
        let cells := r.cells.set target new
        match t.check (done ++ rest) cells with
        | .error e => .error e
        | .ok () => go rest (done ++ [{ r with cells }])
      else go rest (done ++ [r])

/-- How many rows have a value in a column. -/
def countAt (t : Table) (i : Nat) (value : Cell) : Nat := (t.rows.filter (matching i value)).length

end Table

/-- The tables of a store, in the order in which they were created. -/
abbrev Tables := List Table

namespace Tables

def find? (ts : Tables) (name : String) : Option Table :=
  List.find? (fun t => sameName t.name name) ts

/-- Puts a table in the place of the one of that name. -/
def replace (ts : Tables) (name : String) (new : Table) : Tables :=
  ts.map fun t => if sameName t.name name then new else t

def remove (ts : Tables) (name : String) : Tables := ts.filter fun t => !sameName t.name name

/-- Names that the store keeps for itself. -/
def isReserved (name : String) : Bool := "sqlite_".toList.isPrefixOf (name.toList.map Char.toLower)

end Tables
end SchemaLedger
