-- Reading a statement that is given as text. A table is created, dropped or given
-- another column, an index is made or dropped, a row is inserted, or something is
-- selected. Anything else is refused at the first token that does not fit, and so are
-- constraints on several columns at once.
import SchemaLedger.Sql.Parameter
import SchemaLedger.Store.Statement

namespace SchemaLedger.Sql

/-! ## Tokens -/

inductive Token where
  | word (s : List Char)
  /-- A name in quotes. -/
  | name (s : List Char)
  | text (s : List Char)
  | number (s : List Char)
  | sign (c : Char)
  /-- What is no token, such as a quote that is never closed. -/
  | broken (s : List Char)
  deriving DecidableEq, Repr

/-- A token with the text that spells it. -/
structure Spelled where
  token : Token
  text : List Char
  deriving DecidableEq, Repr

/-- What stands between two quotes, in which the quote is written twice, and how
many characters it takes up with the closing quote. -/
def quotedBody? (q : Char) : List Char → Option (List Char × Nat)
  | [] => none
  | c :: rest =>
    if c = q then
      match rest with
      | d :: more =>
        if d = q then (quotedBody? q more).map fun (b, n) => (c :: b, n + 2) else some ([], 1)
      | [] => some ([], 1)
    else (quotedBody? q rest).map fun (b, n) => (c :: b, n + 1)

def isWordPart (c : Char) : Bool := c.isAlphanum || c == '_' || c == '$' || c.toNat ≥ 0x80

/-- The token at the front, where no white space stands, and the length of its text. -/
def firstToken (c : Char) (rest : List Char) : Token × Nat :=
  if c = '\x27' then
    match quotedBody? c rest with
    | some (b, n) => (.text b, n + 1)
    | none => (.broken (c :: rest), rest.length + 1)
  else if c = '\x22' ∨ c = '\x60' then
    match quotedBody? c rest with
    | some (b, n) => (.name b, n + 1)
    | none => (.broken (c :: rest), rest.length + 1)
  else if c = '[' then
    let b := rest.takeWhile (· != ']')
    if b.length = rest.length then (.broken (c :: rest), rest.length + 1) else (.name b, b.length + 2)
  else if c.isDigit then
    let digits := c :: rest.takeWhile fun d => d.isDigit || d == '.'
    (.number digits, digits.length)
  else if isWordPart c then
    let w := c :: rest.takeWhile isWordPart
    (.word w, w.length)
  else (.sign c, 1)

/-- What comes after a block comment that has begun. One that never ends reaches to the
end of the text. -/
def afterBlock : List Char → List Char
  | [] => []
  | '*' :: '/' :: rest => rest
  | _ :: rest => afterBlock rest

theorem length_afterBlock_le (s : List Char) : (afterBlock s).length ≤ s.length := by
  fun_induction afterBlock s with
  | case1 => exact Nat.le_refl _
  | case2 rest => exact Nat.le_add_right _ 2
  | case3 c rest _ ih => exact Nat.le_succ_of_le ih

/-- The tokens of a statement. Comments and white space stand between tokens. -/
def tokens (s : List Char) : List Spelled :=
  match s with
  | [] => []
  | '-' :: '-' :: rest => tokens (rest.dropWhile (· != '\n'))
  | '/' :: '*' :: c :: rest => tokens (afterBlock (c :: rest))
  | c :: rest =>
    if c.isWhitespace || c == '\x0c' then tokens rest
    else
      let t := firstToken c rest
      ⟨t.1, c :: rest.take (t.2 - 1)⟩ :: tokens (rest.drop (t.2 - 1))
termination_by s.length
decreasing_by
  · exact Nat.lt_succ_of_le (Nat.le_succ_of_le (List.dropWhile_suffix _).length_le)
  · exact Nat.lt_succ_of_le (Nat.le_succ_of_le (length_afterBlock_le _))
  · simp
  · simp only [List.length_drop, List.length_cons]
    omega

/-! ## Statements -/

/-- Reading along tokens. -/
abbrev Parse := StateT (List Spelled) (Except StoreError)

namespace Parse

/-- Refuses the token that comes next. -/
def refuse {α : Type} : Parse α := do
  match ← get with
  | [] => throw .incomplete
  | ⟨.broken s, _⟩ :: _ => throw (.unrecognized (String.ofList s))
  | t :: _ => throw (.unreadable (String.ofList t.text))

def isWord (w : String) (t : Spelled) : Bool :=
  match t.token with
  | .word s => s.map Char.toUpper == w.toList
  | _ => false

/-- Takes a word, if it comes next. -/
def word? (w : String) : Parse Bool := do
  match ← get with
  | t :: rest => if isWord w t then do set rest; return true else return false
  | [] => return false

def word (w : String) : Parse Unit := do
  if ← word? w then return () else refuse

def sign? (c : Char) : Parse Bool := do
  match ← get with
  | t :: rest => if t.token == .sign c then do set rest; return true else return false
  | [] => return false

def sign (c : Char) : Parse Unit := do
  if ← sign? c then return () else refuse

/-- Takes a word or a name and gives it with its spelling. -/
def spelledName : Parse (String × String) := do
  match ← get with
  | ⟨.word s, t⟩ :: rest | ⟨.name s, t⟩ :: rest =>
    set rest
    return (String.ofList s, String.ofList t)
  | _ => refuse

/-- The words that name nothing unless they stand in quotes. -/
def keywords : List String :=
  ["ADD", "ALL", "ALTER", "AND", "AS", "AUTOINCREMENT", "BETWEEN", "CASE", "CHECK", "COLLATE",
    "COMMIT", "CONSTRAINT", "CREATE", "DEFAULT", "DEFERRABLE", "DELETE", "DISTINCT", "DROP",
    "ELSE", "ESCAPE", "EXCEPT", "EXISTS", "FOREIGN", "FROM", "GROUP", "HAVING", "IN", "INDEX",
    "INSERT", "INTERSECT", "INTO", "IS", "ISNULL", "JOIN", "LIMIT", "NOT", "NOTHING", "NOTNULL",
    "NULL", "ON", "OR", "ORDER", "PRIMARY", "REFERENCES", "RETURNING", "SELECT", "SET", "TABLE",
    "THEN", "TO", "TRANSACTION", "UNION", "UNIQUE", "UPDATE", "USING", "VALUES", "WHEN", "WHERE"]

def isKeyword (t : Spelled) : Bool := keywords.any (isWord · t)

/-- Takes a name. A keyword is none. -/
def name : Parse (String × String) := do
  if (← get).head?.any isKeyword then refuse else spelledName

/-- The end of the statement. -/
def finish : Parse Unit := do
  let _ ← sign? ';'
  match ← get with
  | [] => return ()
  | _ => refuse

/-- The tokens up to the comma or the parenthesis that ends a column, and the rest.
`depth` parentheses are open. -/
def columnTokens (depth : Nat) : List Spelled → List Spelled × List Spelled
  | [] => ([], [])
  | t :: rest =>
    let ends := depth = 0 ∧ (t.token = .sign ',' ∨ t.token = .sign ')')
    if ends then ([], t :: rest)
    else
      let depth := if t.token = .sign '(' then depth + 1 else if t.token = .sign ')' then depth - 1 else depth
      let (column, rest) := columnTokens depth rest
      (t :: column, rest)

/-- Two words stand next to each other. -/
def hasPair (a b : String) : List Spelled → Bool
  | s :: t :: rest => (isWord a s && isWord b t) || hasPair a b (t :: rest)
  | _ => false

/-- What a list in parentheses holds, after its first part. At most `most` parts follow. -/
def listed {α : Type} (part : Parse α) : Nat → Parse (List α)
  | 0 => refuse
  | most + 1 => do
    let a ← part
    if ← sign? ',' then return a :: (← listed part most)
    else
      sign ')'
      return [a]

/-- A list in parentheses. -/
def inParens {α : Type} (part : Parse α) : Parse (List α) := do
  sign '('
  listed part ((← get).length + 1)

/-- A part of the definition of a table. -/
inductive Part where
  /-- A column, and whether its values are declared as whole numbers. -/
  | column (c : Column) (isNumber : Bool)
  /-- The column whose values are the ids of the rows. -/
  | key (name : String)
  /-- A constraint on one column: no two rows share a value of it. -/
  | unique (column : String)
  /-- The same for the column that is the key. -/
  | primary (column : String)
  /-- A constraint that is not kept up. -/
  | foreign
  deriving DecidableEq, Repr

/-- A column of a table that is created, or the key. -/
def column : Parse Part := do
  let (n, _) ← spelledName
  let (about, rest) := columnTokens 0 (← get)
  set rest
  let isKey := hasPair "PRIMARY" "KEY" about
  let isNumber := about.head?.any (isWord "INTEGER")
  if isKey && isNumber then return .key n
  else
    return .column
      { name := n, required := hasPair "NOT" "NULL" about, unique := isKey || about.any (isWord "UNIQUE") }
      isNumber

/-- The one column of a constraint, in parentheses. -/
def constrained : Parse String := do
  sign '('
  let (n, _) ← name
  sign ')'
  return n

/-- A part of the definition of a table: a column, or a constraint beside the columns. -/
def part : Parse Part := do
  if ← word? "CONSTRAINT" then let _ ← name
  if ← word? "PRIMARY" then
    word "KEY"
    return .primary (← constrained)
  else if ← word? "UNIQUE" then return .unique (← constrained)
  else if ← word? "FOREIGN" then
    set (columnTokens 0 (← get)).2
    return .foreign
  else column

/-- Makes the values of a column unique in a table that has it. -/
def withUnique (t : Table) (column : String) : Except StoreError Table :=
  if t.hasColumn column then
    .ok { t with columns :=
      t.columns.map fun c => if sameName c.name column then { c with unique := true } else c }
  else .error (.noSuchColumn column)

/-- Makes a column the key of a table. Ids are kept for a column of whole numbers only. -/
def withPrimary (parts : List Part) (t : Table) (column : String) : Except StoreError Table :=
  let isNumber := parts.any fun
    | .column c isNumber => isNumber && sameName c.name column
    | _ => false
  if isNumber then
    .ok { t with key := some column, columns := t.columns.filter fun c => !sameName c.name column }
  else withUnique t column

/-- The table that its parts define. -/
def tableOf (n : String) (parts : List Part) : Except StoreError Table :=
  let table : Table :=
    { name := n, key := parts.findSome? fun | .key k => some k | _ => none,
      columns := parts.filterMap fun | .column c _ => some c | _ => none }
  parts.foldlM
    (fun t p => match p with
      | .unique c => withUnique t c
      | .primary c => withPrimary parts t c
      | _ => .ok t)
    table

/-- Makes an index. One that asks for unique values is refused. -/
def createIndex : Parse Statement := do
  if ← word? "IF" then
    word "NOT"
    word "EXISTS"
  let _ ← name
  word "ON"
  let (n, _) ← name
  let columns ← inParens name
  finish
  return .index n (columns.map Prod.fst)

def create : Parse Statement := do
  if ← word? "INDEX" then createIndex
  else
    word "TABLE"
    let ifAbsent ← word? "IF"
    if ifAbsent then
      word "NOT"
      word "EXISTS"
    let (n, spelled) ← name
    let parts ← inParens part
    finish
    match tableOf n parts with
    | .ok t => return .create t spelled ifAbsent
    | .error e => throw e

/-- Drops a table. What is dropped with an index is not seen. -/
def drop : Parse Statement := do
  if ← word? "INDEX" then
    let _ ← name
    finish
    return .nothing
  else
    word "TABLE"
    let (n, _) ← name
    finish
    return .drop n

/-- Adds a column to a table. -/
def alter : Parse Statement := do
  word "TABLE"
  let (n, _) ← name
  word "ADD"
  let _ ← word? "COLUMN"
  match ← column with
  | .column c _ =>
    finish
    return .addColumn n c
  | _ =>
    throw (.stated "OperationalError" "(sqlite3.OperationalError) Cannot add a PRIMARY KEY column")

/-- The characters of a constant. A name in double quotes that names nothing is a text. -/
def constant? (t : Spelled) : Option (List Char) :=
  match t.token with
  | .text s | .number s => some s
  | .name s => if t.text.head? = some '\x22' then some s else none
  | _ => none

/-- Takes a constant, if one comes next. -/
def constantNext? : Parse (Option Cell) := do
  match ← get with
  | [] => return none
  | t :: rest =>
    match constant? t with
    | some s =>
      set rest
      return some (some (String.ofList s))
    | none => if isWord "NULL" t then do set rest; return some none else return none

/-- A value that is inserted. -/
def cell : Parse Cell := do
  match ← constantNext? with
  | some c => return c
  | none => refuse

def insert : Parse Statement := do
  word "INTO"
  let (n, _) ← name
  if ← word? "VALUES" then
    let cells ← inParens cell
    finish
    return .insertValues n cells
  else
    let columns ← inParens name
    word "VALUES"
    let cells ← inParens cell
    finish
    return .insert n ((columns.map Prod.fst).zip cells)

/-- Takes what follows in a column or a table's name or in a count, up to the parenthesis. -/
def counted : Parse Unit := do
  sign '('
  let (_, rest) := columnTokens 0 (← get)
  set rest
  sign ')'

/-- What is selected: the column that is named, if it is one. All columns, a constant and what
is counted name none. -/
def selected : Parse (Option String) := do
  if ← sign? '*' then return none
  else
    match ← constantNext? with
    | some _ => return none
    | none =>
      let (n, _) ← name
      match ← get with
      | ⟨.sign '(', _⟩ :: _ =>
        counted
        return none
      | _ => return some n

/-- What follows the first thing that is selected. -/
def selectedMore : Nat → Parse (List (Option String))
  | 0 => refuse
  | most + 1 => do
    if ← sign? ',' then
      let c ← selected
      return c :: (← selectedMore most)
    else return []

/-- A condition that a column has a value, or none at all. -/
def condition : Parse (List String) := do
  if ← word? "WHERE" then
    let (n, _) ← name
    sign '='
    let _ ← cell
    return [n]
  else return []

/-- Columns that order what is selected, or none. -/
def ordering : Parse (List String) := do
  if ← word? "ORDER" then
    word "BY"
    let (n, _) ← name
    return [n]
  else return []

def select : Parse Statement := do
  let first ← selected
  let more ← selectedMore ((← get).length + 1)
  let columns := (first :: more).filterMap id
  if ← word? "FROM" then
    let (n, _) ← name
    let asked ← condition
    let ordered ← ordering
    finish
    return .select n (columns ++ asked ++ ordered)
  else
    match columns with
    | c :: _ => throw (.noSuchColumn c)
    | [] =>
      finish
      return .nothing

def anyStatement : Parse Statement := do
  if (← get).isEmpty then return .nothing
  else if ← word? "CREATE" then create
  else if ← word? "DROP" then drop
  else if ← word? "INSERT" then insert
  else if ← word? "SELECT" then select
  else if ← word? "ALTER" then alter
  else refuse

end Parse

/-- Every place in a text needs a value, and none is given. A value that is asked for
is missed before one that is looked up. -/
def unfilled? (s : List Char) : Option StoreError :=
  match (places s).findSome? Place.declared? with
  | some n => some (.unboundParameter (String.ofList n))
  | none =>
    (places s).head?.map fun p =>
      .stated "StatementError" ("(builtins.KeyError) " ++ Text.quoted (String.ofList p.name))

/-- The statement that a text spells. -/
def readStatement (text : String) : Except StoreError Statement :=
  match unfilled? text.toList with
  | some e => .error e
  | none =>
    if text.toList.contains '\x00' then
      .error (.stated "ProgrammingError"
        "(sqlite3.ProgrammingError) the query contains a null character")
    else (Parse.anyStatement.run (tokens (unescape text.toList))).map Prod.fst

end SchemaLedger.Sql
