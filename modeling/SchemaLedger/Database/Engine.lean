-- The engine behind a database URL: its dialect, the driver that it needs, and how
-- it pools connections. A store in memory keeps to one connection; a server's pool
-- is as large as the environment asks for.
import SchemaLedger.Database.Url
import SchemaLedger.Text.WordChar
import SchemaLedger.Session

namespace SchemaLedger

/-- How connections are pooled. -/
inductive Pool where
  /-- As the dialect does by itself. -/
  | standard
  /-- One connection for all. -/
  | single
  /-- Up to `size` connections, and `overflow` more for a while. -/
  | limited (size overflow : Nat)
  deriving DecidableEq, Repr

/-- How long to wait for a pooled connection and how long one is kept, in seconds. -/
def Pool.timeout : Nat := 30
def Pool.lifetime : Nat := 3600

structure Database where
  url : String
  backend : String
  pool : Pool
  deriving DecidableEq, Repr

namespace Database

def text (d : Database) : String := "<Database(" ++ d.backend ++ ")>"

/-! ## Dialects -/

/-- Why no engine can be made for a URL. -/
inductive Fault where
  | refused (error : StoreError)
  /-- The dialect's driver is not installed. -/
  | noDriver (reason : String)
  deriving DecidableEq, Repr

/-- The dialects and, unless a dialect needs none, the module that holds its driver. -/
def dialects : List (String × Option String) :=
  [("sqlite", none), ("sqlite+pysqlite", none), ("sqlite+aiosqlite", some "aiosqlite"),
   ("sqlite+pysqlcipher", some "pysqlcipher3"), ("postgresql", some "psycopg2"),
   ("postgresql+psycopg2", some "psycopg2"), ("postgresql+psycopg", some "psycopg"),
   ("postgresql+asyncpg", some "asyncpg"), ("postgresql+pg8000", some "pg8000"),
   ("postgresql+psycopg2cffi", some "psycopg2cffi"), ("mysql", some "MySQLdb"),
   ("mysql+mysqldb", some "MySQLdb"), ("mysql+pymysql", some "pymysql"),
   ("mysql+mysqlconnector", some "mysql"), ("mysql+aiomysql", some "aiomysql"),
   ("mysql+asyncmy", some "asyncmy"), ("mysql+cymysql", some "cymysql"), ("mysql+pyodbc", some "pyodbc"),
   ("mysql+mariadbconnector", some "mariadb")]

/-- The scheme of a URL and what comes after it. -/
def scheme? (url : String) : Option (String × List Char) :=
  let s := url.toList
  let name := s.takeWhile fun c => Text.isWordChar c || c == '+'
  match s.drop name.length with
  | ':' :: '/' :: '/' :: rest => if name.isEmpty then none else some (String.ofList name, rest)
  | _ => none

/-- A URL for which an engine can be made. -/
def checkUrl (url : String) : Except Fault Unit :=
  match scheme? url with
  | none => .error (.refused .unreadableUrl)
  | some (name, rest) =>
    match dialects.lookup name with
    | none =>
      let dotted := String.ofList (name.toList.map fun c => if c = '+' then '.' else c)
      .error (.refused (.unknownDialect dotted))
    | some (some m) => .error (.noDriver ("No module named " ++ Text.quoted m))
    | some none =>
      match rest with
      | [] => .ok ()
      | c :: _ => if c = '/' ∨ c = '?' then .ok () else .error (.refused (.invalidUrl url))

/-- The file of a store's URL, or none for a store in memory. -/
def file? (url : String) : Option String :=
  match scheme? url with
  | some (_, '/' :: rest) =>
    let path := String.ofList (rest.takeWhile (· != '?'))
    if path.isEmpty ∨ path = ":memory:" then none else some path
  | _ => none

/-! ## Engines -/

/-- The size of a pool and its overflow, by the kind of environment. -/
def poolLimits (kind : String) : Nat × Nat :=
  match String.ofList (kind.toList.map Char.toLower) with
  | "production" => (10, 20)
  | "staging" => (5, 10)
  | "development" => (2, 5)
  | _ => (5, 10)

/-- The database of a URL that is already normal. `kind` is the kind of environment. -/
def ofUrl (kind url : String) : Database :=
  let backend := DatabaseUrl.backend url
  let pool :=
    if backend != "sqlite" then Pool.limited (poolLimits kind).1 (poolLimits kind).2
    else if url == "sqlite://" || url == "sqlite:///:memory:" then .single
    else .standard
  ⟨url, backend, pool⟩

/-- Opens the database that a text names, seen from a directory. `check` says whether
an engine can be made for a URL. -/
def connect (check : String → Except Fault Unit) (base : List String) (kind name : String) :
    Work Database := do
  match DatabaseUrl.normalize base name with
  | .error f => throw (.file f)
  | .ok url =>
    let d := ofUrl kind url
    match check url with
    | .error (.refused e) => throw (.store e)
    | .error (.noDriver reason) => throw (.configuration (.driverMissing d.backend reason))
    | .ok _ =>
      Work.report (.databaseReady d.backend)
      return d

end Database
end SchemaLedger
