-- Settings of the engine: from a file, over that from the environment, and below
-- both the defaults. A value in the file is taken as it is; only the flags and the
-- log level are checked.
import SchemaLedger.Config.LogLevel
import SchemaLedger.Files.Tree
import SchemaLedger.Text.Line
import SchemaLedger.Yaml.Document

namespace SchemaLedger

structure Settings where
  databaseUrl : Value := .text "sqlite:///dbengine.db"
  logLevel : Value := .text "info"
  unitsModule : Value := .null
  logFile : Value := .null
  /-- The name of the ledger's table. -/
  tableName : Value := .text "migrations"
  /-- A run of all seeders stops at the first failure. -/
  failFast : Bool := true
  deriving Repr

/-- The entries at the top of a settings file. -/
abbrev Entries := List (Value × Value)

/-- Variables of the environment. -/
abbrev Environment := List (String × String)

namespace Settings

/-! ## The file -/

/-- The names of YAML files end so. -/
def isYaml (p : Path) : Bool := p.suffix == ".yaml" || p.suffix == ".yml"

/-- The text of a file. In a YAML file, which is read piece by piece, bytes that are
cut off at the end are counted from the last piece. -/
def decodeFile (p : Path) (bytes : List UInt8) : Except FileFault (List Char) :=
  match Utf8.decode bytes with
  | .ok s => .ok (Text.unifyLineEnds s)
  | .error f =>
    .error (.notUtf8 (if isYaml p && f.reason == .unexpectedEnd then { f with position := 0 } else f))

/-- The value that a file holds. -/
def parseFile (p : Path) (s : List Char) : Except Failure Value :=
  if isYaml p then
    match Yaml.read s with
    | .ok v => .ok v
    | .error .malformed => .error (.configuration (.fileNotYaml p.text))
    | .error f => .error (.file (.scalar f))
  else
    match Json.read s with
    | .ok v => .ok v
    | .error (.malformed what place) => .error (.configuration (.fileNotJson p.text (.malformed what place)))
    | .error f => .error (.file (.tooManyDigits f))

/-- A file with nothing in it has no entries; any other has to be a mapping. -/
def entriesOf (p : Path) : Value → Except Failure Entries
  | .null => .ok []
  | .map es => .ok es
  | v => .error (.configuration (.fileNotMapping p.text v.kind))

/-- The entries of a settings file. -/
def readFile (t : FileTree) (p : Path) : Except Failure Entries := do
  if p.text.toList.contains '\x00' then throw (.file .nullInPath)
  match t.read p with
  | .error .missing => throw (.configuration (.fileMissing p.text))
  | .error .isDirectory => throw (.file (.isDirectory p.text))
  | .error .notADirectory => throw (.file (.notADirectory p.text))
  | .ok bytes =>
    let s ← (decodeFile p bytes).mapError .file
    entriesOf p (← parseFile p s)

/-! ## Entries -/

/-- A section of the settings. One that is absent or blank has no entries. -/
def section? (es : Entries) (name : String) : Except ConfigFault Entries :=
  match Value.entry? name es with
  | none => .ok []
  | some (.map es) => .ok es
  | some v => if v.isBlank then .ok [] else .error (.sectionNotMapping name)

/-- A flag of a section. -/
def flag (es : Entries) (place name : String) (default' : Bool) : Except Failure Bool :=
  match Value.entry? name es with
  | none => .ok default'
  | some (.bool b) => .ok b
  | some v =>
    match v.quoted? with
    | none => .error (.file .numberTooLong)
    | some q => .error (.configuration (.flagNotBool (place ++ "." ++ name) q))

/-- The settings that entries make. -/
def ofEntries (es : Entries) : Except Failure Settings := do
  let migrations ← (section? es "migrations").mapError .configuration
  let seeders ← (section? es "seeders").mapError .configuration
  let failFast ← flag seeders "seeders" "fail_fast" true
  let base : Settings := {}
  return { databaseUrl := (Value.entry? "database_url" es).getD base.databaseUrl,
           logLevel := (Value.entry? "log_level" es).getD base.logLevel,
           unitsModule := (Value.entry? "units_module" es).getD base.unitsModule,
           logFile := (Value.entry? "log_file" es).getD base.logFile,
           tableName := (Value.entry? "table_name" migrations).getD base.tableName,
           failFast }

/-- The value of a variable, if it is set and not empty. -/
def setVariable? (env : Environment) (name : String) : Option Value :=
  ((env.lookup name).filter (!·.isEmpty)).map .text

/-- Variables of the environment win over the file. -/
def overrideBy (s : Settings) (env : Environment) : Settings :=
  { s with databaseUrl := (setVariable? env "DBENGINE_DATABASE_URL").getD s.databaseUrl,
           logLevel := (setVariable? env "DBENGINE_LOG_LEVEL").getD s.logLevel }

/-- Entries and variables as settings. The log level has to be a known one. -/
def layer (es : Entries) (env : Environment) : Except Failure Settings := do
  let s := (← ofEntries es).overrideBy env
  let _ ← LogLevel.ofValue s.logLevel
  return s

/-- Loads the settings of a file, or the defaults if there is no path. -/
def load (t : FileTree) (env : Environment) (path : Option String) : Except Failure Settings := do
  let es ← match path.filter (!·.isEmpty) with
    | some p => readFile t (.ofText p)
    | none => pure []
  layer es env

end Settings
end SchemaLedger
