-- Loggers: named after their places in a tree, each with a level and at most one
-- handler. A record goes to the handlers of its logger and of all above it, if its
-- level is high enough for the nearest logger that has one.
import SchemaLedger.Config.LogLevel
import SchemaLedger.Files.Tree
import SchemaLedger.Logging.Template
import SchemaLedger.Text.Utf8

namespace SchemaLedger

/-- Where the lines of a handler go. -/
inductive Sink where
  | stderr
  | stream (name : String)
  /-- A file by the parts of its path. -/
  | file (parts : List String)
  deriving DecidableEq, Repr

structure Handler where
  sink : Sink
  template : String
  deriving DecidableEq, Repr

structure Logger where
  name : String
  /-- Zero leaves it to the loggers above. -/
  level : Int := 0
  handler : Option Handler := none
  deriving DecidableEq, Repr

structure LogRecord where
  logger : String
  level : Int
  message : String
  deriving DecidableEq, Repr

/-- What goes wrong when a logger is set up. -/
inductive LoggingFault where
  | badTemplate (template : String)
  | unknownLevel (quoted : String)
  | notALevel (quoted : String)
  | file (fault : FileFault)
  deriving DecidableEq, Repr

def LoggingFault.message : LoggingFault → String
  | .badTemplate t => "Invalid format '" ++ t ++ "' for '%' style"
  | .unknownLevel q => "Unknown level: " ++ q
  | .notALevel q => "Level not an integer or a valid string: " ++ q
  | .file f => f.message

/-- The loggers and all that they have written. -/
structure Logging where
  loggers : List Logger := []
  stderr : String := ""
  streams : List (String × String) := []
  files : FileTree := {}

namespace Logging

/-- The template that is used if none is given. -/
def lineTemplate : String := "[%(asctime).19s] [%(name)s] [%(levelname)s] %(message)s"

/-- The time of every record: as text, and in seconds since the start of 1970. -/
def recordTime : String := "2025-01-01 00:00:00,000"
def recordSeconds : Int := 1735689600

/-- The name of the logger above all others. -/
def rootName : String := "root"

/-- A logger as it is before anything is set. -/
def fresh (name : String) : Logger := { name, level := if name = rootName then 30 else 0 }

def get (x : Logging) (name : String) : Logger :=
  (x.loggers.find? (·.name == name)).getD (fresh name)

def set (x : Logging) (l : Logger) : Logging :=
  { x with loggers := l :: x.loggers.filter (·.name != l.name) }

/-- The names that end before a point of a name, the longest first. -/
def above : List Char → List (List Char)
  | [] => []
  | '.' :: rest => (above rest).map ('.' :: ·) ++ [[]]
  | c :: rest => (above rest).map (c :: ·)

/-- A logger's name, the names above it, and the root. -/
def lineage (name : String) : List String :=
  if name = rootName then [rootName]
  else name :: ((above name.toList).filter (!·.isEmpty)).map String.ofList ++ [rootName]

/-- The level of the nearest logger that has one. -/
def effectiveLevel (x : Logging) (name : String) : Int :=
  (((lineage name).map fun n => (x.get n).level).find? (· != 0)).getD 0

/-- The handlers that a record of a logger goes to. -/
def handlersFor (x : Logging) (name : String) : List Handler :=
  (lineage name).filterMap fun n => (x.get n).handler

/-! ## Writing -/

/-- A text stands somewhere in another. -/
def occurs (part : List Char) : List Char → Bool
  | [] => part.isEmpty
  | c :: rest => part.isPrefixOf (c :: rest) || occurs part rest

/-- The fields of a record. The time has a text only where the template shows it. -/
def fieldOf (template : String) (r : LogRecord) (name : String) : Option FieldValue :=
  let showsTime := occurs "%(asctime)".toList template.toList
  match name with
  | "name" => some (.text r.logger)
  | "levelname" => some (.text (LogLevel.nameOf r.level))
  | "levelno" => some (.int r.level)
  | "message" | "msg" => some (.text r.message)
  | "asctime" => if showsTime then some (.text recordTime) else none
  | "created" => some (.whole recordSeconds)
  | "msecs" => some (.whole 0)
  | "threadName" => some (.text "MainThread")
  | "processName" => some (.text "MainProcess")
  | "args" => some (.other "()")
  | "exc_info" | "exc_text" | "stack_info" => some (.other "None")
  | _ => none

/-- The note on the error stream that a record could not be written. -/
def errorNote : String := "--- Logging error ---\n"

/-- Writes text to where a handler's lines go. -/
def write (x : Logging) (sink : Sink) (text : String) : Logging :=
  match sink with
  | .stderr => { x with stderr := x.stderr ++ text }
  | .stream name =>
    let old := (x.streams.lookup name).getD ""
    { x with streams := (name, old ++ text) :: x.streams.filter (·.1 != name) }
  | .file parts => { x with files := x.files.append parts (Utf8.encode text.toList) }

/-- Hands a record to a handler. -/
def emit (r : LogRecord) (x : Logging) (h : Handler) : Logging :=
  match Template.fillIn h.template.toList (fieldOf h.template r) with
  | some line => x.write h.sink (String.ofList (line ++ ['\n']))
  | none => x.write .stderr errorNote

/-- The least level of records that are written although there is no handler. -/
def lastResort : Int := 30

/-- Writes a record wherever it belongs. -/
def log (x : Logging) (r : LogRecord) : Logging :=
  if r.level ≤ 0 ∨ r.level < x.effectiveLevel r.logger then x
  else
    match x.handlersFor r.logger with
    | [] => if lastResort ≤ r.level then x.write .stderr (r.message ++ "\n") else x
    | hs => hs.foldl (emit r) x

/-! ## Setting up -/

/-- Creates the directory of a log file and the file, unless they are there. -/
def openFile (t : FileTree) (path : String) : Except FileFault (List String × FileTree) :=
  let p := Path.ofText path
  let dir := Path.collapse p.parent.parts
  let place := Path.collapse p.parts
  match ((List.range (dir.length + 1)).map dir.take).find? fun d => (t.file? d).isSome with
  | some d =>
    .error (if d = dir then .fileExists p.parent.text else .notADirectory p.parent.text)
  | none =>
    let t := t.makeDir dir
    if t.isDir place then .error (.isDirectory (p.resolve []).text)
    else .ok (place, t.append place [])

/-- The level that a setting gives a logger. -/
def levelOf : Value → Except LoggingFault Int
  | .int n => .ok n
  | .bool b => .ok (if b then 1 else 0)
  | .text s =>
    match LogLevel.names.lookup s with
    | some n => .ok n
    | none => .error (.unknownLevel (Text.quoted s))
  | v => .error (.notALevel v.quoted)

/-- Gives a logger a handler in the place of the one it has, and a level. A file is
opened before the template is looked at, and the handler is in place before the level is. -/
def configure (x : Logging) (name : String) (target : Sink ⊕ String) (template : String)
    (level : Value) : Except LoggingFault Logger × Logging :=
  let opened : Except FileFault (Sink × Logging) := match target with
    | .inl sink => .ok (sink, x.write sink "")
    | .inr path => (openFile x.files path).map fun (parts, t) => (.file parts, { x with files := t })
  match opened with
  | .error f => (.error (.file f), x)
  | .ok (sink, x) =>
    let template := if template.isEmpty then lineTemplate else template
    if !Template.hasField template.toList then (.error (.badTemplate template), x)
    else
      let l := { x.get (if name.isEmpty then rootName else name) with handler := some ⟨sink, template⟩ }
      match levelOf level with
      | .error f => (.error f, x.set l)
      | .ok n => (.ok { l with level := n }, x.set { l with level := n })

end Logging
end SchemaLedger
