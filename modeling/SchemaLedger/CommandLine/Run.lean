-- A run of the program: the settings, the log, the units, the database and then the
-- command. A world of files, stores and modules goes from one run to the next.
import SchemaLedger.CommandLine.Perform
import SchemaLedger.Database.Engine
import SchemaLedger.Logging.Logger

namespace SchemaLedger

/-- What runs of the program find and leave. -/
structure World where
  /-- Files below the working directory. -/
  files : FileTree := {}
  /-- The working directory. -/
  base : List String := ["work"]
  /-- The tables in store files, by the places of the files. -/
  stores : List (List String × Tables) := []
  modules : List UnitsModule := []
  clock : Readings := ({} : Clock)

/-- What one run comes to. -/
structure Finished where
  /-- The exit status, or the failure that nothing in the program handles. -/
  exit : Except Failure Nat := .ok 0
  stdout : String := ""
  stderr : String := ""
  calls : List UnitCall := []

namespace World

/-! ## Stores -/

/-- The store in the file at a place. A file that is not there yet has no tables. -/
def storeAt (w : World) (place : List String) : Tables := (w.stores.lookup place).getD []

def setStore (w : World) (place : List String) (ts : Tables) : World :=
  { w with stores := (place, ts) :: w.stores.filter (·.1 != place) }

/-- The place of a store's file, for a store in a file. -/
def placeOf? (w : World) (name : String) : Option (List String) :=
  match DatabaseUrl.normalize w.base name with
  | .ok url => (Database.file? url).map fun p => ((Path.ofText p).resolve w.base).parts
  | .error _ => none

/-- A store's file can be opened: its directory is there, and it is no directory itself. -/
def canOpen (w : World) (place : List String) : Bool :=
  let below := place.drop w.base.length
  w.base.isPrefixOf place && !below.isEmpty && w.files.isDir below.dropLast && !w.files.isDir below

/-- A new connection to the store at a place, or to an empty store. -/
def connectionTo (w : World) : Option (List String) → Connection
  | none => {}
  | some place =>
    { base := w.storeAt place, blocked := if w.canOpen place then none else some .cannotOpen }

/-- Keeps what is permanent in a store that was opened. -/
def keep (w : World) (place : Option (List String)) (c : Connection) : World :=
  match place with
  | some p => if c.issued = 0 then w else w.setStore p c.base
  | none => w

/-! ## Settings -/

/-- The text of a setting that has to be one. -/
def requireText : Value → Except Failure String
  | .text s => .ok s
  | v => .error (.notText v.kind)

/-- The settings of an invocation: what its options say goes over all else. -/
def settingsFor (w : World) (env : Environment) (i : Invocation) : Except Failure Settings := do
  let s ← Settings.load w.files env i.config
  let given (o : Option String) (v : Value) : Value := ((o.filter (!·.isEmpty)).map .text).getD v
  return { s with databaseUrl := given i.databaseUrl s.databaseUrl,
                  unitsModule := given i.unitsModule s.unitsModule }

/-- The logger above those of all parts of the engine. -/
def loggerName : String := "dbengine"

/-- The log that settings ask for: a file, or the error stream. -/
def loggingFor (w : World) (s : Settings) : Except Failure Logging :=
  let target : Sink ⊕ String := match s.logFile with
    | .text path => .inr path
    | _ => .inl .stderr
  match LogLevel.ofValue s.logLevel with
  | .error f => .error f
  | .ok level =>
    match Logging.configure { files := w.files } loggerName target "" (.int level) with
    | (.error (.file f), _) => .error (.file f)
    | (_, x) => .ok x

/-! ## Runs -/

/-- Loads the units that the settings name. -/
def loadUnits (w : World) (s : Settings) : Work Units :=
  if s.unitsModule.isBlank then throw (.configuration .noUnits)
  else do UnitsModule.load w.modules (← Seeding.lift (requireText s.unitsModule))

/-- Opens the database that the settings name. -/
def openDatabase (w : World) (env : Environment) (s : Settings) : Work Database := do
  Database.connect Database.checkUrl w.base ((env.lookup "DBENGINE_ENV").getD "")
    (← Seeding.lift (requireText s.databaseUrl))

end World

namespace Logging

/-- Writes an event to the log. -/
def logEvent (x : Logging) (e : Event) : Logging := x.log ⟨e.source.name, e.level.severity, e.text⟩

def logEvents (x : Logging) (es : List Event) : Logging := es.foldl logEvent x

/-- Writes lines to the error stream. -/
def complain (x : Logging) (lines : List String) : Logging :=
  x.write .stderr (String.join (lines.map (· ++ "\n")))

/-- How a failure ends a run: one of the engine or the store is explained on the error
stream, and any other is left to the caller. -/
def conclude (x : Logging) (f : Failure) : Except Failure Nat × Logging :=
  if f.isEngine then (.ok 1, x.complain ["✗ " ++ f.message])
  else
    match f with
    | .store e => (.ok 1, (x.logEvent (.databaseError e)).complain ["✗ Database error: " ++ e.message])
    | f => (.error f, x)

end Logging

namespace World

/-- What a run prints and how it ends, with its session and its log. The database is
closed whatever becomes of the command. -/
def transact (w : World) (env : Environment) (s : Settings) (r : Request) (session : Session)
    (x : Logging) : Finished × Session × Logging :=
  let opening : Work Units := do
    let u ← w.loadUnits s
    let _ ← w.openDatabase env s
    return u
  match opening session with
  | .error f session =>
    let (exit, x) := (x.logEvents session.events).conclude f
    ({ exit, calls := session.calls }, session, x)
  | .ok u session =>
    match r.perform s u session with
    | .ok p session =>
      let x := ((x.logEvents session.events).complain p.err).logEvent .databaseClosed
      ({ exit := .ok p.exit, stdout := String.join (p.out.map (· ++ "\n")), calls := session.calls },
        session, x)
    | .error f session =>
      let (exit, x) := ((x.logEvents session.events).logEvent .databaseClosed).conclude f
      ({ exit, calls := session.calls }, session, x)

/-- The place of the store that settings name, if they name one in a file. -/
def placeFor (w : World) (s : Settings) : Option (List String) :=
  match s.databaseUrl with
  | .text name => w.placeOf? name
  | _ => none

/-- Runs an invocation. -/
def run (w : World) (env : Environment) (i : Invocation) : Finished × World :=
  let prepared : Except Failure (Settings × Logging) := do
    let s ← w.settingsFor env i
    return (s, ← w.loggingFor s)
  match prepared with
  | .error f =>
    let (exit, x) := Logging.conclude {} f
    ({ exit, stderr := x.stderr }, w)
  | .ok (s, x) =>
    let w := { w with files := x.files }
    let place := w.placeFor s
    let session : Session := { handle := { connection := w.connectionTo place }, clock := w.clock }
    let (done, session, x) := w.transact env s i.request session x
    ({ done with stderr := x.stderr },
      { w.keep place session.handle.connection with files := x.files, clock := session.clock })

/-- Runs a command line, which may only ask for help or have to be refused. -/
def runArguments (w : World) (env : Environment) (arguments : List String) : Finished × World :=
  match Interpreted.ofArguments arguments with
  | .help t => ({ stdout := t.help }, w)
  | .refused t f => ({ exit := .ok 2, stderr := t.complaint f }, w)
  | .accepted i => w.run env i

end World
end SchemaLedger
