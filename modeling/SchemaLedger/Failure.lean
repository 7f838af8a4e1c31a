-- Everything that can go wrong, by its cause. A failure says what happened; its
-- wording is one function, and each failure of the engine wraps the one beneath it.
import SchemaLedger.Json.Reader
import SchemaLedger.Yaml.Fault
import SchemaLedger.Text.Utf8

namespace SchemaLedger

/-! ## The store -/

/-- Why the store refuses a statement or a step of a transaction. -/
inductive StoreError where
  | noSuchTable (name : String)
  /-- The name as the statement spells it. -/
  | tableExists (spelled : String)
  | noSuchColumn (name : String)
  | noColumnNamed (table column : String)
  /-- A row of values by their places has not as many of them as the table has columns. -/
  | wrongWidth (table : String) (columns values : Nat)
  | duplicateColumn (name : String)
  | reservedName (name : String)
  /-- A value that has to be unique in its column is there already. -/
  | duplicate (table column : String)
  /-- A value that has to be given is missing. -/
  | missing (table column : String)
  | nestedTransaction
  | cannotOpen
  /-- The transaction that should run a statement has ended. -/
  | closed
  /-- The transaction that should be committed has ended. -/
  | inactive
  | unboundParameter (name : String)
  | unreadable (token : String)
  | unrecognized (token : String)
  | incomplete
  | unknownDialect (name : String)
  | unreadableUrl
  /-- The URL of a file names a host or a user. -/
  | invalidUrl (url : String)
  /-- Another error of the store's family, by its kind and its text. -/
  | stated (kind message : String)
  deriving DecidableEq, Repr, Inhabited

def StoreError.message : StoreError → String
  | .noSuchTable t => "(sqlite3.OperationalError) no such table: " ++ t
  | .tableExists t => "(sqlite3.OperationalError) table " ++ t ++ " already exists"
  | .noSuchColumn c => "(sqlite3.OperationalError) no such column: " ++ c
  | .noColumnNamed t c => "(sqlite3.OperationalError) table " ++ t ++ " has no column named " ++ c
  | .wrongWidth t n k =>
    "(sqlite3.OperationalError) table " ++ t ++ " has " ++ toString n ++ " columns but " ++
      toString k ++ " values were supplied"
  | .duplicateColumn c => "(sqlite3.OperationalError) duplicate column name: " ++ c
  | .reservedName t => "(sqlite3.OperationalError) object name reserved for internal use: " ++ t
  | .duplicate t c => "(sqlite3.IntegrityError) UNIQUE constraint failed: " ++ t ++ "." ++ c
  | .missing t c => "(sqlite3.IntegrityError) NOT NULL constraint failed: " ++ t ++ "." ++ c
  | .nestedTransaction =>
    "(sqlite3.OperationalError) cannot start a transaction within a transaction"
  | .cannotOpen => "(sqlite3.OperationalError) unable to open database file"
  | .closed => "This Connection is closed"
  | .inactive => "This transaction is inactive"
  | .unboundParameter p =>
    "(sqlalchemy.exc.InvalidRequestError) A value is required for bind parameter " ++ Text.quoted p
  | .unreadable t => "(sqlite3.OperationalError) near \"" ++ t ++ "\": syntax error"
  | .unrecognized t => "(sqlite3.OperationalError) unrecognized token: \"" ++ t ++ "\""
  | .incomplete => "(sqlite3.OperationalError) incomplete input"
  | .unknownDialect d => "Can't load plugin: sqlalchemy.dialects:" ++ d
  | .unreadableUrl => "Could not parse SQLAlchemy URL from given URL string"
  | .invalidUrl url =>
    "Invalid SQLite URL: " ++ url ++
      "\nValid SQLite URL forms are sqlite:///:memory: or sqlite:////absolute/path/to/file.db"
  | .stated _ m => m

/-! ## Settings, units and the ledger -/

/-- What is wrong with a setting or an argument. -/
inductive ConfigFault where
  /-- A rollback count that is neither a number nor a text. -/
  | countKind (quoted : String)
  /-- A rollback count that is no numeral and does not ask for all. -/
  | countText (text : String)
  | countRange (n : Int)
  | unknownLevel (shown : String)
  | fileMissing (path : String)
  | fileNotJson (path : String) (fault : Json.Fault)
  | fileNotYaml (path : String)
  | fileNotMapping (path kind : String)
  | sectionNotMapping (name : String)
  | flagNotBool (name quoted : String)
  | driverMissing (backend reason : String)
  | unitsNotImported (path reason : String)
  | unitsEmpty (path : String)
  | noUnits
  deriving DecidableEq, Repr

def ConfigFault.message : ConfigFault → String
  | .countKind q => "Invalid rollback count: " ++ q
  | .countText t => "Invalid rollback count '" ++ t ++ "': expected a positive integer or 'all'"
  | .countRange n => "Rollback count must be greater than 0, got " ++ toString n
  | .unknownLevel s => "Unknown log level '" ++ s ++ "'"
  | .fileMissing p => "Config file not found: " ++ p
  | .fileNotJson p f => "Cannot parse config file " ++ p ++ ": " ++ f.message
  | .fileNotYaml p => "Cannot parse config file " ++ p ++ ":"
  | .fileNotMapping p k => "Config file " ++ p ++ " must contain a mapping, got " ++ k
  | .sectionNotMapping s => "Config section '" ++ s ++ "' must be a mapping"
  | .flagNotBool n q => "Config value '" ++ n ++ "' must be true or false, got " ++ q
  | .driverMissing b r => "Database driver for '" ++ b ++ "' is not installed: " ++ r
  | .unitsNotImported p r => "Cannot import units module '" ++ p ++ "': " ++ r
  | .unitsEmpty p => "Units module '" ++ p ++ "' defines neither register() nor MIGRATIONS/SEEDERS"
  | .noUnits => "No units module configured (use --units or units_module in the config file)"

/-- Why a set of units, or a request for one of them, does not fit together. -/
inductive RegistrationFault where
  | noVersion (unit : String)
  | duplicateVersion (version first second : String)
  | duplicateSeeder (name : String)
  | dangling (seeder dep : String)
  | notRegistered (name : String)
  | notFound (name : String)
  deriving DecidableEq, Repr

def RegistrationFault.message : RegistrationFault → String
  | .noVersion u => "Migration " ++ u ++ " has no version"
  | .duplicateVersion v a b => "Duplicate migration version " ++ v ++ ": " ++ a ++ " and " ++ b
  | .duplicateSeeder n => "Duplicate seeder name '" ++ n ++ "'"
  | .dangling s d => "Seeder '" ++ s ++ "' depends on '" ++ d ++ "' but '" ++ d ++ "' is not registered"
  | .notRegistered n => "Seeder '" ++ n ++ "' is not registered"
  | .notFound n => "Seeder '" ++ n ++ "' not found"

/-- Which step of keeping the ledger failed. -/
inductive LedgerFault where
  | cannotBegin (cause : StoreError)
  | cannotCreate (table : String) (cause : StoreError)
  | cannotRead (cause : StoreError)
  | cannotBeginFor (version : String) (cause : StoreError)
  | cannotRecord (version : String) (cause : StoreError)
  | cannotRemove (version : String) (cause : StoreError)
  | cannotCommit (version : String) (cause : StoreError)
  /-- The row that a rollback should remove is not there. -/
  | vanished (version : String)
  deriving DecidableEq, Repr

def LedgerFault.message : LedgerFault → String
  | .cannotBegin e => "Failed to start transaction: " ++ e.message
  | .cannotCreate t e => "Failed to create ledger table '" ++ t ++ "': " ++ e.message
  | .cannotRead e => "Failed to read ledger: " ++ e.message
  | .cannotBeginFor v e => "Failed to start transaction for " ++ v ++ ": " ++ e.message
  | .cannotRecord v e => "Failed to record migration " ++ v ++ ": " ++ e.message
  | .cannotRemove v e => "Failed to remove ledger row for " ++ v ++ ": " ++ e.message
  | .cannotCommit v e => "Failed to commit migration " ++ v ++ ": " ++ e.message
  | .vanished v => "Ledger row for " ++ v ++ " vanished during rollback"

/-- The version that the failed step was about. -/
def LedgerFault.version? : LedgerFault → Option String
  | .cannotBegin _ | .cannotCreate _ _ | .cannotRead _ => none
  | .cannotBeginFor v _ | .cannotRecord v _ | .cannotRemove v _ | .cannotCommit v _ => some v
  | .vanished v => some v

def LedgerFault.cause? : LedgerFault → Option StoreError
  | .cannotBegin e | .cannotCreate _ e | .cannotRead e => some e
  | .cannotBeginFor _ e | .cannotRecord _ e | .cannotRemove _ e | .cannotCommit _ e => some e
  | .vanished _ => none

/-! ## Failures -/

/-- What a unit does when it runs. -/
inductive Operation where
  | up
  | down
  | run
  deriving DecidableEq, Repr

def Operation.text : Operation → String
  | .up => "up"
  | .down => "down"
  | .run => "run"

/-- The families of the engine's own failures. -/
inductive Family where
  | engine
  | configuration
  | registration
  | unregistered
  | ledger
  | execution
  | cycle
  deriving DecidableEq, Repr

/-- A family and all that it belongs to, the widest last. -/
def Family.ancestors : Family → List Family
  | .engine => [.engine]
  | .unregistered => [.unregistered, .registration, .engine]
  | f => [f, .engine]

/-- Why text in a file could not be used at all. -/
inductive FileFault where
  | notUtf8 (fault : Utf8.Fault)
  | isDirectory (path : String)
  | notADirectory (path : String)
  /-- A file stands where a directory is to be made. -/
  | fileExists (path : String)
  | nullInPath
  /-- A whole number in the file has more digits than are read. -/
  | tooManyDigits (fault : Json.Fault)
  /-- A whole number, from a file or not, has more digits than are written out. -/
  | numberTooLong
  /-- A scalar of the file does not spell a value of its kind. -/
  | scalar (fault : Yaml.Fault)
  deriving DecidableEq, Repr

def FileFault.message : FileFault → String
  | .notUtf8 f => f.message
  | .isDirectory p => "[Errno 21] Is a directory: " ++ Text.quoted p
  | .notADirectory p => "[Errno 20] Not a directory: " ++ Text.quoted p
  | .fileExists p => "[Errno 17] File exists: " ++ Text.quoted p
  | .nullInPath => "embedded null byte"
  | .tooManyDigits f => f.message
  | .numberTooLong =>
    "Exceeds the limit (4300 digits) for integer string conversion; use " ++
      "sys.set_int_max_str_digits() to increase the limit"
  | .scalar f => f.message

/-- Why something could not be done. -/
inductive Failure where
  | store (error : StoreError)
  | configuration (fault : ConfigFault)
  | registration (fault : RegistrationFault)
  /-- The ledger names a version that no registered migration has. -/
  | unregistered (version : String)
  | ledger (fault : LedgerFault)
  /-- Dependencies close a loop; the first name is given again at the end. -/
  | cycle (walk : List String)
  /-- A unit's own operation failed. -/
  | execution (unit : String) (operation : Operation) (cause : Failure)
  /-- No transaction could be opened for a seeder. -/
  | cannotStart (seeder : String) (cause : StoreError)
  /-- A failure of one of the engine's families with a text of its own, and what it
  says about a unit and an operation. -/
  | stated (family : Family) (unit : Option String) (operation : Option String) (message : String)
  /-- A failure from outside the engine and the store: its kind and its text. -/
  | raised (kind message : String)
  /-- A request to stop, such as an exit or a break from the keyboard. It ends what is going
  on, and nothing that takes up failures takes it up. -/
  | interrupt (kind message : String)
  /-- A failure from outside that has no text: asking it for one raises another failure, of
  this kind and with this text. -/
  | untold (kind message : String)
  /-- A limit on rows, or a whole number in a row, that the store cannot count to. -/
  | limitTooLarge
  /-- An instant that the calendar has no date for. -/
  | noSuchDate
  | unknownDependency (name : String)
  /-- A module is asked for by no name. -/
  | noModuleName
  /-- A module is asked for relative to nothing. -/
  | relativeModule (name : String)
  | emptyScript (version : String) (operation : Operation)
  /-- A setting that has to be a text is of another kind. -/
  | notText (kind : String)
  | file (fault : FileFault)
  deriving Repr

namespace Failure

def executionText (unit : String) : Operation → String
  | .up => "Migration " ++ unit ++ " failed: "
  | .down => "Rollback of migration " ++ unit ++ " failed: "
  | .run => "Seeder " ++ unit ++ " failed: "

def message : Failure → String
  | .store e => e.message
  | .configuration f => f.message
  | .registration f => f.message
  | .unregistered v => "Migration " ++ v ++ " is recorded in the ledger but not registered"
  | .ledger f => f.message
  | .cycle walk => "Circular dependency detected: " ++ " -> ".intercalate walk
  | .execution unit op cause => executionText unit op ++ cause.message
  | .cannotStart s e => "Seeder " ++ s ++ " failed to start a transaction: " ++ e.message
  | .stated _ _ _ m => m
  | .raised _ m | .interrupt _ m => m
  | .untold _ _ => ""
  | .limitTooLarge => "Python int too large to convert to SQLite INTEGER"
  | .noSuchDate => "date value out of range"
  | .unknownDependency n => Text.quoted n
  | .noModuleName => "Empty module name"
  | .relativeModule n =>
    "the 'package' argument is required to perform a relative import for " ++ Text.quoted n
  | .emptyScript v op =>
    "Migration " ++ v ++ " has empty " ++ (if op = .down then "DOWN" else "UP") ++ " section"
  | .notText kind => "'" ++ kind ++ "' object has no attribute 'startswith'"
  | .file f => f.message

/-- The family of a failure of the engine. -/
def family? : Failure → Option Family
  | .configuration _ => some .configuration
  | .registration _ => some .registration
  | .unregistered _ => some .unregistered
  | .ledger _ => some .ledger
  | .cycle _ => some .cycle
  | .execution _ _ _ | .cannotStart _ _ => some .execution
  | .stated f _ _ _ => some f
  | _ => none

/-- A failure of the engine, as opposed to one of the store or of the world around. -/
def isEngine (f : Failure) : Bool := f.family?.isSome

/-- A request to stop, which passes wherever failures are taken up. -/
def isInterrupt : Failure → Bool
  | .interrupt _ _ => true
  | _ => false

/-- A failure has a text. -/
def isTold : Failure → Bool
  | .untold _ _ => false
  | _ => true

/-- The failure of a unit's operation, whose text holds that of its cause. Of a cause that
has none, what asking for the text raises is all that is left. -/
def ofUnit (unit : String) (operation : Operation) : Failure → Failure
  | .untold kind message => .raised kind message
  | cause => .execution unit operation cause

/-- The store error that a failure is, if it is one. -/
def store? : Failure → Option StoreError
  | .store e => some e
  | _ => none

/-- The version or name that a failure is about. -/
def unit? : Failure → Option String
  | .unregistered v => some v
  | .ledger f => f.version?
  | .execution u _ _ => some u
  | .cannotStart s _ => some s
  | .stated _ u _ _ => u
  | _ => none

end Failure
end SchemaLedger
