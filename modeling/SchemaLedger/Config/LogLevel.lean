-- Names of log levels and their places on the scale. Case does not matter.
import SchemaLedger.Failure
import SchemaLedger.Value
import SchemaLedger.Text.UpperCase

namespace SchemaLedger.LogLevel

/-- The known names, in upper case. -/
def names : List (String × Int) :=
  [("CRITICAL", 50), ("FATAL", 50), ("ERROR", 40), ("WARNING", 30), ("WARN", 30), ("INFO", 20),
   ("DEBUG", 10), ("NOTSET", 0)]

/-- The level that a name stands for. -/
def ofName? (name : String) : Option Int :=
  names.lookup (String.ofList (Text.upperCase name.toList))

/-- The name of a level. -/
def nameOf (level : Int) : String :=
  ((names.find? fun p => p.2 == level).map Prod.fst).getD ("Level " ++ toString level)

/-- The level that a setting names. A setting that cannot be written out is none. -/
def ofValue (v : Value) : Except Failure Int :=
  match v.shown? with
  | none => .error (.file .numberTooLong)
  | some t =>
    match ofName? t with
    | some level => .ok level
    | none => .error (.configuration (.unknownLevel t))

end SchemaLedger.LogLevel
