-- What a whole command line asks for: options, then a command with options of its
-- own. Of an option that is given twice the last value counts.
import SchemaLedger.CommandLine.Verb

namespace SchemaLedger

/-- A command with what it needs to know. -/
inductive Request where
  | migrate
  /-- The count as it is given. -/
  | rollBack (count : String)
  | status
  /-- A seeder's name, the word for the list, or nothing for all seeders. -/
  | seed (name : String)
  deriving DecidableEq, Repr

/-- A command line that can be run. -/
structure Invocation where
  config : Option String := none
  databaseUrl : Option String := none
  unitsModule : Option String := none
  request : Request
  deriving DecidableEq, Repr

/-- What a command line comes to. -/
inductive Interpreted where
  | help (topic : Topic)
  | refused (topic : Topic) (fault : ArgumentFault)
  | accepted (invocation : Invocation)
  deriving DecidableEq, Repr

namespace Interpreted

/-- The last value that is given for an option. -/
def lastOf (f : Flag) (values : List (Flag × String)) : Option String := values.reverse.lookup f

/-- The request of a command with the values of its options. -/
def requestOf (values : List (Flag × String)) : Verb → Request
  | .migrate => .migrate
  | .rollBack => .rollBack ((lastOf Verb.count values).getD "1")
  | .status => .status
  | .seed => .seed ((lastOf Verb.name values).getD "")

/-- A command line with the options before the command, the arguments there that nothing
asks for, the command, and what comes after it. -/
def ofCommand (values : List (Flag × String)) (extras : List String) (v : Verb) (rest : List String) :
    Interpreted :=
  match Reading.ofArguments v.flags false rest with
  | .error f => .refused (some v) f
  | .ok .help => .help (some v)
  | .ok (.given own more _) =>
    if extras.isEmpty && more.isEmpty then
      .accepted ⟨lastOf .config values, lastOf .databaseUrl values, lastOf .units values, requestOf own v⟩
    else .refused none (.unrecognized (extras ++ more))

/-- Interprets the arguments of a command line. -/
def ofArguments (arguments : List String) : Interpreted :=
  match Reading.ofArguments Flag.common true arguments with
  | .error f => .refused none f
  | .ok .help => .help none
  | .ok (.given _ _ []) => .refused none .noCommand
  | .ok (.given values extras (word :: rest)) =>
    match Verb.ofWord? word with
    | none => .refused none (.unknownCommand word (Verb.all.map Verb.word))
    | some v => ofCommand values extras v rest

end Interpreted
end SchemaLedger
