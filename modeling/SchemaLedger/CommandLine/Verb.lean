-- What the engine can be told to do on the command line, the options that go with
-- it, and the texts that explain all this.
import SchemaLedger.CommandLine.Argument

namespace SchemaLedger

inductive Verb where
  | migrate
  | rollBack
  | status
  | seed
  deriving DecidableEq, Repr

namespace Verb

def all : List Verb := [.migrate, .rollBack, .status, .seed]

/-- The word for it on the command line. -/
def word : Verb → String
  | .migrate => "migrate"
  | .rollBack => "migrate:rollback"
  | .status => "migrate:status"
  | .seed => "db:seed"

def ofWord? (word : String) : Option Verb := all.find? fun v => v.word == word

theorem ofWord?_word (v : Verb) : ofWord? v.word = some v := by cases v <;> decide

/-- How many migrations to roll back. -/
def count : Flag := ⟨["--count"], true⟩

/-- Which seeder to run. -/
def name : Flag := ⟨["--name"], true⟩

/-- The options that go with it. -/
def flags : Verb → List Flag
  | .rollBack => [.help, count]
  | .seed => [.help, name]
  | .migrate | .status => [.help]

end Verb

/-! ## Options before the command -/

namespace Flag

def config : Flag := ⟨["--config"], true⟩
def databaseUrl : Flag := ⟨["--database-url"], true⟩
def units : Flag := ⟨["--units"], true⟩

/-- The options that go before the command. -/
def common : List Flag := [help, config, databaseUrl, units]

end Flag

/-! ## Texts -/

/-- What a text about the command line is about: one command, or none for all of it. -/
abbrev Topic := Option Verb

namespace Topic

/-- The program as messages name it. -/
def program : Topic → String
  | none => "dbengine"
  | some v => "dbengine " ++ v.word

/-- The words of all commands. -/
def choices : String := "\x7b" ++ ",".intercalate (Verb.all.map Verb.word) ++ "\x7d"

def usage : Topic → String
  | none =>
    "usage: dbengine [-h] [--config CONFIG] [--database-url DATABASE_URL]\n" ++
    "                [--units UNITS]\n" ++
    "                " ++ choices ++ " ...\n"
  | some .rollBack => "usage: dbengine migrate:rollback [-h] [--count COUNT]\n"
  | some .seed => "usage: dbengine db:seed [-h] [--name NAME]\n"
  | some v => "usage: dbengine " ++ v.word ++ " [-h]\n"

/-- What the options mean. -/
def details : Topic → String
  | none =>
    "Run schema migrations and data seeders\n\n" ++
    "positional arguments:\n" ++
    "  " ++ choices ++ "\n" ++
    "    migrate             Apply all pending migrations\n" ++
    "    migrate:rollback    Roll back applied migrations\n" ++
    "    migrate:status      Show applied and pending migrations\n" ++
    "    db:seed             Run seeders\n\n" ++
    "options:\n" ++
    "  -h, --help            show this help message and exit\n" ++
    "  --config CONFIG       Path to JSON or YAML config file\n" ++
    "  --database-url DATABASE_URL\n" ++
    "                        Override the configured database URL\n" ++
    "  --units UNITS         Dotted path of the module registering units\n"
  | some .rollBack =>
    "options:\n" ++
    "  -h, --help     show this help message and exit\n" ++
    "  --count COUNT  Number of migrations to roll back, or 'all' (default: 1)\n"
  | some .seed =>
    "options:\n" ++
    "  -h, --help   show this help message and exit\n" ++
    "  --name NAME  Seeder to run with its prerequisites, 'list' to show the run\n" ++
    "               order, or empty for all seeders\n"
  | some _ => "options:\n  -h, --help  show this help message and exit\n"

def help (t : Topic) : String := usage t ++ "\n" ++ details t

/-- The message about a fault. -/
def complaint (t : Topic) (f : ArgumentFault) : String :=
  usage t ++ program t ++ ": error: " ++ f.message ++ "\n"

end Topic
end SchemaLedger
