-- Migrations: a change of the schema and its reverse, under a version. Versions
-- are texts and compare character by character, so they should have a fixed width.
import SchemaLedger.Routine
import SchemaLedger.Value
import SchemaLedger.Sql.Script

namespace SchemaLedger

/-- What a migration does, apart from its version. -/
structure Change where
  description : Value := .text ""
  form : Form := .coded
  up : Routine
  down : Routine

/-- A migration as it is declared. Its version need not be a text yet. -/
structure Draft extends Change where
  version : Value := .text ""

/-- A migration whose version is known to be a text. -/
structure Migration extends Change where
  version : String

def Migration.quoted (m : Migration) : String :=
  "<Migration(" ++ m.version ++ ", " ++ m.description.shown ++ ")>"

namespace Draft

def quoted (d : Draft) : String :=
  "<Migration(" ++ d.version.shown ++ ", " ++ d.description.shown ++ ")>"

/-- The migration that is declared, if its version is a text and not empty. -/
def accept? (d : Draft) : Option Migration :=
  match d.version with
  | .text v => if v.isEmpty then none else some { d.toChange with version := v }
  | _ => none

/-- A migration given as two scripts. Neither may be blank. -/
def ofSql (version description : Value) (up down : String) : Except Failure Draft :=
  if (Text.trim up.toList).isEmpty then .error (.emptyScript version.shown .up)
  else if (Text.trim down.toList).isEmpty then .error (.emptyScript version.shown .down)
  else
    .ok { version, description, form := .sql, up := .ofScript (Sql.statements up),
          down := .ofScript (Sql.statements down) }

end Draft
end SchemaLedger
