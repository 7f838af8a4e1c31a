-- Seeders: named units that fill tables. Each one names the seeders that have to
-- run before it.
import SchemaLedger.Routine

namespace SchemaLedger

structure Seeder where
  name : String := ""
  dependencies : List String := []
  run : Routine

def Seeder.quoted (s : Seeder) : String := "<Seeder(" ++ s.name ++ ")>"

end SchemaLedger
