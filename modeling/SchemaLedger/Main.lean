-- The program: it reads the settings file, runs the command line in a world of its
-- own, writes the log file and prints. A program with units of its own calls
-- `commandLine` with the modules that hold them.
import SchemaLedger.CommandLine.Run

namespace SchemaLedger

/-- The variables that settings can come from. -/
def variableNames : List String := ["DBENGINE_DATABASE_URL", "DBENGINE_LOG_LEVEL", "DBENGINE_ENV"]

def readEnvironment : IO Environment := do
  let values ← variableNames.mapM fun n => IO.getEnv n
  return (variableNames.zip values).filterMap fun (n, v) => v.map (n, ·)

/-- The files that a command line names. -/
def readFiles (arguments : List String) : IO FileTree := do
  match Interpreted.ofArguments arguments with
  | .accepted i =>
    match i.config with
    | some name =>
      try
        let bytes ← IO.FS.readBinFile name
        return { files := [((Path.ofText name).parts, bytes.toList)] }
      catch _ => return {}
    | none => return {}
  | _ => return {}

/-- Writes what a run has added to files. -/
def writeFiles (before after : FileTree) : IO Unit := do
  for (parts, bytes) in after.files do
    let added := bytes.drop ((before.file? parts).getD []).length
    if !added.isEmpty then
      if parts.length > 1 then IO.FS.createDirAll ("/".intercalate parts.dropLast)
      let h ← IO.FS.Handle.mk ("/".intercalate parts) .append
      h.write ⟨added.toArray⟩

/-- Runs a command line with the modules of units that it may name. -/
def commandLine (modules : List UnitsModule) (arguments : List String) : IO UInt32 := do
  let files ← readFiles arguments
  let world : World := { files, modules }
  let (done, world) := world.runArguments (← readEnvironment) arguments
  writeFiles files world.files
  IO.print done.stdout
  IO.eprint done.stderr
  match done.exit with
  | .ok n => return n.toUInt32
  | .error f =>
    IO.eprintln f.message
    return 1

end SchemaLedger

def main (arguments : List String) : IO UInt32 := SchemaLedger.commandLine [] arguments
