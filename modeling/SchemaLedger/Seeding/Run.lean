-- Running seeders, each in its own transaction. A run of all of them stops at the
-- first failure, or goes on and reports which failed; a run of one with what it
-- needs always stops.
import SchemaLedger.Seeding.Order

namespace SchemaLedger

/-- The seeders that were committed and those that failed, each in running order. -/
structure SeedReport where
  executed : List String := []
  failed : List String := []
  deriving DecidableEq, Repr

def SeedReport.success (r : SeedReport) : Bool := r.failed.isEmpty

structure Seeding where
  /-- In the order in which they were registered. -/
  seeders : List Seeder
  /-- A run of all seeders stops at the first failure. -/
  failFast : Bool := true

namespace Seeding

/-- Gives up a transaction. That the store refuses this is only reported. -/
def giveUp (name : String) (t : Ticket) : Work Unit :=
  (Work.rollback t).orStore fun e => Work.report (.seederFailed name .rollback (.store e))

/-- Runs one seeder and commits what it did. -/
def runOne (s : Seeder) : Work Unit := do
  let start ← Work.now
  Work.report (.seederRunning s.name)
  let t ← Work.begin.orStore fun e => do
    Work.report (.seederFailed s.name .begin (.store e))
    throw (.cannotStart s.name e)
  let body : Work Unit := do
    Work.noteCall .run s.name .coded
    s.run.run t
    Work.commit t
  match ← Work.rescue body with
  | .error f =>
    giveUp s.name t
    Work.reportOf f (.seederFailed s.name .run f)
    throw (.ofUnit s.name .run f)
  | .ok _ => Work.report (.seederDone s.name (Work.elapsed start (← Work.now)))

/-- Runs seeders in order. A failure of the engine ends the run, or is counted. -/
def runEach (failFast : Bool) (report : SeedReport) : List Seeder → Work SeedReport
  | [] => return report
  | s :: rest => do
    match ← Work.attempt (runOne s) with
    | .ok _ => runEach failFast { report with executed := report.executed ++ [s.name] } rest
    | .error f =>
      if failFast || !f.isEngine then throw f
      else
        Work.report (.seederSkipped s.name f)
        runEach failFast { report with failed := report.failed ++ [s.name] } rest

/-- Some work, and what is reported if it fails with a failure of the engine. -/
def reporting {α : Type} (w : Work α) (event : Failure → Event) : Work α := do
  match ← Work.attempt w with
  | .ok a => return a
  | .error f =>
    if f.isEngine then Work.report (event f)
    throw f

/-- Runs every seeder. -/
def runAll (x : Seeding) : Work SeedReport := do
  if x.seeders.isEmpty then
    Work.report .noSeeders
    return {}
  else
    Work.report (.seeding x.seeders.length)
    let order ← reporting (resolveAll x.seeders) .orderFailed
    let report ← runEach x.failFast {} order
    if report.success then Work.report (.allSeeded report.executed.length)
    else Work.report (.someSeedersFailed report.failed)
    return report

/-- Runs one seeder after everything it needs. -/
def runNamed (x : Seeding) (name : String) : Work SeedReport := do
  let order ← reporting (resolveFor x.seeders name) (.orderFailedFor name)
  let report ← runEach true {} order
  Work.report (.namedSeeded ((order.getLast?.map Seeder.name).getD name))
  return report

/-- Runs the seeder of a name, or every seeder if the name is empty. -/
def run (x : Seeding) (name : String) : Work SeedReport :=
  if name.isEmpty then x.runAll else x.runNamed name

end Seeding
end SchemaLedger
