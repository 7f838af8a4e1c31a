-- A session of the engine: the handle, the clock, what was reported and which
-- units were called. Work on a session gives a result or a failure and, either way,
-- the session as it is afterwards.
import SchemaLedger.Store.Handle
import SchemaLedger.Event
import SchemaLedger.Calendar

namespace SchemaLedger

/-- A steady clock in microseconds since the start of 1970. Each reading moves it on
by the same step. -/
structure Clock where
  now : Int := 1735689600000000
  step : Int := 1000000
  deriving DecidableEq, Repr

/-- The readings that a clock gives one after another. No two of them need be the
same distance apart, and a later one may show less. -/
structure Readings where
  nth : Nat → Int
  /-- How many are past. -/
  taken : Nat := 0

instance : Coe Clock Readings := ⟨fun c => { nth := fun n => c.now + c.step * n }⟩

namespace Readings

/-- What the clock shows next. -/
def current (r : Readings) : Int := r.nth r.taken

def next (r : Readings) : Readings := { r with taken := r.taken + 1 }

end Readings

/-- How a unit states what it does. -/
inductive Form where
  /-- As a routine of its own. -/
  | coded
  /-- As a text of statements. -/
  | sql
  deriving DecidableEq, Repr

/-- A call of a unit's operation, by the unit's version or name. -/
structure UnitCall where
  operation : Operation
  unit : String
  form : Form
  deriving DecidableEq, Repr

structure Session where
  handle : Handle := {}
  clock : Readings := ({} : Clock)
  /-- What was reported, the latest last. -/
  events : List Event := []
  calls : List UnitCall := []

/-- Work on a session. A failure keeps what the session has become. -/
abbrev Work := EStateM Failure Session

namespace Work

/-- Lifts a call on the handle. -/
def onHandle {α : Type} (call : Handle → Except Failure α × Handle) : Work α := fun s =>
  match call s.handle with
  | (.ok a, h) => .ok a { s with handle := h }
  | (.error e, h) => .error e { s with handle := h }

def begin : Work Ticket := onHandle Handle.begin

def execute {α : Type} (t : Ticket) (step : Tables → Except Failure (α × Tables)) : Work α :=
  onHandle fun h => h.execute t step

def commit (t : Ticket) : Work Unit := onHandle fun h => h.commit t

def rollback (t : Ticket) : Work Unit := onHandle fun h => h.rollback t

/-- Reads the clock. -/
def now : Work Int := fun s => .ok s.clock.current { s with clock := s.clock.next }

def report (e : Event) : Work Unit := fun s => .ok () { s with events := s.events ++ [e] }

def noteCall (operation : Operation) (unit : String) (form : Form) : Work Unit := fun s =>
  .ok () { s with calls := s.calls ++ [⟨operation, unit, form⟩] }

/-- The result or the failure of some work, as a value. -/
def attempt {α : Type} (w : Work α) : Work (Except Failure α) := fun s =>
  match w s with
  | .ok a s => .ok (.ok a) s
  | .error e s => .ok (.error e) s

/-- The result or the failure of some work, as a value. A request to stop is not held up. -/
def rescue {α : Type} (w : Work α) : Work (Except Failure α) := fun s =>
  match w s with
  | .ok a s => .ok (.ok a) s
  | .error f s => if f.isInterrupt then .error f s else .ok (.error f) s

/-- Reports something about a failure. Of one without a text nothing can be reported. -/
def reportOf (f : Failure) (e : Event) : Work Unit := if f.isTold then report e else pure ()

/-- Some work, and what to do if the store refuses a step of it. Other failures pass. -/
def orStore {α : Type} (w : Work α) (refused : StoreError → Work α) : Work α := fun s =>
  match w s with
  | .error (.store e) s => refused e s
  | r => r

/-- Some work outside the plan: no call in it fails by plan, and none is counted. -/
def unplanned {α : Type} (w : Work α) : Work α := fun s =>
  let restore (after : Session) : Session :=
    { after with handle := { after.handle with plan := s.handle.plan, counts := s.handle.counts } }
  match w { s with handle := { s.handle with plan := [] } } with
  | .ok a after => .ok a (restore after)
  | .error e after => .error e (restore after)

/-- Some work in a transaction of its own, which is committed if the work succeeds
and rolled back if it fails. -/
def inTransaction (w : Ticket → Work Unit) : Work Unit := do
  let t ← begin
  match ← attempt (w t) with
  | .ok _ => commit t
  | .error f =>
    rollback t
    throw f

/-- The text of the present instant. -/
def timestamp : Work String := do
  match Calendar.timestamp? (← now) with
  | some t => return t
  | none => throw .noSuchDate

/-- The seconds that a clock reading stands for, as a double. -/
def seconds (instant : Int) : Float := (Double.ofInt instant).toFloat / 1000000.0

/-- Whole milliseconds between two readings, cut toward zero. -/
def elapsed (start stop : Int) : Int :=
  (Double.ofFloat ((seconds stop - seconds start) * 1000.0)).truncate

end Work
end SchemaLedger
