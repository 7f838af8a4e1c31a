-- How many migrations to roll back: a positive number, its decimal text, or all.
import SchemaLedger.Failure
import SchemaLedger.Value
import SchemaLedger.Number.Numeral

namespace SchemaLedger

/-- How many migrations to roll back. -/
inductive RollbackCount where
  | all
  | exactly (n : Nat)
  deriving DecidableEq, Repr

namespace RollbackCount

/-- The limit on rows that a count stands for. -/
def limit? : RollbackCount → Option Int
  | .all => none
  | .exactly n => some n

/-- What is wrong with a count, if the count can be written out. -/
def refuse (count : Value) (fault : ConfigFault) : Except Failure RollbackCount :=
  if count.isWritable then .error (.configuration fault) else .error (.file .numberTooLong)

/-- A count has to be positive. -/
def ofInt (n : Int) : Except Failure RollbackCount :=
  if 0 < n then .ok (.exactly n.toNat) else refuse (.int n) (.countRange n)

/-- The word for all of them, in any case. -/
def isAll (s : List Char) : Bool := s.map Char.toLower == ['a', 'l', 'l']

/-- The count that a text writes. White space around it does not matter. -/
def ofText (s : List Char) : Except Failure RollbackCount :=
  let t := Text.trim s
  if isAll t then .ok .all
  else
    match Numeral.read t with
    | .ok n => ofInt n
    | .error _ => .error (.configuration (.countText (String.ofList t)))

/-- The count that a value stands for. -/
def ofValue : Value → Except Failure RollbackCount
  | .int n => ofInt n
  | .text s => ofText s.toList
  | v => refuse v (.countKind v.quoted)

end RollbackCount
end SchemaLedger
