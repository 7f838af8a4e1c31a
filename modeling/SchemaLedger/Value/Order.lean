-- The order of values: texts compare character by character, numbers by size, and
-- lists item by item. Values of other kinds have no order.
import SchemaLedger.Value

namespace SchemaLedger.Value

/-- Two values without an order, by their kinds. -/
structure Incomparable where
  left : String
  right : String
  deriving DecidableEq, Repr

def Incomparable.message (e : Incomparable) : String :=
  "'<' not supported between instances of '" ++ e.left ++ "' and '" ++ e.right ++ "'"

/-- The number that a value is, as a double. -/
def number? : Value → Option Float
  | .bool b => some (if b then 1.0 else 0.0)
  | .int n => some (Double.ofInt n).toFloat
  | .float x => some x.toFloat
  | _ => none

mutual

/-- A value comes before another one. -/
def less : Value → Value → Except Incomparable Bool
  | .text a, .text b => .ok (a < b)
  | .list as, .list bs => lessAll as bs
  | a, b =>
    match wholeNumber? a, wholeNumber? b, number? a, number? b with
    | some m, some n, _, _ => .ok (m < n)
    | _, _, some x, some y => .ok (x < y)
    | _, _, _, _ => .error ⟨a.kind, b.kind⟩

/-- Lists are decided by the first items that differ, or else by their lengths. -/
def lessAll : List Value → List Value → Except Incomparable Bool
  | a :: as, b :: bs => if sameKey a b then lessAll as bs else less a b
  | as, bs => .ok (as.isEmpty && !bs.isEmpty)

end

end SchemaLedger.Value
