-- Line ends. A text file may end its lines with a line feed, a carriage return or
-- both; read as text, each becomes one line feed.

namespace SchemaLedger.Text

/-- Every line end written as a line feed. -/
def unifyLineEnds : List Char → List Char
  | [] => []
  | '\r' :: '\n' :: rest => '\n' :: unifyLineEnds rest
  | c :: rest => (if c = '\r' then '\n' else c) :: unifyLineEnds rest

/-- The line, the column and the offset, as errors in a text give them. -/
structure Position where
  line : Nat
  column : Nat
  offset : Nat
  deriving DecidableEq, Repr

/-- The place after `offset` characters of a text; lines and columns count from 1. -/
def positionAt (s : List Char) (offset : Nat) : Position :=
  let before := s.take offset
  ⟨before.count '\n' + 1, (before.reverse.takeWhile (· ≠ '\n')).length + 1, offset⟩

def Position.text (p : Position) : String :=
  "line " ++ toString p.line ++ " column " ++ toString p.column ++ " (char " ++ toString p.offset ++ ")"

theorem unifyLineEnds_no_return (s : List Char) : '\r' ∉ unifyLineEnds s := by
  fun_induction unifyLineEnds s with
  | case1 => simp
  | case2 rest ih => simpa using ih
  | case3 c rest _ ih => by_cases h : c = '\r' <;> simp_all [eq_comm]

end SchemaLedger.Text
