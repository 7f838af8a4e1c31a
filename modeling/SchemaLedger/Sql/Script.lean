-- Scripts: the statements of a text, as they are sent one by one. Comments and
-- trailing white space go, and so does the semicolon at the end of a statement.
-- A text without statements gives none.
import SchemaLedger.Sql.Comment

namespace SchemaLedger.Sql

/-! ## Lines -/

/-- The length of a quoted text after its opening quote, if it is closed. A backslash
stands before a character of the text, which may not be a line feed. -/
def closedLength? (q : Char) : List Char → Option Nat
  | [] => none
  | '\\' :: c :: rest => if c = '\n' then none else (closedLength? q rest).map (· + 2)
  | c :: rest =>
    if c = q then some 1 else if c = '\\' then none else (closedLength? q rest).map (· + 1)

/-- How many characters at the front belong to the line whatever they are: a quoted
text, or one character. -/
def stretch : List Char → Nat
  | [] => 0
  | c :: rest => if c = '\x27' ∨ c = '\x22' then ((closedLength? c rest).getD 0) + 1 else 1

/-- The lines of a text. Line ends in quotes do not count. `line` is the line that
has begun. -/
def linesFrom (line : List Char) (s : List Char) : List (List Char) :=
  match s with
  | [] => [line]
  | '\r' :: '\n' :: rest => line :: linesFrom [] rest
  | c :: rest =>
    if c = '\r' ∨ c = '\n' then line :: linesFrom [] rest
    else
      let n := stretch (c :: rest) - 1
      linesFrom (line ++ c :: rest.take n) (rest.drop n)
termination_by s.length
decreasing_by
  all_goals
    simp only [List.length_drop, List.length_cons]
    omega

/-- Without white space at the end of its lines. -/
def tidyLines (s : List Char) : List Char :=
  ['\n'].intercalate ((linesFrom [] s).map (Text.dropEndWhile Text.isBlank))

/-! ## Statements -/

/-- The bare form of a statement: no comments, no white space around it and no
semicolons at its end. -/
def bare (s : List Char) : List Char :=
  let plain := (cut (lexemes s)).flatMap fun part => tidyLines (withoutComments part)
  Text.trim (Text.dropEndWhile (· == ';') (Text.trim plain))

/-- The statements of a script, in order. -/
def statements (script : String) : List String :=
  let parts := (cut (lexemes script.toList)).map fun part => bare (Text.trim (textOf part))
  (parts.filter (!·.isEmpty)).map String.ofList

end SchemaLedger.Sql
