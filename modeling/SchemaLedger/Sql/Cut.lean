-- Where one statement of a script ends and the next begins. A semicolon ends a
-- statement unless it stands in parentheses or inside a definition's body, and a
-- batch separator always does. Cutting loses nothing but white space at the end.
import SchemaLedger.Sql.Lexeme

namespace SchemaLedger.Sql

/-- How deep in a statement the next lexeme stands. -/
structure Scope where
  /-- Parentheses and blocks that are open. More may close than were opened. -/
  level : Int := 0
  /-- Blocks of the kind that a begin opens. -/
  blocks : Nat := 0
  /-- The statement defines something. -/
  defining : Bool := false
  inCase : Bool := false
  deriving DecidableEq, Repr

/-- A keyword as it is compared: in upper case. -/
def Lexeme.upper (x : Lexeme) : String := String.ofList (Text.upperCase x.text)

namespace Scope

/-- The scope after a keyword, given in upper case. -/
def afterKeyword (s : Scope) (word : String) : Scope :=
  if word = "DECLARE" ∧ s.defining ∧ s.blocks = 0 then { s with level := s.level + 1 }
  else if word = "BEGIN" then
    { s with blocks := s.blocks + 1, level := if s.defining then s.level + 1 else s.level }
  else if word = "END" then
    if s.inCase then { s with level := s.level - 1, inCase := false }
    else { s with level := s.level - 1, blocks := s.blocks - 1 }
  else if ["IF", "FOR", "WHILE", "CASE"].contains word ∧ s.defining ∧ 0 < s.blocks then
    { s with level := s.level + 1, inCase := s.inCase || word == "CASE" }
  else if ["END IF", "END FOR", "END WHILE"].contains word then { s with level := s.level - 1 }
  else s

/-- The scope after a lexeme. -/
def after (s : Scope) (x : Lexeme) : Scope :=
  match x.kind with
  | .openParen => { s with level := s.level + 1 }
  | .closeParen => { s with level := s.level - 1 }
  | .create => { s with defining := true }
  | .keyword => s.afterKeyword x.upper
  | _ => s

end Scope

/-- The keyword that separates batches, written in capitals. -/
def isSeparator (x : Lexeme) : Bool :=
  x.kind == .keyword && x.text.takeWhile (!Text.isBlank ·) == ['G', 'O']

/-- A lexeme ends its statement, if the scope after it is `s`. -/
def endsIn (s : Scope) (x : Lexeme) : Bool :=
  (x.kind == .semicolon && s.level ≤ 0) || isSeparator x

/-- A lexeme that may follow the end of a statement and still belong to it. -/
def trails (x : Lexeme) : Bool := x.kind == .blank || x.kind == .lineComment

def Lexeme.isSpace (x : Lexeme) : Bool := x.kind == .blank || x.kind == .newline

/-- The statements of the lexemes that follow `current`, which stands in scope `s`
and has come to its end if `ended`. -/
def cutFrom (s : Scope) (ended : Bool) (current : List Lexeme) : List Lexeme → List (List Lexeme)
  | [] => if current.all Lexeme.isSpace then [] else [current]
  | x :: rest =>
    if ended && !trails x then
      current :: cutFrom (Scope.after {} x) (endsIn (Scope.after {} x) x) [x] rest
    else cutFrom (s.after x) (ended || endsIn (s.after x) x) (current ++ [x]) rest

/-- The statements that lexemes make up. -/
def cut (xs : List Lexeme) : List (List Lexeme) := cutFrom {} false [] xs

/-- The text that lexemes make up. -/
def textOf (xs : List Lexeme) : List Char := xs.flatMap Lexeme.text

end SchemaLedger.Sql
