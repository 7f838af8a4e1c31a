-- Places in a statement's text that a value is to fill. They are found wherever they
-- stand, in quotes too. A backslash before a colon makes it plain.
import SchemaLedger.Text.WordChar

namespace SchemaLedger.Sql

/-- A place for a value, by its name. -/
inductive Place where
  /-- A value is asked for. -/
  | declared (name : List Char)
  /-- A value is looked up, though nothing has asked for it. -/
  | assumed (name : List Char)
  deriving DecidableEq, Repr

namespace Place

def name : Place → List Char
  | declared n | assumed n => n

def declared? : Place → Option (List Char)
  | declared n => some n
  | assumed _ => none

end Place

/-- What the name of a parameter is made of. -/
def isNamePart (c : Char) : Bool := Text.isWordChar c || c == '$'

/-- Before a parameter's colon stands no colon, no name and no backslash. -/
def mayPrecede (c : Char) : Bool := !(isNamePart c || c == ':' || c == '\\')

/-- The parameter whose colon comes right before. No colon may follow it. A name with
a dollar sign in it is not declared. -/
def parameter? (s : List Char) : Option Place :=
  let name := s.takeWhile isNamePart
  if name.isEmpty || (s.dropWhile isNamePart).head? == some ':' then none
  else if name.contains '$' then some (.assumed name)
  else some (.declared name)

/-- The mark `%(name)s` whose percent sign comes right before. -/
def mark? (s : List Char) : Option Place :=
  match s with
  | '(' :: rest =>
    let name := rest.takeWhile (· != ')')
    if name.isEmpty || (rest.dropWhile (· != ')')).take 2 != [')', 's'] then none
    else some (.assumed name)
  | _ => none

/-- The place at the front of a text that stands after `before`. -/
def placeAt? (before : Option Char) (c : Char) (rest : List Char) : Option Place :=
  if c = ':' ∧ before.all mayPrecede then parameter? rest
  else if c = '%' then mark? rest
  else none

/-- The places in a text that stands after `before`. -/
def placesFrom (before : Option Char) : List Char → List Place
  | [] => []
  | c :: rest => (placeAt? before c rest).toList ++ placesFrom (some c) rest

/-- The places in a text. -/
def places (s : List Char) : List Place := placesFrom none s

/-- A backslash goes if it stands before a colon and perhaps a word, and no colon follows. -/
def unescape : List Char → List Char
  | '\\' :: ':' :: rest =>
    let after := (rest.dropWhile isNamePart).head?
    if after == some ':' then '\\' :: unescape (':' :: rest) else ':' :: unescape rest
  | c :: rest => c :: unescape rest
  | [] => []

end SchemaLedger.Sql
