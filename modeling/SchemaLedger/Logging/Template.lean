-- Templates of log lines. A percent sign starts a field: a name in parentheses, and
-- how its value is laid out. A template without any field is refused, and a field
-- that cannot be filled spoils the line.
import SchemaLedger.Number.Significant
import SchemaLedger.Text.Digit
import SchemaLedger.Text.WordChar
import SchemaLedger.Text.Quoted

namespace SchemaLedger

/-- The value of a field. -/
inductive FieldValue where
  | text (s : String)
  | int (n : Int)
  /-- A number with a point, which happens to be whole. -/
  | whole (n : Int)
  /-- What can only be shown. -/
  | other (s : String)
  deriving DecidableEq, Repr

/-- How a value is laid out. -/
structure Layout where
  left : Bool
  zeros : Bool
  plus : Bool
  space : Bool
  marked : Bool
  width : Nat
  precision : Option Nat
  conversion : Char
  deriving DecidableEq, Repr

def FieldValue.shown : FieldValue → String
  | .text s | .other s => s
  | .int n => toString n
  | .whole n => toString n ++ ".0"

def FieldValue.quoted : FieldValue → String
  | .text s => Text.quoted s
  | v => v.shown

/-- The number that a value is. -/
def FieldValue.number? : FieldValue → Option Int
  | .int n | .whole n => some n
  | _ => none

def FieldValue.int? : FieldValue → Option Int
  | .int n => some n
  | _ => none

namespace Template

inductive Piece where
  | plain (c : Char)
  | field (name : String) (layout : Layout)
  deriving DecidableEq, Repr

/-! ## Reading -/

/-- The name in parentheses, after the opening one, and the rest. Parentheses nest. -/
def nameIn (depth : Nat) : List Char → Option (List Char × List Char)
  | [] => none
  | c :: rest =>
    if c = ')' ∧ depth = 0 then some ([], rest)
    else
      let depth := if c = '(' then depth + 1 else if c = ')' then depth - 1 else depth
      (nameIn depth rest).map fun (name, rest) => (c :: name, rest)

def isFlag (c : Char) : Bool := ['-', '0', '+', ' ', '#'].contains c

def number (ds : List Char) : Nat := ds.foldl (fun n d => n * 10 + (d.toNat - 48)) 0

/-- The layout at the front, after the name, and the rest. -/
def layoutIn (s : List Char) : Option (Layout × List Char) :=
  let flags := s.takeWhile isFlag
  let s := s.drop flags.length
  let width := s.takeWhile Char.isDigit
  let s := s.drop width.length
  let precision := match s with
    | '.' :: rest => some (rest.takeWhile Char.isDigit)
    | _ => none
  let s := match precision with
    | some ds => s.drop (ds.length + 1)
    | none => s
  let s := match s with
    | c :: rest => if ['h', 'l', 'L'].contains c then rest else s
    | [] => []
  match s with
  | [] => none
  | c :: rest =>
    some
      ({ left := flags.contains '-', zeros := flags.contains '0', plus := flags.contains '+',
         space := flags.contains ' ', marked := flags.contains '#', width := number width,
         precision := precision.map number, conversion := c }, rest)

/-- The pieces of a template, if it is well formed. At most `fuel` pieces are read. -/
def piecesFrom : Nat → List Char → Option (List Piece)
  | _, [] => some []
  | 0, _ => none
  | fuel + 1, '%' :: '(' :: rest =>
    match nameIn 0 rest with
    | none => none
    | some (name, rest) =>
      match layoutIn rest with
      | none => none
      | some (l, rest) => (piecesFrom fuel rest).map (.field (String.ofList name) l :: ·)
  | fuel + 1, '%' :: '%' :: rest => (piecesFrom fuel rest).map (.plain '%' :: ·)
  | _, '%' :: _ => none
  | fuel + 1, c :: rest => (piecesFrom fuel rest).map (.plain c :: ·)

def pieces (template : List Char) : Option (List Piece) := piecesFrom template.length template

/-- A number or a star, if one comes first, is passed over. -/
def afterNumber (s : List Char) : List Char :=
  match s with
  | '*' :: rest => rest
  | _ => s.dropWhile fun c => (Text.digit? c).isSome

/-- A field stands at the front. -/
def startsField : List Char → Bool
  | '%' :: '(' :: rest =>
    let name := rest.takeWhile Text.isWordChar
    match rest.drop name.length with
    | ')' :: rest =>
      let rest := afterNumber (rest.dropWhile isFlag)
      let rest := match rest with
        | '.' :: more => if (afterNumber more).length < more.length then afterNumber more else rest
        | _ => rest
      !name.isEmpty && rest.head?.any fun c => "diouxefgcrsa%".toList.contains c.toLower
    | _ => false
  | _ => false

/-- A template needs a field somewhere. -/
def hasField : List Char → Bool
  | [] => false
  | c :: rest => startsField (c :: rest) || hasField rest

/-! ## Filling -/

/-- Fills a text up to a width. The fill goes in front of it, after its sign, unless the text
stands to the left. -/
def fill (l : Layout) (zeros : Bool) (sign body : List Char) : List Char :=
  let gap := l.width - (sign.length + body.length)
  if l.left then sign ++ body ++ List.replicate gap ' '
  else if zeros then sign ++ List.replicate gap '0' ++ body
  else List.replicate gap ' ' ++ sign ++ body

def signOf (l : Layout) (n : Int) : List Char :=
  if n < 0 then ['-'] else if l.plus then ['+'] else if l.space then [' '] else []

/-- A whole number in a base, with at least as many digits as the precision. -/
def digitsIn (l : Layout) (base : Nat) (n : Int) : List Char :=
  let ds := Nat.toDigits base n.natAbs
  List.replicate (l.precision.getD 0 - ds.length) '0' ++ ds

def fillNumber (l : Layout) (n : Int) (mark body : List Char) : List Char :=
  fill l l.zeros (signOf l n ++ if l.marked then mark else []) body

def fillText (l : Layout) (s : List Char) : List Char :=
  fill l false [] ((l.precision.map s.take).getD s)

/-- A character with only characters of ASCII. -/
def ascii (c : Char) : List Char :=
  if c.toNat < 0x80 then [c]
  else if c.toNat < 0x100 then '\\' :: 'x' :: Text.hex 2 c.toNat
  else if c.toNat < 0x10000 then '\\' :: 'u' :: Text.hex 4 c.toNat
  else '\\' :: 'U' :: Text.hex 8 c.toNat

/-- A value as its layout asks for it, if it can be laid out so. -/
def layOut (l : Layout) (v : FieldValue) : Option (List Char) :=
  match l.conversion with
  | 's' => some (fillText l v.shown.toList)
  | 'r' => some (fillText l v.quoted.toList)
  | 'a' => some (fillText l (v.quoted.toList.flatMap ascii))
  | 'd' | 'i' | 'u' => v.number?.map fun n => fillNumber l n [] (digitsIn l 10 n)
  | 'o' => v.int?.map fun n => fillNumber l n ['0', 'o'] (digitsIn l 8 n)
  | 'x' => v.int?.map fun n => fillNumber l n ['0', 'x'] (digitsIn l 16 n)
  | 'X' =>
    v.int?.map fun n => fillNumber l n ['0', 'X'] ((digitsIn l 16 n).map Char.toUpper)
  | 'f' | 'F' =>
    v.number?.map fun n =>
      let places := l.precision.getD 6
      let point := if places = 0 then (if l.marked then ['.'] else []) else '.' :: List.replicate places '0'
      fill l l.zeros (signOf l n) (Nat.toDigits 10 n.natAbs ++ point)
  | 'e' | 'E' =>
    v.number?.map fun n =>
      let x := Significant.ofNat (l.precision.getD 6 + 1) n.natAbs
      fill l l.zeros (signOf l n) (x.scientific l.conversion l.marked)
  | 'g' | 'G' =>
    v.number?.map fun n =>
      let x := Significant.ofNat (max 1 (l.precision.getD 6)) n.natAbs
      fill l l.zeros (signOf l n) (x.general (if l.conversion = 'g' then 'e' else 'E') l.marked)
  | 'c' =>
    match v with
    | .text s => if s.length = 1 then some (fillText { l with precision := none } s.toList) else none
    | .int n => if 0 ≤ n ∧ n < 0x110000 then some (fill l false [] [Char.ofNat n.toNat]) else none
    | _ => none
  | _ => none

/-- A piece as text, if it has a value that fits. -/
def fillPiece (value : String → Option FieldValue) : Piece → Option (List Char)
  | .plain c => some [c]
  | .field name l => (value name).bind (layOut l)

/-- A template with its fields filled in, if each of them has a value that fits. -/
def fillIn (template : List Char) (value : String → Option FieldValue) : Option (List Char) :=
  (pieces template).bind fun ps => (ps.mapM (fillPiece value)).map List.flatten

end Template
end SchemaLedger
