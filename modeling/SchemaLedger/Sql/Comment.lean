-- The removal of comments. A comment leaves its line ends behind, or a space where
-- two words would meet. Comments in a row go together, those in parentheses go
-- first, and hints stay.
import SchemaLedger.Sql.Cut

namespace SchemaLedger.Sql

/-- A piece of a statement. -/
inductive Item where
  | lexeme (x : Lexeme)
  /-- Comments in a row with the line ends between and after them. `written` is
  their text before anything was removed. -/
  | comments (written : List Char) (inside : List Item)
  /-- What stands between two matching parentheses, with them. -/
  | parens (inside : List Item)

def Lexeme.isComment (x : Lexeme) : Bool :=
  x.kind == .lineComment || x.kind == .blockComment || x.kind == .hint

namespace Item

def isHint : Item → Bool
  | .lexeme x => x.kind == .hint
  | _ => false

/-- A comment that goes, or comments that do. -/
def isRemoved : Item → Bool
  | .lexeme x => x.isComment && x.kind != .hint
  | .comments _ inside => !inside.head?.any isHint
  | .parens _ => false

def isSpace : Item → Bool
  | .lexeme x => x.isSpace
  | _ => false

def isKind (k : Kind) : Item → Bool
  | .lexeme x => x.kind == k
  | _ => false

mutual

def text : Item → List Char
  | .lexeme x => x.text
  | .comments _ inside => textAll inside
  | .parens inside => textAll inside

def textAll : List Item → List Char
  | [] => []
  | i :: rest => i.text ++ textAll rest

end

/-- The text of an item before anything was removed from it. -/
def written : Item → List Char
  | .comments w _ => w
  | i => i.text

end Item

/-! ## Structure -/

/-- Puts comments in a row together, if something else follows them. -/
def groupComments (xs : List Lexeme) : List Item :=
  match xs with
  | [] => []
  | x :: rest =>
    if x.isComment then
      let joins (y : Lexeme) : Bool := y.isComment || y.kind == .newline
      let row := x :: rest.takeWhile joins
      let more := rest.dropWhile joins
      if more.isEmpty then (x :: rest).map .lexeme
      else .comments (textOf row) (row.map .lexeme) :: groupComments more
    else .lexeme x :: groupComments rest
termination_by xs.length
decreasing_by
  · exact Nat.lt_succ_of_le (List.dropWhile_suffix _).length_le
  · simp

/-- Nests what stands in matching parentheses. `outer` holds what comes before each
open parenthesis, the innermost first, and `current` what follows the last one. -/
def nest (outer : List (List Item)) (current : List Item) : List Item → List Item
  | [] => outer.foldl (fun inner before => before ++ inner) current
  | i :: rest =>
    if i.isKind .openParen then nest (current :: outer) [i] rest
    else if i.isKind .closeParen then
      match outer with
      | [] => nest [] (current ++ [i]) rest
      | before :: outer => nest outer (before ++ [.parens (current ++ [i])]) rest
    else nest outer (current ++ [i]) rest

/-! ## Removal -/

/-- What stays in the place of comments: the line ends at their end, or a space. -/
def remnant (i : Item) : Item :=
  let ends := (i.written.reverse.takeWhile fun c => c == '\n' || c == '\r').reverse
  .lexeme (if ends.isEmpty then ⟨.blank, [' ']⟩ else ⟨.newline, ends⟩)

/-- Nothing, or an open parenthesis, is where a comment leaves no trace. -/
def opens (before : List Item) : Bool := before.getLast?.all (Item.isKind .openParen)

/-- Removes comments from the items after `before`. What follows a comment that
leaves no trace is passed over. -/
def sweep (before : List Item) : List Item → List Item
  | [] => before
  | i :: rest =>
    if !i.isRemoved then sweep (before ++ [i]) rest
    else if !opens before then sweep (before ++ [remnant i]) rest
    else
      match rest with
      | [] => before
      | next :: rest => sweep (before ++ [next]) rest

mutual

/-- Removes the comments inside an item. -/
def cleaned : Item → Item
  | .lexeme x => .lexeme x
  | .comments w inside => .comments w (sweep [] (cleanedAll inside))
  | .parens inside => .parens (sweep [] (cleanedAll inside))

def cleanedAll : List Item → List Item
  | [] => []
  | i :: rest => cleaned i :: cleanedAll rest

end

/-- The text of a statement without its comments. -/
def withoutComments (xs : List Lexeme) : List Char :=
  Item.textAll (sweep [] (cleanedAll (nest [] [] (groupComments xs))))

end SchemaLedger.Sql
