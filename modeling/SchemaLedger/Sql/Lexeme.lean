-- Lexemes of SQL scripts. Rules are tried in a fixed order at each place; the first
-- that matches decides how many characters the lexeme takes. Lexemes lose nothing:
-- their texts make up the script again.
import SchemaLedger.Text.Blank
import SchemaLedger.Text.Digit
import SchemaLedger.Text.WordChar
import SchemaLedger.Text.UpperCase

namespace SchemaLedger.Sql

/-- What the splitter and the removal of comments tell apart. -/
inductive Kind where
  | newline
  | blank
  | lineComment
  | blockComment
  /-- A comment that starts with a plus sign and is kept. -/
  | hint
  | keyword
  /-- The keyword that opens a definition. -/
  | create
  | openParen
  | closeParen
  | semicolon
  | other
  deriving DecidableEq, Repr

structure Lexeme where
  kind : Kind
  text : List Char
  deriving DecidableEq, Repr

/-- How many characters from here on a rule takes, and as what. A rule may look at
the character before. -/
abbrev Rule := Option Char → List Char → Option (Kind × Nat)

/-! ## Characters and words -/

/-- Letters that may start a name: ASCII and Latin-1 letters, and the few letters
that share a lower-case form with them. -/
def isNameStart (c : Char) : Bool :=
  let n := c.toNat
  c.isAlpha || (0xC0 ≤ n && n ≤ 0xDC) || (0xE0 ≤ n && n ≤ 0xF6) || (0xF8 ≤ n && n ≤ 0xFC) ||
    n == 0x130 || n == 0x131 || n == 0x17F || n == 0x212A || n == 0x212B

def isNameStartOrLine (c : Char) : Bool := isNameStart c || c == '_'

def isDigit (c : Char) : Bool := (Text.digit? c).isSome

/-- The ASCII letter that a letter stands for when case does not matter. -/
def foldCase (c : Char) : Char :=
  if c = '\u0130' ∨ c = '\u0131' then 'i'
  else if c = '\u017F' then 's'
  else if c = '\u212A' then 'k'
  else c.toLower

/-- The length of the characters at the front that satisfy `p`. -/
def run (p : Char → Bool) (s : List Char) : Nat := (s.takeWhile p).length

/-- A word at the front, in any case. `w` is in lower case. -/
def startsWith (w : List Char) (s : List Char) : Bool :=
  w.isPrefixOf ((s.take w.length).map foldCase)

/-- The front of a text ends a word here. -/
def atWordEnd (s : List Char) : Bool := !(s.head?.any Text.isWordChar)

/-- One of some words, with white space before it unless it comes first, and so on;
the last one ends a word. Gives the length. -/
def phrase (first : Bool) : List (List String) → List Char → Option Nat
  | [], s => if atWordEnd s then some 0 else none
  | choices :: more, s =>
    let gap := if first then 0 else run Text.isBlank s
    let s := s.drop gap
    if !first && gap == 0 then none
    else
      choices.findSome? fun w =>
        if startsWith w.toList s then
          (phrase false more (s.drop w.length)).map (gap + w.length + ·)
        else none

/-! ## Comments, blanks and marks -/

/-- The length of a line including its end. -/
def lineLength : List Char → Nat
  | [] => 0
  | '\n' :: _ => 1
  | '\r' :: '\n' :: _ => 2
  | '\r' :: _ => 1
  | _ :: rest => lineLength rest + 1

/-- The length up to and including the end of a block comment. -/
def blockLength? : List Char → Option Nat
  | '*' :: '/' :: _ => some 2
  | _ :: rest => (blockLength? rest).map (· + 1)
  | [] => none

def hintLine : Rule := fun _ s =>
  match s with
  | '-' :: '-' :: '+' :: rest => some (.hint, lineLength rest + 3)
  | '#' :: ' ' :: '+' :: rest => some (.hint, lineLength rest + 3)
  | _ => none

def hintBlock : Rule := fun _ s =>
  match s with
  | '/' :: '*' :: '+' :: rest => (blockLength? rest).map fun n => (.hint, n + 3)
  | _ => none

def commentLine : Rule := fun _ s =>
  match s with
  | '-' :: '-' :: rest => some (.lineComment, lineLength rest + 2)
  | '#' :: ' ' :: rest => some (.lineComment, lineLength rest + 2)
  | _ => none

def commentBlock : Rule := fun _ s =>
  match s with
  | '/' :: '*' :: rest => (blockLength? rest).map fun n => (.blockComment, n + 2)
  | _ => none

def lineEnd : Rule := fun _ s =>
  match s with
  | '\r' :: '\n' :: _ => some (.newline, 2)
  | '\r' :: _ => some (.newline, 1)
  | '\n' :: _ => some (.newline, 1)
  | _ => none

def blank : Rule := fun _ s =>
  match s with
  | c :: _ => if Text.isBlank c then some (.blank, 1) else none
  | [] => none

/-- Marks of two characters and the star, none of which ends a statement. -/
def mark : Rule := fun _ s =>
  match s with
  | ':' :: '=' :: _ => some (.other, 2)
  | ':' :: ':' :: _ => some (.other, 2)
  | '*' :: _ => some (.other, 1)
  | _ => none

/-! ## Quoted names and texts -/

/-- The length of a quoted text after its opening quote, in which the quote itself
is written twice. The last quote closes it if nothing else does. -/
def doubledLength? (q : Char) : List Char → Option Nat
  | [] => none
  | c :: rest =>
    if c = q then
      match rest with
      | d :: more =>
        if d = q then
          match doubledLength? q more with
          | some n => some (n + 2)
          | none => some 1
        else some 1
      | [] => some 1
    else (doubledLength? q rest).map (· + 1)

/-- The same, where a backslash may also stand before a quote that does not close. -/
def quotedLength? (q : Char) : List Char → Option Nat
  | [] => none
  | c :: rest =>
    if c = q then
      match rest with
      | d :: more =>
        if d = q then
          match quotedLength? q more with
          | some n => some (n + 2)
          | none => some 1
        else some 1
      | [] => some 1
    else if c = '\\' then
      match rest with
      | d :: more =>
        if d = q then
          match quotedLength? q more with
          | some n => some (n + 2)
          | none => (quotedLength? q (d :: more)).map (· + 1)
        else (quotedLength? q (d :: more)).map (· + 1)
      | [] => none
    else (quotedLength? q rest).map (· + 1)

def quotedName : Rule := fun _ s =>
  match s with
  | c :: rest =>
    if c = '\x60' ∨ c = '\u00B4' then (doubledLength? c rest).map fun n => (.other, n + 1) else none
  | [] => none

/-- Two texts are equal when case does not matter. -/
def sameFolded (a b : List Char) : Bool := a.flatMap Text.capital == b.flatMap Text.capital

/-- How many characters come before `mark` and how long it is in all. -/
def untilMark? (mark : List Char) : List Char → Option Nat
  | [] => none
  | c :: rest =>
    if mark.length ≤ rest.length + 1 && sameFolded mark ((c :: rest).take mark.length) then
      some mark.length
    else (untilMark? mark rest).map (· + 1)

/-- A text between two equal dollar marks. -/
def dollarQuoted : Rule := fun before s =>
  match s with
  | '$' :: rest =>
    if before.any fun c => Text.isWordChar c || c == '\x22' || c == '$' then none
    else
      let name := match rest with
        | c :: more => if isNameStartOrLine c then run Text.isWordChar more + 1 else 0
        | [] => 0
      match rest.drop name with
      | '$' :: body =>
        (untilMark? ('$' :: rest.take (name + 1)) body).map fun n => (.other, n + name + 2)
      | _ => none
  | _ => none

def quotedText : Rule := fun _ s =>
  match s with
  | c :: rest =>
    if c = '\x27' ∨ c = '\x22' then (quotedLength? c rest).map fun n => (.other, n + 1) else none
  | [] => none

/-- A name in square brackets, where no index can stand. -/
def bracketName : Rule := fun before s =>
  match s with
  | '[' :: rest =>
    if before.any fun c => Text.isWordChar c || c == ']' || c == ')' then none
    else
      let n := run (fun c => c != '[' && c != ']') rest
      if n > 0 && (rest.drop n).head? == some ']' then some (.other, n + 2) else none
  | _ => none

/-! ## Placeholders, names and numbers -/

/-- A percent sign, perhaps a name in parentheses, and an s. -/
def percentMark : Rule := fun _ s =>
  match s with
  | '%' :: rest =>
    let plain := if startsWith ['s'] rest then some (Kind.other, 2) else none
    match rest with
    | '(' :: more =>
      let n := run Text.isWordChar more
      match more.drop n with
      | ')' :: after => if n > 0 && startsWith ['s'] after then some (.other, n + 4) else plain
      | _ => plain
    | _ => plain
  | _ => none

def placeholder : Rule := fun before s =>
  match s with
  | '?' :: _ => some (.other, 1)
  | c :: rest =>
    let n := run Text.isWordChar rest
    if (c == '$' || c == ':') && n > 0 && !(before.any Text.isWordChar) then some (.other, n + 1)
    else none
  | [] => none

def command : Rule := fun _ s =>
  match s with
  | '\\' :: rest =>
    let n := run Text.isWordChar rest
    if n > 0 then some (.other, n + 1) else none
  | _ => none

/-- Words that are keywords even before a parenthesis. -/
def firmKeyword : Rule := fun _ s =>
  (phrase true [["case", "in", "values", "using", "from", "as"]] s).map fun n => (.keyword, n)

/-- A name after a mark. -/
def markedName : Rule := fun _ s =>
  let after (n : Nat) : Option (Kind × Nat) :=
    match s.drop n with
    | c :: rest =>
      let k := run Text.isWordChar rest
      if isNameStart c && k > 0 then some (.other, n + k + 1) else none
    | [] => none
  match s with
  | '@' :: _ => after 1
  | '#' :: '#' :: _ => after 2
  | '#' :: _ => after 1
  | _ => none

/-- The length of a name at the front. -/
def nameLength : List Char → Nat
  | c :: rest => if isNameStart c then run Text.isWordChar rest + 1 else 0
  | [] => 0

/-- A name next to a point, or right before a parenthesis. -/
def qualifiedName : Rule := fun before s =>
  let n := nameLength s
  if n = 0 then none
  else
    let rest := s.drop n
    if (rest.dropWhile Text.isBlank).head? == some '.' || before == some '.' || rest.head? == some '('
    then some (.other, n)
    else none

/-- A run of digits that a letter follows gives its last digit back. -/
def givingBack (least digits : Nat) (after : List Char) : Option Nat :=
  if after.head?.any isNameStartOrLine then
    if digits > least then some (digits - 1) else none
  else some digits

def number : Rule := fun _ s =>
  let minus := if s.head? == some '-' then 1 else 0
  let body := s.drop minus
  let whole := run isDigit body
  let rest := body.drop whole
  let isHex (c : Char) : Bool := isDigit c || ('a' ≤ foldCase c && foldCase c ≤ 'f')
  let hex := if startsWith ['0', 'x'] body then run isHex (body.drop 2) else 0
  let fraction := match rest with
    | '.' :: more => run isDigit more
    | _ => 0
  let power :=
    if whole = 0 then none
    else
      let rest := if fraction > 0 then rest.drop (fraction + 1) else rest
      if startsWith ['e'] rest then
        let sign := if (rest.drop 1).head? == some '-' then 1 else 0
        let n := run isDigit (rest.drop (1 + sign))
        if n > 0 then some (whole + (if fraction > 0 then fraction + 1 else 0) + 1 + sign + n) else none
      else none
  let point := match rest with
    | '.' :: more =>
      (givingBack (if whole = 0 then 1 else 0) fraction (more.drop fraction)).bind fun n =>
        if whole = 0 && n = 0 then none else some (whole + 1 + n)
    | _ => none
  let plain := if whole = 0 then none else givingBack 1 whole rest
  let found := if hex > 0 then some (hex + 2) else power.or (point.or plain)
  found.map fun n => (.other, minus + n)

/-! ## Keywords, words and signs -/

def goCount : Rule := fun _ s =>
  match startsWith ['g', 'o'] s, s.drop 2 with
  | true, c :: rest =>
    let n := run isDigit rest
    if Text.isBlank c && n > 0 && atWordEnd (rest.drop n) then some (.keyword, n + 3) else none
  | _, _ => none

/-- Phrases that count as one lexeme, in the order in which they are tried. -/
def phrases : List (Kind × List (List String)) :=
  [(.keyword, [["left", "right", "full"], ["inner", "outer", "straight"], ["join"]]),
   (.keyword, [["left", "right", "full"], ["join"]]),
   (.keyword, [["inner", "outer", "straight"], ["join"]]),
   (.keyword, [["cross", "natural"], ["join"]]),
   (.keyword, [["join"]]),
   (.keyword, [["end"], ["if", "loop", "while"]]),
   (.keyword, [["end"]]),
   (.keyword, [["not"], ["null"]]),
   (.other, [["asc", "desc"], ["nulls"], ["first", "last"]]),
   (.other, [["asc", "desc"]]),
   (.other, [["nulls"], ["first", "last"]]),
   (.keyword, [["union"], ["all"]]),
   (.create, [["create"], ["or"], ["replace"]]),
   (.create, [["create"]]),
   (.other, [["double"], ["precision"]]),
   (.keyword, [["group"], ["by"]]),
   (.keyword, [["order"], ["by"]]),
   (.keyword, [["primary"], ["key"]]),
   (.keyword, [["handler"], ["for"]])]

/-- Phrases that are tried after the batch separator with a count. -/
def latePhrases : List (Kind × List (List String)) :=
  [(.keyword, [["lateral"], ["view"], ["explode", "inline", "parse_url_tuple", "posexplode", "stack"]]),
   (.other, [["not"], ["like", "ilike", "rlike"]]),
   (.other, [["like", "ilike", "rlike"]]),
   (.other, [["not"], ["regexp"]]),
   (.other, [["regexp"]])]

def anyPhrase (ps : List (Kind × List (List String))) : Rule := fun _ s =>
  ps.findSome? fun p => (phrase true p.2 s).map fun n => (p.1, n)

/-- A time zone given as a text. -/
def timeZone : Rule := fun _ s =>
  ["at", "with\x27"].findSome? fun w =>
    if startsWith w.toList s then
      let rest := s.drop w.length
      let gap := run Text.isBlank rest
      if gap = 0 then none
      else
        match phrase true [["time"], ["zone"]] (rest.drop gap) with
        | none => none
        | some n =>
          let tail := rest.drop (gap + n)
          let gap' := run Text.isBlank tail
          match tail.drop gap' with
          | '\x27' :: body =>
            let k := run (· != '\x27') body
            if gap' > 0 && k > 0 && (body.drop k).head? == some '\x27' then
              some (.other, w.length + gap + n + gap' + k + 2)
            else none
          | _ => none
    else none

/-- Words that matter to the splitter. -/
def keywords : List String := ["BEGIN", "DECLARE", "IF", "FOR", "WHILE", "GO", "END", "CASE"]

def word : Rule := fun _ s =>
  match s with
  | c :: rest =>
    if Text.isWordChar c then
      let n := run (fun c => Text.isWordChar c || c == '$' || c == '#') rest + 1
      let upper := String.ofList (Text.upperCase (s.take n))
      some (if keywords.contains upper then .keyword else .other, n)
    else none
  | [] => none

def punctuation : Rule := fun _ s =>
  match s with
  | ';' :: _ => some (.semicolon, 1)
  | '(' :: _ => some (.openParen, 1)
  | ')' :: _ => some (.closeParen, 1)
  | c :: _ => if c == ':' || c == '[' || c == ']' || c == ',' || c == '.' then some (.other, 1) else none
  | [] => none

/-- Signs of one to three characters, and runs of signs. -/
def sign : Rule := fun _ s =>
  match s with
  | '-' :: '>' :: '>' :: _ => some (.other, 3)
  | '-' :: '>' :: _ => some (.other, 2)
  | '#' :: '>' :: '>' :: _ => some (.other, 3)
  | '#' :: '>' :: _ => some (.other, 2)
  | '@' :: '>' :: _ => some (.other, 2)
  | '<' :: '@' :: _ => some (.other, 2)
  | '-' :: _ => some (.other, 1)
  | '#' :: '-' :: _ => some (.other, 2)
  | _ :: _ =>
    let n := run (fun c => "<>=~!".toList.contains c) s
    let m := run (fun c => "+/@#%^&|-".toList.contains c) s
    if n > 0 then some (.other, n)
    else if m > 0 then some (.other, m)
    else some (.other, 1)
  | [] => none

/-- All rules, in the order in which they are tried. -/
def rules : List Rule :=
  [hintLine, hintBlock, commentLine, commentBlock, lineEnd, blank, mark, quotedName, dollarQuoted,
   percentMark, placeholder, command, firmKeyword, markedName, qualifiedName, number, quotedText,
   bracketName, anyPhrase phrases, goCount, anyPhrase latePhrases, timeZone, word, punctuation, sign]

/-- What the first rule that matches takes. -/
def firstMatch (before : Option Char) (s : List Char) : Kind × Nat :=
  (rules.findSome? fun r => r before s).getD (.other, 1)

/-- The lexemes of a text that stands after `before`. -/
def lexFrom (before : Option Char) (s : List Char) : List Lexeme :=
  match s with
  | [] => []
  | c :: rest =>
    let m := firstMatch before (c :: rest)
    let n := m.2 - 1
    ⟨m.1, c :: rest.take n⟩ :: lexFrom ((c :: rest.take n).getLast?) (rest.drop n)
termination_by s.length
decreasing_by simp only [List.length_drop, List.length_cons]; omega

/-- The lexemes of a script. -/
def lexemes (s : List Char) : List Lexeme := lexFrom none s

theorem flatMap_text_lexFrom (before : Option Char) (s : List Char) :
    (lexFrom before s).flatMap Lexeme.text = s := by
  fun_induction lexFrom before s with
  | case1 => rfl
  | case2 before c rest m n ih => simp [ih, List.take_append_drop]

/-- Lexemes lose nothing. -/
theorem flatMap_text_lexemes (s : List Char) : (lexemes s).flatMap Lexeme.text = s :=
  flatMap_text_lexFrom none s

end SchemaLedger.Sql
