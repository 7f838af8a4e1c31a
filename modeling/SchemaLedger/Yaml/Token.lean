-- YAML tokens. Indentation becomes explicit: a token opens each block collection
-- and one closes it. Whether a scalar is a key shows only when its colon is met,
-- so a place is kept in front of each candidate and filled in then.
import SchemaLedger.Yaml.Fault
import SchemaLedger.Json.Reader
import SchemaLedger.Text.Utf8

namespace SchemaLedger.Yaml

inductive Token where
  | versionDirective (major minor : Nat)
  | tagDirective (handle expansion : List Char)
  | otherDirective
  | documentStart
  | documentEnd
  | blockSequenceStart
  | blockMappingStart
  | blockEnd
  | flowSequenceStart
  | flowSequenceEnd
  | flowMappingStart
  | flowMappingEnd
  | blockEntry
  | flowEntry
  | key
  | value
  | alias (name : List Char)
  | anchor (name : List Char)
  | tag (handle : Option (List Char)) (suffix : List Char)
  | scalar (text : List Char) (plain : Bool)
  deriving DecidableEq, Repr, Inhabited

/-! ## Characters -/

def isBreak (c : Char) : Bool :=
  c == '\n' || c == '\r' || c == '\u0085' || c == '\u2028' || c == '\u2029'

/-- White space, a line break, or the end of the text. -/
def isGap (c : Option Char) : Bool :=
  match c with
  | none => true
  | some c => c == ' ' || c == '\t' || isBreak c

/-- A line break or the end of the text. -/
def isLineEnd (c : Option Char) : Bool :=
  match c with
  | none => true
  | some c => isBreak c

def isNameChar (c : Char) : Bool := c.isAlphanum || c == '-' || c == '_'

def isUriChar (c : Char) : Bool := c.isAlphanum || "-;/?:@&=+$,_.!~*\x27()[]%".toList.contains c

/-- Characters that a text may hold. -/
def isAllowed (c : Char) : Bool :=
  c == '\t' || c == '\n' || c == '\r' || (' ' ≤ c && c ≤ '~') || c == '\u0085' ||
    ('\u00A0' ≤ c && c.toNat ≤ 0xD7FF) || (0xE000 ≤ c.toNat && c.toNat ≤ 0xFFFD) || 0x10000 ≤ c.toNat

/-! ## The place in the text -/

structure Cursor where
  rest : List Char
  index : Nat := 0
  line : Nat := 0
  column : Nat := 0

namespace Cursor

/-- The `n`-th character ahead. -/
def peek (c : Cursor) (n : Nat) : Option Char := c.rest[n]?

/-- Goes on by one character. A byte order mark takes no column. -/
def next (c : Cursor) : Cursor :=
  match c.rest with
  | [] => c
  | ch :: rest =>
    if isBreak ch then ⟨rest, c.index + 1, c.line + 1, 0⟩
    else ⟨rest, c.index + 1, c.line, if ch = '\uFEFF' then c.column else c.column + 1⟩

def skip (c : Cursor) : Nat → Cursor
  | 0 => c
  | n + 1 => c.next.skip n

/-- The characters ahead that satisfy `p`, and the place after them. -/
def span (c : Cursor) (p : Char → Bool) : List Char × Cursor :=
  let taken := c.rest.takeWhile p
  (taken, c.skip taken.length)

def skipSpaces (c : Cursor) : Cursor := (c.span (· == ' ')).2

/-- Goes over a line break, if there is one, and gives the text that it stands for. -/
def lineBreak (c : Cursor) : List Char × Cursor :=
  match c.rest with
  | '\r' :: '\n' :: _ => (['\n'], c.skip 2)
  | ch :: _ =>
    if ch = '\r' ∨ ch = '\n' ∨ ch = '\u0085' then (['\n'], c.next)
    else if ch = '\u2028' ∨ ch = '\u2029' then ([ch], c.next)
    else ([], c)
  | [] => ([], c)

/-- A document marker of three equal characters stands ahead. -/
def atMarker (c : Cursor) (mark : Char) : Bool :=
  c.peek 0 == some mark && c.peek 1 == some mark && c.peek 2 == some mark && isGap (c.peek 3)

def atAnyMarker (c : Cursor) : Bool := c.atMarker '-' || c.atMarker '.'

/-- Goes over spaces, a comment and one line break; anything else is refused. -/
def restOfLine (c : Cursor) : Except Fault Cursor :=
  let c := c.skipSpaces
  let c := if c.peek 0 == some '#' then (c.span (fun ch => !isBreak ch)).2 else c
  if isLineEnd (c.peek 0) then .ok c.lineBreak.2 else .error .malformed

end Cursor

/-! ## The scanner's state -/

/-- A scalar or collection that is a key if a colon follows on its line. -/
structure KeyCandidate where
  /-- The place kept for the tokens in front of it. -/
  slot : Nat
  required : Bool
  index : Nat
  line : Nat
  column : Nat

structure Scanner where
  cursor : Cursor
  /-- Tokens in order. A place kept for a key is empty until the key is known. -/
  slots : Array (List Token) := #[]
  flowLevel : Nat := 0
  indent : Int := -1
  outer : List Int := []
  keyAllowed : Bool := true
  /-- At most one candidate for each level of flow collections. -/
  candidates : List (Nat × KeyCandidate) := []
  finished : Bool := false

namespace Scanner

def emit (s : Scanner) (t : Token) : Scanner := { s with slots := s.slots.push [t] }

def moveTo (s : Scanner) (c : Cursor) : Scanner := { s with cursor := c }

/-- Drops the candidate of this level. One that had to be a key is an error. -/
def dropCandidate (s : Scanner) : Except Fault Scanner :=
  match s.candidates.lookup s.flowLevel with
  | some k =>
    if k.required then .error .malformed
    else .ok { s with candidates := s.candidates.filter (·.1 ≠ s.flowLevel) }
  | none => .ok s

/-- Keeps a place in front of the next token, where a key may start. -/
def noteCandidate (s : Scanner) : Except Fault Scanner := do
  if s.keyAllowed then
    let required := s.flowLevel == 0 && s.indent == (s.cursor.column : Int)
    let s ← s.dropCandidate
    let k : KeyCandidate := ⟨s.slots.size, required, s.cursor.index, s.cursor.line, s.cursor.column⟩
    return { s with slots := s.slots.push [], candidates := (s.flowLevel, k) :: s.candidates }
  else return s

/-- A candidate ends with its line, and after 1024 characters. -/
def dropStale (s : Scanner) : Except Fault Scanner :=
  let stale := fun (p : Nat × KeyCandidate) =>
    p.2.line ≠ s.cursor.line || s.cursor.index - p.2.index > 1024
  if s.candidates.any fun p => stale p && p.2.required then .error .malformed
  else .ok { s with candidates := s.candidates.filter fun p => !stale p }

/-- Closes the block collections that are indented more than `column`. -/
def unwind (s : Scanner) (column : Int) : Scanner :=
  if s.flowLevel > 0 then s else go s s.indent s.outer
where
  go (s : Scanner) (indent : Int) : List Int → Scanner
    | [] => { s with indent, outer := [] }
    | o :: outer =>
      if indent > column then go (s.emit .blockEnd) o outer
      else { s with indent, outer := o :: outer }

/-- Opens a block collection at `column` if that is further in. -/
def indentTo (s : Scanner) (column : Nat) : Bool × Scanner :=
  if s.indent < column then
    (true, { s with indent := column, outer := s.indent :: s.outer })
  else (false, s)

/-- Goes over white space, comments and line breaks to the next token. Outside
flow collections a key may start on a new line. -/
def toNextToken (s : Scanner) : Scanner :=
  let c := s.cursor
  let c := if c.index = 0 ∧ c.peek 0 = some '\uFEFF' then c.next else c
  go (c.rest.length + 1) { s with cursor := c }
where
  go : Nat → Scanner → Scanner
    | 0, s => s
    | fuel + 1, s =>
      let c := s.cursor.skipSpaces
      let c := if c.peek 0 == some '#' then (c.span (fun ch => !isBreak ch)).2 else c
      match c.lineBreak with
      | ([], c) => { s with cursor := c }
      | (_, c) => go fuel { s with cursor := c, keyAllowed := s.keyAllowed || s.flowLevel == 0 }

/-! ## Directives, anchors and tags -/

def number (c : Cursor) : Except Fault (Nat × Cursor) :=
  match c.span Char.isDigit with
  | ([], _) => .error .malformed
  | (ds, c) => .ok (Json.digitsValue ds, c)

/-- The bytes of percent escapes, as text. -/
def percentBytes : Nat → Cursor → Except Fault (List UInt8 × Cursor)
  | 0, _ => .error .malformed
  | fuel + 1, c =>
    if c.peek 0 == some '%' then
      match (c.peek 1).bind Json.hexDigit?, (c.peek 2).bind Json.hexDigit? with
      | some a, some b => do
        let (more, c) ← percentBytes fuel (c.skip 3)
        return ((a * 16 + b).toUInt8 :: more, c)
      | _, _ => .error .malformed
    else .ok ([], c)

/-- A tag's text, with percent escapes resolved. At least one character. -/
def uri (c : Cursor) : Except Fault (List Char × Cursor) := do
  let (text, c) ← go (c.rest.length + 1) c
  if text.isEmpty then .error .malformed else return (text, c)
where
  go : Nat → Cursor → Except Fault (List Char × Cursor)
    | 0, c => .ok ([], c)
    | fuel + 1, c => do
      let (plain, c) := c.span fun ch => isUriChar ch && ch != '%'
      if c.peek 0 == some '%' then
        let (bytes, c) ← percentBytes (c.rest.length + 1) c
        match Utf8.decode bytes with
        | .error _ => .error .malformed
        | .ok text =>
          let (more, c) ← go fuel c
          return (plain ++ text ++ more, c)
      else return (plain, c)

/-- A tag handle: an exclamation mark, or a name between two. -/
def tagHandle (c : Cursor) : Except Fault (List Char × Cursor) :=
  if c.peek 0 != some '!' then .error .malformed
  else if c.peek 1 == some ' ' then .ok (['!'], c.next)
  else
    let (name, after) := c.next.span isNameChar
    if after.peek 0 == some '!' then .ok ('!' :: name ++ ['!'], after.next) else .error .malformed

def spaceOrLineEnd (c : Option Char) : Bool := c == some ' ' || isLineEnd c

/-- A directive after its percent sign. -/
def directive (c : Cursor) : Except Fault (Token × Cursor) := do
  let (name, c) := c.span isNameChar
  if name.isEmpty || !spaceOrLineEnd (c.peek 0) then .error .malformed
  else if name = "YAML".toList then
    let (major, c) ← number c.skipSpaces
    if c.peek 0 != some '.' then .error .malformed
    else
      let (minor, c) ← number c.next
      if !spaceOrLineEnd (c.peek 0) then .error .malformed
      else return (.versionDirective major minor, ← c.restOfLine)
  else if name = "TAG".toList then
    let (handle, c) ← tagHandle c.skipSpaces
    if c.peek 0 != some ' ' then .error .malformed
    else
      let (expansion, c) ← uri c.skipSpaces
      if !spaceOrLineEnd (c.peek 0) then .error .malformed
      else return (.tagDirective handle expansion, ← c.restOfLine)
  else return (.otherDirective, ← (c.span fun ch => !isBreak ch).2.restOfLine)

/-- The name of an anchor or an alias, after its mark. -/
def anchorName (c : Cursor) : Except Fault (List Char × Cursor) :=
  let (name, c) := c.span isNameChar
  let ends := match c.peek 0 with
    | some ch => isGap (some ch) || "?:,]\x7d%@\x60".toList.contains ch
    | none => true
  if name.isEmpty || !ends then .error .malformed else .ok (name, c)

/-- A tag, from its exclamation mark. -/
def tag (c : Cursor) : Except Fault (Token × Cursor) := do
  let (t, c) ←
    if c.peek 1 == some '<' then do
      let (suffix, c) ← uri (c.skip 2)
      if c.peek 0 == some '>' then pure (Token.tag none suffix, c.next) else .error .malformed
    else if isGap (c.peek 1) then pure (Token.tag none ['!'], c.next)
    else do
      let word := c.next.rest.takeWhile fun ch => ch != ' ' && !isBreak ch
      if word.contains '!' then
        let (handle, c) ← tagHandle c
        let (suffix, c) ← uri c
        pure (Token.tag (some handle) suffix, c)
      else
        let (suffix, c) ← uri c.next
        pure (Token.tag (some ['!']) suffix, c)
  if spaceOrLineEnd (c.peek 0) then return (t, c) else .error .malformed

/-! ## Scalars -/

/-- What is kept of the line breaks at the end of a block scalar. -/
inductive Chomping where
  | clip
  | strip
  | keep
  deriving DecidableEq

/-- The indicators after a block scalar's mark: chomping and indentation. -/
def blockIndicators (c : Cursor) : Except Fault (Chomping × Option Nat × Cursor) :=
  let chomp (c : Cursor) : Option Chomping :=
    match c.peek 0 with
    | some '+' => some .keep
    | some '-' => some .strip
    | _ => none
  let digit (c : Cursor) : Option Nat :=
    match c.peek 0 with
    | some d => if d.isDigit then some (d.toNat - 48) else none
    | none => none
  let finish (k : Chomping) (n : Option Nat) (c : Cursor) :=
    if n = some 0 ∨ !spaceOrLineEnd (c.peek 0) then .error .malformed else .ok (k, n, c)
  match chomp c with
  | some k =>
    match digit c.next with
    | some n => finish k (some n) (c.skip 2)
    | none => finish k none c.next
  | none =>
    match digit c with
    | some n =>
      match chomp c.next with
      | some k => finish k (some n) (c.skip 2)
      | none => finish .clip (some n) c.next
    | none => finish .clip none c

/-- Leading blank lines: their breaks and the deepest column met. -/
def leadingBlank : Nat → Cursor → List (List Char) → Nat → List (List Char) × Nat × Cursor
  | 0, c, breaks, deepest => (breaks, deepest, c)
  | fuel + 1, c, breaks, deepest =>
    match c.peek 0 with
    | some ' ' => leadingBlank fuel c.next breaks (max deepest c.next.column)
    | some ch =>
      if isBreak ch then
        let (b, c) := c.lineBreak
        leadingBlank fuel c (breaks ++ [b]) deepest
      else (breaks, deepest, c)
    | none => (breaks, deepest, c)

/-- Goes over spaces up to column `indent`. -/
def spacesUpTo (c : Cursor) (indent : Nat) : Cursor :=
  c.skip (min (indent - c.column) (c.rest.takeWhile (· == ' ')).length)

/-- Blank lines inside a block scalar. -/
def blankLines (indent : Nat) : Nat → Cursor → List (List Char) → List (List Char) × Cursor
  | 0, c, breaks => (breaks, c)
  | fuel + 1, c, breaks =>
    let c := spacesUpTo c indent
    match c.lineBreak with
    | ([], c) => (breaks, c)
    | (b, c) => blankLines indent fuel c (breaks ++ [b])

/-- The lines of a block scalar at column `indent`. Gives the text, the last line
break and the breaks after it. -/
def blockLines (folded : Bool) (indent : Nat) :
    Nat → Cursor → List (List Char) → List Char → List Char × List Char × List (List Char) × Cursor
  | 0, c, breaks, text => (text, [], breaks, c)
  | fuel + 1, c, breaks, text =>
    let startsDark := !(c.peek 0 == some ' ' || c.peek 0 == some '\t')
    let (line, c) := c.span fun ch => !isBreak ch
    let text := text ++ breaks.flatten ++ line
    let (lineEnd, c) := c.lineBreak
    let (breaks, c) := blankLines indent (c.rest.length + 1) c []
    if c.column = indent ∧ c.peek 0 ≠ none then
      let nextDark := !(c.peek 0 == some ' ' || c.peek 0 == some '\t')
      let joint :=
        if folded && lineEnd == ['\n'] && startsDark && nextDark then
          if breaks.isEmpty then [' '] else []
        else lineEnd
      blockLines folded indent fuel c breaks (text ++ joint)
    else (text, lineEnd, breaks, c)

/-- A literal or folded scalar after its mark, inside a collection at `indent`. -/
def blockScalar (folded : Bool) (indent : Int) (c : Cursor) : Except Fault (List Char × Cursor) := do
  let (chomping, increment, c) ← blockIndicators c
  let c ← c.restOfLine
  let least := max (indent + 1).toNat 1
  let fuel := c.rest.length + 1
  let (breaks, column, c) :=
    match increment with
    | none =>
      let (breaks, deepest, c) := leadingBlank fuel c [] 0
      (breaks, max least deepest, c)
    | some n =>
      let column := least + n - 1
      let (breaks, c) := blankLines column fuel c []
      (breaks, column, c)
  let (text, lineEnd, breaks, c) :=
    if c.column = column ∧ c.peek 0 ≠ none then blockLines folded column fuel c breaks []
    else ([], [], breaks, c)
  let tail := match chomping with
    | .strip => []
    | .clip => lineEnd
    | .keep => lineEnd ++ breaks.flatten
  return (text ++ tail, c)

/-- The character of a one-letter escape in double quotes. -/
def escapes : List (Char × Char) :=
  [('0', '\x00'), ('a', '\x07'), ('b', '\x08'), ('t', '\t'), ('\t', '\t'), ('n', '\n'),
   ('v', '\x0b'), ('f', '\x0c'), ('r', '\r'), ('e', '\x1b'), (' ', ' '), ('\x22', '\x22'),
   ('\\', '\\'), ('/', '/'), ('N', '\u0085'), ('_', '\u00A0'), ('L', '\u2028'), ('P', '\u2029')]

/-- The character that so many hexadecimal digits name. -/
def hexEscape (width : Nat) (c : Cursor) : Except Fault (Char × Cursor) :=
  let ds := (c.rest.take width).filterMap Json.hexDigit?
  if ds.length < width then .error .malformed
  else
    let n := ds.foldl (fun n d => n * 16 + d) 0
    if n > 0x10FFFF then .error .noSuchCharacter
    else if 0xD800 ≤ n ∧ n < 0xE000 then .ok ('\uFFFD', c.skip width)
    else .ok (Char.ofNat n, c.skip width)

/-- Line breaks inside a quoted scalar, with the blanks around them. -/
def quotedBreaks : Nat → Cursor → List Char → Except Fault (List Char × Cursor)
  | 0, c, acc => .ok (acc, c)
  | fuel + 1, c, acc =>
    if c.atAnyMarker then .error .malformed
    else
      let c := (c.span fun ch => ch == ' ' || ch == '\t').2
      match c.lineBreak with
      | ([], c) => .ok (acc, c)
      | (b, c) => quotedBreaks fuel c (acc ++ b)

/-- The inside of a quoted scalar up to its closing quote. -/
def quotedScalar (double : Bool) : Nat → Cursor → List Char → Except Fault (List Char × Cursor)
  | 0, _, _ => .error .malformed
  | fuel + 1, c, acc =>
    match c.peek 0 with
    | none => .error .malformed
    | some ch =>
      if ch == ' ' || ch == '\t' then
        let (blanks, c) := c.span fun ch => ch == ' ' || ch == '\t'
        if (c.peek 0).any isBreak then quotedScalar double fuel c acc
        else quotedScalar double fuel c (acc ++ blanks)
      else if isBreak ch then do
        let (b, c) := c.lineBreak
        let (breaks, c) ← quotedBreaks (c.rest.length + 1) c []
        let joint := if b ≠ ['\n'] then b else if breaks.isEmpty then [' '] else []
        quotedScalar double fuel c (acc ++ joint ++ breaks)
      else if double then
        if ch == '\x22' then .ok (acc, c.next)
        else if ch == '\\' then
          match c.peek 1 with
          | none => .error .malformed
          | some e =>
            match escapes.lookup e with
            | some r => quotedScalar double fuel (c.skip 2) (acc ++ [r])
            | none =>
              if e == 'x' || e == 'u' || e == 'U' then do
                let width := if e == 'x' then 2 else if e == 'u' then 4 else 8
                let (r, c) ← hexEscape width (c.skip 2)
                quotedScalar double fuel c (acc ++ [r])
              else if isBreak e then do
                let (breaks, c) ← quotedBreaks (c.rest.length + 1) c.next.lineBreak.2 []
                quotedScalar double fuel c (acc ++ breaks)
              else .error .malformed
        else quotedScalar double fuel c.next (acc ++ [ch])
      else if ch == '\x27' then
        if c.peek 1 == some '\x27' then quotedScalar double fuel (c.skip 2) (acc ++ ['\x27'])
        else .ok (acc, c.next)
      else quotedScalar double fuel c.next (acc ++ [ch])

/-- The blanks and line breaks after a piece of a plain scalar: the text that joins
it to the next piece, or nothing if the scalar ends here, and whether a line ended. -/
def plainBlanks (c : Cursor) : Option (List Char) × Bool × Cursor :=
  let (blanks, c) := c.span (· == ' ')
  match c.lineBreak with
  | ([], c) => (if blanks.isEmpty then none else some blanks, false, c)
  | (b, c) =>
    if c.atAnyMarker then (none, true, c)
    else
      match go (c.rest.length + 1) c [] with
      | (none, c) => (none, true, c)
      | (some breaks, c) =>
        (some ((if b ≠ ['\n'] then b else if breaks.isEmpty then [' '] else []) ++ breaks), true, c)
where
  go : Nat → Cursor → List Char → Option (List Char) × Cursor
    | 0, c, acc => (some acc, c)
    | fuel + 1, c, acc =>
      let c := c.skipSpaces
      match c.lineBreak with
      | ([], c) => (some acc, c)
      | (b, c) => if c.atAnyMarker then (none, c) else go fuel c (acc ++ b)

/-- How many characters ahead belong to a plain scalar on this line. -/
def plainLength (inFlow : Bool) : List Char → Nat
  | [] => 0
  | ch :: rest =>
    let colonEnds := match rest with
      | [] => true
      | after :: _ => isGap (some after) || (inFlow && ",[]\x7b\x7d".toList.contains after)
    if isGap (some ch) || (ch == ':' && colonEnds) || (inFlow && ",?[]\x7b\x7d".toList.contains ch) then 0
    else plainLength inFlow rest + 1

/-- A plain scalar: pieces that blanks join, over lines that are indented enough. -/
def plainScalar (inFlow : Bool) (indent : Int) :
    Nat → Cursor → List Char → Bool → List Char × Bool × Cursor
  | 0, c, acc, ended => (acc, ended, c)
  | fuel + 1, c, acc, ended =>
    let n := if c.peek 0 == some '#' then 0 else plainLength inFlow c.rest
    if n = 0 then (acc, ended, c)
    else
      let acc := acc ++ c.rest.take n
      match plainBlanks (c.skip n) with
      | (none, ended, c) => (acc, ended, c)
      | (some joint, ended, c) =>
        if c.peek 0 == some '#' || (!inFlow && (c.column : Int) < indent) then (acc, ended, c)
        else
          let n := plainLength inFlow c.rest
          if n = 0 then (acc, ended, c) else plainScalar inFlow indent fuel c (acc ++ joint) false

/-! ## Tokens -/

/-- A token may not start a key right after it. -/
def word (s : Scanner) (read : Cursor → Except Fault (Token × Cursor)) : Except Fault Scanner := do
  let s ← s.noteCandidate
  let (t, c) ← read s.cursor
  return ({ s with keyAllowed := false }.moveTo c).emit t

/-- A directive or a document marker ends every open block. -/
def boundary (s : Scanner) (t : Token) (c : Cursor) : Except Fault Scanner := do
  let s ← (s.unwind (-1)).dropCandidate
  return ({ s with keyAllowed := false }.moveTo c).emit t

def flowStart (s : Scanner) (t : Token) : Except Fault Scanner := do
  let s ← s.noteCandidate
  return ({ s with flowLevel := s.flowLevel + 1, keyAllowed := true }.moveTo s.cursor.next).emit t

def flowEnd (s : Scanner) (t : Token) : Except Fault Scanner := do
  let s ← s.dropCandidate
  if s.flowLevel = 0 then .error .malformed
  else return ({ s with flowLevel := s.flowLevel - 1, keyAllowed := false }.moveTo s.cursor.next).emit t

def flowEntry (s : Scanner) : Except Fault Scanner := do
  let s ← s.dropCandidate
  return ({ s with keyAllowed := true }.moveTo s.cursor.next).emit .flowEntry

/-- Outside flow collections an entry or a key opens its block collection. -/
def openBlock (s : Scanner) (t : Token) : Except Fault Scanner :=
  if s.flowLevel > 0 then .ok s
  else if !s.keyAllowed then .error .malformed
  else
    match s.indentTo s.cursor.column with
    | (true, s) => .ok (s.emit t)
    | (false, s) => .ok s

def blockEntry (s : Scanner) : Except Fault Scanner := do
  let s ← s.openBlock .blockSequenceStart
  let s ← { s with keyAllowed := true }.dropCandidate
  return (s.moveTo s.cursor.next).emit .blockEntry

def explicitKey (s : Scanner) : Except Fault Scanner := do
  let s ← s.openBlock .blockMappingStart
  let s ← { s with keyAllowed := s.flowLevel == 0 }.dropCandidate
  return (s.moveTo s.cursor.next).emit .key

/-- A colon turns the candidate of this level into a key. Without a candidate the
key is empty or was given before. -/
def valueMark (s : Scanner) : Except Fault Scanner := do
  match s.candidates.lookup s.flowLevel with
  | some k =>
    let s := { s with candidates := s.candidates.filter (·.1 ≠ s.flowLevel), keyAllowed := false }
    let (opened, s) := if s.flowLevel = 0 then s.indentTo k.column else (false, s)
    let filled := if opened then [.blockMappingStart, .key] else [.key]
    return ({ s with slots := s.slots.set! k.slot filled }.moveTo s.cursor.next).emit .value
  | none =>
    let s ← s.openBlock .blockMappingStart
    let s ← { s with keyAllowed := s.flowLevel == 0 }.dropCandidate
    return (s.moveTo s.cursor.next).emit .value

def blockText (s : Scanner) (folded : Bool) : Except Fault Scanner := do
  let s ← { s with keyAllowed := true }.dropCandidate
  let (text, c) ← blockScalar folded s.indent s.cursor.next
  return (s.moveTo c).emit (.scalar text false)

def quotedText (s : Scanner) (double : Bool) : Except Fault Scanner :=
  s.word fun c => do
    let (text, c) ← quotedScalar double (c.rest.length + 1) c.next []
    return (.scalar text false, c)

def plainText (s : Scanner) : Except Fault Scanner := do
  let s ← s.noteCandidate
  let (text, ended, c) :=
    plainScalar (s.flowLevel > 0) (s.indent + 1) (s.cursor.rest.length + 1) s.cursor [] false
  return ({ s with keyAllowed := ended }.moveTo c).emit (.scalar text true)

/-- A plain scalar may start here. -/
def startsPlain (s : Scanner) (ch : Char) : Bool :=
  !(isGap (some ch) || "-?:,[]\x7b\x7d#&*!|>\x27\x22%@\x60".toList.contains ch) ||
    (!isGap (s.cursor.peek 1) && (ch == '-' || (s.flowLevel == 0 && (ch == '?' || ch == ':'))))

/-- Scans one token. -/
def step (s : Scanner) : Except Fault Scanner := do
  let s ← s.toNextToken.dropStale
  let s := s.unwind s.cursor.column
  let c := s.cursor
  let gapNext := isGap (c.peek 1)
  match c.peek 0 with
  | none =>
    let s ← (s.unwind (-1)).dropCandidate
    return { s with finished := true }
  | some ch =>
    if ch == '%' && c.column == 0 then
      let (t, after) ← directive c.next
      s.boundary t after
    else if c.column == 0 && c.atMarker '-' then s.boundary .documentStart (c.skip 3)
    else if c.column == 0 && c.atMarker '.' then s.boundary .documentEnd (c.skip 3)
    else if ch == '[' then s.flowStart .flowSequenceStart
    else if ch == '\x7b' then s.flowStart .flowMappingStart
    else if ch == ']' then s.flowEnd .flowSequenceEnd
    else if ch == '\x7d' then s.flowEnd .flowMappingEnd
    else if ch == ',' then s.flowEntry
    else if ch == '-' && gapNext then s.blockEntry
    else if ch == '?' && (s.flowLevel > 0 || gapNext) then s.explicitKey
    else if ch == ':' && (s.flowLevel > 0 || gapNext) then s.valueMark
    else if ch == '*' then s.word fun c => do let (n, c) ← anchorName c.next; return (.alias n, c)
    else if ch == '&' then s.word fun c => do let (n, c) ← anchorName c.next; return (.anchor n, c)
    else if ch == '!' then s.word tag
    else if ch == '|' && s.flowLevel == 0 then s.blockText false
    else if ch == '>' && s.flowLevel == 0 then s.blockText true
    else if ch == '\x27' then s.quotedText false
    else if ch == '\x22' then s.quotedText true
    else if s.startsPlain ch then s.plainText
    else .error .malformed

/-- Scans to the end. Each step but the last takes at least one character. -/
def run : Nat → Scanner → Except Fault Scanner
  | 0, s => .ok s
  | fuel + 1, s => do
    let s ← s.step
    if s.finished then return s else run fuel s

end Scanner

/-- The tokens of a text. -/
def tokens (text : List Char) : Except Fault (List Token) :=
  if text.all isAllowed then do
    let s ← Scanner.run (text.length + 2) { cursor := { rest := text } }
    return s.slots.toList.flatten
  else .error .malformed

end SchemaLedger.Yaml
