-- Values of settings and of unit declarations whose kind is not fixed in
-- advance: what a settings file can hold, and how messages show it.
import SchemaLedger.Number.Double
import SchemaLedger.Text.Quoted

namespace SchemaLedger

/-- A point in time as a settings file writes it: a date, or a date with a time
and perhaps an offset from UTC in minutes. -/
structure Moment where
  year : Nat
  month : Nat
  day : Nat
  /-- Hour, minute, second and microsecond. -/
  time : Option (Nat × Nat × Nat × Nat) := none
  offset : Option Int := none
  deriving DecidableEq, Repr

inductive Value where
  | null
  | bool (b : Bool)
  | int (n : Int)
  | float (x : Double)
  | text (s : String)
  | moment (m : Moment)
  | bytes (b : List UInt8)
  | list (items : List Value)
  /-- A fixed group of values, such as a pair in a list of pairs. -/
  | group (items : List Value)
  | set (items : List Value)
  /-- Entries in the order in which their keys were first given. -/
  | map (entries : List (Value × Value))
  deriving Repr, Inhabited

namespace Value

/-! ## Text -/

def pad (width n : Nat) : String :=
  let s := toString n
  String.ofList (List.replicate (width - s.length) '0') ++ s

/-- The constructor form of an offset in minutes. -/
def showOffset (minutes : Int) : String :=
  if minutes = 0 then "datetime.timezone.utc"
  else
    let seconds := minutes * 60
    let days := seconds.fdiv 86400
    let rest := seconds.fmod 86400
    let parts := (if days = 0 then [] else ["days=" ++ toString days]) ++
      (if rest = 0 then [] else ["seconds=" ++ toString rest])
    "datetime.timezone(datetime.timedelta(" ++ ", ".intercalate parts ++ "))"

/-- A moment as an expression. Seconds and microseconds that are zero are left out at the end. -/
def quoteMoment (m : Moment) : String :=
  let date := [m.year, m.month, m.day].map toString
  match m.time with
  | none => "datetime.date(" ++ ", ".intercalate date ++ ")"
  | some (h, mi, s, us) =>
    let clock := [h, mi] ++ (if s = 0 ∧ us = 0 then [] else if us = 0 then [s] else [s, us])
    let zone := match m.offset with
      | none => []
      | some o => ["tzinfo=" ++ showOffset o]
    "datetime.datetime(" ++ ", ".intercalate (date ++ clock.map toString ++ zone) ++ ")"

/-- A moment as plain text. -/
def showMoment (m : Moment) : String :=
  let date := pad 4 m.year ++ "-" ++ pad 2 m.month ++ "-" ++ pad 2 m.day
  match m.time with
  | none => date
  | some (h, mi, s, us) =>
    let zone := match m.offset with
      | none => ""
      | some o => (if o < 0 then "-" else "+") ++ pad 2 (o.natAbs / 60) ++ ":" ++ pad 2 (o.natAbs % 60)
    date ++ " " ++ pad 2 h ++ ":" ++ pad 2 mi ++ ":" ++ pad 2 s ++
      (if us = 0 then "" else "." ++ pad 6 us) ++ zone

/-- One byte between quotes `q`. -/
def escapedByte (q : Char) (b : UInt8) : List Char :=
  let c := Char.ofNat b.toNat
  if c = q ∨ c = '\\' then ['\\', c]
  else if c = '\n' then ['\\', 'n']
  else if c = '\r' then ['\\', 'r']
  else if c = '\t' then ['\\', 't']
  else if 0x20 ≤ b.toNat ∧ b.toNat < 0x7F then [c]
  else '\\' :: 'x' :: Text.hex 2 b.toNat

def quoteBytes (b : List UInt8) : String :=
  let q := Text.quoteFor (b.map fun x => Char.ofNat x.toNat)
  String.ofList ('b' :: q :: b.flatMap (escapedByte q) ++ [q])

mutual

/-- A value as an expression: texts in quotes. -/
def quoted : Value → String
  | .null => "None"
  | .bool b => if b then "True" else "False"
  | .int n => toString n
  | .float x => x.text
  | .text s => Text.quoted s
  | .moment m => quoteMoment m
  | .bytes b => quoteBytes b
  | .list items => "[" ++ ", ".intercalate (quotedAll items) ++ "]"
  | .group items =>
    "(" ++ ", ".intercalate (quotedAll items) ++ (if items.length = 1 then ",)" else ")")
  | .set items =>
    if items.isEmpty then "set()" else "\x7b" ++ ", ".intercalate (quotedAll items) ++ "\x7d"
  | .map entries => "\x7b" ++ ", ".intercalate (quotedEntries entries) ++ "\x7d"

def quotedAll : List Value → List String
  | [] => []
  | v :: rest => v.quoted :: quotedAll rest

def quotedEntries : List (Value × Value) → List String
  | [] => []
  | (k, v) :: rest => (k.quoted ++ ": " ++ v.quoted) :: quotedEntries rest

end

/-- A value as it stands in running text: a text without quotes. -/
def shown : Value → String
  | .text s => s
  | .moment m => showMoment m
  | v => v.quoted

/-! ## Long numbers -/

/-- The most digits of a whole number that is written out. -/
def digitLimit : Nat := 4300

mutual

/-- No whole number in a value has too many digits to be written out. -/
def isWritable : Value → Bool
  | .int n => n.natAbs < Nat.pow 10 digitLimit
  | .list items | .group items | .set items => allWritable items
  | .map entries => entriesWritable entries
  | _ => true

def allWritable : List Value → Bool
  | [] => true
  | v :: rest => v.isWritable && allWritable rest

def entriesWritable : List (Value × Value) → Bool
  | [] => true
  | (k, v) :: rest => k.isWritable && v.isWritable && entriesWritable rest

end

/-- A value as an expression, if it can be written out. -/
def quoted? (v : Value) : Option String := if v.isWritable then some v.quoted else none

/-- A value as it stands in running text, if it can be written out. -/
def shown? (v : Value) : Option String := if v.isWritable then some v.shown else none

/-! ## Kinds -/

/-- The name of a value's kind. -/
def kind : Value → String
  | .null => "NoneType"
  | .bool _ => "bool"
  | .int _ => "int"
  | .float _ => "float"
  | .text _ => "str"
  | .moment m => if m.time.isSome then "datetime" else "date"
  | .bytes _ => "bytes"
  | .list _ => "list"
  | .group _ => "tuple"
  | .set _ => "set"
  | .map _ => "dict"

/-- A value that counts as absent where a section or a name is expected: nothing,
false, zero, and whatever is empty. -/
def isBlank : Value → Bool
  | .null => true
  | .bool b => !b
  | .int n => n == 0
  | .float x => x.isZero
  | .text s => s.isEmpty
  | .moment _ => false
  | .bytes b => b.isEmpty
  | .list items => items.isEmpty
  | .group items => items.isEmpty
  | .set items => items.isEmpty
  | .map entries => entries.isEmpty

/-! ## Keys -/

/-- The exact value of a number, or nothing for one that is no number or not finite:
true and false are the numbers 1 and 0. -/
def wholeNumber? : Value → Option Int
  | .bool b => some (if b then 1 else 0)
  | .int n => some n
  | .float x =>
    if x.isNaN || x.isInfinite then none
    else if Double.ofInt x.truncate == x || x.isZero then some x.truncate else none
  | _ => none

mutual

/-- Two keys are the same entry: equal numbers are one key whatever their kind. -/
def sameKey : Value → Value → Bool
  | .null, .null => true
  | .text a, .text b => a == b
  | .moment a, .moment b => a == b
  | .bytes a, .bytes b => a == b
  | .group a, .group b => sameKeys a b
  | .float a, .float b => (a == b && !a.isNaN) || (a.isZero && b.isZero)
  | .bool a, b => wholeNumber? (.bool a) == wholeNumber? b
  | .int a, b => some a == wholeNumber? b
  | .float a, b => (wholeNumber? (.float a)).isSome && wholeNumber? (.float a) == wholeNumber? b
  | _, _ => false

def sameKeys : List Value → List Value → Bool
  | [], [] => true
  | a :: as, b :: bs => sameKey a b && sameKeys as bs
  | _, _ => false

end

/-- Writes an entry. A key that is there keeps its place and takes the new value. -/
def setEntry (k v : Value) : List (Value × Value) → List (Value × Value)
  | [] => [(k, v)]
  | (k', v') :: rest => if sameKey k' k then (k', v) :: rest else (k', v') :: setEntry k v rest

/-- Looks up an entry by a text key. -/
def entry? (name : String) : List (Value × Value) → Option Value
  | [] => none
  | (.text n, v) :: rest => if n == name then some v else entry? name rest
  | _ :: rest => entry? name rest

end Value
end SchemaLedger
