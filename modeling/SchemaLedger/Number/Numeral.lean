-- Whole numbers in text: an optional sign and decimal digits of any script, with
-- single underscores allowed between digits, and at most 4300 digits. The grammar
-- is said once as a function on characters and once as a relation.
import SchemaLedger.Text.Blank
import SchemaLedger.Text.Digit

namespace SchemaLedger.Numeral

/-- The most digits that a numeral may have. -/
def digitLimit : Nat := 4300

/-- The digits of a run: one digit, or a digit before a run, perhaps with an
underscore between. -/
def digitRun : List Char → Option (List Nat)
  | [] => none
  | [c] => (Text.digit? c).map fun d => [d]
  | c :: '_' :: rest =>
    match Text.digit? c with
    | some d => (digitRun rest).map (d :: ·)
    | none => none
  | c :: next :: rest =>
    match Text.digit? c with
    | some d => (digitRun (next :: rest)).map (d :: ·)
    | none => none

/-- The number that digits write, the most significant first. -/
def valueOf (digits : List Nat) : Nat := digits.foldl (fun n d => n * 10 + d) 0

/-- A sign at the front, if there is one: whether it is a minus, and the rest. -/
def sign : List Char → Bool × List Char
  | '-' :: rest => (true, rest)
  | '+' :: rest => (false, rest)
  | rest => (false, rest)

/-- Why a text is no numeral. -/
inductive Fault where
  | invalid
  | tooManyDigits (count : Nat)
  deriving DecidableEq, Repr

/-- The number that a text without surrounding white space writes. -/
def read (s : List Char) : Except Fault Int :=
  match digitRun (sign s).2 with
  | none => .error .invalid
  | some ds =>
    if ds.length > digitLimit then .error (.tooManyDigits ds.length)
    else
      let n : Int := valueOf ds
      .ok (if (sign s).1 then -n else n)

/-! ## The grammar -/

/-- `Spells s ds`: the characters `s` write the digits `ds`, at least one, with
single underscores between some of them. -/
inductive Spells : List Char → List Nat → Prop where
  | last {c : Char} {d : Nat} : Text.digit? c = some d → Spells [c] [d]
  | next {c : Char} {d : Nat} {s : List Char} {ds : List Nat} :
    Text.digit? c = some d → Spells s ds → Spells (c :: s) (d :: ds)
  | spaced {c : Char} {d : Nat} {s : List Char} {ds : List Nat} :
    Text.digit? c = some d → Spells s ds → Spells (c :: '_' :: s) (d :: ds)

end SchemaLedger.Numeral
