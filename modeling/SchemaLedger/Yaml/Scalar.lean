-- YAML scalars: what kind a plain scalar is taken for, and the value that a
-- scalar of a kind spells.
import SchemaLedger.Yaml.Fault
import SchemaLedger.Json.Reader
import SchemaLedger.Number.Numeral

namespace SchemaLedger.Yaml

/-- The kinds that a tag of the format's own name space names. -/
def coreTag (kind : String) : String := "tag:yaml.org,2002:" ++ kind

/-! ## What a plain scalar is taken for -/

def isBin (c : Char) : Bool := c == '0' || c == '1' || c == '_'
def isOct (c : Char) : Bool := ('0' ≤ c && c ≤ '7') || c == '_'
def isDec (c : Char) : Bool := c.isDigit || c == '_'
def isHex (c : Char) : Bool := (Json.hexDigit? c).isSome || c == '_'

/-- Without one sign at the front. -/
def unsigned : List Char → List Char
  | '+' :: rest => rest
  | '-' :: rest => rest
  | rest => rest

/-- The pieces of a text between colons. -/
def colonParts (s : List Char) : List (List Char) :=
  s.foldr (fun c parts =>
    if c = ':' then [] :: parts
    else match parts with
      | p :: rest => (c :: p) :: rest
      | [] => [[c]]) [[]]

/-- One or two digits below sixty. -/
def isSixtieth : List Char → Bool
  | [a] => a.isDigit
  | [a, b] => '0' ≤ a && a ≤ '5' && b.isDigit
  | _ => false

/-- Minutes and seconds after a first part, as many as are given but at least one. -/
def isSexagesimal (firstFits : List Char → Bool) (s : List Char) : Bool :=
  match colonParts s with
  | first :: next :: rest => firstFits first && (next :: rest).all isSixtieth
  | _ => false

def isInt (s : List Char) : Bool :=
  match unsigned s with
  | '0' :: 'b' :: rest => !rest.isEmpty && rest.all isBin
  | '0' :: 'x' :: rest => !rest.isEmpty && rest.all isHex
  | '0' :: rest => rest.all isOct
  | c :: rest =>
    c.isDigit && (rest.all isDec ||
      isSexagesimal (fun first => first.head?.any Char.isDigit && first.all isDec) (c :: rest))
  | [] => false

/-- A power of ten: a letter, a sign and digits. -/
def isPower : List Char → Bool
  | e :: sign :: rest =>
    (e == 'e' || e == 'E') && (sign == '+' || sign == '-') && !rest.isEmpty && rest.all Char.isDigit
  | _ => false

/-- Digits after the point, and perhaps a power of ten. -/
def isFractionTail (s : List Char) : Bool :=
  let rest := s.dropWhile isDec
  rest.isEmpty || isPower rest

def isFloat (s : List Char) : Bool :=
  let body := unsigned s
  let whole := body.takeWhile fun c => c != '.'
  let plain := match body.dropWhile fun c => c != '.' with
    | '.' :: tail =>
      whole.head?.any Char.isDigit &&
        ((whole.all isDec && isFractionTail tail) ||
          (isSexagesimal (fun first => first.head?.any Char.isDigit && first.all isDec) whole &&
            tail.all isDec))
    | _ => false
  let pointFirst := match s with
    | '.' :: d :: tail => d.isDigit && isFractionTail tail
    | _ => false
  plain || pointFirst || [".inf", ".Inf", ".INF"].contains (String.ofList body) ||
    [".nan", ".NaN", ".NAN"].contains (String.ofList s)

/-- The parts of a moment as it is written. -/
structure MomentText where
  year : List Char
  month : List Char
  day : List Char
  clock : Option (List Char × List Char × List Char) := none
  fraction : List Char := []
  /-- Nothing, the letter for UTC, or a sign with hours and minutes. -/
  zone : Option (Option (Char × List Char × List Char)) := none

/-- `least` to `most` digits at the front. -/
def digits? (least most : Nat) (s : List Char) : Option (List Char × List Char) :=
  let ds := (s.takeWhile Char.isDigit).take most
  if ds.length < least then none else some (ds, s.drop ds.length)

def literal? (c : Char) : List Char → Option (List Char)
  | d :: rest => if c = d then some rest else none
  | [] => none

def isBlankChar (c : Char) : Bool := c == ' ' || c == '\t'

/-- The offset at the end of a moment. -/
def zone? (s : List Char) : Option (Option (Option (Char × List Char × List Char))) :=
  match s.dropWhile isBlankChar with
  | [] => if s.isEmpty then some none else none
  | ['Z'] => some (some none)
  | sign :: rest => do
    if sign != '+' && sign != '-' then none
    else
      let (hours, rest) ← digits? 1 2 rest
      if rest.isEmpty then some (some (some (sign, hours, [])))
      else
        let (minutes, rest) ← digits? 2 2 (← literal? ':' rest)
        if rest.isEmpty then some (some (some (sign, hours, minutes))) else none

/-- Takes a moment apart. -/
def momentParts? (s : List Char) : Option MomentText := do
  let (year, rest) ← digits? 4 4 s
  let (month, rest) ← digits? 1 2 (← literal? '-' rest)
  let (day, rest) ← digits? 1 2 (← literal? '-' rest)
  if rest.isEmpty then some { year, month, day }
  else
    let rest ← match rest with
      | 'T' :: rest => some rest
      | 't' :: rest => some rest
      | c :: rest => if isBlankChar c then some (rest.dropWhile isBlankChar) else none
      | [] => none
    let (hour, rest) ← digits? 1 2 rest
    let (minute, rest) ← digits? 2 2 (← literal? ':' rest)
    let (second, rest) ← digits? 2 2 (← literal? ':' rest)
    let (fraction, rest) := match rest with
      | '.' :: rest => (rest.takeWhile Char.isDigit, rest.dropWhile Char.isDigit)
      | rest => ([], rest)
    let zone ← zone? rest
    some { year, month, day, clock := some (hour, minute, second), fraction, zone }

/-- A plain scalar that is taken for a moment: a date alone has two digits for
month and day. -/
def isMoment (s : List Char) : Bool :=
  match momentParts? s with
  | some m => m.clock.isSome || (m.month.length == 2 && m.day.length == 2)
  | none => false

def boolWords : List (String × Bool) :=
  [("yes", true), ("no", false), ("true", true), ("false", false), ("on", true), ("off", false)]

/-- Lower case, all capitals, or one capital at the front. -/
def wordForms (w : String) : List String := [w, w.capitalize, String.ofList (w.toList.map Char.toUpper)]

/-- The tag of a plain scalar without one. -/
def plainTag (s : List Char) : String :=
  let text := String.ofList s
  if boolWords.any fun w => (wordForms w.1).contains text then coreTag "bool"
  else if isFloat s then coreTag "float"
  else if isInt s then coreTag "int"
  else if text == "<<" then coreTag "merge"
  else if text == "~" || text == "" || (wordForms "null").contains text then coreTag "null"
  else if isMoment s then coreTag "timestamp"
  else if text == "=" then coreTag "value"
  else coreTag "str"

/-! ## What a scalar spells -/

def quote (s : List Char) : String := Text.quoted (String.ofList s)

def withoutUnderscores (s : List Char) : List Char := s.filter (· ≠ '_')

/-- An integer in decimal digits. -/
def decimalInt (s : List Char) : Except Fault Int :=
  match Numeral.read (Text.trim s) with
  | .ok n => .ok n
  | .error .invalid => .error (.notAnInteger 10 (quote s))
  | .error (.tooManyDigits n) => .error (.tooManyDigits n)

/-- An integer in another base. -/
def basedInt (base : Nat) (s : List Char) : Except Fault Int :=
  let ds := s.filterMap fun c => (Json.hexDigit? c).filter (· < base)
  if s.isEmpty || ds.length < s.length then .error (.notAnInteger base (quote s))
  else .ok (ds.foldl (fun n d => n * base + d) 0 : Nat)

def signed (s : List Char) (n : Int) : Int := if s.head? = some '-' then -n else n

/-- An integer as a scalar writes it: binary, octal, decimal, hexadecimal, or in
sixtieths. -/
def intValue (s : List Char) : Except Fault Int :=
  let s := withoutUnderscores s
  match s, unsigned s with
  | [], _ => .error .emptyNumber
  | _, [] => .error .emptyNumber
  | _, ['0'] => .ok 0
  | _, '0' :: 'b' :: rest => (basedInt 2 rest).map (signed s)
  | _, '0' :: 'x' :: rest => (basedInt 16 rest).map (signed s)
  | _, '0' :: rest => (basedInt 8 ('0' :: rest)).map (signed s)
  | _, body =>
    if body.contains ':' then do
      let parts ← (colonParts body).mapM decimalInt
      return signed s (parts.foldl (fun n d => n * 60 + d) 0)
    else (decimalInt body).map (signed s)

def infinite (negative : Bool) : Double := .ofFloat (if negative then -1.0 / 0.0 else 1.0 / 0.0)

def notANumber : Double := ⟨0x7FF8000000000000⟩

/-- A floating-point number in plain decimal form, or by name. -/
def plainFloat (s : List Char) : Except Fault Double :=
  let trimmed := Text.trim s
  let body := unsigned trimmed
  let negative := trimmed.head? == some '-'
  let whole := body.takeWhile Char.isDigit
  let rest := body.dropWhile Char.isDigit
  let (fraction, rest) := match rest with
    | '.' :: rest => (rest.takeWhile Char.isDigit, rest.dropWhile Char.isDigit)
    | rest => ([], rest)
  if body = "inf".toList ∨ body = "infinity".toList then .ok (infinite negative)
  else if body = "nan".toList then .ok notANumber
  else match Json.exponentPart rest with
  | (exponent, []) =>
    if whole.isEmpty && fraction.isEmpty then .error (.notAFloat (quote s))
    else
      .ok (.ofDecimal negative (Json.digitsValue (whole ++ fraction))
        (exponent.getD 0 - fraction.length))
  | _ => .error (.notAFloat (quote s))

def negate (x : Double) : Double := .ofFloat (-x.toFloat)

/-- A floating-point number as a scalar writes it. -/
def floatValue (s : List Char) : Except Fault Double :=
  let s := (withoutUnderscores s).map Char.toLower
  let body := unsigned s
  let applySign := fun x => if s.head? = some '-' then negate x else x
  if s.isEmpty then .error .emptyNumber
  else if body = ".inf".toList then .ok (infinite (s.head? == some '-'))
  else if body = ".nan".toList then .ok notANumber
  else if body.contains ':' then do
    let parts ← (colonParts body).mapM plainFloat
    let total := (parts.reverse.foldl
      (fun (p : Float × Float) d => (p.1 + d.toFloat * p.2, p.2 * 60)) (0.0, 1.0)).1
    return applySign (.ofFloat total)
  else (plainFloat body).map applySign

/-- The number that a few digits write. -/
def small (ds : List Char) : Nat := Json.digitsValue ds

def daysInMonth (year month : Nat) : Nat :=
  if month = 2 then
    if year % 4 = 0 ∧ (year % 100 ≠ 0 ∨ year % 400 = 0) then 29 else 28
  else if month = 4 ∨ month = 6 ∨ month = 9 ∨ month = 11 then 30
  else 31

/-- The offset of a zone in minutes. Less than a day in either direction. -/
def offsetOf : Option (Option (Char × List Char × List Char)) → Except Fault (Option Int)
  | none => .ok none
  | some none => .ok (some 0)
  | some (some (sign, hours, minutes)) =>
    let size : Int := small hours * 60 + small minutes
    let minutes := if sign = '-' then -size else size
    if size < 1440 then .ok (some minutes)
    else
      let days := minutes.fdiv 1440
      let seconds := minutes.fmod 1440 * 60
      .error (.noSuchMoment ("offset must be a timedelta strictly between -timedelta(hours=24) and " ++
        "timedelta(hours=24), not datetime.timedelta(days=" ++ toString days ++
        (if seconds = 0 then "" else ", seconds=" ++ toString seconds) ++ ")."))

/-- A date or a moment that exists. -/
def momentValue (s : List Char) : Except Fault Moment := do
  match momentParts? s with
  | none => .error .notAMoment
  | some m =>
    let year := small m.year
    let month := small m.month
    let day := small m.day
    let offset ← offsetOf m.zone
    if year = 0 then .error (.noSuchMoment "year 0 is out of range")
    else if month = 0 ∨ month > 12 then .error (.noSuchMoment "month must be in 1..12")
    else if day = 0 ∨ day > daysInMonth year month then
      .error (.noSuchMoment "day is out of range for month")
    else
      match m.clock with
      | none => return { year, month, day }
      | some (h, mi, sec) =>
        let micros := small (m.fraction.take 6 ++ List.replicate (6 - m.fraction.length) '0')
        if small h > 23 then .error (.noSuchMoment "hour must be in 0..23")
        else if small mi > 59 then .error (.noSuchMoment "minute must be in 0..59")
        else if small sec > 59 then .error (.noSuchMoment "second must be in 0..59")
        else return { year, month, day, time := some (small h, small mi, small sec, micros), offset }

/-- The value of a digit of the 64-letter alphabet. -/
def sixBits? (c : Char) : Option Nat :=
  if 'A' ≤ c ∧ c ≤ 'Z' then some (c.toNat - 65)
  else if 'a' ≤ c ∧ c ≤ 'z' then some (c.toNat - 71)
  else if '0' ≤ c ∧ c ≤ '9' then some (c.toNat + 4)
  else if c = '+' then some 62
  else if c = '/' then some 63
  else none

/-- The bytes of groups of four letters; characters outside the alphabet are skipped. -/
def letterBytes : List Nat → Option (List UInt8)
  | a :: b :: c :: d :: rest =>
    (letterBytes rest).map fun more =>
      (a * 4 + b / 16).toUInt8 :: (b % 16 * 16 + c / 4).toUInt8 :: (c % 4 * 64 + d).toUInt8 :: more
  | [a, b, c] => some [(a * 4 + b / 16).toUInt8, (b % 16 * 16 + c / 4).toUInt8]
  | [a, b] => some [(a * 4 + b / 16).toUInt8]
  | [_] => none
  | [] => some []

/-- Binary data: letters and the padding that fills the last group of four. -/
def bytesValue (s : List Char) : Except Fault (List UInt8) :=
  if s.any fun c => c.toNat ≥ 0x80 then .error .malformed
  else
    let letters := (s.takeWhile (· ≠ '=')).filterMap sixBits?
    let padding := s.count '='
    match letterBytes letters with
    | some bytes =>
      if letters.length % 4 = 0 ∨ letters.length % 4 + padding ≥ 4 then .ok bytes
      else .error .malformed
    | none => .error .malformed

/-- The value of a scalar with a tag. -/
def scalarValue (tag : String) (s : List Char) : Except Fault Value :=
  if tag == coreTag "str" then .ok (.text (String.ofList s))
  else if tag == coreTag "null" then .ok .null
  else if tag == coreTag "bool" then
    match boolWords.lookup (String.ofList (s.map Char.toLower)) with
    | some b => .ok (.bool b)
    | none => .error (.notABool (quote (s.map Char.toLower)))
  else if tag == coreTag "int" then (intValue s).map .int
  else if tag == coreTag "float" then (floatValue s).map .float
  else if tag == coreTag "timestamp" then (momentValue s).map .moment
  else if tag == coreTag "binary" then (bytesValue s).map .bytes
  else .error .malformed

end SchemaLedger.Yaml
