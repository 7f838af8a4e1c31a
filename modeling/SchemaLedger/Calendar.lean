-- The calendar: the date and time of day of an instant, counted in microseconds
-- from the start of 1970 in UTC, and its text. The text has fixed widths, so it
-- sorts as the instants do.

namespace SchemaLedger

/-- A date of the Gregorian calendar, carried back before its introduction. -/
structure Date where
  year : Nat
  month : Nat
  day : Nat
  deriving DecidableEq, Repr

namespace Calendar

def isLeap (year : Nat) : Bool := year % 4 = 0 && (year % 100 ≠ 0 || year % 400 = 0)

/-- The lengths of the months of a year. -/
def monthLengths (year : Nat) : List Nat :=
  [31, if isLeap year then 29 else 28, 31, 30, 31, 30, 31, 31, 30, 31, 30, 31]

/-- Days from the start of year 1 to the start of a year. -/
def daysBefore (year : Nat) : Nat :=
  let y := year - 1
  365 * y + y / 4 - y / 100 + y / 400

/-- The month and day of the day that comes `n` days after the first of `month`. -/
def inMonths (month n : Nat) : List Nat → Nat × Nat
  | [] => (month, n + 1)
  | len :: rest => if n < len then (month, n + 1) else inMonths (month + 1) (n - len) rest

/-- The year of the day that comes `n` days after the first day of year 1: the last
year that starts no later. -/
def yearOf (n : Nat) : Nat :=
  let guess := n / 366 + 1
  let near := n / 365 + 1
  go (near - guess) guess
where
  go : Nat → Nat → Nat
    | 0, y => y
    | k + 1, y => if daysBefore (y + 1) ≤ n then go k (y + 1) else y

/-- The date of the day that comes `n` days after the first day of year 1. -/
def dateOf (n : Nat) : Date :=
  let year := yearOf n
  let (month, day) := inMonths 1 (n - daysBefore year) (monthLengths year)
  ⟨year, month, day⟩

/-- Microseconds of a day. -/
def dayLength : Int := 86400000000

/-- Days from the first day of year 1 to the start of 1970. -/
def epochDay : Int := 719162

/-- The first instant that has a date, and the first after the last one. -/
def firstInstant : Int := -62135596800000000
def endOfTime : Int := 253402300800000000

/-- A number with zeros in front up to a width. -/
def padded (width n : Nat) : List Char :=
  let ds := Nat.toDigits 10 n
  List.replicate (width - ds.length) '0' ++ ds

/-- The text of a date and the microseconds since its midnight. -/
def render (d : Date) (micros : Nat) : List Char :=
  padded 4 d.year ++ '-' :: padded 2 d.month ++ '-' :: padded 2 d.day ++
    'T' :: padded 2 (micros / 3600000000) ++ ':' :: padded 2 (micros / 60000000 % 60) ++
    ':' :: padded 2 (micros / 1000000 % 60) ++ '.' :: padded 6 (micros % 1000000) ++
    "+00:00".toList

/-- The text of an instant in UTC, if it has a date. -/
def timestamp? (instant : Int) : Option String :=
  if firstInstant ≤ instant ∧ instant < endOfTime then
    let day := instant.fdiv dayLength + epochDay
    let micros := instant.fmod dayLength
    some (String.ofList (render (dateOf day.toNat) micros.toNat))
  else none

end Calendar
end SchemaLedger
