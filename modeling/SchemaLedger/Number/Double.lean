-- Double-precision numbers by their bits, the real number that they stand for,
-- the fewest decimal digits that read back as the same number, and the digits that
-- the store writes.

namespace SchemaLedger

/-- A double-precision number, kept as its bits so that equal numbers are equal bits. -/
structure Double where
  bits : UInt64
  deriving DecidableEq, Repr, Inhabited

namespace Double

def ofFloat (x : Float) : Double := ⟨x.toBits⟩

def toFloat (x : Double) : Float := Float.ofBits x.bits

/-- The number nearest to `mantissa · 10 ^ exponent`, with the given sign. What is
far above the largest number is infinite, and what is far below the least is zero. -/
def ofDecimal (negative : Bool) (mantissa : Nat) (exponent : Int) : Double :=
  let magnitude := exponent + (Nat.toDigits 10 mantissa).length
  let x :=
    if mantissa = 0 ∨ magnitude < -330 then 0.0
    else if magnitude > 310 then 1.0 / 0.0
    else Float.ofScientific mantissa (exponent < 0) exponent.natAbs
  ofFloat (if negative then -x else x)

/-- The number nearest to an integer. -/
def ofInt (n : Int) : Double := ofDecimal (n < 0) n.natAbs 0

def isNegative (x : Double) : Bool := x.bits.toNat / Nat.pow 2 63 == 1

def biasedExponent (x : Double) : Nat := x.bits.toNat / Nat.pow 2 52 % 2048

def fraction (x : Double) : Nat := x.bits.toNat % Nat.pow 2 52

def isNaN (x : Double) : Bool := x.biasedExponent == 2047 && x.fraction != 0

def isInfinite (x : Double) : Bool := x.biasedExponent == 2047 && x.fraction == 0

def isZero (x : Double) : Bool := x.biasedExponent == 0 && x.fraction == 0

/-- The whole number `m` of the finite value `m · 2 ^ q`, without its sign. -/
def significand (x : Double) : Nat :=
  if x.biasedExponent = 0 then x.fraction else Nat.pow 2 52 + x.fraction

/-- The power of two `q` of the finite value `m · 2 ^ q`. -/
def power (x : Double) : Int := (if x.biasedExponent = 0 then 1 else x.biasedExponent : Nat) - 1075

/-- The integer part of a finite number, cut toward zero. -/
def truncate (x : Double) : Int :=
  let whole := if x.power < 0 then x.significand / Nat.pow 2 x.power.natAbs
    else x.significand * Nat.pow 2 x.power.natAbs
  if x.isNegative then -(whole : Int) else whole

/-! ## Shortest digits -/

/-- A positive decimal: `digits · 10 ^ exponent`. -/
structure Decimal where
  digits : Nat
  exponent : Int
  deriving DecidableEq, Repr

/-- Compares `a · 10 ^ e` with a quarter of `b · 2 ^ q`. -/
def compareQuarter (a : Nat) (e : Int) (b : Nat) (q : Int) : Ordering :=
  let left := 4 * a * (if e < 0 then 1 else Nat.pow 10 e.natAbs) * (if q < 0 then Nat.pow 2 q.natAbs else 1)
  let right := b * (if q < 0 then 1 else Nat.pow 2 q.natAbs) * (if e < 0 then Nat.pow 10 e.natAbs else 1)
  compare left right

/-- The decimal lies among the reals that round to the finite number `x`. The
ends of that interval count iff the significand is even. -/
def readsBack (x : Double) (d : Decimal) : Bool :=
  let m := x.significand
  let below := if x.fraction = 0 ∧ 1 < x.biasedExponent then 4 * m - 1 else 4 * m - 2
  let low := compareQuarter d.digits d.exponent below x.power
  let high := compareQuarter d.digits d.exponent (4 * m + 2) x.power
  (low == .gt || (low == .eq && m % 2 == 0)) && (high == .lt || (high == .eq && m % 2 == 0))

/-- The integer part of `m · 2 ^ q / 10 ^ e`. -/
def gridFloor (m : Nat) (q e : Int) : Nat :=
  let num := m * (if q < 0 then 1 else Nat.pow 2 q.natAbs) * (if e < 0 then Nat.pow 10 e.natAbs else 1)
  let den := (if q < 0 then Nat.pow 2 q.natAbs else 1) * (if e < 0 then 1 else Nat.pow 10 e.natAbs)
  num / den

/-- The exponent of the leading decimal digit of a positive finite number. -/
def leadingExponent (x : Double) : Int :=
  let whole := gridFloor x.significand x.power 0
  if whole = 0 then
    match (List.range 330).find? fun (j : Nat) => gridFloor x.significand x.power (-(j : Int)) ≠ 0 with
    | some j => -(j : Int)
    | none => 0
  else ((Nat.toDigits 10 whole).length : Int) - 1

/-- Of the two neighbours of `x` with `k` digits, the one that reads back; of two
the nearer, and of two equally near the even one. -/
def nearest? (x : Double) (k : Nat) : Option Decimal :=
  let e := x.leadingExponent - k + 1
  let below : Decimal := ⟨gridFloor x.significand x.power e, e⟩
  let above : Decimal := ⟨below.digits + 1, e⟩
  match x.readsBack below, x.readsBack above with
  | true, false => some below
  | false, true => some above
  | false, false => none
  | true, true =>
    match compareQuarter (below.digits + above.digits) e (8 * x.significand) x.power with
    | .gt => some below
    | .lt => some above
    | .eq => if below.digits % 2 = 0 then some below else some above

/-- The shortest decimal that reads back as the positive finite number `x`. -/
def shortest (x : Double) : Decimal :=
  ((List.range 17).findSome? fun k => x.nearest? (k + 1)).getD ⟨gridFloor x.significand x.power 0, 0⟩

/-- The digits of a decimal without zeros at the end, and the exponent of the first. -/
def Decimal.spread (d : Decimal) : List Char × Int :=
  let all := Nat.toDigits 10 d.digits
  let kept := (all.reverse.dropWhile (· == '0')).reverse
  (kept, d.exponent + all.length - 1)

/-- Writes digits with the point after the first `e + 1` of them. Exponents from
-4 to below `most` are written in full, others as a power of ten with at least two
digits. There a single digit has a point behind it if that is asked for. -/
def layOut (most : Int) (always : Bool) (digits : List Char) (e : Int) : List Char :=
  if -4 ≤ e ∧ e < most then
    if e < 0 then ['0', '.'] ++ List.replicate (e.natAbs - 1) '0' ++ digits
    else
      let whole := digits.take (e.natAbs + 1)
      let rest := digits.drop (e.natAbs + 1)
      whole ++ List.replicate (e.natAbs + 1 - whole.length) '0' ++ ['.'] ++
        (if rest.isEmpty then ['0'] else rest)
  else
    let power := Nat.toDigits 10 e.natAbs
    let rest := if always && digits.length ≤ 1 then ['0'] else digits.drop 1
    digits.take 1 ++ (if rest.isEmpty then [] else '.' :: rest) ++
      ['e', if e < 0 then '-' else '+'] ++ List.replicate (2 - power.length) '0' ++ power

/-- The text of a number: the fewest digits that read back. -/
def text (x : Double) : String :=
  if x.isNaN then "nan"
  else
    let sign := if x.isNegative then "-" else ""
    if x.isInfinite then sign ++ "inf"
    else if x.isZero then sign ++ "0.0"
    else
      let (digits, e) := x.shortest.spread
      sign ++ String.ofList (layOut 16 false digits e)

/-! ## In the store -/

/-- A positive finite number to so many digits, half upwards. -/
def rounded (x : Double) (count : Nat) : Decimal :=
  let e := x.leadingExponent - count + 1
  ⟨(gridFloor (2 * x.significand) x.power e + 1) / 2, e⟩

/-- The text that the store writes for a number: 15 digits, and always a point. What is no
number is stored as nothing. -/
def stored? (x : Double) : Option String :=
  if x.isNaN then none
  else if x.isZero then some "0.0"
  else
    let sign := if x.isNegative then "-" else ""
    if x.isInfinite then some (sign ++ "Inf")
    else
      let (digits, e) := (x.rounded 15).spread
      some (sign ++ String.ofList (layOut 15 true digits e))

end Double
end SchemaLedger
