-- The leading digits of a whole number: rounded to so many digits, half to the even
-- neighbour, with the power of ten of the first one.

namespace SchemaLedger

/-- Digits with the power of ten of the first. -/
structure Significant where
  digits : List Char
  exponent : Nat
  deriving DecidableEq, Repr

namespace Significant

/-- A quotient rounded to the nearest whole number, half to the even neighbour. -/
def roundHalfEven (n divisor : Nat) : Nat :=
  let q := n / divisor
  let twice := 2 * (n % divisor)
  if divisor < twice ∨ (twice = divisor ∧ q % 2 = 1) then q + 1 else q

/-- A number to `count` digits. -/
def ofNat (count n : Nat) : Significant :=
  let ds := Nat.toDigits 10 n
  if ds.length ≤ count then
    ⟨ds ++ List.replicate (count - ds.length) '0', ds.length - 1⟩
  else
    let rounded := Nat.toDigits 10 (roundHalfEven n (Nat.pow 10 (ds.length - count)))
    ⟨rounded.take count, ds.length - 1 + (rounded.length - count)⟩

/-- The digits behind a point, or nothing. The point stays if it is asked for. -/
def behindPoint (always : Bool) (ds : List Char) : List Char :=
  if ds.isEmpty && !always then [] else '.' :: ds

def withoutZeros (ds : List Char) : List Char := (ds.reverse.dropWhile (· == '0')).reverse

/-- One digit, the others behind a point, and the power of ten after the letter `e`. -/
def scientific (e : Char) (always : Bool) (x : Significant) : List Char :=
  let power := Nat.toDigits 10 x.exponent
  x.digits.take 1 ++ behindPoint always (x.digits.drop 1) ++
    e :: '+' :: List.replicate (2 - power.length) '0' ++ power

/-- In full if the digits reach to the point, else with a power of ten. Zeros at the end
behind the point are left out, unless they are asked for. -/
def general (e : Char) (always : Bool) (x : Significant) : List Char :=
  let trim (ds : List Char) : List Char := if always then ds else withoutZeros ds
  if x.exponent < x.digits.length then
    x.digits.take (x.exponent + 1) ++ behindPoint always (trim (x.digits.drop (x.exponent + 1)))
  else scientific e always { x with digits := x.digits.take 1 ++ trim (x.digits.drop 1) }

end Significant
end SchemaLedger
