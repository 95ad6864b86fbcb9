import Roster.Number.Double

/-!
# Shortest decimal text of a floating-point number

The digits written are the fewest that read back as the same number, the nearest such when there
are several, with the exact expansion as the last resort.  Exponents from -4 to 15 are written
positionally, with at least one digit behind the point.
-/

namespace Roster
namespace Double

/-- A decimal: digits as one whole number, and a power of ten. -/
structure Decimal where
  digits : Nat
  power : Int
  deriving DecidableEq, Repr

/-- Exact decimal expansion of `mantissa * 2 ^ exponent`. -/
def exactDecimal (mantissa : Nat) (exponent : Int) : Decimal :=
  if 0 ≤ exponent then ⟨mantissa * Nat.pow 2 exponent.toNat, 0⟩
  else ⟨mantissa * Nat.pow 5 (-exponent).toNat, exponent⟩

/-- Cut a decimal to its first `count` digits; the second part says whether the value lies above
the middle to the next one, and on a tie whether the next one is even. -/
def cutDecimal (exact : Decimal) (size count : Nat) : Decimal × Bool :=
  if size ≤ count then (exact, false)
  else
    let unit := Nat.pow 10 (size - count)
    let low := exact.digits / unit
    let twice := 2 * (exact.digits % unit)
    (⟨low, exact.power + (size - count : Nat)⟩, unit < twice || (unit == twice && low % 2 == 1))

/-- The nearest decimals with `count` digits, the nearer first. -/
def neighbours (exact : Decimal) (size count : Nat) : List Decimal :=
  let (low, up) := cutDecimal exact size count
  let high : Decimal := ⟨low.digits + 1, low.power⟩
  if up then [high, low] else [low, high]

/-- Fewest digits that read back, searched from `count` on. -/
def searchDecimal (d : Double) (negative : Bool) (exact : Decimal) (size : Nat) :
    (tries count : Nat) → Decimal
  | 0, _ => exact
  | tries + 1, count =>
      match (neighbours exact size count).find? fun c => ofDecimal negative c.digits c.power == d with
      | some found => found
      | none => searchDecimal d negative exact size tries (count + 1)

/-- Drop the zeros at the end of the digits. -/
def dropZeros : (bound : Nat) → Decimal → Decimal
  | 0, c => c
  | bound + 1, c =>
      if c.digits % 10 == 0 && c.digits != 0 then dropZeros bound ⟨c.digits / 10, c.power + 1⟩ else c

/-- The shortest decimal that reads back as the finite number. -/
def shortest (negative : Bool) (mantissa : Nat) (exponent : Int) : Decimal :=
  let exact := exactDecimal mantissa exponent
  let size := (Nat.toDigits 10 exact.digits).length
  -- seventeen digits always read back
  let found := searchDecimal (.finite negative mantissa exponent) negative exact size 17 1
  dropZeros (Nat.toDigits 10 found.digits).length found

/-- Exponent behind the letter: a sign and at least two digits. -/
def exponentText (e : Int) : List Char :=
  let digits := Nat.toDigits 10 e.natAbs
  (if e < 0 then '-' else '+') :: (if digits.length < 2 then '0' :: digits else digits)

/-- Digits laid out with a point or with an exponent. -/
def layout (c : Decimal) : List Char :=
  let digits := Nat.toDigits 10 c.digits
  let count := digits.length
  -- the exponent of the first digit
  let lead : Int := c.power + (count : Int) - 1
  if -4 ≤ lead && lead < 16 then
    if lead < 0 then
      '0' :: '.' :: List.replicate (-lead - 1).toNat '0' ++ digits
    else
      let whole := lead.toNat + 1
      if count ≤ whole then digits ++ List.replicate (whole - count) '0' ++ ['.', '0']
      else digits.take whole ++ '.' :: digits.drop whole
  else
    let tail := digits.drop 1
    digits.take 1 ++ (if tail.isEmpty then [] else '.' :: tail) ++ 'e' :: exponentText lead

def render : Double → String
  | .nan => "nan"
  | .infinite negative => if negative then "-inf" else "inf"
  | .finite negative mantissa exponent =>
      let body := if mantissa = 0 then ['0', '.', '0'] else layout (shortest negative mantissa exponent)
      String.ofList (if negative then '-' :: body else body)

end Double
end Roster
