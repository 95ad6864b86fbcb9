/-!
# Binary floating-point numbers

A number is a sign, a whole mantissa below `2 ^ 53` and a power of two, or an infinity, or no
number at all.  `ofDecimal` rounds a decimal to the nearest such number, a tie to the even
mantissa; all of it is exact arithmetic on natural numbers.
-/

namespace Roster

/-- A number of double precision. -/
inductive Double where
  /-- The value `± mantissa * 2 ^ exponent`. -/
  | finite (negative : Bool) (mantissa : Nat) (exponent : Int)
  | infinite (negative : Bool)
  | nan
  deriving DecidableEq, Repr, Inhabited

namespace Double

def minExponent : Int := -1074

def maxExponent : Int := 971

def zero (negative : Bool) : Double := .finite negative 0 minExponent

/-- The mantissa is below `2 ^ 53`, and from `2 ^ 52` up unless the exponent is the smallest. -/
def Canonical : Double → Prop
  | .finite _ mantissa exponent =>
      mantissa < Nat.pow 2 53 ∧ minExponent ≤ exponent ∧ exponent ≤ maxExponent ∧
        (exponent = minExponent ∨ Nat.pow 2 52 ≤ mantissa)
  | _ => True

/-- Nearest whole number to a quotient, a tie going to the even one. -/
def roundQuotient (num den : Nat) : Nat :=
  let whole := num / den
  let twice := 2 * (num % den)
  if twice < den then whole
  else if den < twice then whole + 1
  else if whole % 2 = 0 then whole else whole + 1

/-- Power of two that brings a positive quotient to a mantissa of 53 bits, or the smallest. -/
def exponentFor (num den : Nat) : Int :=
  let guess : Int := (Nat.log2 num : Int) - (Nat.log2 den : Int)
  let reached : Bool :=
    if 0 ≤ guess then den * Nat.pow 2 guess.toNat ≤ num else den ≤ num * Nat.pow 2 (-guess).toNat
  max minExponent ((if reached then guess else guess - 1) - 52)

/-- The number nearest to a quotient of natural numbers. -/
def ofQuotient (negative : Bool) (num den : Nat) : Double :=
  if num = 0 then zero negative
  else
    let exponent := exponentFor num den
    let mantissa :=
      if 0 ≤ exponent then roundQuotient num (den * Nat.pow 2 exponent.toNat)
      else roundQuotient (num * Nat.pow 2 (-exponent).toNat) den
    -- rounding up can give one bit too many
    let carried : Nat × Int :=
      if mantissa = Nat.pow 2 53 then (Nat.pow 2 52, exponent + 1) else (mantissa, exponent)
    if maxExponent < carried.2 then .infinite negative
    else .finite negative carried.1 carried.2

/-- The number nearest to `± digits * 10 ^ power`. Powers far outside the range are decided by
the count of digits alone. -/
def ofDecimal (negative : Bool) (digits : Nat) (power : Int) : Double :=
  if digits = 0 then zero negative
  else
    let size : Int := (Nat.toDigits 10 digits).length + power
    -- keeps the powers below small; the range ends far inside these bounds
    if 400 < size then .infinite negative
    else if size < -400 then zero negative
    else if 0 ≤ power then ofQuotient negative (digits * Nat.pow 10 power.toNat) 1
    else ofQuotient negative digits (Nat.pow 10 (-power).toNat)

/-- A number that counts as false in a condition. -/
def isZero : Double → Bool
  | .finite _ mantissa _ => mantissa == 0
  | _ => false

/-- Whole part, rounded toward zero; `none` when there is none. -/
def truncate? : Double → Option Int
  | .finite negative mantissa exponent =>
      let size : Nat :=
        if 0 ≤ exponent then mantissa * Nat.pow 2 exponent.toNat
        else mantissa / Nat.pow 2 (-exponent).toNat
      some (if negative then -(size : Int) else size)
  | _ => none

def isWhole : Double → Bool
  | .finite _ mantissa exponent =>
      0 ≤ exponent || mantissa % Nat.pow 2 (-exponent).toNat == 0
  | _ => false

def equalsInt (d : Double) (i : Int) : Bool :=
  d.isWhole && d.truncate? == some i

/-- The number is less than a whole number. -/
def ltInt (d : Double) (i : Int) : Bool :=
  match d with
  | .nan => false
  | .infinite negative => negative
  | .finite negative mantissa exponent =>
      let signed : Int := if negative then -(mantissa : Int) else mantissa
      if 0 ≤ exponent then signed * Int.pow 2 exponent.toNat < i
      else signed < i * Int.pow 2 (-exponent).toNat

/-- Equality of values: zeros of both signs are equal, and nothing equals what is no number. -/
def sameValue : Double → Double → Bool
  | .nan, _ => false
  | _, .nan => false
  | a, b => a == b || (a.isZero && b.isZero)

end Double
end Roster
