import Roster.Number.Double
import Roster.Number.Numeral

/-!
# Numbers in text

A number is written with digits, a point and an exponent, or is one of the words for an infinity
and for no number; whole numbers can also be written to the bases two, eight and sixteen.
-/

namespace Roster
namespace Double

/-- The value of a finite number as a quotient. -/
def ratio : Double → Int × Nat
  | .finite negative mantissa exponent =>
      let size : Nat := if 0 ≤ exponent then mantissa * Nat.pow 2 exponent.toNat else mantissa
      (if negative then -(size : Int) else size, Nat.pow 2 (-exponent).toNat)
  | _ => (0, 1)

def ofRatio (num : Int) (den : Nat) : Double :=
  ofQuotient (num < 0) num.natAbs den

def neg : Double → Double
  | .finite negative mantissa exponent => .finite (!negative) mantissa exponent
  | .infinite negative => .infinite (!negative)
  | .nan => .nan

def add : Double → Double → Double
  | .nan, _ => .nan
  | _, .nan => .nan
  | .infinite a, .infinite b => if a == b then .infinite a else .nan
  | .infinite a, _ => .infinite a
  | _, .infinite b => .infinite b
  | a, b =>
      let (n, d) := a.ratio
      let (m, e) := b.ratio
      ofRatio (n * e + m * d) (d * e)

def times (a : Double) (n : Nat) : Double :=
  match a with
  | .nan => .nan
  | .infinite negative => if n == 0 then .nan else .infinite negative
  | .finite negative _ _ =>
      let (m, d) := a.ratio
      ofQuotient negative (m.natAbs * n) d

end Double

namespace Decimal

/-- Digits of any script and what follows them. -/
def takeDigits (cs : List Char) : List Nat × List Char :=
  let digits := cs.takeWhile fun c => (Text.digitValue? c).isSome
  (digits.filterMap Text.digitValue?, cs.drop digits.length)

/-- An exponent up to the end, zero if there is none. -/
def exponent? : List Char → Option Int
  | [] => some 0
  | letter :: rest =>
      if letter == 'e' || letter == 'E' then
        let (negative, rest) := Numeral.splitSign rest
        let (digits, rest) := takeDigits rest
        if digits.isEmpty || !rest.isEmpty then none
        else
          let size : Nat := Numeral.ofDigits 10 digits
          some (if negative then -(size : Int) else size)
      else none

def unsigned? (negative : Bool) (cs : List Char) : Option Double :=
  let word := String.ofList (cs.map Char.toLower)
  if word == "inf" || word == "infinity" then some (.infinite negative)
  else if word == "nan" then some .nan
  else
    let (whole, rest) := takeDigits cs
    let (fraction, rest) :=
      match rest with
      | '.' :: rest => takeDigits rest
      | rest => ([], rest)
    if whole.isEmpty && fraction.isEmpty then none
    else
      (exponent? rest).map fun exponent =>
        .ofDecimal negative (Numeral.ofDigits 10 (whole ++ fraction))
          (exponent - (fraction.length : Int))

/-- The number that a text writes, whatever the blanks around it. -/
def parse? (cs : List Char) : Option Double :=
  let body := ((cs.dropWhile Numeral.isMargin).reverse.dropWhile Numeral.isMargin).reverse
  let (negative, rest) := Numeral.splitSign body
  unsigned? negative rest

end Decimal

namespace Numeral

/-- Value of a digit up to `f`. -/
def digitUpTo16? (c : Char) : Option Nat :=
  if 'a' ≤ c && c ≤ 'f' then some (c.toNat - 87)
  else if 'A' ≤ c && c ≤ 'F' then some (c.toNat - 55)
  else Text.digitValue? c

/-- Letter of a base behind a leading zero. -/
def baseLetter (base : Nat) : Char :=
  if base == 16 then 'x' else if base == 8 then 'o' else 'b'

/-- Read a whole number to the base two, eight or sixteen; the letter of the base may stand behind
a leading zero. -/
def parseBase (base : Nat) (cs : List Char) : Option Int :=
  let body := ((cs.dropWhile isMargin).reverse.dropWhile isMargin).reverse
  let (negative, unsigned) := splitSign body
  let digits :=
    match unsigned with
    | '0' :: letter :: rest =>
        if letter.toLower == baseLetter base then rest else unsigned
    | unsigned => unsigned
  match digits.mapM digitUpTo16? with
  | some values =>
      if values.isEmpty || values.any (base ≤ ·) then none
      else
        let size : Nat := ofDigits base values
        some (if negative then -(size : Int) else size)
  | none => none

end Numeral
end Roster
