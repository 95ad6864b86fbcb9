import Roster.Text.Blank
import Roster.Text.Ranges

/-!
# Whole numbers in text

A numeral is an optional sign and decimal digits of any script, with single low lines allowed
between digits and blanks around it.  At most 4300 digits are read or written.
-/

namespace Roster
namespace Numeral

/-- Why a text is not read as a whole number. -/
inductive Fault where
  /-- The text is no numeral. -/
  | malformed
  /-- The numeral has this many digits, which is too many. -/
  | tooLong (count : Nat)
  deriving DecidableEq, Repr

/-- Most digits that a numeral may have. -/
def maxDigits : Nat := 4300

/-- Blanks around a numeral: the information separators do not count. -/
def isMargin (c : Char) : Bool :=
  Text.isBlank c && !(0x1C ≤ c.toNat && c.toNat ≤ 0x1F)

/-- Values of the digits, when single low lines stand between digits only. -/
def digits? : (afterDigit : Bool) → List Char → Option (List Nat)
  | afterDigit, [] => if afterDigit then some [] else none
  | afterDigit, '_' :: rest => if afterDigit then digits? false rest else none
  | _, c :: rest =>
      match Text.digitValue? c with
      | some value => (digits? true rest).map (value :: ·)
      | none => none

/-- Number written by digits to a base, most significant first. -/
def ofDigits (base : Nat) (digits : List Nat) : Nat :=
  digits.foldl (fun value digit => value * base + digit) 0

/-- Sign in front of a numeral, and the rest. -/
def splitSign : List Char → Bool × List Char
  | '-' :: rest => (true, rest)
  | '+' :: rest => (false, rest)
  | rest => (false, rest)

def parse (cs : List Char) : Except Fault Int :=
  let body := ((cs.dropWhile isMargin).reverse.dropWhile isMargin).reverse
  let (negative, unsigned) := splitSign body
  match digits? false unsigned with
  | none => .error .malformed
  | some digits =>
      if maxDigits < digits.length then .error (.tooLong digits.length)
      else
        let size : Nat := ofDigits 10 digits
        .ok (if negative then -(size : Int) else size)

def render (i : Int) : String :=
  toString i

end Numeral
end Roster
