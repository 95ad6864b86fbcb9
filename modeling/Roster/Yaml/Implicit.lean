import Roster.Yaml.Timestamp

/-!
# What a plain scalar stands for

A scalar without quotes can be a truth value, a number, a moment or nothing; every text that has
none of these forms is a text.
-/

namespace Roster
namespace Yaml

/-- What a scalar is taken for. -/
inductive Sort_ where
  | str
  | bool
  | float
  | int
  /-- The key that merges another map. -/
  | merge
  | null
  | timestamp
  /-- The key of a default value. -/
  | value
  /-- An indicator alone. -/
  | indicator
  deriving DecidableEq, Repr

namespace Implicit

def boolWords : List (List Char) :=
  ["yes", "Yes", "YES", "no", "No", "NO", "true", "True", "TRUE", "false", "False", "FALSE",
    "on", "On", "ON", "off", "Off", "OFF"].map String.toList

def nullWords : List (List Char) :=
  ["~", "null", "Null", "NULL", ""].map String.toList

def isDigitOrLine (c : Char) : Bool := c.isDigit || c == '_'

def unsigned : List Char → List Char
  | '+' :: rest => rest
  | '-' :: rest => rest
  | cs => cs

/-- Nothing, or an exponent with a sign. -/
def isExponentOrEnd : List Char → Bool
  | [] => true
  | letter :: sign :: digits =>
      (letter == 'e' || letter == 'E') && (sign == '+' || sign == '-')
        && !digits.isEmpty && digits.all Char.isDigit
  | _ => false

/-- What is left behind groups of a colon and one or two digits below sixty, if there are any. -/
def afterSixties : (bound : Nat) → List Char → Option (List Char)
  | 0, _ => none
  | bound + 1, ':' :: a :: rest =>
      if !a.isDigit then none
      else
        let rest :=
          match rest with
          | b :: more => if a ≤ '5' && b.isDigit then more else rest
          | [] => rest
        match rest with
        | ':' :: _ => afterSixties bound rest
        | _ => some rest
  | _ + 1, _ => none

/-- Digits and low lines that start with a digit of a class, and what follows. -/
def spanNumber (first : Char → Bool) : List Char → Option (List Char)
  | c :: rest => if first c then some (rest.dropWhile isDigitOrLine) else none
  | [] => none

/-- A number with a point, a sexagesimal with a point, an infinity, or no number. -/
def isFloat (cs : List Char) : Bool :=
  let body := unsigned cs
  let decimal :=
    match spanNumber Char.isDigit body with
    | some ('.' :: rest) => isExponentOrEnd (rest.dropWhile isDigitOrLine)
    | some rest =>
        match afterSixties rest.length rest with
        | some ('.' :: rest) => rest.all isDigitOrLine
        | _ => false
    | none => false
  let pointed :=
    match cs with
    | '.' :: rest => ((spanNumber Char.isDigit rest).map isExponentOrEnd).getD false
    | _ => false
  decimal || pointed
    || [".inf", ".Inf", ".INF"].any (·.toList == body)
    || [".nan", ".NaN", ".NAN"].any (·.toList == cs)

/-- At least one character, all of a class. -/
def allOf (test : Char → Bool) (cs : List Char) : Bool :=
  !cs.isEmpty && cs.all test

/-- Digits of base sixteen and low lines. -/
def isHexOrLine (c : Char) : Bool :=
  c.isDigit || ('a' ≤ c && c ≤ 'f') || ('A' ≤ c && c ≤ 'F') || c == '_'

/-- A whole number in base two, eight, ten, sixteen or sixty. -/
def isInt (cs : List Char) : Bool :=
  match unsigned cs with
  | ['0'] => true
  | '0' :: 'b' :: rest => allOf (fun c => c == '0' || c == '1' || c == '_') rest
  | '0' :: 'x' :: rest => allOf isHexOrLine rest
  | '0' :: rest => allOf (fun c => ('0' ≤ c && c ≤ '7') || c == '_') rest
  | body =>
      match spanNumber Char.isDigit body with
      | some [] => true
      | some rest => afterSixties rest.length rest == some []
      | none => false

/-- A moment whose parts have all their digits unless a time of day follows. -/
def isTimestamp (cs : List Char) : Bool :=
  match Timestamp.parse? cs with
  | some t => t.padded || t.time.isSome
  | none => false

def sortOf (cs : List Char) : Sort_ :=
  if boolWords.contains cs then .bool
  else if isFloat cs then .float
  else if isInt cs then .int
  else if cs == ['<', '<'] then .merge
  else if nullWords.contains cs then .null
  else if isTimestamp cs then .timestamp
  else if cs == ['='] then .value
  else if [['!'], ['&'], ['*']].contains cs then .indicator
  else .str

end Implicit
end Yaml
end Roster
