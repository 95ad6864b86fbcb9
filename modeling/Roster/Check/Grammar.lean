import Roster.Text.Segments

/-!
# Written forms of field values

Each form is a decidable condition on the characters of a value.  Only ASCII digits and letters
count, apart from the accented letters of names, and nothing may follow the last character.
-/

namespace Roster
namespace Grammar

def isAlnum (c : Char) : Bool := c.isAlphanum

/-- The characters meet the conditions one by one, and there are no more of either. -/
def hasShape : List (Char → Bool) → List Char → Bool
  | [], [] => true
  | test :: tests, c :: cs => test c && hasShape tests cs
  | _, _ => false

def digits (count : Nat) : List (Char → Bool) :=
  List.replicate count Char.isDigit

def exactly (c : Char) : List (Char → Bool) := [(· == c)]

/-- At least one character, all of a class. -/
def allOf (test : Char → Bool) (cs : List Char) : Bool :=
  !cs.isEmpty && cs.all test

/-- Characters in front of the sign of a mail address. -/
def isMailName (c : Char) : Bool :=
  isAlnum c || "._%+-".toList.contains c

/-- Characters of a mail domain. -/
def isDomain (c : Char) : Bool :=
  isAlnum c || c == '.' || c == '-'

/-- A domain: its last part has at least two letters, and something stands in front of the dot. -/
def isMailDomain (cs : List Char) : Bool :=
  match cs.reverse.span (· != '.') with
  | (last, '.' :: front) => 2 ≤ last.length && last.all Char.isAlpha && allOf isDomain front
  | _ => false

/-- A mail address: a name and a domain on both sides of one sign. -/
def isEmail (cs : List Char) : Bool :=
  match Text.cut '@' cs with
  | [name, domain] => allOf isMailName name && isMailDomain domain
  | _ => false

/-- Characters of a phone number behind the sign. -/
def isPhoneChar (c : Char) : Bool :=
  c.isDigit || c == ' ' || c == '(' || c == ')' || c == '-'

def phoneMinLength : Nat := 7

/-- A phone number: an optional sign, then digits, blanks, parentheses and hyphens. -/
def isPhone (cs : List Char) : Bool :=
  let body :=
    match cs with
    | '+' :: rest => rest
    | _ => cs
  allOf isPhoneChar body && phoneMinLength ≤ cs.length

def dayShape : List (Char → Bool) :=
  digits 4 ++ exactly '-' ++ digits 2 ++ exactly '-' ++ digits 2

def timeShape : List (Char → Bool) :=
  digits 2 ++ exactly ':' ++ digits 2 ++ exactly ':' ++ digits 2

/-- A day: four, two and two digits. -/
def isDay (cs : List Char) : Bool :=
  hasShape dayShape cs

/-- A moment: a day and a time of day. -/
def isMoment (cs : List Char) : Bool :=
  hasShape (dayShape ++ [fun c => c == 'T' || c == ' '] ++ timeShape) cs

/-- A whole number: an optional minus sign and digits. -/
def isInteger (cs : List Char) : Bool :=
  match cs with
  | '-' :: rest => allOf Char.isDigit rest
  | _ => allOf Char.isDigit cs

/-- A moniker: letters and digits, 2 to 24 of them. -/
def isMoniker (cs : List Char) : Bool :=
  cs.all isAlnum && 2 ≤ cs.length && cs.length ≤ 24

def isUserIdChar (c : Char) : Bool :=
  isAlnum c || c == '.' || c == '_' || c == '@' || c == '-'

/-- A login name: 2 to 30 characters. -/
def isUserId (cs : List Char) : Bool :=
  cs.all isUserIdChar && 2 ≤ cs.length && cs.length ≤ 30

/-- Characters of a word of a person's name: letters of Latin with accents, both apostrophes,
the period and the hyphen. -/
def isNameChar (c : Char) : Bool :=
  c.isAlpha || (0xC0 ≤ c.toNat && c.toNat ≤ 0x24F) || c == '\'' || c == '’' || c == '.' || c == '-'

/-- A person's name: words with single blanks between them. -/
def isName (cs : List Char) : Bool :=
  (Text.cut ' ' cs).all (allOf isNameChar)

end Grammar

def isUserId (s : String) : Bool :=
  Grammar.isUserId s.toList

end Roster
