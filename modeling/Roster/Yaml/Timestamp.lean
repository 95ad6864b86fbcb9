/-!
# Written moments

A moment in a YAML document is a day, or a day with a time of day, a fraction of a second and a
distance from universal time.  The reader takes the text apart and leaves the ranges unchecked.
-/

namespace Roster
namespace Yaml

/-- Distance from universal time as it is written. -/
inductive Zone where
  /-- Universal time itself. -/
  | universal
  | offset (negative : Bool) (hours minutes : Nat)
  deriving DecidableEq, Repr

/-- Time of day as it is written. -/
structure TimeOfDay where
  hour : Nat
  minute : Nat
  second : Nat
  /-- Digits behind the point. -/
  fraction : List Char := []
  zone : Option Zone := none
  deriving DecidableEq, Repr

/-- A moment as it is written. -/
structure Timestamp where
  year : Nat
  month : Nat
  day : Nat
  time : Option TimeOfDay := none
  /-- Month and day have two digits each. -/
  padded : Bool
  deriving DecidableEq, Repr

namespace Timestamp

def number (digits : List Char) : Nat :=
  digits.foldl (fun n c => n * 10 + (c.toNat - 48)) 0

/-- Between `least` and `most` digits, as many as there are. -/
def takeDigits (least most : Nat) (cs : List Char) : Option (List Char × List Char) :=
  let digits := (cs.take most).takeWhile Char.isDigit
  if least ≤ digits.length then some (digits, cs.drop digits.length) else none

def takeChar (c : Char) : List Char → Option (List Char)
  | [] => none
  | d :: rest => if c == d then some rest else none

def isGap (c : Char) : Bool := c == ' ' || c == '\t'

/-- What stands between a day and a time of day. -/
def takeJoint : List Char → Option (List Char)
  | 'T' :: rest => some rest
  | 't' :: rest => some rest
  | c :: rest => if isGap c then some (rest.dropWhile isGap) else none
  | [] => none

/-- A fraction, which may have no digits. -/
def takeFraction : List Char → List Char × List Char
  | '.' :: rest => rest.span Char.isDigit
  | cs => ([], cs)

/-- A distance from universal time, up to the end. -/
def takeZone (cs : List Char) : Option (Option Zone) :=
  if cs.isEmpty then some none
  else
    match cs.dropWhile isGap with
    | ['Z'] => some (some .universal)
    | sign :: rest =>
        if sign == '+' || sign == '-' then do
          let (hours, rest) ← takeDigits 1 2 rest
          if rest.isEmpty then some (some (.offset (sign == '-') (number hours) 0))
          else
            let rest ← takeChar ':' rest
            let (minutes, rest) ← takeDigits 2 2 rest
            if rest.isEmpty then some (some (.offset (sign == '-') (number hours) (number minutes)))
            else none
        else none
    | [] => none

/-- A time of day, up to the end. -/
def takeTime (cs : List Char) : Option TimeOfDay := do
  let (hour, rest) ← takeDigits 1 2 cs
  let rest ← takeChar ':' rest
  let (minute, rest) ← takeDigits 2 2 rest
  let rest ← takeChar ':' rest
  let (second, rest) ← takeDigits 2 2 rest
  let (fraction, rest) := takeFraction rest
  let zone ← takeZone rest
  some ⟨number hour, number minute, number second, fraction, zone⟩

def parse? (cs : List Char) : Option Timestamp := do
  let (year, rest) ← takeDigits 4 4 cs
  let rest ← takeChar '-' rest
  let (month, rest) ← takeDigits 1 2 rest
  let rest ← takeChar '-' rest
  let (day, rest) ← takeDigits 1 2 rest
  let padded := month.length == 2 && day.length == 2
  if rest.isEmpty then some ⟨number year, number month, number day, none, padded⟩
  else
    let time ← takeTime (← takeJoint rest)
    some ⟨number year, number month, number day, some time, padded⟩

end Timestamp
end Yaml
end Roster
