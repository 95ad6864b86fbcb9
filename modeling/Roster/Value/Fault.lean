import Roster.Number.Numeral
import Roster.Text.Quoted
import Roster.Value.Basic

/-!
# Values of the wrong kind

Reading settings and definitions out of document values fails when a value is not of the kind
that the place asks for.
-/

namespace Roster

/-- Why a value cannot be used where it stands. -/
inductive ValueFault where
  /-- A value of this kind has no items to go through. -/
  | notIterable (kind : String)
  /-- A value of this kind cannot be a key. -/
  | notKey (kind : String)
  /-- A map or a text was needed. -/
  | noMember
  /-- A value of this kind is no path. -/
  | notPath (kind : String)
  /-- A value of this kind is no number. -/
  | notNumeric (kind : String)
  | badNumeral (text : String)
  | longNumeral (count : Nat)
  /-- A whole number has too many digits to be written. -/
  | longNumber
  | infiniteNumber
  | noNumber
  | missingKey
  | missingFieldName
  /-- An item that should be a pair of key and value has another length. -/
  | notPair (index length : Nat)
  deriving DecidableEq, Repr

namespace ValueFault

def message : ValueFault → String
  | .notIterable kind => "'" ++ kind ++ "' object is not iterable"
  | .notKey kind => "unhashable type: '" ++ kind ++ "'"
  | .noMember => "value has no such member"
  | .notPath kind => "expected str, bytes or os.PathLike object, not " ++ kind
  | .notNumeric kind =>
      "int() argument must be a string, a bytes-like object or a real number, not '" ++ kind ++ "'"
  | .badNumeral text => "invalid literal for int() with base 10: " ++ Text.quoted text
  | .longNumeral count =>
      "Exceeds the limit (4300 digits) for integer string conversion: value has "
        ++ toString count ++ " digits; use sys.set_int_max_str_digits() to increase the limit"
  | .longNumber =>
      "Exceeds the limit (4300 digits) for integer string conversion; "
        ++ "use sys.set_int_max_str_digits() to increase the limit"
  | .infiniteNumber => "cannot convert float infinity to integer"
  | .noNumber => "cannot convert float NaN to integer"
  | .missingKey => "key is missing"
  | .missingFieldName => "definition has no field_name"
  | .notPair index length =>
      "dictionary update sequence element #" ++ toString index ++ " has length "
        ++ toString length ++ "; 2 is required"

/-- The value has the wrong kind or cannot be read; other faults are left to the caller. -/
def isBadValue : ValueFault → Bool
  | .noMember | .infiniteNumber | .missingKey => false
  | _ => true

end ValueFault

namespace Value

/-- The items of a value: of a list its items, of a text its characters, of a map its keys. -/
def items : Value → Except ValueFault (List Value)
  | .list items => .ok items
  | .str s => .ok (s.toList.map fun c => .str (String.singleton c))
  | .map entries => .ok (entries.map fun entry => .str entry.1)
  | v => .error (.notIterable v.kindName)

/-- Lists and maps cannot be keys. -/
def asKey : Value → Except ValueFault Value
  | .list items => .error (.notKey (Value.list items).kindName)
  | .map entries => .error (.notKey (Value.map entries).kindName)
  | v => .ok v

def entries : Value → Except ValueFault Entries
  | .map entries => .ok entries
  | _ => .error .noMember

/-- The whole number that a value stands for: a number loses its fraction, a text is read. -/
def toInt : Value → Except ValueFault Int
  | .bool b => .ok (if b then 1 else 0)
  | .int i => .ok i
  | .float .nan => .error .noNumber
  | .float d => (d.truncate?).elim (.error .infiniteNumber) .ok
  | .str s =>
      match Numeral.parse s.toList with
      | .ok i => .ok i
      | .error .malformed => .error (.badNumeral s)
      | .error (.tooLong count) => .error (.longNumeral count)
  | v => .error (.notNumeric v.kindName)

end Value
end Roster
