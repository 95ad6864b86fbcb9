import Roster.Value.Basic

/-!
# Shapes of settings

A setting must have one of a few shapes.  Numbers and truth values are kept apart; a
floating-point number without a fraction counts as a whole number.
-/

namespace Roster

/-- What a value has to look like. -/
inductive Shape where
  | nothing
  | truth
  | number
  | whole
  /-- A whole number that is not less than a bound. -/
  | atLeast (bound : Int)
  | text
  | filledText
  /-- A name of ASCII letters, digits and low lines that no digit starts. -/
  | identifier
  | oneOf (shapes : List Shape)
  | listOf (shape : Shape)
  /-- A map whose members have their shapes where they are there. -/
  | object (members : List (String × Shape))

namespace Shape

/-- A letter or a low line. -/
def isInitial (c : Char) : Bool :=
  c.isAlpha || c == '_'

/-- An identifier; one line end behind it is let through. -/
def isIdentifier : List Char → Bool
  | c :: rest =>
      let tail := rest.dropWhile fun c => isInitial c || c.isDigit
      isInitial c && (tail.isEmpty || tail == ['\n'])
  | [] => false

/-- A whole number, however it is written. -/
def isWhole : Value → Bool
  | .int _ => true
  | .float d => d.isWhole
  | _ => false

/-- A number that is not less than a bound. -/
def isAtLeast (bound : Int) : Value → Bool
  | .int i => bound ≤ i
  | .float d => d.isWhole && !d.ltInt bound
  | _ => false

mutual

def accepts : Shape → Value → Bool
  | .nothing, v => v == .null
  | .truth, v => match v with | .bool _ => true | _ => false
  | .number, v => match v with | .int _ | .float _ => true | _ => false
  | .whole, v => isWhole v
  | .atLeast bound, v => isAtLeast bound v
  | .text, v => v.text?.isSome
  | .filledText, v => v.text?.any (· != "")
  | .identifier, v => v.text?.any (isIdentifier ·.toList)
  | .oneOf shapes, v => acceptsAny shapes v
  | .listOf shape, v =>
      match v with
      | .list items => items.all (accepts shape)
      | _ => false
  | .object members, v =>
      match v with
      | .map entries => acceptsMembers members entries
      | _ => false

/-- The value has one of the shapes. -/
def acceptsAny : List Shape → Value → Bool
  | [], _ => false
  | shape :: rest, v => accepts shape v || acceptsAny rest v

/-- Every member that is there has its shape. -/
def acceptsMembers : List (String × Shape) → Entries → Bool
  | [], _ => true
  | (name, shape) :: rest, entries =>
      (entries.lookup name).all (accepts shape) && acceptsMembers rest entries

end

end Shape
end Roster
