import Roster.Number.Shortest
import Roster.Text.Quoted
import Roster.Value.Basic

/-!
# Writing JSON

A document is written with two blanks of indentation per level and in ASCII alone: every other
character is an escape of four digits, or two such beyond the basic plane.
-/

namespace Roster
namespace Json

def unitEscape (n : Nat) : List Char :=
  '\\' :: 'u' :: Text.hexPadded 4 n

def escapeChar (c : Char) : List Char :=
  if c == '"' then ['\\', '"']
  else if c == '\\' then ['\\', '\\']
  else if c == '\n' then ['\\', 'n']
  else if c == '\r' then ['\\', 'r']
  else if c == '\t' then ['\\', 't']
  else if c == '\x0c' then ['\\', 'f']
  else if c == '\x08' then ['\\', 'b']
  else if 0x20 ≤ c.toNat && c.toNat < 0x7F then [c]
  else if c.toNat < 0x10000 then unitEscape c.toNat
  else
    let n := c.toNat - 0x10000
    unitEscape (0xD800 + n / 0x400) ++ unitEscape (0xDC00 + n % 0x400)

def writeText (s : String) : String :=
  String.ofList ('"' :: s.toList.flatMap escapeChar ++ ['"'])

/-- A number with a fraction; the values without digits have names. -/
def writeDouble : Double → String
  | .nan => "NaN"
  | .infinite negative => if negative then "-Infinity" else "Infinity"
  | d => d.render

/-- Line end and indentation of a level. -/
def newLine (level : Nat) : String :=
  String.ofList ('\n' :: List.replicate (2 * level) ' ')

mutual

/-- A value at a level of indentation. -/
def writeAt (level : Nat) : Value → String
  | .null => "null"
  | .bool b => if b then "true" else "false"
  | .int i => toString i
  | .float d => writeDouble d
  | .str s => writeText s
  | .list [] => "[]"
  | .list items =>
      "[" ++ newLine (level + 1)
        ++ String.intercalate ("," ++ newLine (level + 1)) (writeItems (level + 1) items)
        ++ newLine level ++ "]"
  | .map [] => "\x7b\x7d"
  | .map entries =>
      "\x7b" ++ newLine (level + 1)
        ++ String.intercalate ("," ++ newLine (level + 1)) (writeEntries (level + 1) entries)
        ++ newLine level ++ "\x7d"

/-- Items of a list at a level. -/
def writeItems (level : Nat) : List Value → List String
  | [] => []
  | v :: rest => writeAt level v :: writeItems level rest

/-- Entries of a map at a level. -/
def writeEntries (level : Nat) : List (String × Value) → List String
  | [] => []
  | (k, v) :: rest => (writeText k ++ ": " ++ writeAt level v) :: writeEntries level rest

end

/-- A whole document. -/
def write (v : Value) : String :=
  writeAt 0 v

end Json
end Roster
