import Roster.Value.Display
import Roster.Value.Fault

/-!
# Maps made of pairs

A map can also be given as a sequence of pairs, each of a key and a value.
-/

namespace Roster
namespace Value

/-- Text of a value that is a key. -/
def keyText : Value → String
  | .null => "null"
  | .bool b => if b then "true" else "false"
  | v => v.text

/-- The key and value of one item, at its place in the sequence. -/
def pair (index : Nat) (v : Value) : Except ValueFault (String × Value) := do
  match ← v.items with
  | [key, value] => .ok ((← key.asKey).keyText, value)
  | parts => .error (.notPair index parts.length)

/-- The entries that a map or a sequence of pairs gives. -/
def pairs : Value → Except ValueFault Entries
  | .map entries => .ok entries
  | v => do
      let pairs ← (← v.items).zipIdx.mapM fun (item, index) => pair index item
      .ok (Entries.setAll [] pairs)

end Value
end Roster
