import Roster.Number.Shortest
import Roster.Text.Segments
import Roster.Value.Basic
import Roster.Text.Quoted

/-!
# Values as text

`Value.text` is the text of a value that stands alone; `Value.shown` is its text inside a list, a
map or a message, where texts stand in quotes.
-/

namespace Roster
namespace Value

mutual

/-- Text of a value inside another one. -/
def shown : Value → String
  | .null => "None"
  | .bool b => if b then "True" else "False"
  | .int i => toString i
  | .float d => d.render
  | .str s => Text.quoted s
  | .list items => "[" ++ String.intercalate ", " (shownItems items) ++ "]"
  | .map entries => "\x7b" ++ String.intercalate ", " (shownEntries entries) ++ "\x7d"

/-- Texts of the items of a list. -/
def shownItems : List Value → List String
  | [] => []
  | v :: rest => shown v :: shownItems rest

/-- Texts of the entries of a map. -/
def shownEntries : List (String × Value) → List String
  | [] => []
  | (k, v) :: rest => (Text.quoted k ++ ": " ++ shown v) :: shownEntries rest

end

/-- Text of a value that stands alone. -/
def text : Value → String
  | .str s => s
  | v => v.shown

/-- Text that is stored for a value: nothing for null. -/
def stored : Value → String
  | .null => ""
  | v => v.text

end Value
end Roster
