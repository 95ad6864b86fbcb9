/-!
# Reading delimited text

The reader goes through the text once.  Inside quotes everything belongs to the cell, and a quote
is written twice; outside, any of the three line ends ends the row.  An empty line is a row without
cells, and an open quote ends with the text.
-/

namespace Roster
namespace Delimited

/-- Where the reader stands in a row. -/
inductive Mode where
  /-- In front of a row. -/
  | rowStart
  /-- Behind a carriage return that ended a row. -/
  | afterReturn
  /-- Behind a delimiter. -/
  | cellStart
  | inCell
  | inQuotes
  /-- Behind a quote that closes the cell or stands for itself. -/
  | afterQuote
  deriving DecidableEq, Repr

/-- What the reader has so far, all lists in reverse. -/
structure Reading where
  mode : Mode := .rowStart
  cell : List Char := []
  /-- Count of the characters of the cell. -/
  length : Nat := 0
  cells : List String := []
  rows : List (List String) := []

/-- Most characters that a cell may have. -/
def maxCell : Nat := 131072

/-- A cell has more characters than it may have. -/
structure CellTooLong where
  deriving DecidableEq, Repr

namespace Reading

def add (r : Reading) (c : Char) (mode : Mode) : Except CellTooLong Reading :=
  if maxCell ≤ r.length then .error {}
  else .ok { r with mode, cell := c :: r.cell, length := r.length + 1 }

def endCell (r : Reading) (mode : Mode) : Reading :=
  { r with mode, cell := [], length := 0, cells := String.ofList r.cell.reverse :: r.cells }

def endRow (r : Reading) (mode : Mode) : Reading :=
  { r with mode, cells := [], rows := r.cells.reverse :: r.rows }

/-- Mode behind a row that ends with a character. -/
def modeAfter (c : Char) : Mode :=
  if c == '\r' then .afterReturn else .rowStart

def stepPlain (delimiter : Char) (r : Reading) (c : Char) : Except CellTooLong Reading :=
  if c == '\r' || c == '\n' then .ok ((r.endCell .cellStart).endRow (modeAfter c))
  else if c == delimiter then .ok (r.endCell .cellStart)
  else r.add c .inCell

/-- A character at the start of a cell. -/
def stepStart (delimiter : Char) (r : Reading) (c : Char) : Except CellTooLong Reading :=
  if c == '"' then .ok { r with mode := .inQuotes } else r.stepPlain delimiter c

/-- A character at the start of a row. -/
def stepRow (delimiter : Char) (r : Reading) (c : Char) : Except CellTooLong Reading :=
  if c == '\r' || c == '\n' then .ok (r.endRow (modeAfter c)) else r.stepStart delimiter c

def step (delimiter : Char) (r : Reading) (c : Char) : Except CellTooLong Reading :=
  match r.mode with
  | .rowStart => r.stepRow delimiter c
  | .afterReturn =>
      if c == '\n' then .ok { r with mode := .rowStart } else r.stepRow delimiter c
  | .cellStart => r.stepStart delimiter c
  | .inCell => r.stepPlain delimiter c
  | .inQuotes =>
      if c == '"' then .ok { r with mode := .afterQuote } else r.add c .inQuotes
  | .afterQuote => if c == '"' then r.add c .inQuotes else r.stepPlain delimiter c

/-- The rows when the text ends here. -/
def finish (r : Reading) : List (List String) :=
  match r.mode with
  | .rowStart | .afterReturn => r.rows.reverse
  | _ => ((r.endCell .cellStart).endRow .rowStart).rows.reverse

end Reading

/-- The rows of a text. -/
def read (delimiter : Char) (cs : List Char) : Except CellTooLong (List (List String)) :=
  (cs.foldlM (Reading.step delimiter) {}).map Reading.finish

end Delimited
end Roster
