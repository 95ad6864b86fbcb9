/-!
# Writing delimited files

Cells are parted by tabs or by commas, rows end with a carriage return and a line feed.  A cell is
quoted when it holds the delimiter, a quote or part of a line end, and a row of one empty cell is
written with its quotes.
-/

namespace Roster

/-- How cells are parted. -/
inductive SheetFormat where
  | tsv
  | csv
  deriving DecidableEq, Repr

namespace SheetFormat

def all : List SheetFormat := [.tsv, .csv]

def name : SheetFormat → String
  | .tsv => "tsv"
  | .csv => "csv"

def ofName? (name : String) : Option SheetFormat :=
  all.find? (·.name == name)

def delimiter : SheetFormat → Char
  | .tsv => '\t'
  | .csv => ','

/-- What to say of a name that is none of a format. -/
def invalidMessage (name : String) : String :=
  "Invalid file_format: '" ++ name ++ "' (must be 'csv' or 'tsv')"

/-- A format is found by its own name. -/
@[simp] theorem ofName?_name (format : SheetFormat) : ofName? format.name = some format := by
  cases format <;> decide

end SheetFormat

namespace Delimited

/-- A character that cannot stand in a cell without quotes. -/
def needsQuotes (delimiter c : Char) : Bool :=
  c == delimiter || c == '"' || c == '\r' || c == '\n'

/-- A quote inside quotes is written twice. -/
def escapeQuote (c : Char) : List Char :=
  if c == '"' then ['"', '"'] else [c]

def quoteCell (cell : List Char) : List Char :=
  '"' :: cell.flatMap escapeQuote ++ ['"']

def writeCell (delimiter : Char) (cell : List Char) : List Char :=
  if cell.any (needsQuotes delimiter) then quoteCell cell else cell

def writeCells (delimiter : Char) : List String → List Char
  | [] => []
  | [cell] => writeCell delimiter cell.toList
  | cell :: rest => writeCell delimiter cell.toList ++ delimiter :: writeCells delimiter rest

def writeRow (delimiter : Char) (cells : List String) : List Char :=
  (if cells == [""] then ['"', '"'] else writeCells delimiter cells) ++ ['\r', '\n']

def writeRows (delimiter : Char) (rows : List (List String)) : List Char :=
  rows.flatMap (writeRow delimiter)

end Delimited
end Roster
