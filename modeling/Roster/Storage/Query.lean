import Roster.Filter.Clause
import Roster.Storage.Database
import Roster.Text.Quoted
import Roster.Text.Word

/-!
# Queries on databases

Statements make tables, add, change, find and take away rows.  A statement is checked before it is
carried out: the names that it mentions first, then what the table asks of its rows.
-/

namespace Roster

/-- Why a statement is refused. -/
inductive QueryFault where
  /-- The file holds something else. -/
  | notDatabase
  | cannotOpen
  /-- The file is gone; what is still known of it can only be read. -/
  | readOnly
  | noTable (table : String)
  | noColumn (column : String)
  | noColumnOf (table column : String)
  | noColumns
  | duplicateColumn (column : String)
  /-- A name contains what is taken for a parameter without a value. -/
  | unboundParameter (parameter : String)
  | missingValue (table column : String)
  | duplicateValue (table column : String)
  | longPattern
  deriving DecidableEq, Repr

namespace QueryFault

def reason : QueryFault → String
  | .notDatabase => "file is not a database"
  | .cannotOpen => "unable to open database file"
  | .readOnly => "attempt to write a readonly database"
  | .noTable table => "no such table: " ++ table
  | .noColumn column => "no such column: " ++ column
  | .noColumnOf table column => "table " ++ table ++ " has no column named " ++ column
  | .noColumns => "near \")\": syntax error"
  | .duplicateColumn column => "duplicate column name: " ++ column
  | .unboundParameter parameter =>
      "A value is required for bind parameter " ++ Text.quoted parameter
  | .missingValue table column => "NOT NULL constraint failed: " ++ table ++ "." ++ column
  | .duplicateValue table column => "UNIQUE constraint failed: " ++ table ++ "." ++ column
  | .longPattern => "LIKE or GLOB pattern too complex"

/-- The table does not take the row as it is. -/
def isIntegrity : QueryFault → Bool
  | .missingValue .. | .duplicateValue .. => true
  | _ => false

/-- Class of a fault, in front of its wording. -/
def className : QueryFault → String
  | .notDatabase => "(sqlite3.DatabaseError) "
  | .unboundParameter _ => "(sqlalchemy.exc.InvalidRequestError) "
  | .missingValue .. | .duplicateValue .. => "(sqlite3.IntegrityError) "
  | _ => "(sqlite3.OperationalError) "

def message (fault : QueryFault) : String :=
  fault.className ++ fault.reason

end QueryFault

/-! ## Parameters inside names -/

namespace ColumnName

def isParameterChar (c : Char) : Bool :=
  Text.isWord c || c == '$'

/-- Characters that take the meaning from a colon behind them. -/
def shieldsColon (c : Char) : Bool :=
  c == ':' || c == '\\' || isParameterChar c

/-- The first parameter behind a character: a colon and the characters behind it, unless another
colon follows. -/
def parameterAfter : (previous : Char) → List Char → Option String
  | _, [] => none
  | previous, c :: rest =>
      let name := rest.takeWhile isParameterChar
      if c == ':' && !shieldsColon previous && !name.isEmpty
          && (rest.drop name.length).head? != some ':' then
        some (String.ofList name)
      else parameterAfter c rest

def parameter? (name : String) : Option String :=
  parameterAfter '"' name.toList

/-- The name that is meant: a backslash in front of a colon does not count. -/
def unshield : List Char → List Char
  | [] => []
  | c :: rest =>
      if c == '\\' && rest.head? == some ':' then unshield rest else c :: unshield rest

/-- Names without parameters. -/
def check (names : List String) : Except QueryFault Unit :=
  match names.findSome? parameter? with
  | some parameter => .error (.unboundParameter parameter)
  | none => .ok ()

end ColumnName

/-! ## Statements -/

namespace Database

/-- The table of a name, which must be there. -/
def table (db : Database) (name : String) : Except QueryFault Table :=
  (db.table? name).elim (.error (.noTable name)) .ok

/-- First name that stands again behind itself, as it stands there. -/
def firstRepeated : List String → Option String
  | names => go [] names
where
  /-- Names gone by come first. -/
  go (seen : List String) : List String → Option String
    | [] => none
    | name :: rest => if seen.any (sameName name) then some name else go (name :: seen) rest

def create (db : Database) (name : String) (columns : List Column) : Except QueryFault Database := do
  ColumnName.check (columns.map Column.name)
  if columns.isEmpty then .error .noColumns
  else
    let columns := columns.map fun c =>
      { c with name := String.ofList (ColumnName.unshield c.name.toList) }
    match firstRepeated (columns.map Column.name) with
    | some repeated => .error (.duplicateColumn repeated)
    | none => .ok (db.add name { columns })

/-- The row that cells make, the first of a column counting. -/
def rowOf (t : Table) (cells : List (String × String)) : Row :=
  t.columns.map fun column => (cells.find? fun cell => sameName cell.1 column.name).map Prod.snd

/-- The first column that must have a value and has none. -/
def missingColumn? (t : Table) (row : Row) : Option String :=
  ((t.columns.zip row).find? fun (column, value) => column.required && value.isNone).map
    (·.1.name)

/-- The first column that must have different values and repeats one. -/
def repeatedColumn? (t : Table) (row : Row) : Option String :=
  (((t.columns.zip row).zipIdx).find? fun ((column, value), i) =>
    column.unique && value.isSome && t.rows.any fun other => (other[i]?).join == value).map
      (·.1.1.name)

def insert (db : Database) (name : String) (cells : List (String × String)) :
    Except QueryFault Database := do
  ColumnName.check (cells.map Prod.fst)
  let t ← db.table name
  match (cells.map Prod.fst).find? fun column => (t.indexOf? column).isNone with
  | some column => .error (.noColumnOf name column)
  | none =>
      let row := rowOf t cells
      -- a row with both faults is refused for the missing value
      match missingColumn? t row, repeatedColumn? t row with
      | some column, _ => .error (.missingValue name column)
      | none, some column => .error (.duplicateValue name column)
      | none, none => .ok (db.update name fun t => { t with rows := t.rows ++ [row] })

/-- A column that a condition names without quotes has to be there. -/
def requireColumn (t : Table) (column : String) : Except QueryFault Unit :=
  if (t.indexOf? column).isSome then .ok () else .error (.noColumn column)

/-- Name of the column that rows are found by. -/
def idColumn : String := "user_id"

def hasId (t : Table) (id : String) (row : Row) : Bool :=
  t.value row idColumn == some id

def selectById (db : Database) (name id : String) :
    Except QueryFault (Option (List (String × String))) := do
  let t ← db.table name
  requireColumn t idColumn
  .ok ((t.rows.find? (hasId t id)).map t.record)

/-- Change cells of a row, the last of a column counting. -/
def changeRow (t : Table) (cells : List (String × String)) (row : Row) : Row :=
  (t.columns.zip row).map fun (column, value) =>
    match (cells.reverse.find? fun cell => sameName cell.1 column.name) with
    | some cell => some cell.2
    | none => value

/-- Change cells of the rows with an id; says how many there are. -/
def updateById (db : Database) (name id : String) (cells : List (String × String)) :
    Except QueryFault (Nat × Database) := do
  ColumnName.check (cells.map Prod.fst)
  let t ← db.table name
  match (cells.map Prod.fst).find? fun column => (t.indexOf? column).isNone with
  | some column => .error (.noColumn column)
  | none => do
      requireColumn t idColumn
      .ok (t.rows.countP (hasId t id), db.update name fun t =>
        { t with rows := t.rows.map fun row => if hasId t id row then changeRow t cells row else row })

/-- Take the rows with an id away; says how many there were. -/
def deleteById (db : Database) (name id : String) : Except QueryFault (Nat × Database) := do
  let t ← db.table name
  requireColumn t idColumn
  .ok (t.rows.countP (hasId t id), db.update name fun t =>
    { t with rows := t.rows.filter (!hasId t id ·) })

/-- Most octets that a pattern may have. -/
def maxPattern : Nat := 50000

/-- A clause selects a row. Terms are looked at from left to right as far as needed, and a pattern
that is looked at must not be too long. -/
def select (clause : Clause) (row : String → Option String) : Except QueryFault Bool :=
  if clause.groups.isEmpty then .ok true
  else
    clause.groups.anyM fun group => group.allM fun term =>
      let parameter := (clause.parameters[term.parameter]?).getD ""
      if term.comparison.isPattern && maxPattern < parameter.utf8ByteSize then
        .error .longPattern
      else .ok (Clause.termHolds clause.parameters row term)

/-- What a clause sees of a row. A quoted name that is no column is taken for a text. -/
def cellOf (t : Table) (row : Row) (column : String) : Option String :=
  match t.indexOf? column with
  | some i => (row[i]?).join
  | none => some column

/-- A term looks at no column of a table, so that it holds of all rows or of none. -/
def isFixed (t : Table) (term : Term) : Bool :=
  (t.indexOf? term.column).isNone

/-- A term looks at a column that is kept in order. -/
def isOrdered (t : Table) (term : Term) : Bool :=
  (t.columns.find? fun column => sameName term.column column.name).any Column.unique

/-- A clause in two: what is looked at once, before any row, and what is looked at row by row.  Rows
are read by their ids, so the terms of a single group that need no more come first. -/
def plan (t : Table) (clause : Clause) : Clause × Clause :=
  let nothing : Clause := { clause with groups := [] }
  match clause.groups with
  | [group] =>
      let (fixed, others) := group.partition (isFixed t)
      let (ordered, others) := others.partition (isOrdered t)
      ({ clause with groups := [fixed] }, { clause with groups := [ordered ++ others] })
  -- a choice between groups is not taken apart
  | groups => if groups.all (·.all (isFixed t)) then (clause, nothing) else (nothing, clause)

/-- Ids in order; no id comes first. -/
def idLe : Option String → Option String → Bool
  | none, _ => true
  | some _, none => false
  | some a, some b => a ≤ b

/-- The rows that a clause selects, in the order of their ids. -/
def selectWhere (db : Database) (name : String) (clause : Clause) :
    Except QueryFault (List (List (String × String))) := do
  let t ← db.table name
  requireColumn t idColumn
  let (once, eachRow) := plan t clause
  -- fixed terms look at no cell, so any row will do for them
  if ← select once (cellOf t []) then
    let ordered := t.rows.mergeSort fun a b => idLe (t.value a idColumn) (t.value b idColumn)
    let selected ← ordered.filterM fun row => select eachRow (cellOf t row)
    .ok (selected.map t.record)
  else .ok []

end Database
end Roster
