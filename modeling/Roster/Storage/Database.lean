/-!
# Tables

A database is a list of tables, a table its columns and rows.  Names are told apart without regard
to the case of ASCII letters.
-/

namespace Roster

/-- A column of a table. -/
structure Column where
  name : String
  required : Bool := false
  unique : Bool := false
  deriving DecidableEq, Repr

/-- A row: the values of the columns in order, `none` for no value. -/
abbrev Row := List (Option String)

/-- A table with its rows in order of insertion. -/
structure Table where
  columns : List Column
  rows : List Row := []
  deriving DecidableEq, Repr

/-- Tables by name. -/
structure Database where
  tables : List (String × Table) := []
  deriving DecidableEq, Repr

/-- Names are the same apart from the case of ASCII letters. -/
def sameName (a b : String) : Bool :=
  a.toList.map Char.toLower == b.toList.map Char.toLower

namespace Table

def columnNames (t : Table) : List String :=
  t.columns.map Column.name

def indexOf? (t : Table) (name : String) : Option Nat :=
  t.columns.findIdx? (sameName name ·.name)

/-- Value of a column in a row; `none` as well when there is no such column. -/
def value (t : Table) (row : Row) (name : String) : Option String :=
  (t.indexOf? name).bind fun i => (row[i]?).join

def record (t : Table) (row : Row) : List (String × String) :=
  (t.columnNames.zip row).map fun (name, value) => (name, value.getD "")

end Table

namespace Database

/-- The table of a name, whatever its case. -/
def table? (db : Database) (name : String) : Option Table :=
  (db.tables.find? fun t => sameName t.1 name).map Prod.snd

/-- Names of the tables as they were written. -/
def tableNames (db : Database) : List String :=
  db.tables.map Prod.fst

def update (db : Database) (name : String) (f : Table → Table) : Database :=
  ⟨db.tables.map fun t => if sameName t.1 name then (t.1, f t.2) else t⟩

def add (db : Database) (name : String) (t : Table) : Database :=
  ⟨db.tables ++ [(name, t)]⟩

def drop (db : Database) (name : String) : Database :=
  ⟨db.tables.filter fun t => !sameName t.1 name⟩

def rename (db : Database) (old new : String) : Database :=
  ⟨db.tables.map fun t => if sameName t.1 old then (new, t.2) else t⟩

end Database
end Roster
