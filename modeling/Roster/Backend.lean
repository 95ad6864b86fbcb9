/-!
# Backends

Records are kept in a table of a database, in one delimited file, or in one YAML file each.
-/

namespace Roster

/-- Where records are kept. -/
inductive Backend where
  | database
  | file
  | yaml
  deriving DecidableEq, Repr

namespace Backend

def all : List Backend := [.database, .file, .yaml]

def name : Backend → String
  | .database => "database"
  | .file => "file"
  | .yaml => "yaml"

def ofName? (name : String) : Option Backend :=
  all.find? (·.name == name)

/-- The kind of store that a backend has. -/
def storeName : Backend → String
  | .database => "DatabaseStore"
  | .file => "FlatFileStore"
  | .yaml => "DocumentStore"

/-- A backend is found by its own name. -/
@[simp] theorem ofName?_name (backend : Backend) : ofName? backend.name = some backend := by
  cases backend <;> decide

end Backend
end Roster
