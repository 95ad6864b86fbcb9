import Roster.Field.Kind
import Roster.Schema.Basic
import Roster.Store.Documents
import Roster.Store.Sheet
import Roster.Store.TableStore
import Roster.Text.Case

/-!
# Preparing storage

Storage is prepared for a schema before a store is opened on it.  Records that are there already
are moved to an archive first, never lost.  A step that was taken stays taken when a later one
fails.
-/

namespace Roster

/-- What preparing storage leaves behind. -/
structure Prepared where
  /-- What is needed to open a store on the storage. -/
  state : Entries
  /-- Where records that were there before are kept now. -/
  archivedTo : Option String := none
  deriving DecidableEq, Repr

/-- Preparation may fail; the tree as it is by then remains. -/
abbrev Preparation := ExceptT Failure (StateM Tree)

namespace Preparation

/-- A step that changes the tree as a whole or not at all. -/
def ofChange {α : Type} (change : Tree → Except Failure (α × Tree)) : Preparation α := do
  let (a, tree) ← change (← get)
  set tree
  return a

end Preparation

/-! ## One file -/

namespace Sheet

/-- The file is there and holds data. -/
def isFilled (s : Sheet) (tree : Tree) : Except Failure Bool :=
  if tree.isFile s.path then (s.readOr tree .cannotPrepareSheet).map SheetContent.hasData
  else .ok false

/-- Move the file to an archive if it holds data; says where to. -/
def archive (s : Sheet) (now : Moment) (tree : Tree) : Except Failure (Option Path × Tree) := do
  if ← s.isFilled tree then
    let target := s.directory.child
      (Archive.name stem ("." ++ s.format.name) now (tree.names s.directory))
    return (some target, tree.rename s.path target)
  else return (none, tree)

/-- What is needed to open the file again. -/
def state (s : Sheet) : Entries :=
  [("storage_dir", .str s.directory.text), ("file_format", .str s.format.name),
    ("file_name", .str (fileName s.format)), ("file_full_path", .str s.path.text)]

/-- Put a file without records in place. -/
def prepare (s : Sheet) (fields : List String) (now : Moment) (tree : Tree) :
    Except Failure (Prepared × Tree) := do
  let (archived, tree) ← s.archive now tree
  let tree ← s.writeOr tree ⟨fields, []⟩ .cannotPrepareSheet
  return ({ state := s.state, archivedTo := archived.map Path.text }, tree)

end Sheet

/-! ## Documents -/

namespace Documents

/-- Some entry of a directory is a document. -/
def hasDocuments (directory : Path) (tree : Tree) : Bool :=
  tree.isDirectory directory && (tree.names directory).any isDocumentName

/-- Move the directory to an archive if it holds documents; says where to. -/
def archive (parent : Path) (now : Moment) (tree : Tree) : Option Path × Tree :=
  let directory := parent.child directoryName
  if hasDocuments directory tree then
    let target := parent.child (Archive.name directoryName "" now (tree.names parent))
    (some target, tree.rename directory target)
  else (none, tree)

/-- Put a directory without documents in place. -/
def prepare (parent : Path) (fields : List String) (now : Moment) (tree : Tree) :
    Except Failure (Prepared × Tree) := do
  let directory := parent.child directoryName
  let (archived, tree) := archive parent now tree
  let tree ← (tree.makeAll directory).mapError fun fault =>
    .refused (.cannotPrepareDocuments (.file fault))
  return ({
    state := [("storage_dir", .str parent.text), ("records_dir", .str directory.text),
      ("fields", .list (fields.map .str))]
    archivedTo := archived.map Path.text }, tree)

end Documents

/-! ## A table -/

namespace Database

/-- Make room for a table: one with rows is given an archive's name, one without is dropped. -/
def clear (db : Database) (name : String) (now : Moment) : Option String × Database :=
  if db.tableNames.contains name then
    if (db.table? name).any (·.rows.isEmpty) then (none, db.drop name)
    else
      let target := Archive.name name "" now db.tableNames
      (some target, db.rename name target)
  else (none, db)

end Database

namespace TableStore

/-- The database at a path, with its number if it has one already; an empty file holds a database
without tables, and one is made where nothing is. -/
def reach (path : Path) (tree : Tree) : Except QueryFault ((Option Nat × Database) × Tree) :=
  match tree.find? path.key with
  | some (.database serial db) => .ok ((some serial, db), tree)
  | some (.file octets) => if octets.isEmpty then .ok ((none, {}), tree) else .error .notDatabase
  | some .directory => .error .cannotOpen
  | none =>
      match tree.write path ByteArray.empty with
      | .ok tree => .ok ((none, {}), tree)
      | .error _ => .error .cannotOpen

/-- Keep a database under its number, or under a new one. -/
def keep (path : Path) (serial? : Option Nat) (db : Database) (tree : Tree) : Tree :=
  match serial? with
  | some serial => tree.put path.key (.database serial db)
  | none =>
      { tree.put path.key (.database tree.nextSerial db) with nextSerial := tree.nextSerial + 1 }

def column (schema : Schema) (name : String) : Except ValueFault Column := do
  match schema.get? name with
  | some d =>
      let _ ← FieldKind.find? d.kind
      return { name, required := d.required, unique := name == Record.idField }
  | none => return { name, unique := name == Record.idField }

def columnsOf (schema : Schema) : Except Failure (List Column) :=
  (schema.fields.mapM (column schema)).mapError fun fault => .broken (.value fault)

/-- What is needed to open the table again. -/
def stateIn (directory : Path) : Entries :=
  [("storage_dir", .str directory.text), ("db_file", .str fileName),
    ("db_full_path", .str (directory.child fileName).text), ("table_name", .str tableName)]

/-- Put a table without rows in place. Making room for it is a step of its own. -/
def prepare (directory : Path) (schema : Schema) (now : Moment) : Preparation Prepared := do
  let path := directory.child fileName
  let refuse (fault : QueryFault) : Failure := .refused (.cannotPrepareTable path.text fault)
  let (serial?, db) ← Preparation.ofChange fun tree => (reach path tree).mapError refuse
  let (archivedTo, db) := db.clear tableName now
  -- kept before the columns are looked at, so an archived table stays archived if they are refused
  modify fun tree => if serial?.isSome then keep path serial? db tree else tree
  let columns ← columnsOf schema
  let db ← ((db.create tableName columns).mapError refuse : Except Failure Database)
  modify (keep path serial? db)
  return { state := stateIn directory, archivedTo }

end TableStore

/-! ## Any storage -/

/-- Name of the format that options ask for. -/
def formatOption (options : Entries) : String :=
  match (options.lookup "file_format").filter Value.isGiven with
  | some v => Text.lower v.text
  | none => SheetFormat.tsv.name

/-- Prepare the storage of a backend in a directory that is there. -/
def Backend.prepare (backend : Backend) (directory : Path) (schema : Schema) (options : Entries)
    (now : Moment) : Preparation Prepared :=
  match backend with
  | .database => TableStore.prepare directory schema now
  | .yaml => .ofChange (Documents.prepare directory schema.fields now)
  | .file =>
      let name := formatOption options
      match SheetFormat.ofName? name with
      | some format => .ofChange (Sheet.prepare ⟨directory, format⟩ schema.fields now)
      | none => throw (.refused (.invalidFormat name))

namespace Backend

/-- What to say when storage is prepared. -/
def preparedMessage : Backend → String
  | .database => "Database backend configured successfully"
  | .file => "File backend configured successfully"
  | .yaml => "YAML backend configured successfully"

end Backend
end Roster
