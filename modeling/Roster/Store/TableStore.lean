import Roster.Storage.Query
import Roster.Storage.Tree
import Roster.Store.Basic
import Roster.Text.Case
import Roster.Text.Segments

/-!
# Records in a table

A store of this kind is attached to the file of a database as it was when the store was opened.
When that file is taken away, what it held can still be read but no longer changed.
-/

namespace Roster

/-- A table of a database, with the columns that it had when it was opened. -/
structure TableStore where
  path : Path
  /-- The database that was under the path. -/
  serial : Nat
  table : String
  columns : List String
  closed : Bool := false
  deriving DecidableEq, Repr

namespace TableStore

/-- Name of the file of the database. -/
def fileName : String := "users.db"

def tableName : String := "users"

/-- What a store finds at its path. -/
inductive Access where
  | live (serial : Nat) (db : Database)
  /-- The file is gone; this was its last content. -/
  | orphan (db : Database)
  | unusable (fault : QueryFault)

/-- What is at the path of a store. -/
def access (s : TableStore) (tree : Tree) : Access :=
  match tree.removed.lookup s.serial with
  | some db => .orphan db
  | none =>
      match tree.find? s.path.key with
      | some (.database serial db) => .live serial db
      | some (.file octets) => if octets.isEmpty then .live s.serial {} else .unusable .notDatabase
      | _ => .unusable .cannotOpen

def query {α : Type} (s : TableStore) (tree : Tree) (ask : Database → Except QueryFault α)
    (refusal : QueryFault → Refusal) : Except Failure α :=
  if s.closed then .error (.broken .closed)
  else
    (match s.access tree with
    | .live _ db => ask db
    | .orphan db => ask db
    | .unusable fault => .error fault).mapError fun fault => .refused (refusal fault)

def change {α : Type} (s : TableStore) (tree : Tree)
    (ask : Database → Except QueryFault (α × Database)) (refusal : QueryFault → Refusal) :
    Except Failure (α × Tree) :=
  if s.closed then .error (.broken .closed)
  else
    (match s.access tree with
    | .live serial db => do
        let (a, db) ← ask db
        .ok (a, tree.put s.path.key (.database serial db))
    | .orphan db =>
        match ask db with
        | .error fault => .error (if fault.isIntegrity then .readOnly else fault)
        | .ok _ => .error .readOnly
    | .unusable fault => .error fault).mapError fun fault => .refused (refusal fault)

/-- A fault has something to do with values that must be different when its reason says so, in
letters of any case. Column names count too. -/
def speaksOfUnique (fault : QueryFault) : Bool :=
  Text.occursIn "UNIQUE".toList (fault.reason.toList.map Text.capital)

/-- Why a record is not added: a value that must be different is there already, or another
reason. -/
def insertRefusal (id : String) (fault : QueryFault) : Refusal :=
  if fault.isIntegrity then
    if speaksOfUnique fault then .alreadyExists id else .cannotAdd fault
  else .cannotCreate (.query fault)

/-- Add a row for a new user. -/
def insert (s : TableStore) (tree : Tree) (now : Moment) (id : String) (record : Record) :
    Except Failure Tree := do
  RecordStore.checkNew id record
  let cells := record.stampNew s.columns now id
  let ((), tree) ← s.change tree (fun db => (db.insert s.table cells).map fun db => ((), db))
    (insertRefusal id)
  .ok tree

def fetch (s : TableStore) (tree : Tree) (id : String) : Except Failure Record := do
  match ← s.query tree (·.selectById s.table id) fun fault => .cannotFetch id (.query fault) with
  | some row => .ok (Entries.setAll [] row)
  | none => .error (.refused (.notFound id))

/-- Change cells of the row of a user. -/
def update (s : TableStore) (tree : Tree) (now : Moment) (id : String) (changes : Record) :
    Except Failure Tree := do
  let cells := changes.stampChanges s.columns now
  let (count, tree) ← s.change tree (·.updateById s.table id cells) fun fault =>
    .cannotUpdate id (.query fault)
  if count == 0 then .error (.refused (.notFound id)) else .ok tree

/-- Take the row of a user away. -/
def remove (s : TableStore) (tree : Tree) (id : String) : Except Failure Tree := do
  let (count, tree) ← s.change tree (·.deleteById s.table id) fun fault =>
    .cannotDelete id (.query fault)
  if count == 0 then .error (.refused (.notFound id)) else .ok tree

def list (s : TableStore) (tree : Tree) (filter : Filter) : Except Failure (List Record) := do
  let rows ← s.query tree (·.selectWhere s.table (.ofGroups filter.groups)) fun fault =>
    .cannotList (.query fault)
  .ok (rows.map (Entries.setAll []))

end TableStore
end Roster
