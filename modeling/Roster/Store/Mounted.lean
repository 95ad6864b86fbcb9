import Roster.Store.Opening

/-!
# Stores of any backend

Whatever its backend, a store together with the tree that holds its records answers the requests
that every store answers.
-/

namespace Roster

/-- A store of any backend. -/
inductive Store where
  | sheet (s : Sheet)
  | documents (s : Documents)
  | table (s : TableStore)
  deriving DecidableEq, Repr

namespace Store

def backend : Store → Backend
  | .sheet _ => .file
  | .documents _ => .yaml
  | .table _ => .database

def attach (backend : Backend) (state : Entries) (tree : Tree) : Except Fault Store :=
  match backend with
  | .database => (TableStore.attach state tree).map .table
  | .file => (Sheet.attach state tree).map .sheet
  | .yaml => (Documents.attach state tree).map .documents

/-- Close a store. Only a table is held open between requests. -/
def close : Store → Store
  | .table s => .table { s with closed := true }
  | s => s

/-- Add the record of a new user. -/
def insert : Store → Tree → Moment → String → Record → Except Failure Tree
  | .sheet s => s.insert
  | .documents s => s.insert
  | .table s => s.insert

def fetch : Store → Tree → String → Except Failure Record
  | .sheet s => s.fetch
  | .documents s => s.fetch
  | .table s => s.fetch

def update : Store → Tree → Moment → String → Record → Except Failure Tree
  | .sheet s => s.update
  | .documents s => s.update
  | .table s => s.update

/-- Take the record of a user away. -/
def remove : Store → Tree → String → Except Failure Tree
  | .sheet s => s.remove
  | .documents s => s.remove
  | .table s => s.remove

def list : Store → Tree → Filter → Except Failure (List Record)
  | .sheet s => s.list
  | .documents s => s.list
  | .table s => s.list

end Store

/-! ## Stores on their storage -/

/-- A store together with the tree that holds its records. -/
structure Mounted (α : Type) where
  store : α
  tree : Tree

instance : RecordStore (Mounted Sheet) where
  insert m now id record := (m.store.insert m.tree now id record).map ({ m with tree := · })
  fetch m id := m.store.fetch m.tree id
  update m now id changes := (m.store.update m.tree now id changes).map ({ m with tree := · })
  remove m id := (m.store.remove m.tree id).map ({ m with tree := · })
  list m filter := m.store.list m.tree filter

instance : RecordStore (Mounted Documents) where
  insert m now id record := (m.store.insert m.tree now id record).map ({ m with tree := · })
  fetch m id := m.store.fetch m.tree id
  update m now id changes := (m.store.update m.tree now id changes).map ({ m with tree := · })
  remove m id := (m.store.remove m.tree id).map ({ m with tree := · })
  list m filter := m.store.list m.tree filter

instance : RecordStore (Mounted TableStore) where
  insert m now id record := (m.store.insert m.tree now id record).map ({ m with tree := · })
  fetch m id := m.store.fetch m.tree id
  update m now id changes := (m.store.update m.tree now id changes).map ({ m with tree := · })
  remove m id := (m.store.remove m.tree id).map ({ m with tree := · })
  list m filter := m.store.list m.tree filter

instance : RecordStore (Mounted Store) where
  insert m now id record := (m.store.insert m.tree now id record).map ({ m with tree := · })
  fetch m id := m.store.fetch m.tree id
  update m now id changes := (m.store.update m.tree now id changes).map ({ m with tree := · })
  remove m id := (m.store.remove m.tree id).map ({ m with tree := · })
  list m filter := m.store.list m.tree filter

end Roster
