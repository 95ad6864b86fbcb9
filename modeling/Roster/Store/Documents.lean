import Roster.Check.Grammar
import Roster.Storage.Archive
import Roster.Storage.Tree
import Roster.Store.Basic
import Roster.Yaml.Document
import Roster.Yaml.Printer

/-!
# Records in documents

Each record is a YAML document of its own, in a file named after its user.  An id that is no login
name names no file.
-/

namespace Roster

/-- A directory of documents. -/
structure Documents where
  directory : Path
  /-- The fields that new records and changes may have. -/
  fields : List String
  deriving DecidableEq, Repr

namespace Documents

def directoryName : String := "users"

def ending : String := ".yaml"

/-- The entry of a name is a document. -/
def isDocumentName (name : String) : Bool :=
  ending.toList.reverse.isPrefixOf name.toList.reverse

/-- Path of the document of a user. -/
def path? (s : Documents) (id : String) : Option Path :=
  if isUserId id then some (s.directory.child (id ++ ending)) else none

/-- Text of the document of a record. -/
def documentText (record : Record) : String :=
  Yaml.render (.map (record.map fun (field, text) => (field, .str text)))

def load (tree : Tree) (path : Path) : Except (Except Fault Cause) Record := do
  let octets ← (tree.read path).mapError fun fault => .ok (.file fault)
  let texts ← (Yaml.readTexts octets).mapError fun fault =>
    if fault.isReported then .ok (.document path.text fault) else .error (.document fault)
  match texts with
  | some record => .ok record
  | none => .error (.ok (.noRecord path.name))

/-- Read the document of a user, refusing for a reason of its own. -/
def loadOr (s : Documents) (tree : Tree) (id : String) (refusal : Cause → Refusal) :
    Except Failure (Path × Record) :=
  match s.path? id with
  | none => .error (.refused (.notFound id))
  | some path =>
      if tree.isFile path then
        match load tree path with
        | .ok record => .ok (path, record)
        | .error (.ok cause) => .error (.refused (refusal cause))
        | .error (.error fault) => .error (.broken fault)
      else .error (.refused (.notFound id))

/-- Make the document of a new user. -/
def insert (s : Documents) (tree : Tree) (now : Moment) (id : String) (record : Record) :
    Except Failure Tree := do
  RecordStore.checkNew id record
  match s.path? id with
  | none => .error (.refused (.invalidId id))
  | some path =>
      let stamped := record.stampNew s.fields now id
      (tree.create path (documentText stamped).toUTF8).mapError fun fault =>
        match fault.reason with
        | .exists_ => .refused (.alreadyExists id)
        | _ => .refused (.cannotCreate (.file fault))

def fetch (s : Documents) (tree : Tree) (id : String) : Except Failure Record :=
  (s.loadOr tree id .cannotLoad).map Prod.snd

def update (s : Documents) (tree : Tree) (now : Moment) (id : String) (changes : Record) :
    Except Failure Tree := do
  let (path, record) ← s.loadOr tree id (.cannotUpdate id)
  let changed := Entries.setAll record (changes.stampChanges s.fields now)
  (tree.write path (documentText changed).toUTF8).mapError fun fault =>
    .refused (.cannotUpdate id (.file fault))

/-- Take the document of a user away. -/
def remove (s : Documents) (tree : Tree) (id : String) : Except Failure Tree :=
  match s.path? id with
  | none => .error (.refused (.notFound id))
  | some path =>
      if tree.isFile path then
        (tree.removeFile path).mapError fun fault => .refused (.cannotDeleteFile (.file fault))
      else .error (.refused (.notFound id))

def documentNames (directory : Path) (tree : Tree) : List String :=
  ((tree.names directory).filter isDocumentName).mergeSort fun a b => a ≤ b

/-- The records that can be read, in the order of their names. -/
def readable (directory : Path) (tree : Tree) : List String → Except Failure (List Record)
  | [] => .ok []
  | name :: rest =>
      match load tree (directory.child name) with
      | .ok record => (readable directory tree rest).map (record :: ·)
      | .error (.ok _) => readable directory tree rest
      | .error (.error fault) => .error (.broken fault)

/-- The records that a filter selects; documents that cannot be read are passed over. -/
def list (s : Documents) (tree : Tree) (filter : Filter) : Except Failure (List Record) := do
  let records ← readable s.directory tree (documentNames s.directory tree)
  .ok (Record.sortById (records.filter filter.selects))

end Documents
end Roster
