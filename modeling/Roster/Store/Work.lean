import Roster.Store.Mounted

/-!
# Stores at work

A store changes its storage in steps.  When a step fails, what the steps before it did remains.  So
a file that is written anew is written as a draft first, under a name of its own, and the draft is
taken away when anything goes wrong.
-/

namespace Roster

/-- Names for drafts in a directory: whatever names are taken, another one is chosen, which has the
marks of a draft in front and behind. -/
structure DraftNames (front behind : String) where
  choose : (taken : List String) → String
  isFree : ∀ taken, choose taken ∉ taken
  isDraft : ∀ taken, ∃ middle, choose taken = front ++ middle ++ behind

/-- What files are written with: an encoding, which may refuse a text, and names for drafts. -/
structure Equipment where
  encode : String → Except Fault ByteArray
  sheetDrafts : DraftNames ".users-" ".tmp"
  documentDrafts : DraftNames "." ".tmp"

/-- Move a file to the place of another, or to where nothing is; a directory does not give way. -/
def Tree.replace (t : Tree) (source target : Path) : Except FileFault Tree :=
  let refuse (reason : FileReason) : Except FileFault Tree :=
    .error ⟨reason, source.text, some target.text⟩
  match t.find? source.key with
  | none => refuse ((t.wayFault source.key).getD .missing)
  | some entry =>
      match t.find? target.key with
      | some .directory => refuse .isDirectory
      | some _ => .ok ((t.put target.key entry).erase source.key)
      | none =>
          match t.wayFault target.key with
          | some reason => refuse reason
          | none => .ok ((t.put target.key entry).erase source.key)

/-- Steps on a tree; the tree as it is when one fails remains. -/
abbrev Work := ExceptT Failure (StateM Tree)

namespace Work

/-- A step that changes the tree as a whole or fails. -/
def step (change : Tree → Except Failure Tree) : Work Unit := do
  let tree ← change (← get)
  set tree

/-- Write pieces of a text into a draft. -/
def fill (draft : Path) (refusal : FileFault → Failure) : List (Except Fault ByteArray) → Work Unit
  | [] => return
  | piece :: rest => do
      let octets ← piece.mapError Failure.broken
      step fun t => (t.append draft octets).mapError refusal
      fill draft refusal rest

/-- Take a draft away, if it is there. -/
def discard (draft : Path) : Work Unit :=
  modify fun t => if t.isFile draft then t.erase draft.key else t

/-- Write a file anew: fill a draft in a directory, then move it to the place of the file. -/
def rewrite {front behind : String} (names : DraftNames front behind) (directory path : Path)
    (pieces : List (Except Fault ByteArray)) (refusal : FileFault → Failure) : Work Unit := do
  let draft := directory.child (names.choose ((← get).names directory))
  step fun t => (t.create draft ByteArray.empty).mapError refusal
  tryCatch
    (do
      fill draft refusal pieces
      step fun t => (t.replace draft path).mapError refusal)
    fun failure => do
      discard draft
      throw failure

end Work

/-! ## One file -/

namespace Sheet

def piece (s : Sheet) (tools : Equipment) (cells : List String) : Except Fault ByteArray :=
  tools.encode (String.ofList (Delimited.writeRow s.format.delimiter cells))

/-- Write the file anew, row by row. -/
def rewriting (s : Sheet) (tools : Equipment) (content : SheetContent)
    (refusal : Cause → Refusal) : Work Unit := do
  let refuse (fault : FileFault) : Failure := .refused (refusal (.file fault))
  Work.step fun t => (t.makeAll s.directory).mapError refuse
  let rows := content.header :: content.rows.map (SheetContent.cellsOf content.header)
  Work.rewrite tools.sheetDrafts s.directory s.path (rows.map (s.piece tools)) refuse

/-- Add a record at the end of the file. -/
def inserting (s : Sheet) (tools : Equipment) (now : Moment) (id : String) (record : Record) :
    Work Unit := do
  RecordStore.checkNew id record
  let content ← s.readOr (← get) .cannotCreate
  let stamped := record.stampNew content.header now id
  if content.rows.any fun row => row.lookup Record.idField == some id then
    throw (.refused (.alreadyExists id))
  else
    let octets ← (s.piece tools (SheetContent.cellsOf content.header stamped)).mapError
      Failure.broken
    Work.step fun t => (t.append s.path octets).mapError fun fault =>
      .refused (.cannotCreate (.file fault))

/-- Change fields of the first record with an id. -/
def updating (s : Sheet) (tools : Equipment) (now : Moment) (id : String) (changes : Record) :
    Work Unit := do
  let content ← s.readOr (← get) (.cannotUpdate id)
  let changes := changes.stampChanges content.header now
  match changeFirst id changes content.rows with
  | some rows =>
      if id == "" then throw (.refused (.notFound id))
      else s.rewriting tools { content with rows } (.cannotUpdate id)
  | none => throw (.refused (.notFound id))

/-- Take all records with an id away. -/
def removing (s : Sheet) (tools : Equipment) (id : String) : Work Unit := do
  let content ← s.readOr (← get) (.cannotDelete id)
  let rows := content.rows.filter fun row => row.lookup Record.idField != some id
  if rows.length == content.rows.length || id == "" then throw (.refused (.notFound id))
  else s.rewriting tools { content with rows } (.cannotDelete id)

end Sheet

/-! ## Documents -/

namespace Documents

/-- Make the document of a new user: an empty file where nothing is, which is then filled.  The
text of a document escapes whatever has no encoding. -/
def inserting (s : Documents) (now : Moment) (id : String) (record : Record) : Work Unit := do
  RecordStore.checkNew id record
  match s.path? id with
  | none => throw (.refused (.invalidId id))
  | some path =>
      let stamped := record.stampNew s.fields now id
      Work.step fun t => (t.create path ByteArray.empty).mapError fun fault =>
        match fault.reason with
        | .exists_ => .refused (.alreadyExists id)
        | _ => .refused (.cannotCreate (.file fault))
      Work.step fun t => (t.append path (documentText stamped).toUTF8).mapError fun fault =>
        .refused (.cannotCreate (.file fault))

def updating (s : Documents) (tools : Equipment) (now : Moment) (id : String) (changes : Record) :
    Work Unit := do
  let (path, record) ← s.loadOr (← get) id (.cannotUpdate id)
  let changed := Entries.setAll record (changes.stampChanges s.fields now)
  Work.rewrite tools.documentDrafts s.directory path [.ok (documentText changed).toUTF8]
    fun fault => .refused (.cannotUpdate id (.file fault))

/-- Take the document of a user away. -/
def removing (s : Documents) (id : String) : Work Unit := do
  match s.path? id with
  | none => throw (.refused (.notFound id))
  | some path =>
      if (← get).isFile path then
        Work.step fun t => (t.removeFile path).mapError fun fault =>
          .refused (.cannotDeleteFile (.file fault))
      else throw (.refused (.notFound id))

end Documents

/-! ## A table -/

namespace TableStore

/-- Run a statement and keep what it did. -/
def commit {α : Type} (s : TableStore) (ask : Database → Except QueryFault (α × Database))
    (refusal : QueryFault → Refusal) : Work α := do
  let (a, tree) ← s.change (← get) ask refusal
  set tree
  return a

/-- Add a row for a new user. -/
def inserting (s : TableStore) (now : Moment) (id : String) (record : Record) : Work Unit := do
  RecordStore.checkNew id record
  let cells := record.stampNew s.columns now id
  s.commit (fun db => (db.insert s.table cells).map fun db => ((), db)) (insertRefusal id)

/-- Change cells of the row of a user; how many rows were changed is looked at afterwards. -/
def updating (s : TableStore) (now : Moment) (id : String) (changes : Record) : Work Unit := do
  let cells := changes.stampChanges s.columns now
  let count ← s.commit (·.updateById s.table id cells) fun fault => .cannotUpdate id (.query fault)
  if count == 0 then throw (.refused (.notFound id)) else return

/-- Take the row of a user away; how many rows there were is looked at afterwards. -/
def removing (s : TableStore) (id : String) : Work Unit := do
  let count ← s.commit (·.deleteById s.table id) fun fault => .cannotDelete id (.query fault)
  if count == 0 then throw (.refused (.notFound id)) else return

end TableStore

/-! ## Any store -/

/-- A change that a store is asked for. -/
inductive Write where
  | insert (now : Moment) (id : String) (record : Record)
  | update (now : Moment) (id : String) (changes : Record)
  | remove (id : String)
  deriving DecidableEq, Repr

namespace Store

def apply (store : Store) (tree : Tree) : Write → Except Failure Tree
  | .insert now id record => store.insert tree now id record
  | .update now id changes => store.update tree now id changes
  | .remove id => store.remove tree id

def applying (store : Store) (tools : Equipment) : Write → Work Unit
  | .insert now id record =>
      match store with
      | .sheet s => s.inserting tools now id record
      | .documents s => s.inserting now id record
      | .table s => s.inserting now id record
  | .update now id changes =>
      match store with
      | .sheet s => s.updating tools now id changes
      | .documents s => s.updating tools now id changes
      | .table s => s.updating now id changes
  | .remove id =>
      match store with
      | .sheet s => s.removing tools id
      | .documents s => s.removing id
      | .table s => s.removing id

end Store
end Roster
