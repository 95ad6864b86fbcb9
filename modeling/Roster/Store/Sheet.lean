import Roster.Delimited.Format
import Roster.Delimited.Reader
import Roster.Storage.Archive
import Roster.Storage.Tree
import Roster.Store.Basic
import Roster.Text.Blank
import Roster.Text.Utf8

/-!
# Records in one file

All records stand in one delimited file below a row with the names of the fields.  A new record is
added at the end; any other change writes the file anew.
-/

namespace Roster

/-- What a file holds: the names of the fields, and the records. -/
structure SheetContent where
  header : List String
  rows : List Record
  deriving DecidableEq, Repr

namespace SheetContent

/-- The record in the cells of a row, cells that are missing being empty. -/
def rowOf (header cells : List String) : Record :=
  Entries.setAll []
    (header.zip (cells ++ List.replicate (header.length - cells.length) ""))

/-- A row of blank cells holds no record. -/
def isBlankRow (cells : List String) : Bool :=
  cells.all fun cell => (Text.trim cell.toList).isEmpty

def ofCells : List (List String) → SheetContent
  | [] => ⟨[], []⟩
  | header :: rows => ⟨header, (rows.filter (!isBlankRow ·)).map (rowOf header)⟩

def cellsOf (header : List String) (record : Record) : List String :=
  header.map record.valueOf

def text (format : SheetFormat) (content : SheetContent) : String :=
  String.ofList (Delimited.writeRows format.delimiter
    (content.header :: content.rows.map (cellsOf content.header)))

/-- Some cell holds more than blanks. -/
def hasData (content : SheetContent) : Bool :=
  content.rows.any fun row => row.any fun cell => !(Text.trim cell.2.toList).isEmpty

end SheetContent

/-- A file with all records. -/
structure Sheet where
  directory : Path
  format : SheetFormat
  deriving DecidableEq, Repr

namespace Sheet

/-- Name of the file without its ending. -/
def stem : String := "users"

def fileName (format : SheetFormat) : String := stem ++ "." ++ format.name

/-- Path of the file. -/
def path (s : Sheet) : Path := s.directory.child (fileName s.format)

/-- Name under which a new content is written before it takes the place of the file. -/
def draftName : String := ".users-*.tmp"

def read (s : Sheet) (tree : Tree) : Except (Except Fault Cause) SheetContent := do
  let octets ← (tree.read s.path).mapError fun fault => .ok (.file fault)
  let text ← (Text.decodeUtf8 octets).mapError fun fault => .error (.undecodable fault)
  let cells ← (Delimited.read s.format.delimiter text.toList).mapError fun _ => .ok .cellTooLong
  .ok (.ofCells cells)

/-- Read the file, refusing for a reason of its own. -/
def readOr (s : Sheet) (tree : Tree) (refusal : Cause → Refusal) : Except Failure SheetContent :=
  (s.read tree).mapError fun
    | .error fault => .broken fault
    | .ok cause => .refused (refusal cause)

/-- Write the file anew. A directory in its place is not replaced. -/
def write (s : Sheet) (tree : Tree) (content : SheetContent) : Except FileFault Tree := do
  let tree ← tree.makeAll s.directory
  if tree.isDirectory s.path then
    .error ⟨.isDirectory, (s.directory.child draftName).text, some s.path.text⟩
  else tree.write s.path (content.text s.format).toUTF8

/-- Write the file anew, refusing for a reason of its own. -/
def writeOr (s : Sheet) (tree : Tree) (content : SheetContent) (refusal : Cause → Refusal) :
    Except Failure Tree :=
  (s.write tree content).mapError fun fault => .refused (refusal (.file fault))

/-- Add a record at the end of the file. -/
def insert (s : Sheet) (tree : Tree) (now : Moment) (id : String) (record : Record) :
    Except Failure Tree := do
  RecordStore.checkNew id record
  let content ← s.readOr tree .cannotCreate
  let stamped := record.stampNew content.header now id
  if content.rows.any fun row => row.lookup Record.idField == some id then
    .error (.refused (.alreadyExists id))
  else
    let line := Delimited.writeRow s.format.delimiter
      (SheetContent.cellsOf content.header stamped)
    (tree.append s.path (String.ofList line).toUTF8).mapError fun fault =>
      .refused (.cannotCreate (.file fault))

def fetch (s : Sheet) (tree : Tree) (id : String) : Except Failure Record := do
  if id == "" then .error (.refused (.notFound id))
  else
    let content ← s.readOr tree .cannotReadFile
    match content.rows.find? fun row => row.lookup Record.idField == some id with
    | some row => .ok row
    | none => .error (.refused (.notFound id))

/-- Change the first record with an id; `none` when there is none. -/
def changeFirst (id : String) (changes : Record) : List Record → Option (List Record)
  | [] => none
  | row :: rest =>
      if row.lookup Record.idField == some id then some (Entries.setAll row changes :: rest)
      else (changeFirst id changes rest).map (row :: ·)

/-- Change fields of the first record with an id. -/
def update (s : Sheet) (tree : Tree) (now : Moment) (id : String) (changes : Record) :
    Except Failure Tree := do
  let content ← s.readOr tree (.cannotUpdate id)
  let changes := changes.stampChanges content.header now
  match changeFirst id changes content.rows with
  | some rows =>
      if id == "" then .error (.refused (.notFound id))
      else s.writeOr tree { content with rows } (.cannotUpdate id)
  | none => .error (.refused (.notFound id))

/-- Take all records with an id away. -/
def remove (s : Sheet) (tree : Tree) (id : String) : Except Failure Tree := do
  let content ← s.readOr tree (.cannotDelete id)
  let rows := content.rows.filter fun row => row.lookup Record.idField != some id
  if rows.length == content.rows.length || id == "" then .error (.refused (.notFound id))
  else s.writeOr tree { content with rows } (.cannotDelete id)

/-- The records with an id that a filter selects. -/
def list (s : Sheet) (tree : Tree) (filter : Filter) : Except Failure (List Record) := do
  let content ← s.readOr tree .cannotReadFile
  .ok (Record.sortById (content.rows.filter fun row => row.id != "" && filter.selects row))

end Sheet
end Roster
