import Roster.Store.Preparation

/-!
# Opening stores

A store is opened from the state that preparing its storage left behind.  The storage has to be
there still.
-/

namespace Roster

/-- The path that a value writes; only a text writes one. -/
def Path.ofValue (v : Value) : Except ValueFault Path :=
  match v with
  | .str s => .ok (.ofText s)
  | v => .error (.notPath v.kindName)

namespace State

/-- What a state says under a key, if it says something. -/
def given? (state : Entries) (key : String) : Option Value :=
  (state.lookup key).filter Value.isGiven

end State

open State

namespace Sheet

def attach (state : Entries) (tree : Tree) : Except Fault Sheet := do
  let name := (given? state "file_format").elim SheetFormat.tsv.name Value.text
  match given? state "storage_dir", SheetFormat.ofName? name with
  | none, _ => throw (.unavailable .unknownDirectory)
  | some _, none => throw (.unavailable (.unknownFormat name))
  | some directory, some format =>
      let s : Sheet := ⟨← Path.ofValue directory, format⟩
      if tree.isFile s.path then return s else throw (.unavailable (.noSheet s.path.text))

end Sheet

namespace Documents

/-- The directory that a state names, or the one inside the directory that it names. -/
def directoryOf (state : Entries) : Except ValueFault (Option Value) := do
  match given? state "records_dir", given? state "storage_dir" with
  | some directory, _ => return some directory
  | none, some parent => return some (.str ((← Path.ofValue parent).child directoryName).text)
  | none, none => return none

def attach (state : Entries) (tree : Tree) : Except Fault Documents := do
  match ← directoryOf state with
  | none => throw (.unavailable (.noDocuments ((state.lookup "records_dir").getD .null).text))
  | some directory =>
      let path ← Path.ofValue directory
      if !tree.isDirectory path then throw (.unavailable (.noDocuments directory.text))
      match given? state "fields" with
      | none => throw (.unavailable .unknownFields)
      | some fields => return ⟨path, (← fields.items).filterMap Value.text?⟩

end Documents

namespace TableStore

/-- The file that a state names, or the one inside the directory that it names. -/
def fileOf (state : Entries) : Except ValueFault Path := do
  match given? state "db_full_path" with
  | some path => Path.ofValue path
  | none => return (← Path.ofValue ((given? state "storage_dir").getD (.str "."))).child fileName

def attach (state : Entries) (tree : Tree) : Except Fault TableStore := do
  let path ← fileOf state
  let name := (given? state "table_name").elim tableName Value.text
  if !tree.isFile path then throw (.unavailable (.noDatabase path.text))
  match reach path tree with
  | .error fault => throw (.unavailable (.noConnection path.text fault))
  | .ok ((serial?, db), _) =>
      if db.tableNames.contains name then
        let columns := ((db.table? name).map Table.columnNames).getD []
        return { path, serial := serial?.getD 0, table := name, columns }
      else throw (.unavailable (.noTable name path.text))

end TableStore

end Roster
