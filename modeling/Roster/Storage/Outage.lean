import Roster.Delimited.Format
import Roster.Storage.Path
import Roster.Storage.Query

/-!
# Storage that cannot be reached

A store is opened from what is known of its storage.  That fails when the storage is not there or
when too little is known of it.
-/

namespace Roster

/-- Why storage cannot be reached. -/
inductive Outage where
  | noDirectory (path : String) (fault : FileFault)
  | noDatabase (path : String)
  | noConnection (path : String) (fault : QueryFault)
  | noTable (table path : String)
  /-- It is not known in which directory the file is. -/
  | unknownDirectory
  | unknownFormat (name : String)
  | noSheet (path : String)
  | noDocuments (path : String)
  /-- It is not known which fields documents have. -/
  | unknownFields
  deriving DecidableEq, Repr

namespace Outage

def message : Outage → String
  | .noDirectory path fault => "Cannot create storage directory " ++ path ++ ": " ++ fault.message
  | .noDatabase path => "Database file not found: " ++ path
  | .noConnection path fault =>
      "Database backend connection failed: " ++ path ++ ": " ++ fault.message
  | .noTable table path => "Table '" ++ table ++ "' missing from " ++ path
  | .unknownDirectory => "File backend state has no storage_dir"
  | .unknownFormat name => SheetFormat.invalidMessage name
  | .noSheet path => "User file not found: " ++ path
  | .noDocuments path => "Records directory not found: " ++ path
  | .unknownFields => "YAML backend state has no field list"

end Outage
end Roster
