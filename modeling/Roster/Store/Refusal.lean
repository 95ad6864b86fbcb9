import Roster.Fault
import Roster.Storage.Path
import Roster.Storage.Query
import Roster.Yaml.Fault

/-!
# What stores refuse

A store answers a request that it cannot carry out with a refusal, which may have its cause in the
storage.  A request that fails otherwise is broken off with a fault.
-/

namespace Roster

/-- What went wrong in the storage. -/
inductive Cause where
  | file (fault : FileFault)
  | cellTooLong
  /-- The document at a path cannot be read. -/
  | document (path : String) (fault : Yaml.Fault)
  /-- The document of a name holds no record. -/
  | noRecord (name : String)
  | query (fault : QueryFault)
  deriving DecidableEq, Repr

namespace Cause

def message : Cause → String
  | .file fault => fault.message
  | .cellTooLong => "field larger than field limit (131072)"
  | .document path fault => fault.message path
  | .noRecord name => name ++ " does not hold a user record"
  | .query fault => fault.message

end Cause

/-- Why a store does not do what it was asked for. -/
inductive Refusal where
  | missingId
  | missingRecord
  | invalidId (id : String)
  | notFound (id : String)
  | alreadyExists (id : String)
  | cannotCreate (cause : Cause)
  /-- The table does not take the record. -/
  | cannotAdd (fault : QueryFault)
  | cannotFetch (id : String) (cause : Cause)
  | cannotReadFile (cause : Cause)
  | cannotLoad (cause : Cause)
  | cannotUpdate (id : String) (cause : Cause)
  | cannotDelete (id : String) (cause : Cause)
  | cannotDeleteFile (cause : Cause)
  | cannotList (cause : Cause)
  | invalidFormat (name : String)
  | cannotPrepareSheet (cause : Cause)
  | cannotPrepareDocuments (cause : Cause)
  | cannotPrepareTable (path : String) (fault : QueryFault)
  deriving DecidableEq, Repr

namespace Refusal

def message : Refusal → String
  | .missingId => "Add record failed: missing user_id"
  | .missingRecord => "Add record failed: missing initial record"
  | .invalidId id => "Invalid user_id '" ++ id ++ "'"
  | .notFound id => "User '" ++ id ++ "' not found"
  | .alreadyExists id => "User '" ++ id ++ "' already exists"
  | .cannotCreate cause => "Failed to create user record: " ++ cause.message
  | .cannotAdd fault => "Failed to create user record: " ++ fault.reason
  | .cannotFetch id cause => "Failed to fetch user '" ++ id ++ "': " ++ cause.message
  | .cannotReadFile cause => "Cannot read user file: " ++ cause.message
  | .cannotLoad cause => "Failed to load user data: " ++ cause.message
  | .cannotUpdate id cause => "Failed to update user '" ++ id ++ "': " ++ cause.message
  | .cannotDelete id cause => "Failed to delete user '" ++ id ++ "': " ++ cause.message
  | .cannotDeleteFile cause => "Failed to delete user file: " ++ cause.message
  | .cannotList cause => "Failed to list users: " ++ cause.message
  | .invalidFormat name => SheetFormat.invalidMessage name
  | .cannotPrepareSheet cause =>
      "Failed to initialize storage for file backend: " ++ cause.message
  | .cannotPrepareDocuments cause =>
      "Failed to initialize storage for YAML backend: " ++ cause.message
  | .cannotPrepareTable path fault =>
      "Database backend configuration failed:\n  - Database file: " ++ path ++ "\n  - Error: "
        ++ fault.message

end Refusal

/-- Why a request comes to nothing. -/
inductive Failure where
  | refused (refusal : Refusal)
  | broken (fault : Fault)
  deriving DecidableEq, Repr

namespace Failure

/-- Tell a refusal, which is an answer, from a request that was broken off. -/
def settle {α : Type} : Except Failure α → Except Fault (Except Refusal α)
  | .ok a => .ok (.ok a)
  | .error (.refused refusal) => .ok (.error refusal)
  | .error (.broken fault) => .error fault

end Failure
end Roster
