import Roster.Filter.Matching
import Roster.Storage.Clock
import Roster.Store.Refusal

/-!
# Stores of records

A store keeps one record of texts per user.  It takes the time at which a record was made and last
changed from the clock and accepts neither from a caller; fields that it does not know are dropped.
A request that fails gives no new store, so it changes nothing.
-/

namespace Roster

/-- What every store can be asked for. -/
class RecordStore (σ : Type) where
  /-- Add the record of a new user. -/
  insert : σ → Moment → (id : String) → Record → Except Failure σ
  /-- The record of a user. -/
  fetch : σ → (id : String) → Except Failure Record
  /-- Change fields of a record. -/
  update : σ → Moment → (id : String) → Record → Except Failure σ
  /-- Take the record of a user away. -/
  remove : σ → (id : String) → Except Failure σ
  /-- The records that a filter selects, in the order of their ids. -/
  list : σ → Filter → Except Failure (List Record)

/-- What is done to the record of a user. -/
inductive Deed where
  | created
  | updated
  | deleted
  deriving DecidableEq, Repr

namespace Deed

def message (deed : Deed) (id : String) : String :=
  "User '" ++ id ++ "' " ++ match deed with
    | .created => "created"
    | .updated => "updated"
    | .deleted => "deleted"

end Deed

namespace Record

/-- Field that tells users apart. -/
def idField : String := "user_id"

/-- Field with the time at which a record was made. -/
def createdField : String := "created_date"

/-- Field with the time at which a record was last changed. -/
def modifiedField : String := "last_mod_date"

/-- Fields that no caller can change. -/
def readOnlyFields : List String := [idField, createdField, modifiedField]

/-- The fields that a store knows. -/
def restrict (fields : List String) (record : Record) : Record :=
  record.filter fun entry => fields.contains entry.1

/-- A new record with its id and both times. -/
def stampNew (fields : List String) (now : Moment) (id : String) (record : Record) : Record :=
  Entries.set (Entries.set (Entries.set (record.restrict fields) createdField now.stamp)
    modifiedField now.stamp) idField id

/-- Changes without the fields that no caller can change, and with the time. -/
def stampChanges (fields : List String) (now : Moment) (changes : Record) : Record :=
  Entries.set ((changes.restrict fields).filter fun entry => !readOnlyFields.contains entry.1)
    modifiedField now.stamp

/-- Id of a record, the empty text if it has none. -/
def id (record : Record) : String := record.valueOf idField

/-- Records in the order of their ids. -/
def sortById (records : List Record) : List Record :=
  records.mergeSort fun a b => a.id ≤ b.id

end Record

namespace RecordStore

/-- What is wrong with a request to add a record before the store is looked at. -/
def checkNew (id : String) (record : Record) : Except Failure Unit :=
  if id == "" then .error (.refused .missingId)
  else if record.isEmpty then .error (.refused .missingRecord)
  else .ok ()

end RecordStore
end Roster
