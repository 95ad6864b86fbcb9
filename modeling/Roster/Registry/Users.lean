import Roster.Filter.Parser
import Roster.Registry.Answer
import Roster.Registry.Basic

/-!
# Requests to a registry

Users are registered, shown, changed, deleted and listed.  A request gives an answer and the store
as it is then; a refused request leaves the store as it was.
-/

namespace Roster
namespace Registry

variable {σ : Type} [RecordStore σ]

/-- Name of the field with the name that a user goes by. -/
def monikerField : String := "moniker"

/-- Fields with times, which only a store sets. -/
def timeFields : List String := [Record.createdField, Record.modifiedField]

def without (fields : List String) (data : Record) : Record :=
  data.filter fun entry => !fields.contains entry.1

/-- The id in a request; it must hold more than blanks. -/
def idOf? (v : Value) : Option String :=
  v.text?.filter fun s => Text.strip s != ""

def unchanged (store : σ) (outcome : UserOutcome) (id : String) (warnings : List String) :
    Except Fault (UserAnswer × σ) :=
  .ok (⟨outcome, id, warnings⟩, store)

/-- Have the store do something, and say that it was done or why not. -/
def perform (store : σ) (deed : Deed) (id : String) (warnings : List String)
    (change : Except Failure σ) : Except Fault (UserAnswer × σ) := do
  match ← Failure.settle change with
  | .ok store => return (⟨.done deed, id, warnings⟩, store)
  | .error refusal => unchanged store (.refused (.store refusal)) id warnings

/-- The store has a record of a user that it can show. -/
def isStored (store : σ) (id : String) : Except Fault Bool := do
  return (← Failure.settle (RecordStore.fetch store id)).isOk

/-- Register a user whose id and moniker are well formed. -/
def registerAs (r : Registry) (store : σ) (now : Moment) (id moniker : String) (data : Record) :
    Except Fault (UserAnswer × σ) := do
  if ← isStored store id then
    unchanged store (.refused (.alreadyExists id)) id []
  else
    let verdict := r.verdict data
    if verdict.success then
      let overlaid := Entries.setAll r.initialRecord (r.storable verdict.accepted)
      let record := Entries.set (Entries.set overlaid Record.idField id) monikerField moniker
      perform store .created id verdict.warnings (RecordStore.insert store now id record)
    else unchanged store (.refused (.rejected verdict.message)) id verdict.warnings

def register (r : Registry) (store : σ) (now : Moment) (data : Value) :
    Except Fault (UserAnswer × σ) :=
  match data with
  | .map entries =>
      let data := without timeFields (clean entries)
      let id := data.valueOf Record.idField
      let moniker := data.valueOf monikerField
      if !isUserId id then unchanged store (.refused .invalidId) "" []
      else if !Grammar.isMoniker moniker.toList then
        unchanged store (.refused .invalidMoniker) id []
      else r.registerAs store now id moniker (without [Record.idField, monikerField] data)
  | _ => unchanged store (.refused .dataNotMap) "" []

/-- Names of the fields that a request asks for; the names have to be usable as keys. -/
def namesOf (fields : Value) : Except ValueFault (List String) := do
  return (← (← fields.items).mapM Value.asKey).filterMap Value.text?

/-- Some fields of a record, with the id. -/
def project (names : List String) (id : String) (user : Record) : Record :=
  let chosen := names.filterMap fun name => (user.lookup name).map fun text => (name, text)
  Entries.set (Entries.setAll [] chosen) Record.idField ((user.lookup Record.idField).getD id)

/-- Show a user, or some fields of it. -/
def get (store : σ) (id : Value) (fields : Value) : Except Fault UserAnswer := do
  match idOf? id with
  | none => return .refuse .missingId "" []
  | some id =>
      match ← Failure.settle (RecordStore.fetch store id) with
      | .error refusal => return .refuse (.store refusal) id []
      | .ok user =>
          match fields with
          | .null => return ⟨.found user, id, []⟩
          | fields => return ⟨.found (project (← namesOf fields) id user), id, []⟩

def update (r : Registry) (store : σ) (now : Moment) (id changes : Value) :
    Except Fault (UserAnswer × σ) := do
  match idOf? id, changes with
  | none, _ => unchanged store (.refused .missingId) "" []
  | some id, .map entries =>
      if ← isStored store id then
        let verdict := r.verdict (without Record.readOnlyFields (clean entries))
        if verdict.success then
          perform store .updated id verdict.warnings
            (RecordStore.update store now id (r.storable verdict.accepted))
        else unchanged store (.refused (.rejected verdict.message)) id verdict.warnings
      else unchanged store (.refused (.notFound id)) id []
  | some id, _ => unchanged store (.refused .changesNotMap) id []

def delete (store : σ) (id : Value) : Except Fault (UserAnswer × σ) := do
  match idOf? id with
  | none => unchanged store (.refused .missingId) "" []
  | some id =>
      if ← isStored store id then perform store .deleted id [] (RecordStore.remove store id)
      else unchanged store (.refused (.notFound id)) id []

/-- List the users that a filter selects. -/
def list (r : Registry) (store : σ) (filter : Value) : Except Fault UserListing := do
  let f ← Filter.ofValue filter (.list (r.schema.fields.map .str))
  let records ← Failure.settle (RecordStore.list store f)
  return { records, filter := ((filter.text?).map Text.strip).getD "", warnings := f.warnings }

end Registry
end Roster
