import Roster.Store.Basic

/-!
# Answers of a registry

A registry answers every request: with what was done or found, or with the reason why nothing was.
-/

namespace Roster

/-- Why a registry does not do what it was asked for. -/
inductive UserRefusal where
  /-- The data of a user are no map. -/
  | dataNotMap
  /-- Changes to a user are no map. -/
  | changesNotMap
  | missingId
  | invalidId
  | invalidMoniker
  | notFound (id : String)
  | alreadyExists (id : String)
  /-- Validation rejects the data. -/
  | rejected (message : String)
  | store (refusal : Refusal)
  deriving DecidableEq, Repr

namespace UserRefusal

def message : UserRefusal → String
  | .dataNotMap => "User data must be a mapping"
  | .changesNotMap => "Updates must be a mapping"
  | .missingId => "user_id is required"
  | .invalidId => "user_id is required as 2-30 characters, email OK, no spaces"
  | .invalidMoniker => "moniker is required as 2-24 alphanumeric characters, no spaces"
  | .notFound id => (Refusal.notFound id).message
  | .alreadyExists id => (Refusal.alreadyExists id).message
  | .rejected message => message
  | .store refusal => refusal.message

end UserRefusal

/-- What comes of a request about a user. -/
inductive UserOutcome where
  | done (deed : Deed)
  | found (user : Record)
  | refused (refusal : UserRefusal)
  deriving DecidableEq, Repr

/-- Answer to a request about a user. -/
structure UserAnswer where
  outcome : UserOutcome
  /-- The user asked about, unless the request does not name one. -/
  id : String := ""
  warnings : List String := []
  deriving DecidableEq, Repr

namespace UserAnswer

def refuse (refusal : UserRefusal) (id : String) (warnings : List String) : UserAnswer :=
  ⟨.refused refusal, id, warnings⟩

def success (a : UserAnswer) : Bool :=
  match a.outcome with
  | .refused _ => false
  | _ => true

def message (a : UserAnswer) : String :=
  match a.outcome with
  | .done deed => deed.message a.id
  | .found _ => ""
  | .refused refusal => refusal.message

def user? (a : UserAnswer) : Option Record :=
  match a.outcome with
  | .found user => some user
  | _ => none

end UserAnswer

/-- Answer to a request for the users that a filter selects. -/
structure UserListing where
  /-- Their records in the order of their ids. -/
  records : Except Refusal (List Record)
  /-- The filter without the blanks around it. -/
  filter : String
  warnings : List String

namespace UserListing

/-- The users that are listed, none when the store refuses. -/
def users (listing : UserListing) : List Record :=
  listing.records.toOption.getD []

def ids (listing : UserListing) : List String :=
  listing.users.map Record.id

end UserListing
end Roster
