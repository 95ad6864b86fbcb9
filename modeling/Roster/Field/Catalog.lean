import Roster.Field.Attribute
import Roster.Field.Definition
import Roster.Field.Kind

/-!
# The catalog of built-in fields

Every store has the core fields and the system fields; the standard fields can be chosen.  The
catalog is fixed, and each setup derives its own definitions from it.
-/

namespace Roster
namespace Catalog

/-- Fields that every record starts with. -/
def coreFields : List String := ["user_id", "moniker", "user_status", "access_level"]

/-- Fields that a setup can choose from, in their fixed order. -/
def standardFields : List String :=
  ["first_name", "middle_name", "last_name", "prefix", "suffix", "organization", "title",
    "email", "phone", "text_ok", "last_login_date", "term_ends"]

/-- Fields that every record ends with. -/
def systemFields : List String := ["last_mod_date", "created_date"]

/-- Fields that no override reaches. -/
def protectedFields : List String := ["user_id", "created_date", "last_mod_date"]

/-- Names that application fields cannot take. -/
def reservedFields : List String := coreFields ++ standardFields ++ systemFields

/-- A built-in definition with the label made from its name and the null value of its kind. -/
def builtIn (name category kind description : String) : Definition where
  fieldName := .str name
  category := .str category
  kind := .str kind
  description := description
  label := labelize name
  nullValue := ((FieldKind.ofName? kind).map FieldKind.nullValue).getD ""
  default := some ""

/-- A field for a part of a person's name. -/
def nameField (name description : String) : Definition :=
  { builtIn name "standard" "text" description with
    validateAs := .str "name", mustValidate := true, maxLength := some 50 }

/-- The moment that stands for "never". -/
def zeroMoment : String := "0000-00-00 00:00:00"

def core : List (String × Definition) := [
  ("user_id",
    { builtIn "user_id" "core" "system" "User login ID - Primary authentication identifier" with
      label := "User ID", required := true, maxLength := some 30 }),
  ("moniker",
    { builtIn "moniker" "core" "text" "User's preferred display name, nickname, or initials" with
      validateAs := .str "moniker", required := true, mustValidate := true, maxLength := some 24 }),
  ("user_status",
    { builtIn "user_status" "core" "enum" "Account status for access control" with
      validateAs := .str "enum", required := true, mustValidate := true, maxLength := some 20,
      options := ["*Eligible", "OK", "Inactive"] }),
  ("access_level",
    { builtIn "access_level" "core" "enum" "Permission level for feature access" with
      validateAs := .str "enum", required := true, mustValidate := true, maxLength := some 20,
      options := ["*anon", "visitor", "member", "staff", "admin"] })]

def standard : List (String × Definition) := [
  ("first_name", nameField "first_name" "User's first name"),
  ("middle_name", nameField "middle_name" "User's middle name"),
  ("last_name", nameField "last_name" "User's last name"),
  ("prefix",
    { builtIn "prefix" "standard" "enum" "Name prefix or title" with
      validateAs := .str "enum", maxLength := some 10,
      options := ["*", "Dr", "Mr", "Ms", "Mrs", "Mx", "Prof", "Hon", "Sir", "Madam"] }),
  ("suffix",
    { builtIn "suffix" "standard" "enum" "Name suffix or professional designation" with
      validateAs := .str "enum", maxLength := some 10,
      options := ["*", "Jr", "Sr", "II", "III", "IV", "V", "PhD", "MD", "DDS", "Esq"] }),
  ("organization",
    { builtIn "organization" "standard" "text" "User's organization or affiliation" with
      validateAs := .str "text", maxLength := some 100 }),
  ("title",
    { builtIn "title" "standard" "text" "User's position or job title" with
      validateAs := .str "text", maxLength := some 100 }),
  ("email",
    { builtIn "email" "standard" "email" "Email address for notifications" with
      validateAs := .str "email", maxLength := some 255 }),
  ("phone",
    { builtIn "phone" "standard" "phone" "Phone number with country code" with
      validateAs := .str "phone", maxLength := some 20 }),
  ("text_ok",
    { builtIn "text_ok" "standard" "boolean" "Consent for text messages (1=yes, 0=no)" with
      label := "Text OK", validateAs := .str "boolean", maxLength := some 1 }),
  ("last_login_date",
    { builtIn "last_login_date" "standard" "timestamp" "Timestamp of last successful login" with
      validateAs := .str "timestamp", default := some zeroMoment, maxLength := some 19 }),
  ("term_ends",
    { builtIn "term_ends" "standard" "date" "Account expiration date (YYYY-MM-DD)" with
      validateAs := .str "date", maxLength := some 10 })]

def system : List (String × Definition) := [
  ("last_mod_date",
    { builtIn "last_mod_date" "system" "system" "Timestamp of last profile modification" with
      label := "Last Modification Date", default := some zeroMoment, nullValue := zeroMoment,
      maxLength := some 19 }),
  ("created_date",
    { builtIn "created_date" "system" "system" "Timestamp when user account was created" with
      required := true, default := some zeroMoment, nullValue := zeroMoment,
      maxLength := some 19 })]

/-- All built-in definitions by name. -/
def definitions : List (String × Definition) := core ++ standard ++ system

theorem keys_core : core.map Prod.fst = coreFields := rfl

theorem keys_standard : standard.map Prod.fst = standardFields := rfl

theorem keys_system : system.map Prod.fst = systemFields := rfl

end Catalog
end Roster
