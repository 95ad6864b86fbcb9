import Roster.Text.Blank
import Roster.Text.Case
import Roster.Text.Segments
import Roster.Value.Display
import Roster.Value.Fault

/-!
# Attributes of a field definition

Each attribute of a definition has its own way of reading a supplied value: flags accept the
words 1, true and yes, option lists accept one text or any items, lengths accept numerals, and
texts accept everything.  The name, category, kind and validator are kept as they were supplied.
The default among the options is marked by a star in front, and a label is made from the name of a
field by writing its parts with capitals.
-/

namespace Roster

/-- The attributes that a field definition knows. -/
inductive Attribute where
  | fieldName
  | category
  | kind
  | validateAs
  | label
  | description
  | required
  | mustValidate
  | options
  | cleanOptions
  | default
  | nullValue
  | maxLength
  deriving DecidableEq, Repr

namespace Attribute

/-- Names of the attributes in documents, in the order in which definitions are written. -/
def names : List (Attribute × String) :=
  [(.fieldName, "field_name"), (.category, "category"), (.kind, "type"),
    (.validateAs, "validate_as"), (.label, "label"), (.description, "description"),
    (.required, "required"), (.mustValidate, "must_validate"), (.options, "options"),
    (.cleanOptions, "clean_options"), (.default, "default"), (.nullValue, "null_value"),
    (.maxLength, "max_length")]

def ofName? (name : String) : Option Attribute :=
  (names.find? (·.2 == name)).map Prod.fst

/-- Under this key definitions are given further attributes, which are never read as one. -/
def extrasName : String := "extras"

/-- Words that set a flag. -/
def trueWords : List String := ["1", "true", "yes"]

/-- A flag: a text must be one of the words, any other value must be given. -/
def flag : Value → Bool
  | .str s => trueWords.contains (Text.lower (Text.strip s))
  | v => v.isGiven

/-- A list of options: one text, or the items of a value. -/
def optionList : Value → Except ValueFault (List String)
  | .null => .ok []
  | .str s => .ok [s]
  | v => v.items.map (·.map Value.stored)

/-- A greatest length, if one is set. -/
def length : Value → Except ValueFault (Option Int)
  | .null => .ok none
  | .str s => if s == "" then .ok none else (Value.str s).toInt.map some
  | v => v.toInt.map some

/-- A text that may be unset. -/
def optionalText : Value → Option String
  | .null => none
  | v => some v.text

def ofOptions (options : List String) : Value :=
  .list (options.map .str)

/-- A text that may be unset as a value. -/
def ofOptionalText (text : Option String) : Value :=
  text.elim .null .str

/-- A length that may be unset as a value. -/
def ofLength (length : Option Int) : Value :=
  length.elim .null .int

/-- What is kept of a value that is supplied for an attribute. -/
def coerce (a : Attribute) (v : Value) : Except ValueFault Value :=
  match a with
  | .required | .mustValidate => .ok (.bool (flag v))
  | .options | .cleanOptions => (optionList v).map ofOptions
  | .maxLength => (length v).map ofLength
  | .default => .ok (ofOptionalText (optionalText v))
  | .nullValue | .label | .description => .ok (.str v.stored)
  | .fieldName | .category | .kind | .validateAs => .ok v

end Attribute

/-! ## Options and labels -/

/-- Mark of the default option. -/
def defaultMarker : Char := '*'

def isMarked (option : String) : Bool :=
  option.toList.head? == some defaultMarker

/-- The option without the mark and the blanks behind it. -/
def stripMarker (option : String) : String :=
  match option.toList with
  | c :: rest => if c == defaultMarker then String.ofList (Text.trimLeft rest) else option
  | [] => option

/-- Label made from a name: its parts between low lines, capitalised, with blanks between. -/
def labelize (name : String) : String :=
  let parts := (Text.cut '_' name.toList).filter (!·.isEmpty)
  String.ofList (Text.join [' '] (parts.map Text.capitalize))

end Roster
