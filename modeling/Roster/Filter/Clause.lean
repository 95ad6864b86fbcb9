import Roster.Filter.Basic
import Roster.Text.Case

/-!
# Filters as clauses of a query

A filter becomes the condition of a query: alternatives of groups of terms, each of which compares
a column with a numbered parameter.  A column without a value counts as the empty text.  Occurrence
is a pattern match: the value stands between wild cards, and its own wild cards are escaped.
-/

namespace Roster

/-- How a term compares a column with a parameter. -/
inductive Comparison where
  | equal
  | like
  | notLike
  | greater
  | less
  deriving DecidableEq, Repr

/-- One term: a column, a comparison, and the number of a parameter. -/
structure Term where
  column : String
  comparison : Comparison
  parameter : Nat
  deriving DecidableEq, Repr

/-- The condition of a query with its parameters by number. -/
structure Clause where
  groups : List (List Term)
  parameters : List String
  deriving DecidableEq, Repr

namespace Clause

/-- The character that takes the meaning from a wild card. -/
def escapeChar : Char := '\\'

/-- Write wild cards and the escape character itself behind an escape character. -/
def escapeLike : List Char → List Char
  | [] => []
  | c :: rest =>
      if c == escapeChar || c == '%' || c == '_' then escapeChar :: c :: escapeLike rest
      else c :: escapeLike rest

/-- The pattern that matches where a text occurs. -/
def pattern (value : String) : String :=
  String.ofList ('%' :: escapeLike value.toList ++ ['%'])

/-- An identifier between double quotes, with its own quotes doubled. -/
def quoteIdentifier (name : String) : String :=
  String.ofList ('"' :: name.toList.flatMap (fun c => if c == '"' then ['"', '"'] else [c]) ++ ['"'])

def comparisonOf : Operator → Comparison
  | .equals => .equal
  | .contains => .like
  | .notContains => .notLike
  | .greater => .greater
  | .less => .less

/-- Parameter that the value of a condition becomes. -/
def parameterOf (c : Condition) : String :=
  match c.operator with
  | .contains | .notContains => pattern c.value
  | _ => c.value

/-- Terms of a group, with parameters numbered from `next` on. -/
def termsFrom (next : Nat) : List Condition → List Term
  | [] => []
  | c :: rest => ⟨c.field, comparisonOf c.operator, next⟩ :: termsFrom (next + 1) rest

/-- Groups of terms, with parameters numbered from `next` on. -/
def groupsFrom (next : Nat) : Groups → List (List Term)
  | [] => []
  | group :: rest => termsFrom next group :: groupsFrom (next + group.length) rest

/-- The clause of the groups of a filter. -/
def ofGroups (groups : Groups) : Clause where
  groups := groupsFrom 0 groups
  parameters := groups.flatten.map parameterOf

def parameterName (n : Nat) : String :=
  "p" ++ toString n

def bindings (clause : Clause) : List (String × String) :=
  clause.parameters.zipIdx.map fun (value, n) => (parameterName n, value)

/-- Text of a comparison with a parameter. -/
def comparisonText (comparison : Comparison) (name : String) : String :=
  match comparison with
  | .equal => " = :" ++ name
  | .like => " LIKE :" ++ name ++ " ESCAPE '" ++ String.singleton escapeChar ++ "'"
  | .notLike => " NOT LIKE :" ++ name ++ " ESCAPE '" ++ String.singleton escapeChar ++ "'"
  | .greater => " > :" ++ name
  | .less => " < :" ++ name

def termText (term : Term) : String :=
  "COALESCE(" ++ quoteIdentifier term.column ++ ", '')"
    ++ comparisonText term.comparison (parameterName term.parameter)

def groupText (group : List Term) : String :=
  "(" ++ String.intercalate " AND " (group.map termText) ++ ")"

/-- Text of the clause; nothing for the clause without groups. -/
def text (clause : Clause) : String :=
  String.intercalate " OR " (clause.groups.map groupText)

end Clause

/-! ## What a clause means -/

namespace Like

/-- Characters are alike apart from the case of ASCII letters. -/
def alike (a b : Char) : Bool :=
  a.toLower == b.toLower

/-- The pattern matches the whole text: `%` any characters, `_` one, an escaped character itself. -/
def accepts : (pattern text : List Char) → Bool
  | [], text => text.isEmpty
  | p :: rest, [] => p == '%' && accepts rest []
  | p :: rest, c :: text =>
      if p == '%' then accepts rest (c :: text) || accepts (p :: rest) text
      else if p == '_' then accepts rest text
      else if p == Clause.escapeChar then
        match rest with
        | [] => false
        | e :: rest => alike e c && accepts rest text
      else alike p c && accepts rest text
termination_by pattern text => (text.length, pattern.length)

end Like

namespace Comparison

/-- The comparison holds between the value of a column and a parameter. -/
def holds (comparison : Comparison) (value parameter : String) : Bool :=
  match comparison with
  | .equal => value == parameter
  | .like => Like.accepts parameter.toList value.toList
  | .notLike => !Like.accepts parameter.toList value.toList
  | .greater => decide (parameter < value)
  | .less => decide (value < parameter)

/-- The comparison matches a pattern. -/
def isPattern : Comparison → Bool
  | .like | .notLike => true
  | _ => false

end Comparison

namespace Clause

/-- A term holds for a row, given as the values of its columns. -/
def termHolds (parameters : List String) (row : String → Option String) (term : Term) : Bool :=
  term.comparison.holds ((row term.column).getD "") ((parameters[term.parameter]?).getD "")

/-- The clause selects a row; a query without a condition selects all. -/
def selects (clause : Clause) (row : String → Option String) : Bool :=
  clause.groups.isEmpty
    || clause.groups.any fun group => group.all (termHolds clause.parameters row)

end Clause
end Roster
