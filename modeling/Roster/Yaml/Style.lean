import Roster.Yaml.Implicit

/-!
# Styles of written scalars

A text is written without quotes where nothing in it could be taken for something else, between
single quotes where it has no character that needs an escape, and between double quotes otherwise.
-/

namespace Roster
namespace Yaml

/-- How a scalar is written. -/
inductive Style where
  | plain
  | single
  | double
  deriving DecidableEq, Repr

namespace Style

/-- Characters that end a line. -/
def isBreak (c : Char) : Bool :=
  c == '\n' || c == '\x85' || c == '\u2028' || c == '\u2029'

/-- Characters that part words for the reader. -/
def isSeparator (c : Char) : Bool :=
  c == '\x00' || c == ' ' || c == '\t' || c == '\r' || isBreak c

def atSeparator : List Char → Bool
  | [] => true
  | c :: _ => isSeparator c

/-- Characters that need no escape. -/
def isClear (c : Char) : Bool :=
  let n := c.toNat
  c == '\n' || (0x20 ≤ n && n ≤ 0x7E) || n == 0x85
    || (0xA0 ≤ n && n ≤ 0xFFFD && n != 0xFEFF) || (0x10000 ≤ n && n < 0x10FFFF)

/-- Characters that cannot stand first without quotes. -/
def leadingIndicators : List Char := "#,[]{}&*!|>'\"%@\x60".toList

def startsWithIndicator : List Char → Bool
  | [] => false
  | c :: rest =>
      leadingIndicators.contains c
        || ((c == '?' || c == ':' || c == '-') && atSeparator rest)

/-- A colon in front of a separator, or a number sign behind one. -/
def holdsIndicator : (previous : Char) → List Char → Bool
  | _, [] => false
  | previous, c :: rest =>
      (c == ':' && atSeparator rest) || (c == '#' && isSeparator previous) || holdsIndicator c rest

/-- The text could be taken for markup. -/
def looksLikeMarkup (cs : List Char) : Bool :=
  "---".toList.isPrefixOf cs || "...".toList.isPrefixOf cs || startsWithIndicator cs
    || (match cs with
      | [] => false
      | c :: rest => holdsIndicator c rest)

/-- A pair of neighbours of two classes. -/
def holdsPair (first second : Char → Bool) : List Char → Bool
  | a :: b :: rest => (first a && second b) || holdsPair first second (b :: rest)
  | _ => false

def isSpace (c : Char) : Bool := c == ' '

def isMultiline (cs : List Char) : Bool := cs.any isBreak

/-- The text can stand without quotes as far as its characters go. -/
def allowsPlain (cs : List Char) : Bool :=
  let edge (c : Option Char) : Bool := c.any fun c => isSpace c || isBreak c
  !(edge cs.head? || edge cs.getLast? || isMultiline cs || looksLikeMarkup cs)
    && cs.all isClear

/-- The text can stand between single quotes. -/
def allowsSingle (cs : List Char) : Bool :=
  cs.all isClear && !holdsPair isSpace isBreak cs && !holdsPair isBreak isSpace cs

/-- The style of a text; a key is never written over several lines. -/
def ofText (isKey : Bool) (cs : List Char) : Style :=
  if Implicit.sortOf cs == .str && allowsPlain cs && !cs.isEmpty then .plain
  else if (allowsSingle cs || cs.isEmpty) && !(isKey && isMultiline cs) then .single
  else .double

end Style
end Yaml
end Roster
