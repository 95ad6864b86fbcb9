import Roster.Yaml.Fault
import Roster.Yaml.Style

/-!
# Going through a document

A cursor stands in front of the characters that are left and knows its place.  At the end of the
document it sees the null character, which no document holds.  Line ends are single characters.
-/

namespace Roster
namespace Yaml

/-- A place in a document with the characters behind it. -/
structure Cursor where
  rest : List Char
  index : Nat := 0
  line : Nat := 0
  column : Nat := 0
  deriving Repr

namespace Cursor

def mark (c : Cursor) : Mark := ⟨c.line, c.column⟩

def peek (c : Cursor) : Char := c.rest.headD '\x00'

def peekAt (c : Cursor) (n : Nat) : Char := c.rest.getD n '\x00'

def atEnd (c : Cursor) : Bool := c.rest.isEmpty

def step (c : Cursor) : Cursor :=
  match c.rest with
  | [] => c
  | ch :: rest =>
      if Style.isBreak ch then ⟨rest, c.index + 1, c.line + 1, 0⟩
      else if ch == '\uFEFF' then ⟨rest, c.index + 1, c.line, c.column⟩
      else ⟨rest, c.index + 1, c.line, c.column + 1⟩

def forward (c : Cursor) : Nat → Cursor
  | 0 => c
  | n + 1 => c.step.forward n

/-- The characters of a class in front of the cursor, and the cursor behind them. -/
def takeWhile (test : Char → Bool) (c : Cursor) : List Char × Cursor :=
  let taken := c.rest.takeWhile test
  (taken, c.forward taken.length)

/-- Go over the characters of a class. -/
def skipWhile (test : Char → Bool) (c : Cursor) : Cursor :=
  (c.takeWhile test).2

def isSpace (ch : Char) : Bool := ch == ' '

def isGap (ch : Char) : Bool := ch == ' ' || ch == '\t'

def isInLine (ch : Char) : Bool := !Style.isBreak ch

/-- The line or the document ends here. -/
def atLineEnd (c : Cursor) : Bool := c.atEnd || Style.isBreak c.peek

/-- A blank stands here, or the line or the document ends. -/
def atSpaceOrEnd (c : Cursor) : Bool := c.peek == ' ' || c.atLineEnd

/-- A line end as it is read, and the cursor behind it. -/
def lineBreak? (c : Cursor) : Option (Char × Cursor) :=
  match c.rest with
  | ch :: _ =>
      if ch == '\n' || ch == '\x85' then some ('\n', c.step)
      else if ch == '\u2028' || ch == '\u2029' then some (ch, c.step)
      else none
  | [] => none

/-- Go over a line end if there is one. -/
def skipBreak (c : Cursor) : Cursor :=
  (c.lineBreak?.map Prod.snd).getD c

def skipComment (c : Cursor) : Cursor :=
  let c := c.skipWhile isSpace
  if c.peek == '#' then c.skipWhile isInLine else c

/-- Three equal characters stand here alone. -/
def atTriple (ch : Char) (c : Cursor) : Bool :=
  match c.rest with
  | a :: b :: d :: rest => a == ch && b == ch && d == ch && Style.atSeparator rest
  | _ => false

def atDocumentLine (c : Cursor) : Bool := c.atTriple '-' || c.atTriple '.'

def refuse {α : Type} (c : Cursor) (context : Context) (start : Mark) (problem : Problem) :
    Except Fault α :=
  .error (.markup (some (context, some start)) problem c.mark)

def unexpected {α : Type} (c : Cursor) (context : Context) (start : Mark) (what : String) :
    Except Fault α :=
  c.refuse context start (.expected what c.peek)

end Cursor
end Yaml
end Roster
