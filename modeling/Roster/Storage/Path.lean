import Roster.Text.Quoted
import Roster.Text.Segments

/-!
# Paths

A path is a list of parts; repeated separators and single dots do not count, and the path without
parts is written as a dot.
-/

namespace Roster

/-- A path: its root, empty for a relative path, and its parts. -/
structure Path where
  root : String := ""
  parts : List String := []
  deriving DecidableEq, Repr

namespace Path

/-- Root of a written path: one or two separators, any other number counting as one. -/
def rootOf : List Char → String
  | '/' :: '/' :: '/' :: _ => "/"
  | '/' :: '/' :: _ => "//"
  | '/' :: _ => "/"
  | _ => ""

def partsOf (cs : List Char) : List String :=
  ((Text.cut '/' cs).filter fun part => !part.isEmpty && part != ['.']).map String.ofList

def ofText (s : String) : Path :=
  ⟨rootOf s.toList, partsOf s.toList⟩

def text (p : Path) : String :=
  if p.root == "" && p.parts.isEmpty then "." else p.root ++ String.intercalate "/" p.parts

/-- The entry of a name inside a directory. -/
def child (p : Path) (name : String) : Path :=
  { p with parts := p.parts ++ [name] }

/-- A path joined to another; an absolute one stands for itself. -/
def join (p q : Path) : Path :=
  if q.root == "" then { p with parts := p.parts ++ q.parts } else q

def parent (p : Path) : Path :=
  { p with parts := p.parts.dropLast }

def name (p : Path) : String :=
  p.parts.getLast?.getD ""

/-- Parts without steps back to the directory above. -/
def resolve : (above : List String) → List String → List String
  | above, [] => above.reverse
  | above, part :: rest =>
      if part == ".." then resolve (above.drop 1) rest else resolve (part :: above) rest

/-- Where the path leads, as names from the root or from the working directory. -/
def key (p : Path) : List String :=
  (if p.root == "" then [] else ["/"]) ++ resolve [] p.parts

end Path

/-- Why an operation on a path is refused. -/
inductive FileReason where
  | missing
  | exists_
  | notDirectory
  | isDirectory
  | notEmpty
  deriving DecidableEq, Repr

/-- A refused operation on a path, or on two. -/
structure FileFault where
  reason : FileReason
  path : String
  target : Option String := none
  deriving DecidableEq, Repr

namespace FileReason

def message : FileReason → String
  | .missing => "[Errno 2] No such file or directory"
  | .exists_ => "[Errno 17] File exists"
  | .notDirectory => "[Errno 20] Not a directory"
  | .isDirectory => "[Errno 21] Is a directory"
  | .notEmpty => "[Errno 39] Directory not empty"

end FileReason

namespace FileFault

def message (fault : FileFault) : String :=
  fault.reason.message ++ ": " ++ Text.quoted fault.path
    ++ (fault.target.elim "" fun target => " -> " ++ Text.quoted target)

end FileFault
end Roster
