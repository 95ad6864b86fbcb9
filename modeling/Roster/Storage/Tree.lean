import Roster.Storage.Database
import Roster.Storage.Path

/-!
# Files and directories

A tree holds directories, files of octets and databases, each under the names that lead to it.
Operations look at the directories on the way first, then at the entry itself, and refuse what a
file system refuses.
-/

namespace Roster

/-- What a name leads to. -/
inductive Entry where
  | directory
  | file (octets : ByteArray)
  /-- A database; the number tells it from others that were under the same name before. -/
  | database (serial : Nat) (db : Database)

/-- Names that lead to an entry. -/
abbrev Key := List String

/-- Directories and files. Databases that were removed are kept for whoever still uses them. -/
structure Tree where
  entries : List (Key × Entry) := []
  removed : List (Nat × Database) := []
  nextSerial : Nat := 0

namespace Tree

/-- The entry under a key; the working directory itself is always there. -/
def find? (t : Tree) (key : Key) : Option Entry :=
  if key.isEmpty || key == ["/"] then some .directory else t.entries.lookup key

/-- Something is there. -/
def exists_ (t : Tree) (p : Path) : Bool :=
  (t.find? p.key).isSome

def isDirectory (t : Tree) (p : Path) : Bool :=
  match t.find? p.key with
  | some .directory => true
  | _ => false

/-- A file or a database is there. -/
def isFile (t : Tree) (p : Path) : Bool :=
  match t.find? p.key with
  | some .directory | none => false
  | _ => true

/-- Put an entry under a key, in place of what is there. -/
def put (t : Tree) (key : Key) (entry : Entry) : Tree :=
  { t with entries :=
      if t.entries.any (·.1 == key) then
        t.entries.map fun e => if e.1 == key then (key, entry) else e
      else t.entries ++ [(key, entry)] }

def erase (t : Tree) (key : Key) : Tree :=
  { t with
    entries := t.entries.filter fun e => e.1 != key
    removed := match t.find? key with
      | some (.database serial db) => (serial, db) :: t.removed
      | _ => t.removed }

/-- Names of the entries of a directory. -/
def names (t : Tree) (p : Path) : List String :=
  let key := p.key
  t.entries.filterMap fun (k, _) =>
    match k.getLast? with
    | some name => if k.dropLast == key then some name else none
    | none => none

def refuse {α : Type} (reason : FileReason) (p : Path) : Except FileFault α :=
  .error ⟨reason, p.text, none⟩

/-- Why the directories on the way to a key cannot be passed: from the nearest one to the root. -/
def wayFault (t : Tree) (key : Key) : Option FileReason :=
  go key.length key
where
  /-- The bound counts the names that are left. -/
  go : Nat → Key → Option FileReason
    | 0, _ => none
    | bound + 1, key =>
        let above := key.dropLast
        match t.find? above with
        | some .directory => none
        | some _ => some .notDirectory
        | none => some ((go bound above).getD .missing)

def makeOne (t : Tree) (p : Path) : Except FileFault Tree :=
  match t.find? p.key with
  | some _ => refuse .exists_ p
  | none =>
      match t.wayFault p.key with
      | some reason => refuse reason p
      | none => .ok (t.put p.key .directory)

/-- Make a directory and those above it; one that is there already is fine. -/
def makeAll (t : Tree) (p : Path) : Except FileFault Tree :=
  go p.parts.length t p
where
  /-- The bound counts the parts that are left. -/
  go : Nat → Tree → Path → Except FileFault Tree
    | 0, t, _ => .ok t
    | bound + 1, t, p =>
        match makeOne t p with
        | .ok t => .ok t
        | .error fault =>
            match fault.reason with
            | .missing => do
                let t ← go bound t p.parent
                makeOne t p
            | _ => if t.isDirectory p then .ok t else .error fault

/-- Octets of a file. -/
def read (t : Tree) (p : Path) : Except FileFault ByteArray :=
  match t.find? p.key with
  | some (.file octets) => .ok octets
  | some (.database ..) => .ok ByteArray.empty
  | some .directory => refuse .isDirectory p
  | none => refuse ((t.wayFault p.key).getD .missing) p

/-- A new file, or a new content for one that is there. -/
def write (t : Tree) (p : Path) (octets : ByteArray) : Except FileFault Tree :=
  match t.find? p.key with
  | some .directory => refuse .isDirectory p
  | some _ => .ok (t.put p.key (.file octets))
  | none =>
      match t.wayFault p.key with
      | some reason => refuse reason p
      | none => .ok (t.put p.key (.file octets))

/-- A new file where nothing is yet. -/
def create (t : Tree) (p : Path) (octets : ByteArray) : Except FileFault Tree :=
  match t.find? p.key with
  | some _ => refuse .exists_ p
  | none =>
      match t.wayFault p.key with
      | some reason => refuse reason p
      | none => .ok (t.put p.key (.file octets))

/-- Add octets at the end of a file. -/
def append (t : Tree) (p : Path) (octets : ByteArray) : Except FileFault Tree :=
  match t.find? p.key with
  | some (.file before) => .ok (t.put p.key (.file (before ++ octets)))
  | _ => t.write p octets

def removeFile (t : Tree) (p : Path) : Except FileFault Tree :=
  match t.find? p.key with
  | some .directory => refuse .isDirectory p
  | some _ => .ok (t.erase p.key)
  | none => refuse ((t.wayFault p.key).getD .missing) p

def removeDirectory (t : Tree) (p : Path) : Except FileFault Tree :=
  match t.find? p.key with
  | some .directory => if (t.names p).isEmpty then .ok (t.erase p.key) else refuse .notEmpty p
  | some _ => refuse .notDirectory p
  | none => refuse ((t.wayFault p.key).getD .missing) p

/-- Move an entry, a directory with all that it holds, to a name that is free. -/
def rename (t : Tree) (old new : Path) : Tree :=
  let source := old.key
  let target := new.key
  { t with entries := t.entries.map fun (k, e) =>
      if source.isPrefixOf k then (target ++ k.drop source.length, e) else (k, e) }

/-- Every file and directory below the working directory, directories with a separator behind. -/
def listing (t : Tree) : List String :=
  (t.entries.filterMap fun (k, e) =>
    if k.head? == some "/" then none
    else
      let text := String.intercalate "/" k
      match e with
      | .directory => some (text ++ "/")
      | _ => some text).mergeSort fun a b => a ≤ b

end Tree
end Roster
