import Roster.Manifest.Reference
import Roster.Registry.Basic
import Roster.Schema.Assembly
import Roster.Settings
import Roster.Setup.Rules
import Roster.Store.Mounted

/-!
# Setting registries up

A setup prepares the storage and writes the manifest and its reference copy beside it.  A manifest
that is there already is kept as an archive.  Later the registry is loaded from the manifest.
-/

namespace Roster

/-- What comes of a setup. -/
inductive SetupOutcome where
  | done (configFile referenceFile : Path) (archivedTo : Option String)
  /-- The storage was not prepared. -/
  | refused (refusal : Refusal)
  /-- The storage is prepared, but the manifest or its reference copy was not written. -/
  | unwritten (configFile : Path) (fault : FileFault)
  deriving DecidableEq, Repr

/-- Answer to a setup. -/
structure SetupAnswer where
  outcome : SetupOutcome
  /-- What was passed over when the schema was assembled. -/
  warnings : List SchemaWarning

namespace SetupAnswer

def success (a : SetupAnswer) : Bool :=
  match a.outcome with
  | .done .. => true
  | _ => false

def message (a : SetupAnswer) : String :=
  match a.outcome with
  | .done .. => "Users system configured successfully"
  | .refused refusal => refusal.message
  | .unwritten configFile fault =>
      "Failed to write config file: " ++ configFile.text ++ "\nError: " ++ fault.message

end SetupAnswer

namespace Registry

/-- A setup may be broken off; the tree as it is by then remains. -/
abbrev Installation := ExceptT Fault (StateM Tree)

namespace Installation

/-- Write a file; says whether that was refused. -/
def write (path : Path) (text : String) : Installation (Option FileFault) := do
  match (← MonadState.get).write path text.toUTF8 with
  | .ok tree =>
      set tree
      return none
  | .error fault => return some fault

/-- Move the manifest in a directory to an archive. -/
def archiveManifest (directory : Path) (now : Moment) : Installation Unit :=
  modify fun tree =>
    let path := directory.child Manifest.fileName
    if tree.isFile path then
      let target := Archive.name Manifest.stem Manifest.ending now (tree.names directory)
      tree.rename path (directory.child target)
    else tree

/-- Write the manifest, then its reference copy; says what was refused. -/
def publish (m : Manifest) (directory : Path) : Installation (Option FileFault) := do
  match ← write (directory.child Manifest.fileName) (← m.document) with
  | some fault => return some fault
  | none => write (directory.child Reference.fileName) (← Reference.render m directory)

/-- Prepare the storage; says whether that was refused. -/
def prepare (backend : Backend) (directory : Path) (schema : Schema) (options : Entries)
    (now : Moment) : Installation (Except Refusal Prepared) := do
  let (result, tree) := (backend.prepare directory schema options now).run (← MonadState.get)
  set tree
  Failure.settle result

def makeDirectory (directory : Path) : Installation Unit := do
  match (← MonadState.get).makeAll directory with
  | .ok tree => set tree
  | .error fault => throw (.unavailable (.noDirectory directory.text fault))

end Installation

/-- Options of a backend in a setup. -/
def optionsOf (backend : Backend) (settings : Entries) : Entries :=
  match backend with
  | .file => [("file_format", .str (formatOption settings))]
  | _ => []

def setup (now : Moment) (config : Value) : Installation SetupAnswer := do
  let settings ← Setup.check config
  let backend ← Setup.backend ((settings.lookup "backend").getD .null)
  let directory ← Path.ofValue ((settings.lookup "storage_dir").getD .null)
  Installation.makeDirectory directory
  let (schema, warnings) ← Schema.assemble config
  let options := optionsOf backend settings
  match ← Installation.prepare backend directory schema options now with
  | .error refusal => return ⟨.refused refusal, warnings⟩
  | .ok prepared =>
      let manifest : Manifest :=
        { backend := backend.name, state := prepared.state, schema, generated := now.stamp, options }
      let configFile := directory.child Manifest.fileName
      -- only now is the former manifest moved: a refused storage leaves it in place
      Installation.archiveManifest directory now
      match ← Installation.publish manifest directory with
      | some fault => return ⟨.unwritten configFile fault, warnings⟩
      | none =>
          let referenceFile := directory.child Reference.fileName
          return ⟨.done configFile referenceFile prepared.archivedTo, warnings⟩

/-! ## Loading -/

def readManifest (tree : Tree) (path : Path) : Except Fault Manifest :=
  if tree.isFile path then
    match tree.read path with
    | .ok octets => Manifest.ofOctets path.text octets
    | .error fault => .error (.configuration (.unreadable path.text fault.message))
  else .error (.configuration (.fileMissing path.text))

/-- Validation is bypassed: as the caller says, or else as the environment says. -/
def bypassOf (skip : Value) (setting : Option String) : Bool :=
  match skip with
  | .null => Settings.skipsValidation setting
  | v => v.isGiven

/-- Load a registry and open its store. -/
def load (tree : Tree) (setting : Option String) (file skip : Value) :
    Except Fault (Registry × Store) := do
  let path ← Path.ofValue file
  let manifest ← readManifest tree path
  let backend ← Setup.backend (.str manifest.backend)
  let store ← Store.attach backend manifest.state tree
  let configFile := if file.isGiven then some path else none
  return ({ manifest, bypass := bypassOf skip setting, configFile }, store)

end Registry
end Roster
