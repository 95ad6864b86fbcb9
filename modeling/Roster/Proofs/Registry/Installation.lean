import Roster.Proofs.Schema.Assembly
import Roster.Proofs.Storage.Tree
import Roster.Registry.Setup

/-!
# Steps of setups

A setup looks at what it is asked for, makes the directory, assembles the schema, prepares the
storage, moves the manifest out of the way and writes the new one with its reference copy.
-/

namespace Roster

namespace Registry

/-!
## Steps of a setup
-/

namespace Installation

theorem run_lift {ε α : Type} [MonadLift (Except ε) (Except Fault)] {x : Except ε α} {t t' : Tree}
    {result : Except Fault α} (h : (liftM x : Installation α).run t = (result, t')) :
    (MonadLift.monadLift x : Except Fault α) = result ∧ t = t' := by
  have hrun := Steps.run_liftM (MonadLift.monadLift x : Except Fault α) t
  exact Prod.mk.inj (hrun.symm.trans h)

theorem run_lift_ok {ε α : Type} [MonadLift (Except ε) (Except Fault)] {x : Except ε α} {a : α}
    (h : (MonadLift.monadLift x : Except Fault α) = .ok a) (t : Tree) :
    (liftM x : Installation α).run t = (.ok a, t) :=
  (Steps.run_liftM (MonadLift.monadLift x : Except Fault α) t).trans (by rw [h])

theorem run_makeDirectory (directory : Path) (t : Tree) :
    (makeDirectory directory).run t =
      match t.makeAll directory with
      | .ok made => (.ok (), made)
      | .error fault => (.error (.unavailable (.noDirectory directory.text fault)), t) := by
  rw [makeDirectory, Steps.run_bind, Steps.run_get]
  dsimp only
  cases t.makeAll directory with
  | ok made => rfl
  | error fault => rfl

theorem run_prepare (backend : Backend) (directory : Path) (schema : Schema) (options : Entries)
    (now : Moment) (t : Tree) :
    (prepare backend directory schema options now).run t =
      let (result, t') := (backend.prepare directory schema options now).run t
      (Failure.settle result, t') := by
  rw [prepare, Steps.run_bind, Steps.run_get]
  dsimp only
  rcases (backend.prepare directory schema options now).run t with ⟨result, t'⟩
  dsimp only
  rw [Steps.run_bind, Steps.run_set]
  dsimp only
  rw [Steps.run_liftM]

theorem run_write (path : Path) (text : String) (t : Tree) :
    (write path text).run t =
      match t.write path text.toUTF8 with
      | .ok written => (.ok none, written)
      | .error fault => (.ok (some fault), t) := by
  rw [write, Steps.run_bind, Steps.run_get]
  dsimp only
  cases t.write path text.toUTF8 with
  | ok written => rfl
  | error fault => rfl

/-- The tree in which the manifest was moved to an archive, if there was one. -/
def clearManifest (directory : Path) (now : Moment) (t : Tree) : Tree :=
  if t.isFile (directory.child Manifest.fileName) then
    t.rename (directory.child Manifest.fileName) (directory.child
      (Archive.name Manifest.stem Manifest.ending now (t.names directory)))
  else t

theorem run_archiveManifest (directory : Path) (now : Moment) (t : Tree) :
    (archiveManifest directory now).run t = (.ok ⟨⟩, clearManifest directory now t) := by
  rw [archiveManifest, Steps.run_modify]
  rfl

/-- The manifest and its reference copy were written. -/
def Published (m : Manifest) (directory : Path) (t t' : Tree) : Prop :=
  ∃ (document reference : String) (written : Tree), m.document = .ok document ∧
    t.write (directory.child Manifest.fileName) document.toUTF8 = .ok written ∧
    written.write (directory.child Reference.fileName) reference.toUTF8 = .ok t'

theorem publish_eq_none {m : Manifest} {directory : Path} {t t' : Tree}
    (h : (publish m directory).run t = (.ok none, t')) : Published m directory t t' := by
  rcases Steps.run_bind_cases h with ⟨fault, -, hnever⟩ | ⟨document, t₁, hdocument, h⟩
  · cases hnever
  rcases run_lift hdocument with ⟨hlifted, rfl⟩
  rw [Steps.run_bind, run_write] at h
  cases hwritten : t.write (directory.child Manifest.fileName) document.toUTF8 with
  | error fault =>
      rw [hwritten] at h
      cases h
  | ok written =>
      rw [hwritten] at h
      dsimp only at h
      rcases Steps.run_bind_cases h with ⟨fault, -, hnever⟩ | ⟨reference, t₂, hreference, h⟩
      · cases hnever
      rcases run_lift hreference with ⟨-, rfl⟩
      rw [run_write] at h
      cases hlast : written.write (directory.child Reference.fileName) reference.toUTF8 with
      | error fault =>
          rw [hlast] at h
          cases h
      | ok both =>
          rw [hlast] at h
          cases h
          exact ⟨document, reference, written, Steps.mapError_eq_ok.mp hlifted, hwritten, hlast⟩

/-- The manifest and its reference copy can always be put into text; what is refused is only to write
one of the two. -/
theorem run_publish {m : Manifest} (directory : Path) (hschema : m.schema.Sound) :
    ∃ document reference : String, ∀ t, (publish m directory).run t =
      match t.write (directory.child Manifest.fileName) document.toUTF8 with
      | .error fault => (.ok (some fault), t)
      | .ok written =>
          match written.write (directory.child Reference.fileName) reference.toUTF8 with
          | .error fault => (.ok (some fault), written)
          | .ok both => (.ok none, both) := by
  have hdefined := hschema.defined_eq
  have hdocument : ∃ text, m.document = .ok text := by
    rw [Manifest.document, Manifest.toEntries, Schema.toEntries, hdefined]
    exact ⟨_, rfl⟩
  have hreference : ∃ text, Reference.render m directory = .ok text := by
    rw [Reference.render, Reference.content, hdefined]
    exact ⟨_, rfl⟩
  rcases hdocument with ⟨document, hdocument⟩
  rcases hreference with ⟨reference, hreference⟩
  have hlift : ∀ (text : String) (t : Tree),
      (liftM (.ok text : Except ValueFault String) : Installation String).run t = (.ok text, t) :=
    fun _ _ => rfl
  refine ⟨document, reference, fun t => ?_⟩
  rw [publish, hdocument, hreference, Steps.run_bind, hlift]
  dsimp only
  rw [Steps.run_bind, run_write]
  cases t.write (directory.child Manifest.fileName) document.toUTF8 with
  | error refused => rfl
  | ok written =>
      dsimp only
      rw [Steps.run_bind, hlift]
      dsimp only
      rw [run_write]
      cases written.write (directory.child Reference.fileName) reference.toUTF8 with
      | error refused => rfl
      | ok both => rfl

theorem publish_ne_error {m : Manifest} {directory : Path} {t t' : Tree} {fault : Fault}
    (hschema : m.schema.Sound) : (publish m directory).run t ≠ (.error fault, t') := by
  rcases run_publish directory hschema with ⟨document, reference, hrun⟩
  rw [hrun]
  split
  · exact fun h => nomatch h
  · split
    · exact fun h => nomatch h
    · exact fun h => nomatch h

end Installation

/-!
## Plans
-/

/-- What a setup asks for: its settings, the backend and the directory. -/
def plan (config : Value) : Except Fault (Entries × Backend × Path) := do
  let settings ← Setup.check config
  let backend ← Setup.backend ((settings.lookup "backend").getD .null)
  let directory ← Path.ofValue ((settings.lookup "storage_dir").getD .null)
  return (settings, backend, directory)

def manifestOf (now : Moment) (settings : Entries) (backend : Backend) (schema : Schema)
    (prepared : Prepared) : Manifest where
  backend := backend.name
  state := prepared.state
  schema := schema
  generated := now.stamp
  options := optionsOf backend settings

/-!
## Runs of a setup
-/

/-- A setup has come to the preparation of the storage. -/
structure IsReady (config : Value) (t : Tree) (settings : Entries) (backend : Backend)
    (directory : Path) (schema : Schema) (warnings : List SchemaWarning) (made : Tree) : Prop where
  plan : plan config = .ok (settings, backend, directory)
  made : t.makeAll directory = .ok made
  schema : Schema.assemble config = .ok (schema, warnings)

/-- The storage of a setup was prepared, and the manifest that was there is out of the way. -/
def IsPrepared (now : Moment) (settings : Entries) (backend : Backend) (directory : Path)
    (schema : Schema) (made : Tree) (prepared : Prepared) (cleared : Tree) : Prop :=
  ∃ stored, (backend.prepare directory schema (optionsOf backend settings) now).run made =
      (.ok prepared, stored) ∧ cleared = Installation.clearManifest directory now stored

/-- The step that ends a run of a setup, with what ends it and the tree that is left. -/
inductive SetupRun (now : Moment) (config : Value) (t : Tree) :
    Except Fault SetupAnswer → Tree → Prop where
  | unplanned {fault : Fault} (hplan : plan config = .error fault) :
      SetupRun now config t (.error fault) t
  | unplaced {settings : Entries} {backend : Backend} {directory : Path} {fault : FileFault}
      (hplan : plan config = .ok (settings, backend, directory))
      (hmake : t.makeAll directory = .error fault) :
      SetupRun now config t (.error (.unavailable (.noDirectory directory.text fault))) t
  | unassembled {settings : Entries} {backend : Backend} {directory : Path} {made : Tree}
      {fault : ValueFault} (hplan : plan config = .ok (settings, backend, directory))
      (hmade : t.makeAll directory = .ok made) (hassemble : Schema.assemble config = .error fault) :
      SetupRun now config t (.error (.value fault)) made
  | broken {settings : Entries} {backend : Backend} {directory : Path} {schema : Schema}
      {warnings : List SchemaWarning} {made left : Tree} {fault : Fault}
      (hready : IsReady config t settings backend directory schema warnings made)
      (hprepare : (backend.prepare directory schema (optionsOf backend settings) now).run made =
        (.error (.broken fault), left)) :
      SetupRun now config t (.error fault) left
  | refused {settings : Entries} {backend : Backend} {directory : Path} {schema : Schema}
      {warnings : List SchemaWarning} {made left : Tree} {refusal : Refusal}
      (hready : IsReady config t settings backend directory schema warnings made)
      (hprepare : (backend.prepare directory schema (optionsOf backend settings) now).run made =
        (.error (.refused refusal), left)) :
      SetupRun now config t (.ok ⟨.refused refusal, warnings⟩) left
  | unwritten {settings : Entries} {backend : Backend} {directory : Path} {schema : Schema}
      {warnings : List SchemaWarning} {made cleared left : Tree} {prepared : Prepared}
      {fault : FileFault}
      (hready : IsReady config t settings backend directory schema warnings made)
      (hprepared : IsPrepared now settings backend directory schema made prepared cleared)
      (hpublish : (Installation.publish (manifestOf now settings backend schema prepared)
        directory).run cleared = (.ok (some fault), left)) :
      SetupRun now config t (.ok ⟨.unwritten (directory.child Manifest.fileName) fault, warnings⟩)
        left
  | done {settings : Entries} {backend : Backend} {directory : Path} {schema : Schema}
      {warnings : List SchemaWarning} {made cleared left : Tree} {prepared : Prepared}
      (hready : IsReady config t settings backend directory schema warnings made)
      (hprepared : IsPrepared now settings backend directory schema made prepared cleared)
      (hpublish : (Installation.publish (manifestOf now settings backend schema prepared)
        directory).run cleared = (.ok none, left)) :
      SetupRun now config t (.ok ⟨.done (directory.child Manifest.fileName)
        (directory.child Reference.fileName) prepared.archivedTo, warnings⟩) left

section Run

variable {now : Moment} {config : Value} {t t' : Tree} {result : Except Fault SetupAnswer}

/-- The last part of a setup: its storage is prepared, then its manifest is written. -/
def furnish (now : Moment) (settings : Entries) (backend : Backend) (directory : Path)
    (schema : Schema) (warnings : List SchemaWarning) : Installation SetupAnswer := do
  match ← Installation.prepare backend directory schema (optionsOf backend settings) now with
  | .error refusal => return ⟨.refused refusal, warnings⟩
  | .ok prepared =>
      Installation.archiveManifest directory now
      match ← Installation.publish (manifestOf now settings backend schema prepared) directory with
      | some fault => return ⟨.unwritten (directory.child Manifest.fileName) fault, warnings⟩
      | none => return ⟨.done (directory.child Manifest.fileName)
          (directory.child Reference.fileName) prepared.archivedTo, warnings⟩

/-- A setup that has come to the preparation of its storage ends there or with its manifest. -/
theorem IsReady.run_furnish {settings : Entries} {backend : Backend} {directory : Path}
    {schema : Schema} {warnings : List SchemaWarning} {made : Tree}
    (hready : IsReady config t settings backend directory schema warnings made)
    (hrun : (furnish now settings backend directory schema warnings).run made = (result, t')) :
    SetupRun now config t result t' := by
  rw [furnish, Steps.run_bind, Installation.run_prepare] at hrun
  rcases hprepare : (backend.prepare directory schema (optionsOf backend settings) now).run made
    with ⟨prepared, stored⟩
  rw [hprepare] at hrun
  cases prepared with
  | error failure =>
      cases failure with
      | refused refusal =>
          cases hrun
          exact .refused hready hprepare
      | broken fault =>
          cases hrun
          exact .broken hready hprepare
  | ok prepared =>
      dsimp only [Failure.settle] at hrun
      rw [Steps.run_bind, Installation.run_archiveManifest] at hrun
      dsimp only at hrun
      have hprepared : IsPrepared now settings backend directory schema made prepared _ :=
        ⟨stored, hprepare, rfl⟩
      rcases Steps.run_bind_cases hrun with ⟨fault, hpublish, -⟩ | ⟨refused?, last, hpublish, hrun⟩
      · exact absurd hpublish (Installation.publish_ne_error (Schema.assemble_sound hready.schema))
      · cases refused? with
        | some fault =>
            cases hrun
            exact .unwritten hready hprepared hpublish
        | none =>
            cases hrun
            exact .done hready hprepared hpublish

/-- Every run of a setup ends with one of its steps. -/
theorem setup_run (hrun : (setup now config).run t = (result, t')) :
    SetupRun now config t result t' := by
  unfold setup at hrun
  rcases Steps.run_bind_cases hrun with ⟨fault, hcheck, rfl⟩ | ⟨settings, t₁, hcheck, hrun⟩
  · rcases Installation.run_lift hcheck with ⟨hrefused, rfl⟩
    exact .unplanned (Steps.bind_eq_error.mpr (Or.inl hrefused))
  -- The first three steps only look at the configuration; together they are the plan.
  rcases Installation.run_lift hcheck with ⟨hsettings, rfl⟩
  rcases Steps.run_bind_cases hrun with ⟨fault, hnamed, rfl⟩ | ⟨backend, t₁, hnamed, hrun⟩
  · rcases Installation.run_lift hnamed with ⟨hrefused, rfl⟩
    exact .unplanned (Steps.bind_eq_error.mpr (Or.inr ⟨settings, hsettings,
      Steps.bind_eq_error.mpr (Or.inl hrefused)⟩))
  rcases Installation.run_lift hnamed with ⟨hbackend, rfl⟩
  rcases Steps.run_bind_cases hrun with ⟨fault, hwhere, rfl⟩ | ⟨directory, t₁, hwhere, hrun⟩
  · rcases Installation.run_lift hwhere with ⟨hrefused, rfl⟩
    exact .unplanned (Steps.bind_eq_error.mpr (Or.inr ⟨settings, hsettings,
      Steps.bind_eq_error.mpr (Or.inr ⟨backend, hbackend,
        Steps.bind_eq_error.mpr (Or.inl hrefused)⟩)⟩))
  rcases Installation.run_lift hwhere with ⟨hdirectory, rfl⟩
  have hplan : plan config = .ok (settings, backend, directory) :=
    Steps.bind_eq_ok.mpr ⟨settings, hsettings,
      Steps.bind_eq_ok.mpr ⟨backend, hbackend, Steps.bind_eq_ok.mpr ⟨directory, hdirectory, rfl⟩⟩⟩
  rw [Steps.run_bind, Installation.run_makeDirectory] at hrun
  cases hmake : t.makeAll directory with
  | error fault =>
      rw [hmake] at hrun
      cases hrun
      exact .unplaced hplan hmake
  | ok made =>
      rw [hmake] at hrun
      dsimp only at hrun
      rcases Steps.run_bind_cases hrun with
        ⟨fault, hschema, rfl⟩ | ⟨⟨schema, warnings⟩, t₁, hschema, hrun⟩
      · rcases Installation.run_lift hschema with ⟨hlifted, rfl⟩
        rcases Steps.mapError_eq_error.mp hlifted with ⟨fault, hassemble, rfl⟩
        exact .unassembled hplan hmake hassemble
      · rcases Installation.run_lift hschema with ⟨hlifted, rfl⟩
        exact IsReady.run_furnish ⟨hplan, hmake, Steps.mapError_eq_ok.mp hlifted⟩ hrun

theorem setup_done {configFile referenceFile : Path} {archivedTo : Option String}
    {warnings : List SchemaWarning}
    (hrun : (setup now config).run t =
      (.ok ⟨.done configFile referenceFile archivedTo, warnings⟩, t')) :
    ∃ settings backend directory made schema prepared stored,
      plan config = .ok (settings, backend, directory) ∧
      t.makeAll directory = .ok made ∧
      Schema.assemble config = .ok (schema, warnings) ∧
      (backend.prepare directory schema (optionsOf backend settings) now).run made =
        (.ok prepared, stored) ∧
      Installation.Published (manifestOf now settings backend schema prepared) directory
        (Installation.clearManifest directory now stored) t' ∧
      configFile = directory.child Manifest.fileName ∧
      referenceFile = directory.child Reference.fileName ∧ archivedTo = prepared.archivedTo := by
  cases setup_run hrun with
  | done hready hprepared hpublish =>
      rcases hprepared with ⟨stored, hprepare, rfl⟩
      exact ⟨_, _, _, _, _, _, stored, hready.plan, hready.made, hready.schema, hprepare,
        Installation.publish_eq_none hpublish, rfl, rfl, rfl⟩

end Run

theorem setup_eq_done {now : Moment} {config : Value} {settings : Entries} {backend : Backend}
    {directory : Path} {schema : Schema} {warnings : List SchemaWarning} {prepared : Prepared}
    {t made stored t' : Tree} (hplan : plan config = .ok (settings, backend, directory))
    (hmade : t.makeAll directory = .ok made)
    (hassemble : Schema.assemble config = .ok (schema, warnings))
    (hprepare : (backend.prepare directory schema (optionsOf backend settings) now).run made =
      (.ok prepared, stored))
    (hpublish : (Installation.publish (manifestOf now settings backend schema prepared)
      directory).run (Installation.clearManifest directory now stored) = (.ok none, t')) :
    (setup now config).run t = (.ok ⟨.done (directory.child Manifest.fileName)
      (directory.child Reference.fileName) prepared.archivedTo, warnings⟩, t') := by
  rcases Steps.bind_eq_ok.mp hplan with ⟨_, hsettings, hplan⟩
  rcases Steps.bind_eq_ok.mp hplan with ⟨_, hbackend, hplan⟩
  rcases Steps.bind_eq_ok.mp hplan with ⟨_, hdirectory, hplan⟩
  cases hplan
  have hcheck : (liftM (Setup.check config) : Installation Entries).run t = (.ok settings, t) :=
    Installation.run_lift_ok hsettings t
  have hnamed : (liftM (Setup.backend ((settings.lookup "backend").getD .null)) :
      Installation Backend).run t = (.ok backend, t) := Installation.run_lift_ok hbackend t
  have hwhere : (liftM (Path.ofValue ((settings.lookup "storage_dir").getD .null)) :
      Installation Path).run t = (.ok directory, t) := Installation.run_lift_ok hdirectory t
  have hschema : (liftM (Schema.assemble config) :
      Installation (Schema × List SchemaWarning)).run made = (.ok (schema, warnings), made) :=
    Installation.run_lift_ok (Steps.mapError_eq_ok.mpr hassemble) made
  unfold manifestOf at hpublish
  unfold setup
  rw [Steps.run_bind, hcheck]
  dsimp only
  rw [Steps.run_bind, hnamed]
  dsimp only
  rw [Steps.run_bind, hwhere]
  dsimp only
  rw [Steps.run_bind, Installation.run_makeDirectory, hmade]
  dsimp only
  rw [Steps.run_bind, hschema]
  dsimp only
  rw [Steps.run_bind, Installation.run_prepare, hprepare]
  dsimp only [Failure.settle]
  rw [Steps.run_bind, Installation.run_archiveManifest]
  dsimp only
  rw [Steps.run_bind, hpublish]
  rfl

/-!
## Loading
-/

theorem load_eq_ok {t : Tree} {setting : Option String} {file skip : Value} {r : Registry}
    {store : Store} :
    load t setting file skip = .ok (r, store) ↔
      ∃ path backend, Path.ofValue file = .ok path ∧ readManifest t path = .ok r.manifest ∧
        Setup.backend (.str r.manifest.backend) = .ok backend ∧
        Store.attach backend r.manifest.state t = .ok store ∧ r.bypass = bypassOf skip setting ∧
        r.configFile = if file.isGiven then some path else none := by
  constructor
  · intro h
    rcases Steps.bind_eq_ok.mp h with ⟨path, hpath, h⟩
    rcases Steps.bind_eq_ok.mp h with ⟨manifest, hmanifest, h⟩
    rcases Steps.bind_eq_ok.mp h with ⟨backend, hbackend, h⟩
    rcases Steps.bind_eq_ok.mp h with ⟨opened, hopened, h⟩
    cases h
    exact ⟨path, backend, Steps.mapError_eq_ok.mp hpath, hmanifest,
      Steps.mapError_eq_ok.mp hbackend, hopened, rfl, rfl⟩
  · rintro ⟨path, backend, hpath, hmanifest, hbackend, hopened, hbypass, hfile⟩
    refine Steps.bind_eq_ok.mpr ⟨path, Steps.mapError_eq_ok.mpr hpath, ?_⟩
    refine Steps.bind_eq_ok.mpr ⟨r.manifest, hmanifest, ?_⟩
    refine Steps.bind_eq_ok.mpr ⟨backend, Steps.mapError_eq_ok.mpr hbackend, ?_⟩
    refine Steps.bind_eq_ok.mpr ⟨store, hopened, ?_⟩
    rw [← hbypass, ← hfile]
    rfl

end Registry
end Roster
