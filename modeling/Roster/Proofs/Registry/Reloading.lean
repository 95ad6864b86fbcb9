import Roster.Proofs.Manifest.RoundTrip
import Roster.Proofs.Registry.Installation
import Roster.Proofs.Storage.Sound
import Roster.Proofs.Store.Place

/-!
# Registries are loaded from what a setup wrote

After a setup the registry is loaded with the manifest that was written.  Its schema is the one
that was assembled, except for further attributes that a definition has under their key.
-/

namespace Roster

theorem Path.exists_ofText {v : Value} {p : Path} (h : ofValue v = .ok p) :
    ∃ text, p = ofText text := by
  cases v with
  | str text =>
      cases h
      exact ⟨text, rfl⟩
  | _ => cases h

/-!
## Where prepared storage is
-/

namespace Store

/-- Names in a directory under which stores keep their records. -/
def placeNames : List String :=
  [Sheet.fileName .tsv, Sheet.fileName .csv, Documents.directoryName, TableStore.fileName]

theorem ne_manifest {name : String} (h : name ∈ placeNames) :
    name ≠ ".." ∧ name ≠ Manifest.fileName ∧ name ≠ Reference.fileName ∧
      ∀ rest, name ≠ Manifest.stem ++ "_" ++ rest := by
  have hnames : ∀ name ∈ placeNames, name ≠ ".." ∧ name ≠ Manifest.fileName ∧
      name ≠ Reference.fileName ∧
      (Manifest.stem ++ "_").toList.isPrefixOf name.toList = false := by
    decide
  rcases hnames name h with ⟨hdots, hfile, hcopy, hstem⟩
  refine ⟨hdots, hfile, hcopy, ?_⟩
  rintro rest rfl
  rw [Bool.eq_false_iff, Ne, List.isPrefixOf_iff_prefix] at hstem
  exact hstem ⟨rest.toList, String.toList_append.symm⟩

end Store

/-- A store can be opened on storage that was prepared, whatever the names of the fields. -/
theorem Backend.attach_of_prepare {backend : Backend} {text : String} {schema : Schema}
    {options : Entries} {now : Moment} {tree tree' : Tree} {prepared : Prepared}
    (hschema : schema.Sound) (hsound : tree.IsSound)
    (hdirectory : tree.isDirectory (.ofText text) = true)
    (h : (backend.prepare (.ofText text) schema options now).run tree = (.ok prepared, tree')) :
    ∃ store, Store.attach backend prepared.state tree' = .ok store ∧
      ∃ name ∈ Store.placeNames, store.place = (Path.ofText text).child name := by
  have hplain := Path.isPlain_ofText text
  cases backend with
  | database =>
      rcases TableStore.attach_of_prepare hplain hsound h with ⟨serial, columns, made, -, hattach, -⟩
      exact ⟨.table _, Steps.map_eq_ok.mpr ⟨_, hattach, rfl⟩, _, by decide, rfl⟩
  | file =>
      rcases Sheet.holds_of_prepare h with ⟨s, hplace, -, hstate, -, hfile⟩
      have hattach : Sheet.attach prepared.state tree' = .ok s := by
        rw [hstate]
        exact Sheet.attach_state (hplace ▸ hplain)
          (Tree.isFile_of_find? hfile fun heq => nomatch heq)
      refine ⟨.sheet s, Steps.map_eq_ok.mpr ⟨_, hattach, rfl⟩, Sheet.fileName s.format, ?_, ?_⟩
      · cases s.format <;> decide
      · rw [← hplace]
        rfl
  | yaml =>
      rcases Documents.holds_of_prepare hsound hdirectory (Preparation.run_ofChange_eq_ok.mp h) with
        ⟨hstate, hholds⟩
      refine ⟨.documents ⟨(Path.ofText text).child Documents.directoryName, schema.fields⟩, ?_,
        _, by decide, rfl⟩
      rw [Store.attach, hstate, Documents.attach_stateIn hplain hschema.ne_nil hholds]
      rfl

theorem Backend.isDocument_state {backend : Backend} {text : String} {schema : Schema}
    {options : Entries} {now : Moment} {tree tree' : Tree} {prepared : Prepared}
    (h : (backend.prepare (.ofText text) schema options now).run tree = (.ok prepared, tree')) :
    (Value.map prepared.state).IsDocument ∧ prepared.state ≠ [] := by
  cases backend with
  | database =>
      rcases TableStore.prepare_eq_ok h with ⟨serial?, db, reached, columns, made, -, -, -, rfl, -⟩
      refine ⟨.map ?_ ?_, List.cons_ne_nil _ _⟩
      · show (["storage_dir", "db_file", "db_full_path", "table_name"] : List String).Nodup
        decide
      · simp only [TableStore.stateIn, List.forall_mem_cons]
        exact ⟨.str _, .str _, .str _, .str _, List.forall_mem_nil _⟩
  | file =>
      rcases Sheet.holds_of_prepare h with ⟨s, -, -, hstate, -, -⟩
      rw [hstate]
      refine ⟨.map ?_ ?_, List.cons_ne_nil _ _⟩
      · show (["storage_dir", "file_format", "file_name", "file_full_path"] : List String).Nodup
        decide
      · simp only [Sheet.state, List.forall_mem_cons]
        exact ⟨.str _, .str _, .str _, .str _, List.forall_mem_nil _⟩
  | yaml =>
      rcases Steps.bind_eq_ok.mp (Preparation.run_ofChange_eq_ok.mp h) with ⟨put, -, hput⟩
      cases hput
      refine ⟨.map ?_ ?_, List.cons_ne_nil _ _⟩
      · show (["storage_dir", "records_dir", "fields"] : List String).Nodup
        decide
      · simp only [List.forall_mem_cons]
        refine ⟨.str _, .str _, .list fun v hv => ?_, List.forall_mem_nil _⟩
        rcases List.mem_map.mp hv with ⟨name, -, rfl⟩
        exact .str name

namespace Registry
namespace Installation

/-!
## What the manifest takes the place of
-/

theorem find?_clearManifest {directory : Path} {now : Moment} {t : Tree} {name : String}
    (hfile : name ≠ Manifest.fileName)
    (harchive : ∀ rest, name ≠ Manifest.stem ++ "_" ++ rest) :
    (clearManifest directory now t).find? (directory.key ++ [name]) =
      t.find? (directory.key ++ [name]) := by
  have hapart : ∀ {other : String}, other ≠ ".." → name ≠ other →
      ¬(directory.child other).key <+: directory.key ++ [name] := by
    intro other hdots hne hprefix
    rw [Path.key_child hdots, List.prefix_append_right_inj, List.cons_prefix_cons] at hprefix
    exact hne hprefix.1.symm
  rw [clearManifest]
  split
  · rcases Archive.exists_name_eq Manifest.stem Manifest.ending now (t.names directory) with
      ⟨rest, hrest⟩
    have hdots := (Archive.name_ne (show 2 ≤ Manifest.stem.toList.length by decide)
      Manifest.ending now (t.names directory)).2.1
    exact Tree.find?_rename (hapart (by decide) hfile)
      (hapart hdots (hrest ▸ harchive rest))
  · rfl

theorem Published.find? {m : Manifest} {directory : Path} {t t' : Tree}
    (h : Published m directory t t') :
    (∃ text, m.document = .ok text ∧
      t'.find? (directory.key ++ [Manifest.fileName]) = some (.file text.toUTF8)) ∧
    ∀ key, key ≠ directory.key ++ [Manifest.fileName] → key ≠ directory.key ++ [Reference.fileName] →
      t'.find? key = t.find? key := by
  rcases h with ⟨document, reference, written, hdocument, hwrite, hreference⟩
  rcases Tree.write_eq_ok hwrite with ⟨-, rfl⟩
  rcases Tree.write_eq_ok hreference with ⟨-, rfl⟩
  have hmanifest : (directory.child Manifest.fileName).key =
      directory.key ++ [Manifest.fileName] := Path.key_child (by decide) directory
  have hcopy : (directory.child Reference.fileName).key =
      directory.key ++ [Reference.fileName] := Path.key_child (by decide) directory
  rw [hmanifest, hcopy]
  have hmanifestKey : Tree.IsEntryKey (directory.key ++ [Manifest.fileName]) :=
    Tree.isEntryKey_append (by decide)
  have hcopyKey : Tree.IsEntryKey (directory.key ++ [Reference.fileName]) :=
    Tree.isEntryKey_append (by decide)
  refine ⟨⟨document, hdocument, ?_⟩, fun key hkey hcopied => ?_⟩
  · rw [Tree.find?_put_of_ne hcopyKey, Tree.find?_put_self hmanifestKey]
    rw [Ne, List.append_singleton_inj, not_and]
    exact fun _ => by decide
  · rw [Tree.find?_put_of_ne hcopyKey _ hcopied, Tree.find?_put_of_ne hmanifestKey _ hkey]

end Installation

/-!
## Loading after a setup
-/

theorem isStorable_manifestOf {now : Moment} {settings : Entries} {backend : Backend}
    {schema : Schema} {prepared : Prepared} (hschema : schema.IsStorable) (hsound : schema.Sound)
    (hstate : (Value.map prepared.state).IsDocument) (hne : prepared.state ≠ []) :
    (manifestOf now settings backend schema prepared).IsStorable where
  version := by
    show "1.0" ≠ ""
    decide
  backend := by
    show backend.name ≠ ""
    cases backend <;> decide
  state := hstate
  state_ne := hne
  options := by
    cases backend with
    | file =>
        refine .map (List.nodup_singleton _) fun entry hentry => ?_
        rw [List.mem_singleton.mp hentry]
        exact .str _
    | database => exact .map List.nodup_nil fun entry hentry => nomatch hentry
    | yaml => exact .map List.nodup_nil fun entry hentry => nomatch hentry
  schema := hschema
  sound := hsound

theorem exists_ofText_of_plan {config : Value} {settings : Entries} {backend : Backend}
    {directory : Path} (h : plan config = .ok (settings, backend, directory)) :
    ∃ text, directory = .ofText text := by
  rcases Steps.bind_eq_ok.mp h with ⟨_, -, h⟩
  rcases Steps.bind_eq_ok.mp h with ⟨_, -, h⟩
  rcases Steps.bind_eq_ok.mp h with ⟨_, hdirectory, h⟩
  cases h
  exact Path.exists_ofText (Steps.mapError_eq_ok.mp hdirectory)

theorem setup_backend_name (backend : Backend) : Setup.backend (.str backend.name) = .ok backend := by
  cases backend <;> decide +kernel

theorem readManifest_of_published {m : Manifest} (hm : m.IsStorable) {directory path : Path}
    {t t' : Tree} (h : Installation.Published m directory t t')
    (hpath : path.key = directory.key ++ [Manifest.fileName]) :
    readManifest t' path = .ok m.reread := by
  rcases h.find? with ⟨⟨document, hdocument, hfile⟩, -⟩
  rcases hm.ofOctets_document path.text with ⟨written, hwritten, hoctets⟩
  rw [hdocument] at hwritten
  cases hwritten
  rw [← hpath] at hfile
  rw [readManifest, if_pos (Tree.isFile_of_find? hfile fun heq => nomatch heq),
    Tree.read_of_find? hfile]
  exact hoctets

/-- After a setup the manifest that was written is read again, and the store is opened. -/
theorem exists_load_of_setup {now : Moment} {config : Value} {t t' : Tree}
    {configFile referenceFile : Path} {archivedTo : Option String} {warnings : List SchemaWarning}
    (hconfig : config.IsDocument) (hsound : t.IsSound)
    (hrun : (setup now config).run t =
      (.ok ⟨.done configFile referenceFile archivedTo, warnings⟩, t'))
    (setting : Option String) (skip : Value) :
    ∃ (m : Manifest) (store : Store), m.IsStorable ∧
      Schema.assemble config = .ok (m.schema, warnings) ∧
      (∃ text, m.document = .ok text ∧ t'.read configFile = .ok text.toUTF8) ∧
      load t' setting (.str configFile.text) skip =
        .ok (⟨m.reread, bypassOf skip setting, some configFile⟩, store) := by
  rcases setup_done hrun with ⟨settings, backend, directory, made, schema, prepared, stored, hplan,
    hmade, hassemble, hprepare, hpublished, rfl, -, -⟩
  have hschema : schema.IsStorable := Schema.isStorable_of_assemble hconfig hassemble
  have hschemaSound := Schema.assemble_sound hassemble
  obtain ⟨text, rfl⟩ := exists_ofText_of_plan hplan
  have hplain := Path.isPlain_ofText text
  rcases Backend.attach_of_prepare hschemaSound (hsound.makeAll hplain hmade)
    (Tree.isDirectory_of_makeAll hmade) hprepare with ⟨store, hattach, name, hname, hplace⟩
  rcases Backend.isDocument_state hprepare with ⟨hstate, hstateNe⟩
  have hm : (manifestOf now settings backend schema prepared).IsStorable :=
    isStorable_manifestOf hschema hschemaSound hstate hstateNe
  rcases hpublished.find? with ⟨⟨document, hdocument, hfile⟩, hothers⟩
  have hkey := Path.key_child (show Manifest.fileName ≠ ".." by decide) (Path.ofText text)
  rw [← hkey] at hfile
  -- The store is where neither the manifest nor its archive is.
  have hopened : Store.attach backend prepared.state t' = .ok store := by
    rcases Store.ne_manifest hname with ⟨hdots, hmanifest, hcopy, harchive⟩
    refine Store.attach_of_find? hattach ?_
    rw [hplace, Path.key_child hdots, hothers, Installation.find?_clearManifest hmanifest harchive]
    · rw [Ne, List.append_singleton_inj, not_and]
      exact fun _ => hmanifest
    · rw [Ne, List.append_singleton_inj, not_and]
      exact fun _ => hcopy
  have hread := readManifest_of_published hm hpublished hkey
  have hconfigFile := hplain.child (show Path.IsPart Manifest.fileName by
    simp only [Path.IsPart]
    decide)
  refine ⟨manifestOf now settings backend schema prepared, store, hm, hassemble,
    ⟨document, hdocument, Tree.read_of_find? hfile⟩, ?_⟩
  refine load_eq_ok.mpr ⟨_, backend, hconfigFile.ofValue_text, hread, setup_backend_name backend,
    hopened, rfl, ?_⟩
  rw [if_pos]
  simp [Value.isGiven, hconfigFile.text_ne_empty]

end Registry
end Roster
