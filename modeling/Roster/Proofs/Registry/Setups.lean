import Roster.Proofs.Registry.Archives
import Roster.Proofs.Registry.Writes
import Roster.Proofs.Schema.Accepted

/-!
# Setups at home

A setup at home keeps archives as they are.  It archives what the storage of its backend held and
the manifest before, and what is loaded from the new manifest is at home.
-/

namespace Roster

open Roster.Tree

variable {home : Key} {t t' t'' : Tree}

/-!
## What is held and archived depends on what is at home
-/

theorem Backend.holds_iff_of_same {backend : Backend} {directory : Path} {options : Entries}
    (hsame : ∀ name rest, t'.find? (directory.key ++ name :: rest) =
      t.find? (directory.key ++ name :: rest)) :
    backend.Holds directory options t' ↔ backend.Holds directory options t := by
  cases backend with
  | file =>
      refine exists_congr fun format => exists_congr fun content => and_congr_right fun _ =>
        and_congr_left fun _ => ?_
      have hfile : t'.find? (Sheet.path ⟨directory, format⟩).key =
          t.find? (Sheet.path ⟨directory, format⟩).key := by
        rw [Sheet.path, Path.key_child (Sheet.fileName_ne format).1]
        exact hsame _ []
      exact ⟨fun h => Sheet.read_of_same h hfile.symm, fun h => Sheet.read_of_same h hfile⟩
  | yaml =>
      refine exists_congr fun name => and_congr_right fun _ => ?_
      rw [hsame]
  | database =>
      refine exists_congr fun table => and_congr_left fun _ => ?_
      unfold HasTable
      rw [hsame]

namespace Backend

variable {backend : Backend} {directory : Path} {options : Entries} {archivedTo : String}

theorem Archives.of_same (h : backend.Archives directory options archivedTo t' t'')
    (hsame : ∀ name rest, t'.find? (directory.key ++ name :: rest) =
      t.find? (directory.key ++ name :: rest)) :
    backend.Archives directory options archivedTo t t'' := by
  have hcopy : ∀ {live archive : String}, IsCopy directory.key live archive t' t'' →
      IsCopy directory.key live archive t t'' := fun hcopy =>
    ⟨hcopy.notLive, (hsame _ []).symm.trans hcopy.free,
      fun rest => (hcopy.same rest).trans (hsame _ rest)⟩
  cases backend with
  | file =>
      rcases h with ⟨format, archive, hformat, htext, h⟩
      exact ⟨format, archive, hformat, htext, hcopy h⟩
  | yaml =>
      rcases h with ⟨archive, htext, h⟩
      exact ⟨archive, htext, hcopy h⟩
  | database =>
      have htable : ∀ name table, HasTable directory.key t name table ↔
          HasTable directory.key t' name table := by
        intro name table
        unfold HasTable
        rw [hsame]
      rcases h with ⟨hne, hfree, h⟩
      exact ⟨hne, fun table => (htable _ table).not.mpr (hfree table),
        fun table hmem => h table ((htable _ table).mp hmem)⟩

theorem Archives.keeps (h : backend.Archives directory options archivedTo t t') (ht : t.IsTidy)
    (hheld : backend.Holds directory options t) (hkeeps : Keeps directory.key t' t'') :
    backend.Archives directory options archivedTo t t'' := by
  cases backend with
  | file =>
      rcases h with ⟨format, archive, hformat, htext, hcopy⟩
      rcases hheld with ⟨other, content, hother, hread, -⟩
      cases hformat.symm.trans hother
      rcases Sheet.exists_of_readOr (Steps.mapError_eq_ok.mpr hread :
        Sheet.readOr ⟨directory, format⟩ t .cannotReadFile = _) with ⟨entry, hfind, -⟩
      rw [Sheet.path, Path.key_child (Sheet.fileName_ne format).1] at hfind
      exact ⟨format, archive, hformat, htext,
        hcopy.keeps (by rw [hfind]; exact Option.some_ne_none entry) hkeeps⟩
  | yaml =>
      rcases h with ⟨archive, htext, hcopy⟩
      rcases hheld with ⟨name, hname, hfind⟩
      rw [List.append_cons] at hfind
      have hthere := ht.rooted _ name (Documents.name_of_isDocumentName hname).2 hfind
      exact ⟨archive, htext, hcopy.keeps (by rw [hthere]; exact Option.some_ne_none _) hkeeps⟩
  | database =>
      rcases h with ⟨hne, hfree, hmoved⟩
      exact ⟨hne, hfree, fun table htable => hkeeps.tables _ hne table (hmoved table htable)⟩

end Backend

namespace Registry
namespace Installation

/-!
## The manifest
-/

theorem stays_clearManifest (ht : t.IsHome home) {directory : Path} (hhome : directory.key = home)
    (now : Moment) :
    Stays home t (clearManifest directory now t) ∧
      (clearManifest directory now t).removed = t.removed ∧
      (∀ name ∈ Store.liveNames, name ≠ Manifest.fileName → ∀ rest,
        (clearManifest directory now t).find? (home ++ name :: rest) =
          t.find? (home ++ name :: rest)) ∧
      ∀ octets, t.find? (home ++ [Manifest.fileName]) = some (.file octets) →
        ∃ archive, IsCopy home Manifest.fileName archive t (clearManifest directory now t) := by
  have hkey : (directory.child Manifest.fileName).key = home ++ [Manifest.fileName] := by
    rw [Path.key_child (by decide), hhome]
  unfold clearManifest
  split
  · rename_i hfile
    rcases exists_of_isFile hfile with ⟨entry, hfind, -⟩
    rw [hkey] at hfind
    rcases ht.archive hhome (Or.inr rfl) Manifest.ending now
      (show Manifest.fileName ∈ Store.liveNames by decide)
      (show Manifest.fileName ≠ TableStore.fileName by decide)
      (by rw [hfind]; exact fun heq => nomatch heq) with ⟨hstays, hcopy, hothers⟩
    exact ⟨hstays, rfl, hothers, fun _ _ => ⟨_, hcopy⟩⟩
  · rename_i hnone
    refine ⟨ht.refl, rfl, fun _ _ _ _ => rfl, fun octets hfind => absurd ?_ hnone⟩
    rw [← hkey] at hfind
    exact isFile_of_find? hfind fun heq => nomatch heq

theorem Published.stays {m : Manifest} {directory : Path} (h : Published m directory t t')
    (ht : t.IsHome home) (hhome : directory.key = home)
    (hdirectory : t.find? home = some .directory) :
    Stays home t t' ∧ t'.removed = t.removed ∧
      ∀ name, name ≠ Manifest.fileName → name ≠ Reference.fileName → ∀ rest,
        t'.find? (home ++ name :: rest) = t.find? (home ++ name :: rest) := by
  rcases h with ⟨document, reference, written, -, hwrite, hreference⟩
  have hkey : (directory.child Manifest.fileName).key = home ++ [Manifest.fileName] := by
    rw [Path.key_child (by decide), hhome]
  have hcopyKey : (directory.child Reference.fileName).key = home ++ [Reference.fileName] := by
    rw [Path.key_child (by decide), hhome]
  rcases write_eq_ok hwrite with ⟨hfile, rfl⟩
  rcases write_eq_ok hreference with ⟨hcopyFile, rfl⟩
  rw [hkey] at hfile hcopyFile ⊢
  rw [hcopyKey] at hcopyFile ⊢
  have hmanifest := ht.write (by decide) (by decide) hdirectory hfile document.toUTF8
  have hcopy := hmanifest.isHome.write (by decide) (by decide) (hmanifest.directory hdirectory)
    hcopyFile reference.toUTF8
  refine ⟨hmanifest.trans hcopy, rfl, fun name hne hneCopy rest => ?_⟩
  exact (only_put (by decide) [] _ name hneCopy rest).trans (only_put (by decide) [] _ name hne rest)

end Installation

/-!
## Setups
-/

/-- A setup that is done keeps what is at home.  It archives what was held and the manifest. -/
theorem stays_of_setup (ht : t.IsHome home) {now : Moment} {config : Value} {settings : Entries}
    {backend : Backend} {directory : Path}
    (hplan : plan config = .ok (settings, backend, directory)) (hhome : directory.key = home)
    {configFile referenceFile : Path} {archivedTo : Option String} {warnings : List SchemaWarning}
    (hrun : (setup now config).run t =
      (.ok ⟨.done configFile referenceFile archivedTo, warnings⟩, t')) :
    Stays home t t' ∧
      (archivedTo.isSome = true ↔ backend.Holds directory (optionsOf backend settings) t) ∧
      (∀ name, archivedTo = some name →
        backend.Archives directory (optionsOf backend settings) name t t') ∧
      ∀ octets, t.find? (home ++ [Manifest.fileName]) = some (.file octets) →
        ∃ archive, IsCopy home Manifest.fileName archive t t' := by
  rcases setup_done hrun with ⟨_, _, _, made, schema, prepared, stored, hplanned, hmade, -, hprepare,
    hpublished, -, -, rfl⟩
  cases hplan.symm.trans hplanned
  subst hhome
  rcases exists_ofText_of_plan hplan with ⟨text, rfl⟩
  have hplain := Path.isPlain_ofText text
  have hdirectory := isDirectory_of_makeAll hmade
  -- The three steps of a setup: the directory is made, the storage prepared, the manifest replaced.
  rcases ht.makeAll hplain rfl hmade with ⟨hstaysMade, hsame⟩
  rcases Backend.serves_of_prepare hstaysMade.isHome rfl hdirectory hprepare with
    ⟨hserves, hsome, harchives⟩
  rcases Installation.stays_clearManifest hserves.isHome rfl now with
    ⟨hcleared, -, hothers, hmanifest⟩
  have hthere := hcleared.directory (hserves.directory (isDirectory_iff.mp hdirectory))
  rcases hpublished.stays hcleared.isHome rfl hthere with ⟨hstays, -, -⟩
  have hafter := hcleared.trans hstays
  refine ⟨(hstaysMade.trans hserves.toStays).trans hafter,
    hsome.trans (Backend.holds_iff_of_same hsame), fun name heq => ?_, fun octets hfind => ?_⟩
  · have hheld := hsome.mp (by rw [heq]; rfl)
    exact ((harchives name heq).keeps hstaysMade.isHome.toIsTidy hheld hafter.keeps).of_same hsame
  · rw [← hsame, ← hserves.manifest] at hfind
    rcases hmanifest octets hfind with ⟨archive, hcopy⟩
    have hkept := hcopy.keeps (by rw [hfind]; exact fun heq => nomatch heq) hstays.keeps
    refine ⟨archive, hkept.notLive, ?_, fun rest => ?_⟩
    · by_contra hthere
      have hearlier := (hstaysMade.trans hserves.toStays).keeps.entries archive hkept.notLive hthere
      exact hthere ((hearlier []).symm.trans hkept.free)
    · rw [hkept.same, hserves.manifest, hsame]

/-!
## Loading
-/

/-- Whatever is opened from the manifest at home is at home. -/
def Opens (home : Key) (t : Tree) : Prop :=
  ∀ path m, path.key = home ++ [Manifest.fileName] → readManifest t path = .ok m →
    ∀ backend, Setup.backend (.str m.backend) = .ok backend →
      ∀ tree store, Store.attach backend m.state tree = .ok store → store.IsAt home

theorem readManifest_of_find? {path : Path} (h : t'.find? path.key = t.find? path.key) :
    readManifest t' path = readManifest t path := by
  unfold readManifest
  rw [isFile_of_find?_eq h]
  split
  · rename_i hfile
    rcases exists_of_isFile hfile with ⟨entry, hfind, -⟩
    unfold Tree.read
    rw [h, hfind]
    cases entry <;> rfl
  · rfl

theorem Opens.of_same (h : Opens home t)
    (hsame : t'.find? (home ++ [Manifest.fileName]) = t.find? (home ++ [Manifest.fileName])) :
    Opens home t' := by
  intro path m hpath hread
  rw [readManifest_of_find? (t := t) (by rw [hpath, hsame])] at hread
  exact h path m hpath hread

theorem Opens.isAt (h : Opens home t) {file : String} {setting : Option String} {skip : Value}
    {r : Registry} {store : Store} (hfile : (Path.ofText file).key = home ++ [Manifest.fileName])
    (hload : load t setting (.str file) skip = .ok (r, store)) : store.IsAt home := by
  rcases load_eq_ok.mp hload with ⟨path, backend, hpath, hread, hbackend, hattach, -, -⟩
  cases hpath
  exact h _ _ hfile hread backend hbackend t store hattach

variable {now : Moment} {config : Value} {settings : Entries} {backend : Backend}
  {directory configFile referenceFile : Path} {archivedTo : Option String}
  {warnings : List SchemaWarning}

theorem attach_of_manifest {schema : Schema} {prepared : Prepared} {m : Manifest} {path : Path}
    {named : Backend} {tree : Tree} {store : Store}
    (hread : readManifest t' path = .ok (manifestOf now settings backend schema prepared).reread)
    (hm : readManifest t' path = .ok m) (hbackend : Setup.backend (.str m.backend) = .ok named)
    (hattach : Store.attach named m.state tree = .ok store) :
    Store.attach backend prepared.state tree = .ok store := by
  cases hread.symm.trans hm
  cases (setup_backend_name backend).symm.trans hbackend
  exact hattach

theorem attach_of_load {text : String} {schema : Schema} {prepared : Prepared}
    {setting : Option String} {skip : Value} {r : Registry} {store : Store}
    (hread : ∀ path, path.key = (Path.ofText text).key ++ [Manifest.fileName] →
      readManifest t' path = .ok (manifestOf now settings backend schema prepared).reread)
    (hload : load t' setting (.str ((Path.ofText text).child Manifest.fileName).text) skip =
      .ok (r, store)) :
    Store.attach backend prepared.state t' = .ok store ∧ r.schema.fields = schema.fields := by
  have hfile := (Path.isPlain_ofText text).child (show Path.IsPart Manifest.fileName by
    simp only [Path.IsPart]
    decide)
  rcases load_eq_ok.mp hload with ⟨path, named, hpath, hm, hbackend, hattach, -, -⟩
  rw [hfile.ofValue_text] at hpath
  cases hpath
  have hmanifest := hread _ (Path.key_child (by decide) _)
  refine ⟨attach_of_manifest hmanifest hm hbackend hattach, ?_⟩
  rw [Registry.schema, ← Except.ok.inj (hmanifest.symm.trans hm)]
  rfl

theorem readManifest_of_setup (hconfig : config.IsDocument)
    (hplan : plan config = .ok (settings, backend, directory))
    (hrun : (setup now config).run t =
      (.ok ⟨.done configFile referenceFile archivedTo, warnings⟩, t')) :
    ∃ made schema prepared stored, t.makeAll directory = .ok made ∧ schema.Sound ∧
      (backend.prepare directory schema (optionsOf backend settings) now).run made =
        (.ok prepared, stored) ∧
      Installation.Published (manifestOf now settings backend schema prepared) directory
        (Installation.clearManifest directory now stored) t' ∧
      configFile = directory.child Manifest.fileName ∧
      ∀ path, path.key = directory.key ++ [Manifest.fileName] → readManifest t' path =
        .ok (manifestOf now settings backend schema prepared).reread := by
  rcases setup_done hrun with ⟨_, _, _, made, schema, prepared, stored, hplanned, hmade, hassemble,
    hprepare, hpublished, hfile, -, -⟩
  cases hplan.symm.trans hplanned
  rcases exists_ofText_of_plan hplan with ⟨text, rfl⟩
  rcases Backend.isDocument_state hprepare with ⟨hstate, hstateNe⟩
  have hschema := Schema.assemble_sound hassemble
  have hm : (manifestOf now settings backend schema prepared).IsStorable :=
    isStorable_manifestOf (Schema.isStorable_of_assemble hconfig hassemble) hschema hstate hstateNe
  exact ⟨made, schema, prepared, stored, hmade, hschema, hprepare, hpublished, hfile,
    fun path hpath => readManifest_of_published hm hpublished hpath⟩

theorem opens_of_setup (hconfig : config.IsDocument)
    (hplan : plan config = .ok (settings, backend, directory)) (hhome : directory.key = home)
    (hrun : (setup now config).run t =
      (.ok ⟨.done configFile referenceFile archivedTo, warnings⟩, t')) : Opens home t' := by
  rcases readManifest_of_setup hconfig hplan hrun with
    ⟨made, schema, prepared, stored, -, -, hprepare, -, -, hread⟩
  rcases exists_ofText_of_plan hplan with ⟨text, rfl⟩
  subst hhome
  intro path m hpath hm named hbackend tree store hattach
  exact Backend.isAt_of_attach hprepare
    (attach_of_manifest (hread path hpath) hm hbackend hattach)

theorem vacant_of_setup (ht : t.IsHome home) (hconfig : config.IsDocument)
    (hplan : plan config = .ok (settings, backend, directory)) (hhome : directory.key = home)
    (hrun : (setup now config).run t =
      (.ok ⟨.done configFile referenceFile archivedTo, warnings⟩, t'))
    {setting : Option String} {skip : Value} {r : Registry} {store : Store}
    (hload : load t' setting (.str configFile.text) skip = .ok (r, store)) :
    r.schema.fields.Nodup ∧ store.backend = backend ∧ store.IsVacant t' r.schema.fields := by
  rcases readManifest_of_setup hconfig hplan hrun with
    ⟨made, schema, prepared, stored, hmade, hschema, hprepare, hpublished, rfl, hread⟩
  rcases exists_ofText_of_plan hplan with ⟨text, rfl⟩
  subst hhome
  have hplain := Path.isPlain_ofText text
  rcases attach_of_load hread hload with ⟨hstore, hfields⟩
  have hat := Backend.isAt_of_attach hprepare hstore
  rw [hfields]
  refine ⟨hschema.nodup, Store.backend_of_attach hstore, ?_⟩
  -- The places of records are the same as when the storage was prepared.
  have hdirectory := isDirectory_of_makeAll hmade
  have hmadeHome := (ht.makeAll hplain rfl hmade).1.isHome
  have hserves := (Backend.serves_of_prepare hmadeHome rfl hdirectory hprepare).1
  rcases Installation.stays_clearManifest hserves.isHome rfl now with
    ⟨hcleared, hremovedCleared, hothers, -⟩
  have hthere := hcleared.directory (hserves.directory (isDirectory_iff.mp hdirectory))
  rcases hpublished.stays hcleared.isHome rfl hthere with ⟨-, hremoved, hbeside⟩
  have hsame : ∀ name ∈ Store.placeNames, ∀ rest,
      t'.find? ((Path.ofText text).key ++ name :: rest) =
        stored.find? ((Path.ofText text).key ++ name :: rest) := by
    intro name hname rest
    rcases Store.ne_manifest hname with ⟨-, hne, hcopy, -⟩
    rw [hbeside name hne hcopy, hothers name (Store.mem_liveNames hname) hne]
  rcases hat.place with ⟨name, hname, hplace⟩
  have hstored : stored.find? store.place.key = t'.find? store.place.key := by
    rw [hplace]
    exact (hsame name hname []).symm
  have hstoredAttach := Store.attach_of_find? hstore hstored
  exact (Backend.isVacant_of_attach hschema hmadeHome.toIsSound hdirectory hprepare
    hstoredAttach).of_same hat hsame (hremoved.trans hremovedCleared)

/-- The registry that is loaded after a setup lists no users, if the names of its fields can be read
at all. -/
theorem list_of_setup (ht : t.IsHome home) (hconfig : config.IsDocument)
    (hplan : plan config = .ok (settings, backend, directory)) (hhome : directory.key = home)
    (hrun : (setup now config).run t =
      (.ok ⟨.done configFile referenceFile archivedTo, warnings⟩, t'))
    (setting : Option String) (skip : Value) :
    ∃ r store, load t' setting (.str configFile.text) skip = .ok (r, store) ∧
      ∀ filter : Value, filter.isGiven = false →
        ((∃ listing, r.list (Mounted.mk store t') filter = .ok listing ∧ listing.records = .ok []) ↔
          (backend = .file → Delimited.Fits r.schema.fields)) := by
  rcases exists_load_of_setup hconfig ht.toIsSound hrun setting skip with
    ⟨m, store, -, -, -, hload⟩
  refine ⟨_, store, hload, fun filter hgiven => ?_⟩
  rcases vacant_of_setup ht hconfig hplan hhome hrun hload with ⟨hnodup, hbackend, hvacant⟩
  have hall : ∀ fields, Filter.ofValue filter fields = .ok .all := by
    intro fields
    rw [Filter.ofValue.eq_def, hgiven]
    rfl
  rw [list_eq_ok_iff, ← hbackend, ← hvacant.list_iff hnodup]
  exact ⟨fun ⟨f, hf, hlist⟩ => by cases (hall _).symm.trans hf; exact hlist,
    fun hlist => ⟨.all, hall _, hlist⟩⟩

/-!
## Names that are too long for a file
-/

/-- Settings for one file of records that have a field of their own. -/
def sheetSettings (field : String) : Entries :=
  [("storage_dir", .str "s"), ("backend", .str "file"), ("include_standard_fields", .list []),
    ("app_fields", .list [.str field])]

theorem isDocument_sheetSettings (field : String) : (Value.map (sheetSettings field)).IsDocument := by
  refine .map ?_ ?_
  · show ["storage_dir", "backend", "include_standard_fields", "app_fields"].Nodup
    decide
  · simp only [sheetSettings, List.forall_mem_cons]
    refine ⟨.str _, .str _, .list fun _ hnone => (List.not_mem_nil hnone).elim, .list ?_,
      List.forall_mem_nil _⟩
    simp only [List.forall_mem_cons]
    exact ⟨.str _, List.forall_mem_nil _⟩

theorem plan_sheetSettings {field : String} (hne : field ≠ "") :
    plan (.map (sheetSettings field)) = .ok (sheetSettings field, .file, ⟨"", ["s"]⟩) := by
  have hfilled : (field != "") = true := bne_iff_ne.mpr hne
  have hissues : Setup.issues (sheetSettings field) = [] := by
    simp [sheetSettings, Setup.issues, Setup.rules, Setup.requiredSettings, Entries.has,
      Setup.Rule.issues, Shape.accepts, Shape.acceptsAny, Value.text?, hfilled, List.lookup_cons,
      Setup.backendChoices]
  have hcheck : Setup.check (.map (sheetSettings field)) = .ok (sheetSettings field) := by
    rw [Setup.check, hissues]
    rfl
  have hpath : Path.ofValue (.str "s") = .ok ⟨"", ["s"]⟩ := by
    have htext : Path.ofText "s" = ⟨"", ["s"]⟩ := by decide +kernel
    rw [← htext]
    rfl
  refine Steps.bind_eq_ok.mpr ⟨sheetSettings field, ?_, Steps.bind_eq_ok.mpr
    ⟨.file, ?_, Steps.bind_eq_ok.mpr ⟨⟨"", ["s"]⟩, ?_, rfl⟩⟩⟩
  · exact Steps.mapError_eq_ok.mpr hcheck
  · exact Steps.mapError_eq_ok.mpr (setup_backend_name .file)
  · exact Steps.mapError_eq_ok.mpr hpath

theorem assemble_sheetSettings {field : String} (hne : field ≠ "")
    (hstrip : Text.strip field = field) (hreserved : field ∉ Catalog.reservedFields)
    (hcore : field ∉ Catalog.coreFields) :
    ∃ schema warnings, Schema.assemble (.map (sheetSettings field)) = .ok (schema, warnings) ∧
      field ∈ schema.fields := by
  have hfield : Assembly.appField (Catalog.coreFields ++ []) (.str field) =
      .ok (.ok (field, Assembly.plainField field)) := by
    rw [Assembly.appField.eq_def]
    simp only [Assembly.entryName?, hstrip]
    rw [if_neg (by simpa using hne), if_neg (by simpa using hreserved),
      if_neg (by simpa using hcore)]
  have happ : Assembly.appFields (Catalog.coreFields ++ []) [.str field] =
      .ok ([(field, Assembly.plainField field)], []) := by
    rw [Assembly.appFields, hfield]
    rfl
  rcases Assembly.protection_total (Or.inl rfl) with ⟨isProtected, hprotection⟩
  have hbuiltIn : Assembly.applyOverrides isProtected (Catalog.core ++ Catalog.system ++
      Catalog.standard.filter fun entry => ([] : List String).contains entry.1) [] =
        .ok (Catalog.core ++ Catalog.system, []) := rfl
  refine ⟨⟨Catalog.coreFields ++ [] ++ [field] ++ Catalog.systemFields,
    (Catalog.core ++ Catalog.system ++ [(field, Assembly.plainField field)]).map fun entry =>
      (entry.1, Assembly.finishOptions entry.2)⟩, [] ++ [] ++ [], ?_, by simp⟩
  refine Steps.bind_eq_ok.mpr ⟨sheetSettings field, rfl, ?_⟩
  refine Steps.bind_eq_ok.mpr ⟨isProtected, hprotection, ?_⟩
  refine Steps.bind_eq_ok.mpr ⟨([], []), rfl, ?_⟩
  dsimp only
  refine Steps.ite_bind_eq_ok.mpr ⟨[], rfl, ?_⟩
  refine Steps.bind_eq_ok.mpr ⟨_, hbuiltIn, ?_⟩
  refine Steps.bind_eq_ok.mpr ⟨[.str field], rfl, ?_⟩
  exact Steps.bind_eq_ok.mpr ⟨_, happ, rfl⟩

theorem setup_sheetSettings {field : String} (hne : field ≠ "")
    (hstrip : Text.strip field = field) (hreserved : field ∉ Catalog.reservedFields)
    (hcore : field ∉ Catalog.coreFields) :
    ∃ schema warnings configFile referenceFile archivedTo t',
      Schema.assemble (.map (sheetSettings field)) = .ok (schema, warnings) ∧
      field ∈ schema.fields ∧
      (setup 0 (.map (sheetSettings field))).run {} =
        (.ok ⟨.done configFile referenceFile archivedTo, warnings⟩, t') := by
  rcases assemble_sheetSettings hne hstrip hreserved hcore with ⟨schema, warnings, hassemble, hmem⟩
  rcases Installation.run_publish ⟨"", ["s"]⟩ (m := manifestOf 0 (sheetSettings field) .file schema
    { state := Sheet.state ⟨⟨"", ["s"]⟩, .tsv⟩ }) (Schema.assemble_sound hassemble) with
    ⟨document, reference, hpublish⟩
  let made : Tree := { entries := [(["s"], .directory)] }
  let stored := made.put ["s", "users.tsv"]
    (.file (SheetContent.text .tsv ⟨schema.fields, []⟩).toUTF8)
  have hoptions : optionsOf .file (sheetSettings field) = [("file_format", .str "tsv")] := rfl
  have hprepare : (Backend.file.prepare ⟨"", ["s"]⟩ schema [("file_format", .str "tsv")] 0).run made =
      (.ok { state := Sheet.state ⟨⟨"", ["s"]⟩, .tsv⟩ }, stored) := rfl
  rw [← hoptions] at hprepare
  have hmade : Tree.makeAll {} ⟨"", ["s"]⟩ = .ok made := rfl
  have hdone := setup_eq_done (plan_sheetSettings hne) hmade hassemble hprepare
    ((hpublish stored).trans rfl)
  exact ⟨schema, warnings, _, _, _, _, hassemble, hmem, hdone⟩

/-- A name that is too long for its file is set up and loaded; the users cannot be listed. -/
theorem not_listed_of_long {field : String} (hlong : Delimited.maxCell < field.toList.length)
    (hfilled : ∀ c ∈ field.toList, Text.isBlank c = false) :
    ∃ configFile referenceFile archivedTo warnings t',
      (setup 0 (.map (sheetSettings field))).run {} =
        (.ok ⟨.done configFile referenceFile archivedTo, warnings⟩, t') ∧
      ∀ setting skip, ∃ r store, load t' setting (.str configFile.text) skip = .ok (r, store) ∧
        ∀ filter : Value, filter.isGiven = false →
          ¬∃ listing, r.list (Mounted.mk store t') filter = .ok listing ∧ listing.records = .ok [] := by
  have hother : ∀ name, name.toList.length ≤ Delimited.maxCell → field ≠ name := by
    rintro name hshort rfl
    omega
  have hshort : ∀ name ∈ Catalog.reservedFields ++ Catalog.coreFields,
      name.toList.length ≤ Delimited.maxCell := by
    decide
  have hnew : ∀ name ∈ Catalog.reservedFields ++ Catalog.coreFields, field ≠ name :=
    fun name hname => hother name (hshort name hname)
  have hstrip : Text.strip field = field := by
    rw [Text.strip, Text.trim_eq_self hfilled, String.ofList_toList]
  rcases setup_sheetSettings (hother "" (by decide)) hstrip
    (fun hmem => hnew field (List.mem_append_left _ hmem) rfl)
    (fun hmem => hnew field (List.mem_append_right _ hmem) rfl) with
    ⟨schema, warnings, configFile, referenceFile, archivedTo, t', hassemble, hmem, hrun⟩
  refine ⟨configFile, referenceFile, archivedTo, warnings, t', hrun, fun setting skip => ?_⟩
  rcases list_of_setup (isHome_empty ["s"]) (isDocument_sheetSettings field)
    (plan_sheetSettings (hother "" (by decide))) rfl hrun setting skip with ⟨r, store, hload, hlist⟩
  rcases exists_load_of_setup (isDocument_sheetSettings field) Tree.isSound_empty hrun setting skip with
    ⟨m, _, -, hloaded, -, hagain⟩
  cases hassemble.symm.trans hloaded
  cases hagain.symm.trans hload
  refine ⟨_, store, hload, fun filter hgiven hlisted => ?_⟩
  have hfits := (hlist filter hgiven).mp hlisted rfl field hmem
  omega

end Registry
end Roster
