import Roster.Proofs.Registry.Installation
import Roster.Proofs.Store.Beside
import Roster.Registry.Users

/-!
# Setups that fail

A setup that fails before the storage was prepared leaves the store that was there before as it
was: the registry is loaded from its manifest as before, and lists the same users.  Making room for
a table is a step of its own, so a table that cannot be made is the exception.
-/

namespace Roster

namespace Registry

/-!
## Setups that fail
-/

/-- What a setup that failed left behind, unless the storage was prepared already: what was there,
or a database in which room was made for a table that cannot be made. -/
theorem setup_failed {now : Moment} {config : Value} {t t' : Tree}
    {result : Except Fault SetupAnswer} (hrun : (setup now config).run t = (result, t'))
    (hplace : ∀ settings backend directory, plan config = .ok (settings, backend, directory) →
      t.isDirectory directory = true)
    (hfailed : ∀ a, result = .ok a → ∃ refusal, a.outcome = .refused refusal) :
    t' = t ∨ ∃ settings directory schema warnings,
      plan config = .ok (settings, .database, directory) ∧
      Schema.assemble config = .ok (schema, warnings) ∧ ¬TableStore.CanMake schema ∧
      Tree.Beside directory t t' := by
  -- Nothing is written before the storage is prepared, since the directory is there.
  have hmade : ∀ {settings backend directory made},
      plan config = .ok (settings, backend, directory) → t.makeAll directory = .ok made →
      made = t := by
    intro settings backend directory made hplan hmake
    exact Except.ok.inj (hmake.symm.trans (Tree.makeAll_of_isDirectory (hplace _ _ _ hplan)))
  have hstorage : ∀ {settings backend directory schema warnings made failure},
      IsReady config t settings backend directory schema warnings made →
      (backend.prepare directory schema (optionsOf backend settings) now).run made =
        (.error failure, t') →
      t' = t ∨ ∃ settings directory schema warnings,
        plan config = .ok (settings, .database, directory) ∧
        Schema.assemble config = .ok (schema, warnings) ∧ ¬TableStore.CanMake schema ∧
        Tree.Beside directory t t' := by
    intro settings backend directory schema warnings made failure hready hprepare
    rw [hmade hready.plan hready.made] at hprepare
    rcases Backend.prepare_failed hprepare with hsame | ⟨rfl, hmake, hbeside⟩
    · exact Or.inl hsame
    · exact Or.inr ⟨settings, directory, schema, warnings, hready.plan, hready.schema, hmake, hbeside⟩
  cases setup_run hrun with
  | unplanned hplan => exact Or.inl rfl
  | unplaced hplan hmake => exact Or.inl rfl
  | unassembled hplan hmake hassemble => exact Or.inl (hmade hplan hmake)
  | broken hready hprepare => exact hstorage hready hprepare
  | refused hready hprepare => exact hstorage hready hprepare
  -- From here on the storage is prepared: no end of the setup is a refusal.
  | unwritten hready hprepared hpublish =>
      rcases hfailed _ rfl with ⟨refusal, hrefusal⟩
      cases hrefusal
  | done hready hprepared hpublish =>
      rcases hfailed _ rfl with ⟨refusal, hrefusal⟩
      cases hrefusal

/-!
## Loading
-/

theorem readManifest_beside {directory path : Path} {t t' : Tree} (h : Tree.Beside directory t t')
    (hkey : path.key = (directory.child Manifest.fileName).key) {manifest : Manifest}
    (hmanifest : readManifest t path = .ok manifest) : readManifest t' path = .ok manifest := by
  have hother : path.key ≠ (directory.child TableStore.fileName).key := by
    rw [hkey]
    exact Path.key_child_ne (by decide) (by decide) (by decide) directory directory
  rw [readManifest] at hmanifest ⊢
  rw [h.isFile hother]
  by_cases hfile : t.isFile path = true
  · rw [h.read hother (Tree.find?_of_isFile hfile)]
    exact hmanifest
  · rw [if_neg hfile] at hmanifest
    cases hmanifest

theorem load_beside {directory path : Path} {t t' : Tree} (h : Tree.Beside directory t t')
    {setting : Option String} {file skip : Value} (hpath : Path.ofValue file = .ok path)
    (hkey : path.key = (directory.child Manifest.fileName).key) {r : Registry} {store : Store}
    (hload : load t setting file skip = .ok (r, store)) (hbeside : store.IsBeside directory) :
    load t' setting file skip = .ok (r, store) ∧
      ∀ filter, r.list (Mounted.mk store t') filter = r.list (Mounted.mk store t) filter := by
  rcases load_eq_ok.mp hload with ⟨given, backend, hgiven, hmanifest, hbackend, hopened, hrest⟩
  rw [hpath] at hgiven
  cases hgiven
  constructor
  · exact load_eq_ok.mpr ⟨path, backend, hpath, readManifest_beside h hkey hmanifest, hbackend,
      Store.attach_beside h hopened hbeside, hrest⟩
  · intro filter
    have hlist : ∀ f, RecordStore.list (Mounted.mk store t') f =
        RecordStore.list (Mounted.mk store t) f :=
      fun f => Store.list_beside h hopened hbeside f
    rw [list, list]
    simp only [hlist]

/-!
## The store that was there before
-/

/-- A setup in the directory of a manifest that is broken off or refused leaves the registry as it
was: it is loaded as before, and lists the same users, unless its table had to make room for one
that cannot be made. -/
theorem usable_of_failed_setup {t t' : Tree} {setting : Option String} {file skip : Value}
    {path : Path} (hpath : Path.ofValue file = .ok path) {r : Registry} {store : Store}
    (hload : load t setting file skip = .ok (r, store)) {now : Moment} {config : Value}
    (hplace : ∀ settings backend directory, plan config = .ok (settings, backend, directory) →
      t.isDirectory directory = true ∧ path.key = (directory.child Manifest.fileName).key)
    {result : Except Fault SetupAnswer} (hrun : (setup now config).run t = (result, t'))
    (hfailed : ∀ a, result = .ok a → ∃ refusal, a.outcome = .refused refusal)
    (hmake : ∀ settings directory schema warnings,
      plan config = .ok (settings, .database, directory) →
      Schema.assemble config = .ok (schema, warnings) →
      store.IsBeside directory ∨ TableStore.CanMake schema) :
    load t' setting file skip = .ok (r, store) ∧
      ∀ filter, r.list (Mounted.mk store t') filter = r.list (Mounted.mk store t) filter := by
  rcases setup_failed hrun (fun _ _ _ hplan => (hplace _ _ _ hplan).1) hfailed with
    rfl | ⟨settings, directory, schema, warnings, hplan, hschema, hnone, hbeside⟩
  · exact ⟨hload, fun _ => rfl⟩
  · have hkey := (hplace settings .database directory hplan).2
    rcases hmake settings directory schema warnings hplan hschema with hstore | hmade
    · exact load_beside hbeside hpath hkey hload hstore
    · exact absurd hmade hnone

/-- A manifest with one field. -/
def loneManifest (backend : Backend) : Manifest where
  backend := backend.name
  state := [("storage_dir", .str "s")]
  schema := ⟨["user_id"], [("user_id", { fieldName := .str "user_id" })]⟩

/-- The manifest as it is written down. -/
def loneText (backend : Backend) : String :=
  "\x7b\"backend\":\"" ++ backend.name ++ "\",\"backend_state\":\x7b\"storage_dir\":\"s\"\x7d,"
    ++ "\"fields\":[\"user_id\"],"
    ++ "\"field_definitions\":\x7b\"user_id\":\x7b\"field_name\":\"user_id\"\x7d\x7d\x7d"

def lonePath : Path := .ofText "s/users-config.json"

/-- A directory with that manifest, and one user in a file and in a table. -/
def loneTree (backend : Backend) : Tree where
  entries := [(["s"], .directory),
    (["s", "users-config.json"], .file (loneText backend).toUTF8),
    (["s", "users.tsv"], .file "user_id\nada\n".toUTF8),
    (["s", "users.db"], .database 0
      ⟨[("users", ⟨[{ name := "user_id", unique := true }], [[some "ada"]]⟩)]⟩)]
  nextSerial := 1

theorem readManifest_loneTree {backend : Backend} (h : backend ≠ .yaml) :
    readManifest (loneTree backend) lonePath = .ok (loneManifest backend) := by
  have hkey : lonePath.key = ["s", "users-config.json"] := by
    decide +kernel
  have hfind : (loneTree backend).find? lonePath.key = some (.file (loneText backend).toUTF8) := by
    rw [hkey]
    rfl
  -- The characters are taken from the parts of the text: to decode its octets takes much longer.
  have hchars : ∃ cs, (loneText backend).toList = cs ∧ '\r' ∉ cs ∧
      (Json.readDocument cs).toOption.any (fun v =>
        (Manifest.ofValue v).toOption == some (loneManifest backend)) = true := by
    have hparts : ∀ a b c d e : String, (a ++ b ++ c ++ d ++ e).toList =
        a.toList ++ b.toList ++ c.toList ++ d.toList ++ e.toList := by
      intro a b c d e
      simp only [String.toList_append]
    rw [show (loneText backend).toList = _ from hparts _ _ _ _ _]
    cases backend with
    | database =>
        rw [show Backend.database.name = "database" from rfl, String.toList_ofList,
          String.toList_ofList, String.toList_ofList, String.toList_ofList, String.toList_ofList]
        exact ⟨_, rfl, by decide +kernel, by decide +kernel⟩
    | file =>
        rw [show Backend.file.name = "file" from rfl, String.toList_ofList,
          String.toList_ofList, String.toList_ofList, String.toList_ofList, String.toList_ofList]
        exact ⟨_, rfl, by decide +kernel, by decide +kernel⟩
    | yaml => exact absurd rfl h
  rcases hchars with ⟨cs, hcs, hlines, hdocument⟩
  rcases Steps.exists_of_any hdocument with ⟨v, hv, hmanifest⟩
  have hjson : Json.read (loneText backend) = .ok v := by
    unfold Json.read
    simp only [hcs, hv]
  rcases Steps.bind_eq_ok.mp (Steps.eq_ok_of_toOption (beq_iff_eq.mp hmanifest)) with
    ⟨sections, hsections, hmanifest⟩
  have hmap : v = .map sections := by
    cases v with
    | map entries =>
        cases hsections
        rfl
    | _ => cases hsections
  rw [readManifest, if_pos (Tree.isFile_of_find? hfind (by simp)), Tree.read_of_find? hfind]
  dsimp only
  rw [Manifest.ofOctets, Text.decodeUtf8_toUTF8]
  dsimp only [Except.mapError, bind, Except.bind]
  rw [Text.unifyLineEnds_eq_self (hcs ▸ hlines), String.ofList_toList, hjson, hmap]
  exact hmanifest

def loneRegistry (backend : Backend) : Registry where
  manifest := loneManifest backend
  configFile := some lonePath

theorem load_loneTree (backend : Backend) (h : backend ≠ .yaml) (store : Store)
    (hopened : Store.attach backend [("storage_dir", .str "s")] (loneTree backend) = .ok store) :
    load (loneTree backend) none (.str "s/users-config.json") .null =
      .ok (loneRegistry backend, store) := by
  have hbackend : Setup.backend (.str backend.name) = .ok backend := by
    cases backend <;> decide +kernel
  exact load_eq_ok.mpr ⟨lonePath, backend, rfl, readManifest_loneTree h, hbackend, hopened, rfl,
    rfl⟩

def loneTable : Store :=
  .table { path := .ofText "s/users.db", serial := 0, table := "users", columns := ["user_id"] }

/-- A setup in that directory for a table with one column twice. -/
def twiceSetup : Value :=
  .map [("storage_dir", .str "s"), ("backend", .str "database"),
    ("include_standard_fields", .list []), ("app_fields", .list [.str "Note", .str "note"])]

theorem plan_twiceSetup (backend : Backend) {settings : Entries} {chosen : Backend}
    {directory : Path} (h : plan twiceSetup = .ok (settings, chosen, directory)) :
    (loneTree backend).isDirectory directory = true ∧
      lonePath.key = (directory.child Manifest.fileName).key := by
  have hplan : (plan twiceSetup).toOption.map (·.2.2) = some (.ofText "s") := by
    decide +kernel
  rw [h] at hplan
  have hdirectory : directory = .ofText "s" := Option.some.inj hplan
  rw [hdirectory]
  constructor
  · rw [Tree.isDirectory_iff, show (Path.ofText "s").key = ["s"] by decide +kernel]
    rfl
  · decide +kernel

/-- A table is refused that has a column twice. -/
theorem refused_twiceSetup (backend : Backend) {result : Except Fault SetupAnswer} {t' : Tree}
    (hrun : (setup 0 twiceSetup).run (loneTree backend) = (result, t')) :
    ∀ a, result = .ok a → ∃ refusal, a.outcome = .refused refusal := by
  have hrefused : ((setup 0 twiceSetup).run (loneTree backend)).1.toOption.any
      (fun a => match a.outcome with | .refused _ => true | _ => false) = true := by
    cases backend <;> decide +kernel
  intro a h
  rw [hrun, h] at hrefused
  rcases a with ⟨outcome, warnings⟩
  cases outcome with
  | refused refusal => exact ⟨refusal, rfl⟩
  | done configFile referenceFile archivedTo => cases hrefused
  | unwritten configFile fault => cases hrefused

theorem usable_of_failed_setup_of_twice :
    ∃ t', ((setup 0 twiceSetup).run (loneTree .file)).2 = t' ∧
      load t' none (.str "s/users-config.json") .null =
        .ok (loneRegistry .file, .sheet ⟨.ofText "s", .tsv⟩) ∧
      (loneRegistry .file).list (Mounted.mk (Store.sheet ⟨.ofText "s", .tsv⟩) t') .null =
        (loneRegistry .file).list
          (Mounted.mk (Store.sheet ⟨.ofText "s", .tsv⟩) (loneTree .file)) .null := by
  have hload := load_loneTree .file (by decide) (.sheet ⟨.ofText "s", .tsv⟩) (by decide +kernel)
  rcases hrun : (setup 0 twiceSetup).run (loneTree .file) with ⟨result, t'⟩
  rcases usable_of_failed_setup rfl hload (fun _ _ _ hplan => plan_twiceSetup .file hplan) hrun
    (refused_twiceSetup .file hrun) (fun _ _ _ _ _ _ => Or.inl trivial) with
    ⟨hagain, hlist⟩
  exact ⟨t', rfl, hagain, hlist .null⟩

/-- When the table with the users made room for one that cannot be made, the registry cannot be
loaded any more. -/
theorem not_usable_of_failed_setup :
    ¬∀ (t t' : Tree) (setting : Option String) (file skip : Value) (path : Path) (r : Registry)
      (store : Store) (listing : UserListing) (records : List Record) (now : Moment)
      (config : Value) (result : Except Fault SetupAnswer),
      Path.ofValue file = .ok path → load t setting file skip = .ok (r, store) →
      r.list (Mounted.mk store t) .null = .ok listing → listing.records = .ok records →
      records ≠ [] →
      (∀ settings backend directory, plan config = .ok (settings, backend, directory) →
        t.isDirectory directory = true ∧ path.key = (directory.child Manifest.fileName).key) →
      (setup now config).run t = (result, t') → (∀ a, result = .ok a → a.success = false) →
      ∃ r' store', load t' setting file skip = .ok (r', store') ∧
        ∀ filter, (r'.list (Mounted.mk store' t') filter).map (·.records) =
          (r.list (Mounted.mk store t) filter).map (·.records) := by
  intro husable
  have hload := load_loneTree .database (by decide) loneTable (by decide +kernel)
  have hlisted : ((loneRegistry .database).list (Mounted.mk loneTable (loneTree .database))
      .null).toOption.any (fun listing =>
        listing.records.toOption == some [[("user_id", "ada")]]) = true := by
    decide +kernel
  have hlost : (Store.attach .database (loneManifest .database).state
      ((setup 0 twiceSetup).run (loneTree .database)).2).isOk = false := by
    decide +kernel
  rcases Steps.exists_of_any hlisted with ⟨listing, hlisting, hrecords⟩
  rcases hrun : (setup 0 twiceSetup).run (loneTree .database) with ⟨result, t'⟩
  rw [hrun] at hlost
  have hrefused := refused_twiceSetup .database hrun
  have hmanifest : readManifest t' lonePath = .ok (loneManifest .database) := by
    have hbefore := readManifest_loneTree (show Backend.database ≠ .yaml by decide)
    rcases setup_failed hrun (fun _ _ _ hplan => (plan_twiceSetup .database hplan).1) hrefused with
      rfl | ⟨settings, directory, schema, warnings, hplan, -, -, hbeside⟩
    · exact hbefore
    · exact readManifest_beside hbeside (plan_twiceSetup .database hplan).2 hbefore
  have hfailed : ∀ a, result = .ok a → a.success = false := by
    intro a ha
    rcases hrefused a ha with ⟨refusal, hrefusal⟩
    rw [SetupAnswer.success, hrefusal]
  rcases husable (loneTree .database) t' none (.str "s/users-config.json") .null lonePath
    (loneRegistry .database) loneTable listing [[("user_id", "ada")]] 0 twiceSetup result rfl hload
    hlisting (Steps.eq_ok_of_toOption (beq_iff_eq.mp hrecords)) (by simp)
    (fun _ _ _ hplan => plan_twiceSetup .database hplan) hrun hfailed with ⟨r', store', hagain, -⟩
  rcases load_eq_ok.mp hagain with ⟨path, backend, hpath, hread, hbackend, hopened, -⟩
  have hpath : path = lonePath := (Except.ok.inj hpath).symm
  rw [hpath, hmanifest] at hread
  rw [← Except.ok.inj hread] at hbackend hopened
  have hnamed : Setup.backend (.str (loneManifest .database).backend) = .ok .database := by
    decide +kernel
  rw [hnamed] at hbackend
  rw [← Except.ok.inj hbackend] at hopened
  rw [hopened] at hlost
  cases hlost

end Registry
end Roster
