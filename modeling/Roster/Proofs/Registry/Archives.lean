import Roster.Proofs.Registry.Residents
import Roster.Proofs.Store.Readable

/-!
# What setups archive

Preparing storage moves the records that are there to an archive.  There they are found as they
were, under a name that nothing had before; and there is an archive exactly when there were records.
-/

namespace Roster

open Roster.Tree

variable {home : Key} {t t' t'' : Tree}

/-!
## Names of archives at home
-/

theorem Archive.name_free {stem : String} (hstem : stem = Sheet.stem ∨ stem = Manifest.stem)
    (ending : String) (now : Moment) {directory : Path} (hhome : directory.key = home) :
    let archive := name stem ending now (t.names directory)
    archive ∉ Store.liveNames ∧ archive ≠ ".." ∧ archive ≠ "/" ∧
      t.find? (home ++ [archive]) = none := by
  have hlong : 2 ≤ stem.toList.length := by
    rcases hstem with rfl | rfl <;> decide
  have hlive : ∀ live ∈ Store.liveNames, (stem ++ "_").toList.isPrefixOf live.toList = false := by
    rcases hstem with rfl | rfl <;> decide
  rcases name_ne hlong ending now (t.names directory) with ⟨-, hdots, hslash⟩
  refine ⟨fun hmem => ?_, hdots, hslash, ?_⟩
  · rcases exists_name_eq stem ending now (t.names directory) with ⟨rest, hrest⟩
    have hprefix := hlive _ hmem
    rw [Bool.eq_false_iff, Ne, List.isPrefixOf_iff_prefix] at hprefix
    exact hprefix ⟨rest.toList, by rw [hrest, ← String.toList_append]⟩
  · by_contra hfound
    subst hhome
    exact name_not_mem stem ending now (t.names directory) ((mem_names_iff hslash).mpr hfound)

/-!
## Records that are held and kept
-/

namespace Tree

/-- What was at home under a name is now under another one that was free. -/
structure IsCopy (home : Key) (live archive : String) (t t' : Tree) : Prop where
  notLive : archive ∉ Store.liveNames
  free : t.find? (home ++ [archive]) = none
  same : ∀ rest, t'.find? (home ++ archive :: rest) = t.find? (home ++ live :: rest)

theorem IsHome.archive (h : t.IsHome home) {directory : Path} (hhome : directory.key = home)
    {stem : String} (hstem : stem = Sheet.stem ∨ stem = Manifest.stem) (ending : String)
    (now : Moment) {live : String} (hlive : live ∈ Store.liveNames)
    (hbase : live ≠ TableStore.fileName) (hthere : t.find? (home ++ [live]) ≠ none) :
    let archive := Archive.name stem ending now (t.names directory)
    let moved := t.rename (directory.child live) (directory.child archive)
    Stays home t moved ∧ IsCopy home live archive t moved ∧
      ∀ name ∈ Store.liveNames, name ≠ live → ∀ rest,
        moved.find? (home ++ name :: rest) = t.find? (home ++ name :: rest) := by
  rcases Archive.name_free (t := t) hstem ending now hhome with ⟨hnotLive, hdots, hslash, hfree⟩
  rcases h.move hhome hlive hbase hthere hnotLive hdots hslash hfree with ⟨hstays, hmoved⟩
  refine ⟨hstays, ⟨hnotLive, hfree, hmoved.target⟩, fun name hname hne rest => ?_⟩
  exact hmoved.others name hne (ne_of_mem_of_not_mem hname hnotLive) rest

theorem IsCopy.keeps {live archive : String} (h : IsCopy home live archive t t')
    (hthere : t.find? (home ++ [live]) ≠ none) (hkeeps : Keeps home t' t'') :
    IsCopy home live archive t t'' where
  notLive := h.notLive
  free := h.free
  same := by
    intro rest
    rw [hkeeps.entries archive h.notLive (by rwa [h.same []]), h.same]

theorem IsCopy.only {live archive name : String} (h : IsCopy home live archive t t')
    (honly : Only home name t' t'') (hname : name ∈ Store.liveNames) :
    IsCopy home live archive t t'' :=
  ⟨h.notLive, h.free, fun rest =>
    (honly archive (ne_of_mem_of_not_mem hname h.notLive).symm rest).trans (h.same rest)⟩

end Tree

namespace Backend

/-- The storage of a backend in a directory holds records: its file a cell with more than blanks
below the header, its directory a document, its table a row. -/
def Holds (directory : Path) (options : Entries) (t : Tree) : Backend → Prop
  | .file => ∃ format content, SheetFormat.ofName? (formatOption options) = some format ∧
      Sheet.read ⟨directory, format⟩ t = .ok content ∧ content.hasData = true
  | .yaml => ∃ name, Documents.isDocumentName name = true ∧
      t.find? (directory.key ++ [Documents.directoryName, name]) ≠ none
  | .database => ∃ table, HasTable directory.key t TableStore.tableName table ∧ table.rows ≠ []

/-- What the storage of a backend held is found as it was under the name of an archive, which was
free. -/
def Archives (directory : Path) (options : Entries) (archivedTo : String) (t t' : Tree) :
    Backend → Prop
  | .file => ∃ format archive, SheetFormat.ofName? (formatOption options) = some format ∧
      archivedTo = (directory.child archive).text ∧
      IsCopy directory.key (Sheet.fileName format) archive t t'
  | .yaml => ∃ archive, archivedTo = (directory.child archive).text ∧
      IsCopy directory.key Documents.directoryName archive t t'
  | .database => archivedTo ≠ TableStore.tableName ∧
      (∀ table, ¬HasTable directory.key t archivedTo table) ∧
      ∀ table, HasTable directory.key t TableStore.tableName table →
        HasTable directory.key t' archivedTo table

end Backend

/-!
## One file
-/

namespace Sheet

variable {s : Sheet}

theorem read_of_same {content : SheetContent} (h : s.read t = .ok content)
    (hsame : t'.find? s.path.key = t.find? s.path.key) : s.read t' = .ok content := by
  rcases Steps.bind_eq_ok.mp h with ⟨octets, hoctets, h⟩
  have hread := Steps.mapError_eq_ok.mp hoctets
  refine Steps.bind_eq_ok.mpr ⟨octets, Steps.mapError_eq_ok.mpr ?_, h⟩
  unfold Tree.read at hread ⊢
  rw [hsame]
  split at hread
  · exact hread
  · exact hread
  · cases hread
  · cases hread

theorem isFilled_eq_true_iff :
    s.isFilled t = .ok true ↔ ∃ content, s.read t = .ok content ∧ content.hasData = true := by
  unfold isFilled
  constructor
  · intro h
    split at h
    · rcases Steps.map_eq_ok.mp h with ⟨content, hread, hdata⟩
      exact ⟨content, Steps.mapError_eq_ok.mp hread, hdata⟩
    · cases h
  · rintro ⟨content, hread, hdata⟩
    have hreadOr : s.readOr t .cannotPrepareSheet = .ok content := Steps.mapError_eq_ok.mpr hread
    rcases exists_of_readOr hreadOr with ⟨entry, hfind, hne⟩
    rw [if_pos (isFile_of_find? hfind hne)]
    exact Steps.map_eq_ok.mpr ⟨content, hreadOr, hdata⟩

/-- A file that holds data is moved to an archive, before a new one takes its place. -/
theorem serves_of_prepare (ht : t.IsHome home) (hhome : s.directory.key = home)
    (hdirectory : t.isDirectory s.directory = true) {fields : List String} {now : Moment}
    {prepared : Prepared} (h : s.prepare fields now t = .ok (prepared, t')) :
    Serves home t t' ∧
      (prepared.archivedTo.isSome = true ↔
        ∃ content, s.read t = .ok content ∧ content.hasData = true) ∧
      ∀ archivedTo, prepared.archivedTo = some archivedTo → ∃ archive,
        archivedTo = (s.directory.child archive).text ∧
        IsCopy home (fileName s.format) archive t t' := by
  rcases Steps.bind_eq_ok.mp h with ⟨⟨archived, moved⟩, harchive, h⟩
  rcases Steps.bind_eq_ok.mp h with ⟨written, hwrite, h⟩
  cases h
  have hplace := fileName_mem s.format
  have hlive := Store.mem_liveNames hplace
  have hkey : s.path.key = home ++ [fileName s.format] := by
    rw [path, Path.key_child (fileName_ne s.format).1, hhome]
  rw [isDirectory_iff, hhome] at hdirectory
  -- The new file is put into the tree that archiving left behind.
  have hput : ∀ {moved : Tree}, moved.IsHome home → moved.find? home = some .directory →
      s.writeOr moved ⟨fields, []⟩ .cannotPrepareSheet = .ok t' →
      Stays home moved t' ∧ Only home (fileName s.format) moved t' := by
    intro moved hmoved hthere hwrite
    rcases write_eq_put (isDirectory_iff.mpr (hhome ▸ hthere)) hwrite with ⟨hfile, octets, rfl⟩
    rw [hkey] at hfile ⊢
    exact ⟨hmoved.write hlive (fileName_ne_database s.format) hthere hfile octets,
      only_put (fileName_ne s.format).2 [] _⟩
  rcases Steps.bind_eq_ok.mp harchive with ⟨filled, hfilled, harchive⟩
  cases filled with
  | false =>
      cases harchive
      rcases hput ht hdirectory hwrite with ⟨hstays, honly⟩
      refine ⟨hstays.serves hplace honly, iff_of_false Bool.false_ne_true fun hheld => ?_,
        fun archivedTo hnone => (Option.some_ne_none _ hnone.symm).elim⟩
      rw [isFilled_eq_true_iff.mpr hheld] at hfilled
      cases hfilled
  | true =>
      have hheld := isFilled_eq_true_iff.mp hfilled
      cases harchive
      have hthere : t.find? (home ++ [fileName s.format]) ≠ none := by
        rcases hheld with ⟨content, hread, -⟩
        rcases exists_of_readOr (Steps.mapError_eq_ok.mpr hread : s.readOr t .cannotReadFile = _)
          with ⟨entry, hfind, -⟩
        rw [← hkey, hfind]
        exact Option.some_ne_none _
      rcases ht.archive hhome (Or.inl rfl) ("." ++ s.format.name) now hlive
        (fileName_ne_database s.format) hthere with ⟨hmoved, hcopy, hothers⟩
      rcases hput hmoved.isHome (hmoved.directory hdirectory) hwrite with ⟨hstays, honly⟩
      have hmanifest := (Store.ne_manifest hplace).2.1.symm
      refine ⟨⟨hmoved.trans hstays, fun rest => ?_⟩, iff_of_true rfl hheld,
        fun archivedTo heq => ?_⟩
      · exact (honly _ hmanifest rest).trans (hothers _ (by decide) hmanifest rest)
      · cases heq
        exact ⟨_, rfl, hcopy.only honly hlive⟩

end Sheet

/-!
## Documents
-/

namespace Documents

theorem hasDocuments_iff (ht : t.IsTidy) {directory : Path} :
    hasDocuments directory t = true ↔
      ∃ name, isDocumentName name = true ∧ t.find? (directory.key ++ [name]) ≠ none := by
  rw [hasDocuments, Bool.and_eq_true, List.any_eq_true, isDirectory_iff]
  constructor
  · rintro ⟨-, name, hname, hdocument⟩
    exact ⟨name, hdocument, (mem_names_iff (name_of_isDocumentName hdocument).2).mp hname⟩
  · rintro ⟨name, hdocument, hfind⟩
    have hslash := (name_of_isDocumentName hdocument).2
    exact ⟨ht.rooted _ name hslash hfind, name, (mem_names_iff hslash).mpr hfind, hdocument⟩

/-- A directory with documents is moved to an archive, before a new one takes its place. -/
theorem serves_of_prepare (ht : t.IsHome home) {parent : Path} (hhome : parent.key = home)
    (hdirectory : t.isDirectory parent = true) {fields : List String} {now : Moment}
    {prepared : Prepared} (h : prepare parent fields now t = .ok (prepared, t')) :
    Serves home t t' ∧
      (prepared.archivedTo.isSome = true ↔ ∃ name, isDocumentName name = true ∧
        t.find? (home ++ [directoryName, name]) ≠ none) ∧
      ∀ archivedTo, prepared.archivedTo = some archivedTo → ∃ archive,
        archivedTo = (parent.child archive).text ∧ IsCopy home directoryName archive t t' := by
  unfold prepare at h
  rcases harchived : archive parent now t with ⟨archived, moved⟩
  rw [harchived] at h
  rcases Steps.bind_eq_ok.mp h with ⟨made, hmake, h⟩
  cases h
  have hmake := Steps.mapError_eq_ok.mp hmake
  have hlive : directoryName ∈ Store.liveNames := by decide
  have hkey : (parent.child directoryName).key = home ++ [directoryName] := by
    rw [Path.key_child directoryName_ne.1, hhome]
  rw [isDirectory_iff, hhome] at hdirectory
  have hput : ∀ {moved : Tree}, moved.IsHome home → moved.find? home = some .directory →
      moved.makeAll (parent.child directoryName) = .ok t' →
      Stays home moved t' ∧ Only home directoryName moved t' := by
    intro moved hmoved hthere hmake
    rcases makeAll_child directoryName_ne.1 (isDirectory_iff.mpr (hhome ▸ hthere)) hmake with
      ⟨-, rfl⟩ | ⟨-, rfl⟩
    · exact ⟨hmoved.refl, fun _ _ _ => rfl⟩
    · rw [hkey]
      exact ⟨hmoved.makeDocuments hthere, only_put directoryName_ne.2 [] _⟩
  have hheld : hasDocuments (parent.child directoryName) t = true ↔ ∃ name,
      isDocumentName name = true ∧ t.find? (home ++ [directoryName, name]) ≠ none := by
    rw [hasDocuments_iff ht.toIsTidy, hkey]
    simp only [List.append_assoc, List.singleton_append]
  have hmanifest : Manifest.fileName ≠ directoryName := by decide
  by_cases hdocuments : hasDocuments (parent.child directoryName) t = true
  · have harchive : archive parent now t =
        let target := parent.child (Archive.name Sheet.stem "" now (t.names parent))
        (some target, t.rename (parent.child directoryName) target) := if_pos hdocuments
    cases harchived.symm.trans harchive
    have hthere : t.find? (home ++ [directoryName]) ≠ none := by
      rw [hasDocuments, Bool.and_eq_true, isDirectory_iff, hkey] at hdocuments
      rw [hdocuments.1]
      exact Option.some_ne_none _
    rcases ht.archive hhome (Or.inl rfl) "" now hlive (by decide) hthere with
      ⟨hmoved, hcopy, hothers⟩
    rcases hput hmoved.isHome (hmoved.directory hdirectory) hmake with ⟨hstays, honly⟩
    refine ⟨⟨hmoved.trans hstays, fun rest => ?_⟩, iff_of_true rfl (hheld.mp hdocuments),
      fun archivedTo heq => ?_⟩
    · exact (honly _ hmanifest rest).trans (hothers _ (by decide) hmanifest rest)
    · cases heq
      exact ⟨_, rfl, hcopy.only honly hlive⟩
  · have harchive : archive parent now t = (none, t) := if_neg hdocuments
    cases harchived.symm.trans harchive
    rcases hput ht hdirectory hmake with ⟨hstays, honly⟩
    exact ⟨hstays.serves (by decide) honly,
      iff_of_false Bool.false_ne_true fun hname => hdocuments (hheld.mpr hname),
      fun archivedTo hnone => (Option.some_ne_none _ hnone.symm).elim⟩

end Documents

/-!
## A table
-/

namespace TableStore

theorem put_of_reach {path : Path} {reached : Tree} {serial? : Option Nat} {db : Database}
    (h : reach path t = .ok ((serial?, db), reached)) :
    t.find? path.key ≠ some .directory ∧
      ∀ entry, reached.put path.key entry = t.put path.key entry := by
  unfold reach at h
  split at h
  · rename_i serial found hfind
    cases h
    exact ⟨by rw [hfind]; exact fun heq => (nomatch heq), fun _ => rfl⟩
  · rename_i octets hfind
    split at h
    · cases h
      exact ⟨by rw [hfind]; exact fun heq => (nomatch heq), fun _ => rfl⟩
    · cases h
  · cases h
  · rename_i hfind
    split at h
    · rename_i written hwrite
      cases h
      rcases write_eq_ok hwrite with ⟨-, rfl⟩
      exact ⟨by rw [hfind]; exact fun heq => (nomatch heq), fun entry => put_put t _ _ entry⟩
    · cases h

theorem hasTable_of_reach (ht : t.IsHome home) {path : Path}
    (hkey : path.key = home ++ [fileName]) {reached : Tree} {serial? : Option Nat} {db : Database}
    (h : reach path t = .ok ((serial?, db), reached)) :
    db.IsPlain ∧ ∀ name table, HasTable home t name table ↔ (name, table) ∈ db.tables := by
  have hnone : (∀ serial found, t.find? path.key ≠ some (.database serial found)) →
      Database.IsPlain {} ∧ ∀ name table, HasTable home t name table ↔
        (name, table) ∈ (Database.tables {}) := by
    intro hno
    refine ⟨Database.isPlain_empty, fun name table => iff_of_false ?_ List.not_mem_nil⟩
    rintro ⟨serial, found, hfound, -⟩
    exact hno serial found (hkey ▸ hfound)
  unfold reach at h
  split at h
  · rename_i serial _ hfind
    cases h
    refine ⟨ht.plain serial db (hkey ▸ hfind), fun name table => ⟨?_, fun hmem => ?_⟩⟩
    · rintro ⟨_, _, hthere, hmem⟩
      rw [← hkey, hfind] at hthere
      cases hthere
      exact hmem
    · exact ⟨serial, db, hkey ▸ hfind, hmem⟩
  · rename_i octets hfind
    split at h
    · cases h
      exact hnone fun serial found => by rw [hfind]; exact fun heq => nomatch heq
    · cases h
  · cases h
  · rename_i hfind
    split at h
    · cases h
      exact hnone fun serial found => by rw [hfind]; exact fun heq => nomatch heq
    · cases h

theorem keep_of_reach (ht : t.IsSound) {path : Path} {reached : Tree} {serial? : Option Nat}
    {db : Database} (h : reach path t = .ok ((serial?, db), reached)) (cleared made : Database) :
    ∃ serial n, t.removed.lookup serial = none ∧ t.nextSerial ≤ n ∧
      keep path serial? made
        (if serial?.isSome then keep path serial? cleared reached else reached) =
      { t.put path.key (.database serial made) with nextSerial := n } := by
  rcases put_of_reach h with ⟨-, hput⟩
  rcases reach_eq_ok h with ⟨-, hnext, ⟨rfl, -⟩ | ⟨serial, rfl, hold⟩⟩
  · refine ⟨t.nextSerial, t.nextSerial + 1, ht.fresh, Nat.le_succ _, ?_⟩
    rw [← hput, ← hnext]
    rfl
  · refine ⟨serial, t.nextSerial, ht.present _ serial db hold, le_refl _, ?_⟩
    rw [← hput, ← hnext, ← put_put reached path.key (.database serial cleared)]
    rfl

/-- A table with rows is given the name of an archive, before a new one takes its place. -/
theorem serves_of_prepare (ht : t.IsHome home) {directory : Path} (hhome : directory.key = home)
    (hdirectory : t.isDirectory directory = true) {schema : Schema} {now : Moment}
    {prepared : Prepared} (h : (prepare directory schema now).run t = (.ok prepared, t')) :
    Serves home t t' ∧
      (prepared.archivedTo.isSome = true ↔
        ∃ table, HasTable home t tableName table ∧ table.rows ≠ []) ∧
      ∀ archivedTo, prepared.archivedTo = some archivedTo → archivedTo ≠ tableName ∧
        (∀ table, ¬HasTable home t archivedTo table) ∧
        ∀ table, HasTable home t tableName table → HasTable home t' archivedTo table := by
  rcases prepare_eq_ok h with ⟨serial?, db, reached, columns, made, hreach, -, hmade, rfl, rfl⟩
  have hkey : (directory.child fileName).key = home ++ [fileName] := by
    rw [key_file, hhome]
  rw [isDirectory_iff, hhome] at hdirectory
  rcases hasTable_of_reach ht hkey hreach with ⟨hplain, htables⟩
  rcases hplain.clear foldAscii_tableName now with ⟨hcleared, hfree, hkept⟩
  rcases Database.create_eq_add hmade with ⟨-, -, hadd⟩
  have hmadePlain : made.IsPlain := hadd ▸ hcleared.add foldAscii_tableName hfree _
  have hmadeTables : ∀ entry ∈ (db.clear tableName now).2.tables, entry ∈ made.tables := by
    rw [hadd]
    exact fun entry hmem => List.mem_append_left _ hmem
  rcases keep_of_reach ht.toIsSound hreach (db.clear tableName now).2 made with
    ⟨serial, n, hserial, hn, hdone⟩
  rw [hkey] at hdone
  rw [hdone]
  have hslash : fileName ≠ "/" := by decide
  have hstays := ht.putDatabase hdirectory (hkey ▸ (put_of_reach hreach).1) hserial hn hmadePlain
    fun name hname table htable =>
      hmadeTables _ (hkept name hname table ((htables name table).mp htable))
  refine ⟨hstays.serves (by decide) (only_put hslash [] _), ?_, fun archivedTo harchived => ?_⟩
  · rw [hplain.isSome_clear foldAscii_tableName now]
    simp only [htables]
  · rcases hplain.mem_clear foldAscii_tableName harchived with ⟨hnew, hne, hmoved⟩
    refine ⟨hne, fun table htable => ?_, fun table htable => ?_⟩
    · exact hnew (Database.mem_tableNames_of ((htables _ _).mp htable))
    · exact ⟨serial, made, find?_put_self (isEntryKey_append hslash) _,
        hmadeTables _ (hmoved table ((htables _ _).mp htable))⟩

end TableStore

/-!
## Any storage
-/

/-- Preparing storage leaves archives and the manifest as they are.  What was held before is
archived, and nothing else is. -/
theorem Backend.serves_of_prepare {backend : Backend} (ht : t.IsHome home) {directory : Path}
    (hhome : directory.key = home) (hdirectory : t.isDirectory directory = true) {schema : Schema}
    {options : Entries} {now : Moment} {prepared : Prepared}
    (h : (backend.prepare directory schema options now).run t = (.ok prepared, t')) :
    Serves home t t' ∧
      (prepared.archivedTo.isSome = true ↔ backend.Holds directory options t) ∧
      ∀ archivedTo, prepared.archivedTo = some archivedTo →
        backend.Archives directory options archivedTo t t' := by
  subst hhome
  cases backend with
  | database => exact TableStore.serves_of_prepare ht rfl hdirectory h
  | yaml =>
      exact Documents.serves_of_prepare ht rfl hdirectory (Preparation.run_ofChange_eq_ok.mp h)
  | file =>
      unfold Backend.prepare at h
      dsimp only at h
      split at h
      · rename_i format hformat
        rcases Sheet.serves_of_prepare ht rfl hdirectory (Preparation.run_ofChange_eq_ok.mp h) with
          ⟨hserves, hsome, harchives⟩
        refine ⟨hserves, hsome.trans ⟨?_, ?_⟩, fun archivedTo heq => ?_⟩
        · rintro ⟨content, hread, hdata⟩
          exact ⟨format, content, hformat, hread, hdata⟩
        · rintro ⟨other, content, hother, hread, hdata⟩
          cases hformat.symm.trans hother
          exact ⟨content, hread, hdata⟩
        · rcases harchives archivedTo heq with ⟨archive, htext, hcopy⟩
          exact ⟨format, archive, hformat, htext, hcopy⟩
      · cases h

end Roster
