import Roster.Proofs.Json.LineEnds
import Roster.Proofs.Manifest.Content
import Roster.Proofs.Storage.Tree
import Roster.Registry.Setup

/-!
# Manifests that are read

Loading a registry starts with the file of its manifest.  A file that is missing, or a directory in
its place, is a fault of the configuration.  What is in a file decides the rest: reading comes to a
manifest whose fields are all defined or to a fault of the configuration if the octets are well kept,
and breaks off in another way if they are not.
-/

namespace Roster
namespace Registry

theorem readManifest_of_file {t : Tree} {path : Path} {octets : ByteArray}
    (h : t.find? path.key = some (.file octets)) :
    readManifest t path = Manifest.ofOctets path.text octets := by
  rw [readManifest, if_pos (Tree.isFile_of_find? h fun heq => nomatch heq), Tree.read_of_find? h]

theorem readManifest_of_no_file {t : Tree} {path : Path} (h : t.isFile path = false) :
    readManifest t path = .error (.configuration (.fileMissing path.text)) := by
  rw [readManifest, h]
  rfl

/-- Reading the manifest at a path ends as it is provided for if what is there is no file, or is
one whose octets are well kept. -/
theorem readManifest_documented_iff {t : Tree} {path : Path}
    (hplain : ∀ serial db, t.find? path.key ≠ some (.database serial db)) :
    Manifest.Documented (readManifest t path) ↔
      ∀ octets, t.find? path.key = some (.file octets) → Manifest.IsWellKept octets := by
  cases hfind : t.find? path.key with
  | none =>
      rw [readManifest_of_no_file (Tree.isFile_of_none hfind)]
      exact iff_of_true (Or.inr ⟨_, rfl⟩) fun octets hsome => nomatch hsome
  | some entry =>
      cases entry with
      | directory =>
          have hfile : t.isFile path = false := by
            rw [Tree.isFile, hfind]
          rw [readManifest_of_no_file hfile]
          exact iff_of_true (Or.inr ⟨_, rfl⟩) fun octets hsome => nomatch hsome
      | database serial db => exact absurd hfind (hplain serial db)
      | file octets =>
          rw [readManifest_of_file hfind, Manifest.documented_ofOctets_iff]
          constructor
          · intro hkept other hother
            cases hother
            exact hkept
          · exact fun hkept => hkept octets rfl

/-- The sections of a manifest with one definition and something for its fields. -/
def listingSections (listed : Value) : Entries :=
  [("backend", .str "file"), ("backend_state", .map [("storage_dir", .str "s")]),
    ("fields", listed),
    ("field_definitions", .map [("user_id", .map [("field_name", .str "user_id")])])]

theorem isDocument_listingSections {listed : Value} (h : listed.IsDocument) :
    (Value.map (listingSections listed)).IsDocument := by
  have hentry : ∀ (key : String) {v : Value}, v.IsDocument → (Value.map [(key, v)]).IsDocument := by
    intro key v hv
    refine .map (List.nodup_singleton key) ?_
    rw [List.forall_mem_singleton]
    exact hv
  refine .map ?_ ?_
  · show ["backend", "backend_state", "fields", "field_definitions"].Nodup
    decide
  · simp only [listingSections, List.forall_mem_cons]
    exact ⟨.str _, hentry _ (.str _), h, hentry _ (hentry _ (.str _)), List.forall_mem_nil _⟩

def listingTree (listed : Value) : Tree where
  entries := [(["s"], .directory), (["s", "users-config.json"],
    .file (Json.write (.map (listingSections listed)) ++ "\n").toUTF8)]

theorem readManifest_documented_iff_of_listing :
    Manifest.Documented
        (readManifest (listingTree (.list [.str "user_id"])) (.ofText "s/users-config.json")) ∧
      ¬Manifest.Documented (readManifest (listingTree (.int 5)) (.ofText "s/users-config.json")) := by
  have hkey : (Path.ofText "s/users-config.json").key = ["s", "users-config.json"] := by
    decide +kernel
  have hfind : ∀ listed, (listingTree listed).find? (Path.ofText "s/users-config.json").key =
      some (.file (Json.write (.map (listingSections listed)) ++ "\n").toUTF8) := by
    intro listed
    rw [hkey]
    rfl
  have hplain : ∀ listed serial db,
      (listingTree listed).find? (Path.ofText "s/users-config.json").key ≠
        some (.database serial db) := by
    intro listed serial db
    rw [hfind]
    exact fun heq => nomatch heq
  have hkept : ∀ {listed : Value}, listed.IsDocument → (Manifest.Documented
      (readManifest (listingTree listed) (.ofText "s/users-config.json")) ↔
        Manifest.IsWellRead (.ok (.map (listingSections listed)))) := by
    intro listed hlisted
    rw [readManifest_documented_iff (hplain listed), hfind,
      ← Json.read_unifyLineEnds (isDocument_listingSections hlisted),
      ← Manifest.isWellKept_toUTF8_iff]
    constructor
    · exact fun hall => hall _ rfl
    · intro hone octets hoctets
      rw [← Entry.file.inj (Option.some.inj hoctets)]
      exact hone
  have hnames : (Value.list [.str "user_id"]).IsDocument := by
    refine .list ?_
    rw [List.forall_mem_singleton]
    exact .str _
  constructor
  · rw [hkept hnames]
    intro _
    have hreadable : Definition.IsReadable [("field_name", .str "user_id")] := by
      constructor
      · decide
      · rw [List.forall_mem_singleton]
        intro a ha
        obtain rfl : Attribute.fieldName = a := Option.some.inj ha
        trivial
    refine ⟨_, _, ⟨rfl, ?_⟩, rfl, by decide, fun _ => ⟨Or.inl ⟨_, rfl⟩, fun hoptions => ?_⟩⟩
    · rw [List.forall_mem_singleton]
      exact ⟨_, rfl, hreadable⟩
    · cases hoptions
  · rw [hkept (.int (by decide))]
    intro hread
    have hgiven : ∀ key ∈ Manifest.requiredSections,
        (((listingSections (.int 5)).lookup key).getD .null).isGiven = true := by
      decide
    rcases hread hgiven with ⟨definitions, listed, -, hlisted, -⟩
    cases hlisted

end Registry
end Roster
