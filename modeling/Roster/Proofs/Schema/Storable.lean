import Roster.Proofs.Schema.Assembly
import Roster.Proofs.Schema.Definition

/-!
# Assembled definitions can be stored

A definition takes its parts from the catalog and from the values of the setup, so a setup that is a
document leads to definitions that can be written to one.
-/

namespace Roster
namespace Definition

/-!
## Single attributes
-/

theorem IsStorable.assign {d d' : Definition} (h : d.IsStorable) {a : Attribute} {v : Value}
    (hv : v.IsDocument) (hassign : d.assign a v = .ok d') : d'.IsStorable := by
  cases a with
  | fieldName =>
      cases hassign
      exact { h with fieldName := hv }
  | category =>
      cases hassign
      exact { h with category := hv }
  | kind =>
      cases hassign
      exact { h with kind := hv }
  | validateAs =>
      cases hassign
      exact { h with validateAs := hv }
  | maxLength =>
      rcases Steps.map_eq_ok.mp hassign with ⟨length, hlength, rfl⟩
      refine { h with maxLength := fun n hn => ?_ }
      obtain rfl : length = some n := hn
      unfold Attribute.length at hlength
      split at hlength
      · cases hlength
      · split at hlength
        · cases hlength
        · rcases Steps.map_eq_ok.mp hlength with ⟨i, hi, hsome⟩
          cases hsome
          exact hv.length_toInt hi
      · rcases Steps.map_eq_ok.mp hlength with ⟨i, hi, hsome⟩
        cases hsome
        exact hv.length_toInt hi
  | options =>
      rcases Steps.map_eq_ok.mp hassign with ⟨options, -, rfl⟩
      exact { h with }
  | cleanOptions =>
      rcases Steps.map_eq_ok.mp hassign with ⟨options, -, rfl⟩
      exact { h with }
  | label | description | required | mustValidate | default | nullValue =>
      cases hassign
      exact { h with }

theorem IsStorable.setExtra {d : Definition} (h : d.IsStorable) {name : String} {v : Value}
    (hunknown : Attribute.ofName? name = none) (hv : v.IsDocument) :
    ({ d with extras := Entries.set d.extras name v } : Definition).IsStorable := by
  refine { h with extras_nodup := ?_, extras_unknown := ?_, extras := ?_ }
  · exact Entries.nodup_keys_set h.extras_nodup
  · intro key hkey
    rcases List.mem_map.mp hkey with ⟨extra, hextra, rfl⟩
    rcases Entries.mem_set hextra with rfl | hold
    · exact hunknown
    · exact h.extras_unknown extra.1 (List.mem_map_of_mem hold)
  · exact Value.isDocument_set h.extras name hv

theorem IsStorable.addEntry {d d' : Definition} (h : d.IsStorable) {entry : String × Value}
    (hv : entry.2.IsDocument) (hadd : d.addEntry entry = .ok d') : d'.IsStorable := by
  unfold Definition.addEntry at hadd
  split at hadd
  · exact h.assign hv hadd
  · rename_i hunknown
    split at hadd
    · cases hadd
      exact h
    · cases hadd
      exact h.setExtra hunknown hv

theorem isStorable_of_null : IsStorable { fieldName := .null } where
  fieldName := .null
  category := .str _
  kind := .str _
  validateAs := .null
  maxLength := fun _ hn => nomatch hn
  extras_nodup := List.nodup_nil
  extras_unknown := fun _ hkey => nomatch hkey
  extras := fun _ hextra => nomatch hextra

theorem isStorable_ofEntries {entries : Entries} (h : ∀ entry ∈ entries, entry.2.IsDocument)
    {d : Definition} (hread : ofEntries entries = .ok d) : d.IsStorable := by
  rcases Steps.bind_eq_ok.mp hread with ⟨last, hlast, hnamed⟩
  split at hnamed
  · cases hnamed
    exact Steps.foldlM_keeps (fun entry hentry d d' hd => hd.addEntry (h entry hentry))
      isStorable_of_null hlast
  · cases hnamed

end Definition

namespace Assembly

open Definition

/-!
## Overrides
-/

theorem isStorable_applyAttribute {draft draft' : Draft} (h : draft.definition.IsStorable)
    {entry : String × Value} (hv : entry.2.IsDocument)
    (happly : applyAttribute draft entry = .ok draft') : draft'.definition.IsStorable := by
  unfold applyAttribute at happly
  dsimp only at happly
  split at happly
  · cases happly
    exact h
  · split at happly
    · cases happly
      exact h
    · split at happly
      · rename_i hunknown
        cases happly
        exact h.setExtra hunknown hv
      · split at happly
        · cases happly
          exact { h with validateAs := hv }
        · cases happly
          exact { h with validateAs := .str _ }
      · split at happly
        · rename_i hassign
          cases happly
          exact h.assign hv hassign
        · split at happly
          · cases happly
            exact h
          · cases happly

theorem isStorable_overrideDefinition {name : String} {override_ : Entries}
    (hoverride : ∀ entry ∈ override_, entry.2.IsDocument) {d d' : Definition} (h : d.IsStorable)
    {warnings : List SchemaWarning}
    (hchange : overrideDefinition name override_ d = .ok (d', warnings)) : d'.IsStorable := by
  rcases Steps.bind_eq_ok.mp hchange with ⟨draft, hdraft, hresult⟩
  have hdefinition : draft.definition.IsStorable :=
    Steps.foldlM_keeps (P := fun draft => draft.definition.IsStorable)
      (fun entry hentry _ _ hd => isStorable_applyAttribute hd (hoverride entry hentry)) h hdraft
  cases hresult
  have hkind : (followKind override_ draft.definition).IsStorable := by
    unfold followKind
    split
    · exact { hdefinition with validateAs := hdefinition.kind }
    · exact hdefinition
  unfold followRequired
  split
  · exact { hkind with }
  · exact hkind

theorem isStorable_applyOverrides {isProtected : Value → Bool}
    {definitions changed : List (String × Definition)} {overrides : List Value}
    {warnings : List SchemaWarning} (hdefinitions : ∀ entry ∈ definitions, entry.2.IsStorable)
    (hoverrides : ∀ v ∈ overrides, v.IsDocument)
    (h : applyOverrides isProtected definitions overrides = .ok (changed, warnings)) :
    ∀ entry ∈ changed, entry.2.IsStorable := by
  refine applyOverrides_keeps (P := fun new => ∀ entry ∈ new, entry.2.IsStorable)
    ?_ hdefinitions h
  intro v hmem old new notes hold hchange
  rcases applyOverride_cases hchange with rfl | ⟨sets, name, d, d', more, rfl, -, -, hd, hset, rfl⟩
  · exact hold
  · cases hoverrides _ hmem with
    | map _ hentries =>
        have hd' := isStorable_overrideDefinition hentries
          (hold (name, d) (Entries.mem_of_lookup hd)) hset
        intro entry hentry
        rcases Entries.mem_set hentry with rfl | hother
        · exact hd'
        · exact hold entry hother

/-!
## Application fields
-/

theorem isDocument_completeEntries {name : String} {entry complete : Entries}
    (hentry : ∀ e ∈ entry, e.2.IsDocument) (h : completeEntries name entry = .ok complete) :
    ∀ e ∈ complete, e.2.IsDocument := by
  refine forall_completeEntries (P := fun e => e.2.IsDocument) h (.str _) (.str _)
    (fun e he _ => hentry e he) ?_
  intro key _ v hv
  rcases hv with rfl | rfl | ⟨s, rfl⟩
  · exact Value.isDocument_lookup hentry "label"
  · exact .bool false
  · exact .str s

theorem isStorable_plainField (name : String) : (plainField name).IsStorable where
  fieldName := .str name
  category := .str _
  kind := .str _
  validateAs := .str _
  maxLength := fun _ hn => nomatch hn
  extras_nodup := List.nodup_nil
  extras_unknown := fun _ hkey => nomatch hkey
  extras := fun _ hextra => nomatch hextra

theorem isStorable_appDefinition {name : String} {entry : Entries}
    (hentry : ∀ e ∈ entry, e.2.IsDocument) {d : Definition}
    (h : appDefinition name entry = .ok (.ok d)) : d.IsStorable := by
  rcases Steps.bind_eq_ok.mp h with ⟨complete, hcomplete, hread⟩
  split at hread
  · rename_i hofEntries
    cases hread
    exact isStorable_ofEntries (isDocument_completeEntries hentry hcomplete) hofEntries
  · split at hread
    · cases hread
    · cases hread

theorem isStorable_appFields {taken : List String} {entries : List Value}
    (hentries : ∀ v ∈ entries, v.IsDocument) {app : List (String × Definition)}
    {warnings : List SchemaWarning} (h : appFields taken entries = .ok (app, warnings)) :
    ∀ field ∈ app, field.2.IsStorable := by
  intro field hfield
  rcases exists_appField h hfield with ⟨v, hv, before, hadded⟩
  rcases appField_eq_ok hadded with ⟨-, -, -, -, ⟨entry, rfl, hread⟩ | hplain⟩
  · cases hentries _ hv with
    | map _ hvalues => exact isStorable_appDefinition hvalues hread
  · rw [hplain]
    exact isStorable_plainField _

theorem isDocument_appEntries {v : Value} (hv : v.IsDocument) {entries : List Value}
    (h : appEntries v = .ok entries) : ∀ entry ∈ entries, entry.IsDocument := by
  unfold appEntries at h
  split at h
  · cases h
    exact fun entry hentry => nomatch hentry
  · split at h
    · cases h
      intro entry hentry
      rcases List.mem_map.mp hentry with ⟨name, -, rfl⟩
      exact .str _
    · exact hv.items h

theorem isStorable_finishOptions {d : Definition} (h : d.IsStorable) :
    (finishOptions d).IsStorable := by
  unfold finishOptions
  split
  · exact { h with }
  · exact h

end Assembly

/-!
## The whole schema
-/

theorem Catalog.isStorable : ∀ field ∈ Catalog.definitions, field.2.IsStorable := by
  have htexts : ∀ field ∈ Catalog.definitions,
      (∀ v ∈ [field.2.fieldName, field.2.category, field.2.kind, field.2.validateAs],
        v = .null ∨ v.text?.isSome) ∧
      (∀ n ∈ field.2.maxLength, n.natAbs < 10 ^ 3) ∧ field.2.extras = [] := by
    decide
  have hdocument : ∀ {v : Value}, v = .null ∨ v.text?.isSome → v.IsDocument := by
    rintro v (rfl | htext)
    · exact .null
    · cases v with
      | str s => exact .str s
      | _ => cases htext
  intro field hfield
  rcases htexts field hfield with ⟨hvalues, hlength, hextras⟩
  simp only [List.forall_mem_cons] at hvalues
  rcases hvalues with ⟨hname, hcategory, hkind, hvalidate, -⟩
  constructor
  · exact hdocument hname
  · exact hdocument hcategory
  · exact hdocument hkind
  · exact hdocument hvalidate
  · intro n hn
    exact (Numeral.length_toDigits_le (by decide) (hlength n hn)).trans (by decide)
  · rw [hextras]
    exact List.nodup_nil
  · rw [hextras]
    exact fun key hkey => nomatch hkey
  · rw [hextras]
    exact fun extra hextra => nomatch hextra

/-- The definitions of a schema that a document sets up can be stored. -/
theorem Schema.isStorable_of_assemble {config : Value} (hconfig : config.IsDocument)
    {schema : Schema} {warnings : List SchemaWarning}
    (h : Schema.assemble config = .ok (schema, warnings)) :
    ∀ field ∈ schema.definitions, field.2.IsStorable := by
  rcases Schema.steps_of_assemble h with
    ⟨entries, isProtected, standard, overrides, overridden, offers, app, hentries, -, -, hoverrides,
      ⟨overrideNotes, hoverridden⟩, hoffers, ⟨appNotes, happ⟩, -, hdefinitions⟩
  have hsettings : ∀ name, ((entries.lookup name).getD .null).IsDocument := by
    cases hconfig with
    | map _ hvalues =>
        cases hentries
        exact Value.isDocument_lookup hvalues
    | _ => cases hentries
  have hbuiltIn : ∀ field ∈ Catalog.core ++ Catalog.system ++
      Catalog.standard.filter (fun field => standard.contains field.1), field.2.IsStorable := by
    intro field hfield
    refine Catalog.isStorable field ?_
    simp only [List.mem_append, List.mem_filter] at hfield
    simp only [Catalog.definitions, List.mem_append]
    tauto
  have hoverrideList : ∀ v ∈ overrides, v.IsDocument := by
    split at hoverrides
    · exact (hsettings "field_overrides").items hoverrides
    · cases hoverrides
      exact fun v hv => nomatch hv
  have happList := Assembly.isDocument_appEntries (hsettings "app_fields") hoffers
  -- A definition was built in and perhaps overridden, or it came with an application field.
  intro field hfield
  rw [hdefinitions] at hfield
  rcases List.mem_map.mp hfield with ⟨unfinished, hunfinished, rfl⟩
  refine Assembly.isStorable_finishOptions ?_
  rcases List.mem_append.mp hunfinished with hold | hnew
  · exact Assembly.isStorable_applyOverrides hbuiltIn hoverrideList hoverridden unfinished hold
  · exact Assembly.isStorable_appFields happList happ unfinished hnew

end Roster
