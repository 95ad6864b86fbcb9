import Roster.Proofs.Schema.Assembly
import Roster.Proofs.Schema.Attributes

/-!
# The segments of a schema

A schema has its fields in four segments: the core fields, the standard fields that the setup
selects, the application fields that it adds, and the system fields.  Every field is defined once,
under its own name and with the category of its segment.  Both come from the catalog or from the
assembly itself, so the argument is that no attribute which a setup supplies can change either.
-/

namespace Roster

/-!
## Names and categories of definitions
-/

namespace Definition

/-- The name of the field with its category. -/
def identity (d : Definition) : Value × Value :=
  (d.fieldName, d.category)

theorem identity_assign {d d' : Definition} {a : Attribute} {v : Value}
    (h : d.assign a v = .ok d') :
    d'.identity = (if a = .fieldName then v else d.fieldName,
      if a = .category then v else d.category) := by
  cases a with
  | options | cleanOptions | maxLength =>
      rcases Steps.map_eq_ok.mp h with ⟨value, -, rfl⟩
      rfl
  | _ =>
      cases h
      rfl

theorem identity_addEntry {d d' : Definition} {e : String × Value} (h : d.addEntry e = .ok d') :
    d'.identity = (if e.1 = "field_name" then e.2 else d.fieldName,
      if e.1 = "category" then e.2 else d.category) := by
  have hfieldName : Attribute.ofName? "field_name" = some .fieldName := rfl
  have hcategory : Attribute.ofName? "category" = some .category := rfl
  unfold addEntry at h
  split at h
  · rename_i a ha
    rw [identity_assign h]
    simp only [Attribute.eq_iff_of_ofName? ha hfieldName, Attribute.eq_iff_of_ofName? ha hcategory]
  · rename_i hunknown
    have hother : ∀ {key a}, Attribute.ofName? key = some a → e.1 ≠ key := by
      rintro key a hkey rfl
      rw [hunknown] at hkey
      cases hkey
    rw [if_neg (hother hfieldName), if_neg (hother hcategory)]
    split at h
    · cases h
      rfl
    · cases h
      rfl

/-- A definition is of the only name and the only category among the entries it is read from. -/
theorem identity_ofEntries {entries : Entries} {d : Definition} (h : ofEntries entries = .ok d)
    {name : Value} (hname : ∀ e ∈ entries, e.1 = "field_name" → e.2 = name)
    (hcategory : ∀ e ∈ entries, e.1 = "category" → e.2 = .str "app") :
    d.identity = (name, .str "app") := by
  rcases Steps.bind_eq_ok.mp h with ⟨last, hlast, hnamed⟩
  split at hnamed
  · rename_i hhas
    cases hnamed
    have happ : d.category = .str "app" := by
      refine Steps.foldlM_keeps (P := fun d => d.category = .str "app") ?_ rfl hlast
      intro e he old new hold hadd
      have hnew : new.category = if e.1 = "category" then e.2 else old.category :=
        congrArg Prod.snd (identity_addEntry hadd)
      rw [hnew]
      split
      · rename_i hkey
        exact hcategory e he hkey
      · exact hold
    have hfield : d.fieldName = name := by
      -- the entry of the name sets it, and those behind it set the same one
      rcases List.any_eq_true.mp hhas with ⟨e, he, hkey⟩
      rw [beq_iff_eq] at hkey
      rcases List.append_of_mem he with ⟨front, back, hentries⟩
      rw [hentries, List.foldlM_append] at hlast
      rcases Steps.bind_eq_ok.mp hlast with ⟨before, -, hlast⟩
      rw [List.foldlM_cons] at hlast
      rcases Steps.bind_eq_ok.mp hlast with ⟨set, hset, hlast⟩
      have hstart : set.fieldName = if e.1 = "field_name" then e.2 else before.fieldName :=
        congrArg Prod.fst (identity_addEntry hset)
      rw [if_pos hkey, hname e he hkey] at hstart
      refine Steps.foldlM_keeps (P := fun d => d.fieldName = name) ?_ hstart hlast
      intro other hother old new hold hadd
      have hnew : new.fieldName = if other.1 = "field_name" then other.2 else old.fieldName :=
        congrArg Prod.fst (identity_addEntry hadd)
      rw [hnew]
      split
      · rename_i hsame
        refine hname other ?_ hsame
        rw [hentries]
        exact List.mem_append_right _ (List.mem_cons_of_mem _ hother)
      · exact hold
    rw [identity, happ, hfield]
  · cases hnamed

end Definition

namespace Catalog

/-- The category of the fields of a name. -/
def category (name : String) : String :=
  if coreFields.contains name then "core"
  else if standardFields.contains name then "standard"
  else if systemFields.contains name then "system"
  else "app"

theorem category_eq_app {name : String} (h : name ∉ reservedFields) : category name = "app" := by
  simp only [reservedFields, List.mem_append, not_or] at h
  rcases h with ⟨⟨hcore, hstandard⟩, hsystem⟩
  simp only [category, List.contains_iff_mem, hcore, hstandard, hsystem, if_false]

theorem identity_eq :
    ∀ field ∈ definitions, field.2.identity = (.str field.1, .str (category field.1)) := by
  decide

end Catalog

namespace Assembly

open Definition

/-!
## Overrides
-/

theorem identity_applyAttribute {draft draft' : Draft} {entry : String × Value}
    (h : applyAttribute draft entry = .ok draft') :
    draft'.definition.identity = draft.definition.identity := by
  have hfieldName : Attribute.ofName? "field_name" = some .fieldName := rfl
  have hcategory : Attribute.ofName? "category" = some .category := rfl
  unfold applyAttribute at h
  dsimp only at h
  split at h
  · cases h
    rfl
  · rename_i hname
    split at h
    · cases h
      rfl
    · rename_i hopen
      split at h
      · cases h
        rfl
      · split at h
        · cases h
          rfl
        · cases h
          rfl
      · rename_i a _ ha
        split at h
        · rename_i hassign
          cases h
          rw [identity_assign hassign, if_neg, if_neg]
          · rfl
          · rw [Attribute.eq_iff_of_ofName? ha hcategory]
            intro hkey
            rw [hkey] at hopen
            exact hopen (by decide)
          · rw [Attribute.eq_iff_of_ofName? ha hfieldName]
            intro hkey
            rw [hkey] at hname
            exact hname (by decide)
        · split at h
          · cases h
            rfl
          · cases h

@[simp] theorem identity_followKind (override_ : Entries) (d : Definition) :
    (followKind override_ d).identity = d.identity := by
  unfold followKind
  split
  · rfl
  · rfl

@[simp] theorem identity_followRequired (override_ : Entries) (d : Definition) :
    (followRequired override_ d).identity = d.identity := by
  unfold followRequired
  split
  · rfl
  · rfl

@[simp] theorem identity_finishOptions (d : Definition) :
    (finishOptions d).identity = d.identity := by
  unfold finishOptions
  split
  · rfl
  · rfl

theorem identity_overrideDefinition {name : String} {override_ : Entries} {d d' : Definition}
    {warnings : List SchemaWarning}
    (h : overrideDefinition name override_ d = .ok (d', warnings)) : d'.identity = d.identity := by
  rcases Steps.bind_eq_ok.mp h with ⟨draft, hdraft, hresult⟩
  have hkept : draft.definition.identity = d.identity :=
    Steps.foldlM_keeps (P := fun draft => draft.definition.identity = d.identity)
      (fun entry _ old new hold happly => (identity_applyAttribute happly).trans hold) rfl hdraft
  cases hresult
  rw [identity_followRequired, identity_followKind, hkept]

theorem identity_applyOverrides {isProtected : Value → Bool}
    {definitions changed : List (String × Definition)} {overrides : List Value}
    {warnings : List SchemaWarning}
    (hdefinitions : ∀ field ∈ definitions,
      field.2.identity = (.str field.1, .str (Catalog.category field.1)))
    (h : applyOverrides isProtected definitions overrides = .ok (changed, warnings)) :
    ∀ field ∈ changed, field.2.identity = (.str field.1, .str (Catalog.category field.1)) := by
  refine applyOverrides_keeps (P := fun new => ∀ field ∈ new,
    field.2.identity = (.str field.1, .str (Catalog.category field.1))) ?_ hdefinitions h
  intro v _ old new notes hold hchange
  rcases applyOverride_cases hchange with rfl | ⟨sets, name, d, d', more, -, -, -, hd, hset, rfl⟩
  · exact hold
  · intro field hfield
    rcases Entries.mem_set hfield with rfl | hother
    · rw [identity_overrideDefinition hset]
      exact hold (name, d) (Entries.mem_of_lookup hd)
    · exact hold field hother

/-!
## Application fields
-/

theorem identity_appDefinition {name : String} {entry : Entries} {d : Definition}
    (h : appDefinition name entry = .ok (.ok d)) : d.identity = (.str name, .str "app") := by
  rcases Steps.bind_eq_ok.mp h with ⟨complete, hcomplete, hread⟩
  have hentries : ∀ e ∈ complete, (e.1 = "field_name" → e.2 = .str name) ∧
      (e.1 = "category" → e.2 = .str "app") := by
    refine forall_completeEntries (P := fun e => (e.1 = "field_name" → e.2 = .str name) ∧
      (e.1 = "category" → e.2 = .str "app")) hcomplete ?_ ?_ ?_ ?_
    · have hother : "field_name" ≠ "category" := by decide
      exact ⟨fun _ => rfl, fun hkey => absurd hkey hother⟩
    · have hother : "category" ≠ "field_name" := by decide
      exact ⟨fun hkey => absurd hkey hother, fun _ => rfl⟩
    · intro e _ hkept
      constructor
      · intro hkey
        exact absurd (hkey ▸ (by decide : "field_name" ∈ renewedAttributes)) hkept
      · intro hkey
        exact absurd (hkey ▸ (by decide : "category" ∈ renewedAttributes)) hkept
    · intro key hkey v _
      have hother : key ≠ "field_name" ∧ key ≠ "category" := by
        revert key
        decide
      exact ⟨fun heq => absurd heq hother.1, fun heq => absurd heq hother.2⟩
  split at hread
  · rename_i hofEntries
    cases hread
    exact identity_ofEntries hofEntries (fun e he => (hentries e he).1)
      fun e he => (hentries e he).2
  · split at hread
    · cases hread
    · cases hread

theorem identity_appFields {taken : List String} {offers : List Value}
    {app : List (String × Definition)} {warnings : List SchemaWarning}
    (h : appFields taken offers = .ok (app, warnings)) :
    ∀ field ∈ app, field.2.identity = (.str field.1, .str "app") := by
  intro field hfield
  rcases exists_appField h hfield with ⟨v, -, before, hadded⟩
  rcases appField_eq_ok hadded with ⟨-, -, -, -, ⟨entry, -, hread⟩ | hplain⟩
  · exact identity_appDefinition hread
  · rw [hplain]
    rfl

/-- The name of the field that an entry adds if no entry before it has added one of this name. -/
def acceptedName? (v : Value) : Option String :=
  match appField [] v with
  | .ok (.ok field) => some field.1
  | _ => none

theorem appField_of_free {taken : List String} {v : Value} {name : String}
    (hname : entryName? v = some name) (hfree : name ∉ taken) :
    appField taken v = appField [] v := by
  have hcontains : taken.contains name = false := by
    rw [← Bool.not_eq_true, List.contains_iff_mem]
    exact hfree
  unfold appField
  rw [hname]
  simp only [hcontains, List.contains_nil]
  rfl

theorem acceptedName?_eq_some_iff {v : Value} {name : String} :
    acceptedName? v = some name ↔ ∃ d, appField [] v = .ok (.ok (name, d)) := by
  unfold acceptedName?
  constructor
  · intro h
    split at h
    · rename_i field halone
      obtain rfl : field.1 = name := Option.some.inj h
      exact ⟨field.2, halone⟩
    · cases h
  · rintro ⟨d, halone⟩
    rw [halone]

theorem appField_eq_ok_iff {taken : List String} {v : Value} {field : String × Definition} :
    appField taken v = .ok (.ok field) ↔
      appField [] v = .ok (.ok field) ∧ field.1 ∉ taken := by
  constructor
  · intro h
    rcases appField_eq_ok h with ⟨hname, -, -, hfree, -⟩
    rw [← appField_of_free hname hfree]
    exact ⟨h, hfree⟩
  · rintro ⟨h, hfree⟩
    rcases appField_eq_ok h with ⟨hname, -, -, -, -⟩
    rw [appField_of_free hname hfree, h]

/-- The application fields are those that the entries name, each where it is named first. -/
theorem keys_appFields {taken : List String} {offers : List Value}
    {app : List (String × Definition)} {warnings : List SchemaWarning}
    (h : appFields taken offers = .ok (app, warnings)) :
    Entries.keys app =
      ((offers.filterMap acceptedName?).filter (!taken.contains ·)).eraseDups := by
  -- Each accepted name is taken for the entries behind it, so the list of taken names grows along.
  induction offers generalizing taken app warnings with
  | nil =>
      cases h
      rfl
  | cons v rest ih =>
      rcases Steps.bind_eq_ok.mp h with ⟨result, hfirst, hrest⟩
      rw [List.filterMap_cons]
      cases result with
      | error warning =>
          rcases Steps.bind_eq_ok.mp hrest with ⟨⟨more, notes⟩, hmore, hresult⟩
          cases hresult
          rw [ih hmore]
          cases hname : acceptedName? v with
          | none => rfl
          | some name =>
              rcases acceptedName?_eq_some_iff.mp hname with ⟨d, halone⟩
              have htaken : name ∈ taken := by
                by_contra hfree
                rw [appField_eq_ok_iff.mpr ⟨halone, hfree⟩] at hfirst
                cases hfirst
              rw [List.filter_cons_of_neg]
              simpa using htaken
      | ok field =>
          rcases Steps.bind_eq_ok.mp hrest with ⟨⟨more, notes⟩, hmore, hresult⟩
          cases hresult
          rcases appField_eq_ok_iff.mp hfirst with ⟨halone, hfree⟩
          have hlater : (rest.filterMap acceptedName?).filter (!(field.1 :: taken).contains ·) =
              ((rest.filterMap acceptedName?).filter (!taken.contains ·)).filter
                (!· == field.1) := by
            rw [List.filter_filter]
            congr 1
            funext name
            rw [List.contains_cons, Bool.not_or]
          rw [acceptedName?_eq_some_iff.mpr ⟨field.2, halone⟩]
          dsimp only
          rw [List.filter_cons_of_pos, List.eraseDups_cons, ← hlater, ← ih hmore]
          · rfl
          · simpa using hfree

/-- The standard fields that a selection takes, in catalog order; no selection takes them all. -/
def selectedFields (requested : Option (List String)) : List String :=
  Catalog.standardFields.filter fun name => requested.all (·.contains name)

theorem standardFields_eq_selectedFields {selection : Option Value} {standard : List String}
    {warnings : List SchemaWarning} (h : standardFields selection = .ok (standard, warnings)) :
    ∃ requested, requestedFields selection = .ok requested ∧
      standard = selectedFields requested := by
  rcases Steps.bind_eq_ok.mp h with ⟨requested, hrequested, hchosen⟩
  refine ⟨requested, hrequested, ?_⟩
  cases requested with
  | none =>
      cases hchosen
      exact (List.filter_eq_self.mpr fun name _ => rfl).symm
  | some names =>
      cases hchosen
      rfl

/-- The application fields that entries add. -/
def acceptedFields (offers : List Value) : List String :=
  (offers.filterMap acceptedName?).eraseDups

theorem not_reserved_of_acceptedName? {v : Value} {name : String}
    (h : acceptedName? v = some name) : name ∉ Catalog.reservedFields := by
  rcases acceptedName?_eq_some_iff.mp h with ⟨d, halone⟩
  exact (appField_eq_ok halone).2.2.1

theorem keys_appFields_of_reserved {taken : List String} {offers : List Value}
    {app : List (String × Definition)} {warnings : List SchemaWarning}
    (hreserved : ∀ name ∈ taken, name ∈ Catalog.reservedFields)
    (h : appFields taken offers = .ok (app, warnings)) :
    Entries.keys app = acceptedFields offers := by
  have hall : (offers.filterMap acceptedName?).filter (!taken.contains ·) =
      offers.filterMap acceptedName? := by
    rw [List.filter_eq_self]
    intro name hname
    rcases List.mem_filterMap.mp hname with ⟨v, -, hv⟩
    rw [Bool.not_eq_true', ← Bool.not_eq_true, List.contains_iff_mem]
    exact fun htaken => not_reserved_of_acceptedName? hv (hreserved name htaken)
  rw [keys_appFields h, hall, acceptedFields]

end Assembly

/-!
## The segments
-/

namespace Schema

/-- Every definition has the name it is found under and its category. -/
theorem identity_of_assemble {config : Value} {schema : Schema} {warnings : List SchemaWarning}
    (h : assemble config = .ok (schema, warnings)) :
    ∀ field ∈ schema.definitions,
      field.2.identity = (.str field.1, .str (Catalog.category field.1)) := by
  rcases steps_of_assemble h with
    ⟨entries, isProtected, standard, overrides, overridden, offers, app, -, -, -, -,
      ⟨overrideNotes, hoverridden⟩, -, ⟨appNotes, happ⟩, -, hdefinitions⟩
  intro field hfield
  rw [hdefinitions] at hfield
  rcases List.mem_map.mp hfield with ⟨unfinished, hunfinished, rfl⟩
  rw [Assembly.identity_finishOptions]
  rcases List.mem_append.mp hunfinished with hold | hnew
  · refine Assembly.identity_applyOverrides ?_ hoverridden unfinished hold
    intro builtIn hbuiltIn
    refine Catalog.identity_eq builtIn ?_
    simp only [List.mem_append, List.mem_filter] at hbuiltIn
    simp only [Catalog.definitions, List.mem_append]
    tauto
  · have hfree := (Assembly.appFields_names happ).2 _ (List.mem_map_of_mem hnew)
    rw [Assembly.identity_appFields happ unfinished hnew, Catalog.category_eq_app hfree.1]

/-- The fields of a schema by category. -/
def segments (standard app : List String) : List (String × List String) :=
  [("core", Catalog.coreFields), ("standard", standard), ("app", app),
    ("system", Catalog.systemFields)]

theorem category_of_segment {standard app : List String}
    (hstandard : standard.Sublist Catalog.standardFields)
    (happ : ∀ name ∈ app, name ∉ Catalog.reservedFields) :
    ∀ segment ∈ segments standard app, ∀ name ∈ segment.2,
      Catalog.category name = segment.1 := by
  have hbuiltIn : (∀ name ∈ Catalog.coreFields, Catalog.category name = "core") ∧
      (∀ name ∈ Catalog.standardFields, Catalog.category name = "standard") ∧
      ∀ name ∈ Catalog.systemFields, Catalog.category name = "system" := by
    decide
  rcases hbuiltIn with ⟨hcore, hchosen, hsystem⟩
  simp only [segments, List.forall_mem_cons]
  refine ⟨hcore, ?_, ?_, hsystem, List.forall_mem_nil _⟩
  · exact fun name hname => hchosen name (hstandard.subset hname)
  · exact fun name hname => Catalog.category_eq_app (happ name hname)

/-- The fields are in segments, no field is in two of them, and each is defined once, as a field of
its segment; application fields leave the built-in names alone, and protected fields are defined as
in the catalog. -/
structure Segmented (schema : Schema) (standard app : List String) : Prop where
  fields : schema.fields = (segments standard app).flatMap Prod.snd
  nodup : schema.fields.Nodup
  keys : (Entries.keys schema.definitions).Perm schema.fields
  identity : ∀ segment ∈ segments standard app, ∀ name ∈ segment.2,
    ∃ d, schema.get? name = some d ∧ d.fieldName = .str name ∧ d.category = .str segment.1
  free : ∀ name ∈ app, name ∉ Catalog.reservedFields
  kept : ∀ name ∈ Catalog.protectedFields,
    ∃ d, schema.get? name = some d ∧ Catalog.definitions.lookup name = some d

theorem exists_catalog_of_protected {config : Value} {schema : Schema}
    {warnings : List SchemaWarning} (h : assemble config = .ok (schema, warnings)) {name : String}
    (hname : name ∈ Catalog.protectedFields) :
    ∃ d, schema.get? name = some d ∧ Catalog.definitions.lookup name = some d := by
  have hcatalog : ∀ name ∈ Catalog.protectedFields,
      (Catalog.definitions.lookup name).isSome = true ∧
        (Catalog.core ++ Catalog.system).lookup name = Catalog.definitions.lookup name := by
    decide
  rcases hcatalog name hname with ⟨hsome, hsame⟩
  rcases Option.isSome_iff_exists.mp hsome with ⟨d, hd⟩
  refine ⟨d, ?_, hd⟩
  rw [get?_of_protected h hname, hsame, hd]

/-- Every schema that comes out of a setup has its fields in segments. -/
theorem segmented_of_assemble {config : Value} {schema : Schema} {warnings : List SchemaWarning}
    (h : assemble config = .ok (schema, warnings)) :
    ∃ entries requested offers, config.entries = .ok entries ∧
      Assembly.requestedFields (entries.lookup "include_standard_fields") = .ok requested ∧
      Assembly.appEntries ((entries.lookup "app_fields").getD .null) = .ok offers ∧
      schema.Segmented (Assembly.selectedFields requested) (Assembly.acceptedFields offers) := by
  rcases steps_of_assemble h with
    ⟨entries, isProtected, standard, overrides, overridden, offers, app, hentries, -,
      ⟨standardNotes, hstandard⟩, -, -, hoffers, ⟨appNotes, happ⟩, hfields, -⟩
  rcases Assembly.standardFields_eq_selectedFields hstandard with ⟨requested, hrequested, rfl⟩
  have hsublist := Assembly.standardFields_sublist hstandard
  have hnames : Entries.keys app = Assembly.acceptedFields offers := by
    refine Assembly.keys_appFields_of_reserved ?_ happ
    intro name hname
    exact List.mem_append_left _ ((hsublist.append_left Catalog.coreFields).subset hname)
  have hfree : ∀ name ∈ Assembly.acceptedFields offers, name ∉ Catalog.reservedFields := by
    rw [← hnames]
    exact fun name hname => ((Assembly.appFields_names happ).2 name hname).1
  have hsegments : schema.fields = (segments (Assembly.selectedFields requested)
      (Assembly.acceptedFields offers)).flatMap Prod.snd := by
    rw [hfields, hnames]
    simp only [segments, List.flatMap_cons, List.flatMap_nil, List.append_nil, List.append_assoc]
  have hsound := assemble_sound h
  refine ⟨entries, requested, offers, hentries, hrequested, hoffers, ?_⟩
  constructor
  case fields => exact hsegments
  case nodup => exact hsound.nodup
  case keys =>
    rw [List.perm_ext_iff_of_nodup (nodup_of_assemble h) hsound.nodup]
    intro name
    rw [← has_iff_mem_keys, hsound.has_iff]
  case identity =>
    intro segment hsegment name hname
    have hfield : name ∈ schema.fields := by
      rw [hsegments]
      exact List.mem_flatMap.mpr ⟨segment, hsegment, hname⟩
    have hd := hsound.get?_eq hfield
    have hidentity := identity_of_assemble h _ (Entries.mem_of_lookup hd)
    rw [category_of_segment hsublist hfree segment hsegment name hname] at hidentity
    exact ⟨schema.definition name, hd, congrArg Prod.fst hidentity, congrArg Prod.snd hidentity⟩
  case free => exact hfree
  case kept => exact fun name hname => exists_catalog_of_protected h hname

/-- A setup that tries to change names and categories and to add fields that are there already. -/
def mixedSetup : Value :=
  .map [("include_standard_fields", .str "Phone; email, phone, shoe_size"),
    ("field_overrides", .list [
      .map [("field_name", .str "email"), ("category", .str "core"), ("required", .str "yes")],
      .map [("field_name", .str "created_date"), ("label", .str "Created")]]),
    ("app_fields", .list [.str " note ", .map [("field_name", .str "title")], .int 5,
      .map [("field_name", .str "score"), ("category", .str "core"), ("max_length", .str "2")],
      .map [("field_name", .str "note"), ("label", .str "Second")]])]

theorem segmented_of_assemble_of_mixed :
    ∃ schema warnings, assemble mixedSetup = .ok (schema, warnings) ∧
      schema.Segmented ["email", "phone"] ["note", "score"] := by
  have hreturns : (assemble mixedSetup).isOk = true := by decide +kernel
  rcases assemble_ofSetup hreturns with ⟨warnings, hassemble⟩
  rcases segmented_of_assemble hassemble with
    ⟨entries, requested, offers, hentries, hrequested, hoffers, hsegmented⟩
  cases hentries
  have hstandard : Assembly.selectedFields requested = ["email", "phone"] := by
    cases hrequested
    decide +kernel
  have happ : Assembly.acceptedFields offers = ["note", "score"] := by
    cases hoffers
    decide +kernel
  rw [hstandard, happ] at hsegmented
  exact ⟨ofSetup mixedSetup, warnings, hassemble, hsegmented⟩

end Schema
end Roster
