import Mathlib.Data.List.Nodup
import Roster.Proofs.Steps
import Roster.Proofs.Value.Entries
import Roster.Schema.Assembly
import Roster.Store.Basic

/-!
# Assembled schemas

Whatever a setup asks for, the fields of the schema that comes out are different, each of them has
a definition, and the core fields and system fields are among them.
-/

namespace Roster

/-- The fields are different, they are what definitions are there for, and no field is missing that
every record has. -/
structure Schema.Sound (schema : Schema) : Prop where
  nodup : schema.fields.Nodup
  has_iff : ∀ name, schema.has name = true ↔ name ∈ schema.fields
  core : ∀ name ∈ Catalog.coreFields, name ∈ schema.fields
  system : ∀ name ∈ Catalog.systemFields, name ∈ schema.fields

theorem Schema.has_iff_mem_keys {schema : Schema} {name : String} :
    schema.has name = true ↔ name ∈ Entries.keys schema.definitions :=
  Entries.mem_keys_iff_isSome.symm

namespace Assembly

/-!
## Standard fields
-/

theorem standardFields_sublist {selection : Option Value} {standard : List String}
    {warnings : List SchemaWarning} (h : standardFields selection = .ok (standard, warnings)) :
    standard.Sublist Catalog.standardFields := by
  rcases Steps.bind_eq_ok.mp h with ⟨requested, -, hchosen⟩
  cases requested with
  | none =>
      cases hchosen
      exact List.Sublist.refl _
  | some requested =>
      cases hchosen
      exact List.filter_sublist

theorem keys_chosen {standard : List String} (h : standard.Sublist Catalog.standardFields) :
    ∀ name, name ∈ Entries.keys (Catalog.standard.filter fun field => standard.contains field.1) ↔
      name ∈ standard := by
  intro name
  rw [Entries.keys, List.mem_map]
  constructor
  · rintro ⟨field, hfield, rfl⟩
    have hcontains := (List.mem_filter.mp hfield).2
    rwa [List.contains_iff_mem] at hcontains
  · intro hname
    have hcatalog := h.subset hname
    rw [← Catalog.keys_standard] at hcatalog
    rcases List.mem_map.mp hcatalog with ⟨field, hfield, rfl⟩
    exact ⟨field, List.mem_filter.mpr ⟨hfield, List.contains_iff_mem.mpr hname⟩, rfl⟩

/-!
## Overrides
-/

theorem lookup_of_asKey {entries : Entries} {key text : String}
    (h : ((entries.lookup key).getD .null).asKey = .ok (.str text)) :
    entries.lookup key = some (.str text) := by
  cases hfound : entries.lookup key with
  | none =>
      rw [hfound] at h
      cases h
  | some v =>
      rw [hfound, Option.getD_some] at h
      cases v with
      | str other =>
          cases h
          rfl
      | _ => cases h

theorem applyOverride_cases {isProtected : Value → Bool}
    {definitions changed : List (String × Definition)} {v : Value} {warnings : List SchemaWarning}
    (h : applyOverride isProtected definitions v = .ok (changed, warnings)) :
    changed = definitions ∨
      ∃ (override_ : Entries) (name : String) (d d' : Definition) (notes : List SchemaWarning),
        v = .map override_ ∧ override_.lookup "field_name" = some (.str name) ∧
        isProtected (.str name) = false ∧ definitions.lookup name = some d ∧
        overrideDefinition name override_ d = .ok (d', notes) ∧
        changed = Entries.set definitions name d' := by
  unfold applyOverride at h
  split at h
  · rename_i override_
    dsimp only at h
    split at h
    · cases h
      exact Or.inl rfl
    · rcases Steps.bind_eq_ok.mp h with ⟨target, hkey, htarget⟩
      split at htarget
      · cases htarget
        exact Or.inl rfl
      · rename_i hopen
        split at htarget
        · rename_i name d hname hd
          rcases Steps.bind_eq_ok.mp htarget with ⟨⟨d', notes⟩, hchange, hset⟩
          cases hset
          right
          rw [hname, Option.bind_some] at hd
          cases target with
          | str text =>
              obtain rfl : text = name := Option.some.inj hname
              rw [Bool.not_eq_true] at hopen
              exact ⟨override_, text, d, d', notes, rfl, lookup_of_asKey hkey, hopen, hd, hchange, rfl⟩
          | _ => cases hname
        · cases htarget
          exact Or.inl rfl
  · cases h
    exact Or.inl rfl

theorem applyOverrides_keeps {isProtected : Value → Bool}
    {P : List (String × Definition) → Prop} {definitions changed : List (String × Definition)}
    {overrides : List Value} {warnings : List SchemaWarning}
    (hstep : ∀ v ∈ overrides, ∀ old new notes, P old →
      applyOverride isProtected old v = .ok (new, notes) → P new)
    (hstart : P definitions)
    (h : applyOverrides isProtected definitions overrides = .ok (changed, warnings)) :
    P changed := by
  induction overrides generalizing definitions warnings with
  | nil =>
      cases h
      exact hstart
  | cons v rest ih =>
      rw [List.forall_mem_cons] at hstep
      rcases Steps.bind_eq_ok.mp h with ⟨⟨next, notes⟩, hfirst, hrest⟩
      rcases Steps.bind_eq_ok.mp hrest with ⟨⟨last, more⟩, hmore, hresult⟩
      cases hresult
      exact ih hstep.2 (hstep.1 definitions next notes hstart hfirst) hmore

theorem keys_applyOverride {isProtected : Value → Bool}
    {definitions changed : List (String × Definition)} {v : Value} {warnings : List SchemaWarning}
    (h : applyOverride isProtected definitions v = .ok (changed, warnings)) :
    Entries.keys changed = Entries.keys definitions := by
  rcases applyOverride_cases h with rfl | ⟨override_, name, d, d', -, -, -, -, hd, -, rfl⟩
  · rfl
  · apply Entries.keys_set_of_mem
    rw [Entries.mem_keys_iff_isSome, hd, Option.isSome_some]

theorem keys_applyOverrides {isProtected : Value → Bool}
    {definitions changed : List (String × Definition)} {overrides : List Value}
    {warnings : List SchemaWarning}
    (h : applyOverrides isProtected definitions overrides = .ok (changed, warnings)) :
    Entries.keys changed = Entries.keys definitions := by
  refine applyOverrides_keeps (P := fun new => Entries.keys new = Entries.keys definitions)
    ?_ rfl h
  intro v _ old new notes hold hchange
  rw [keys_applyOverride hchange, hold]

/-- No override reaches a protected field. -/
theorem lookup_applyOverrides {isProtected : Value → Bool}
    {definitions changed : List (String × Definition)} {overrides : List Value}
    {warnings : List SchemaWarning}
    (h : applyOverrides isProtected definitions overrides = .ok (changed, warnings)) {name : String}
    (hprotected : isProtected (.str name) = true) :
    changed.lookup name = definitions.lookup name := by
  refine applyOverrides_keeps (P := fun new => new.lookup name = definitions.lookup name) ?_ rfl h
  intro v _ old new notes hold hchange
  rcases applyOverride_cases hchange with rfl | ⟨override_, target, d, d', -, -, -, hopen, -, -, rfl⟩
  · exact hold
  · rw [Entries.lookup_set, if_neg, hold]
    rintro rfl
    rw [hprotected] at hopen
    cases hopen

theorem protection_eq_ok {v : Value} {isProtected : Value → Bool}
    (h : protection v = .ok isProtected) {name : String} (hname : name ∈ Catalog.protectedFields) :
    isProtected (.str name) = true := by
  have hany : (Catalog.protectedFields.any fun p => Value.str name == .str p) = true :=
    List.any_eq_true.mpr ⟨name, hname, beq_self_eq_true _⟩
  rw [protection] at h
  split at h
  · rcases Steps.bind_eq_ok.mp h with ⟨items, -, h⟩
    rcases Steps.bind_eq_ok.mp h with ⟨names, -, h⟩
    cases h
    simp only [hany, Bool.true_or]
  · cases h
    simp only [hany, Bool.true_or]

/-!
## Application fields
-/

/-- An entry that adds a field names it, the name is free, and the definition is that of the entry
or the one of a field without attributes. -/
theorem appField_eq_ok {taken : List String} {v : Value} {field : String × Definition}
    (h : appField taken v = .ok (.ok field)) :
    entryName? v = some field.1 ∧ field.1 ≠ "" ∧ field.1 ∉ Catalog.reservedFields ∧
      field.1 ∉ taken ∧
      ((∃ entry, v = .map entry ∧ appDefinition field.1 entry = .ok (.ok field.2)) ∨
        field.2 = plainField field.1) := by
  unfold appField at h
  split at h
  · cases h
  · rename_i name hname
    split at h
    · cases h
    · rename_i hempty
      split at h
      · cases h
      · rename_i hreserved
        split at h
        · cases h
        · rename_i htaken
          rw [List.contains_iff_mem] at hreserved htaken
          rw [beq_iff_eq] at hempty
          split at h
          · rename_i entry
            rcases Steps.map_eq_ok.mp h with ⟨r, hr, hfield⟩
            rcases Steps.map_eq_ok.mp hfield with ⟨d, rfl, rfl⟩
            exact ⟨hname, hempty, hreserved, htaken, Or.inl ⟨entry, rfl, hr⟩⟩
          · cases h
            exact ⟨hname, hempty, hreserved, htaken, Or.inr rfl⟩

theorem exists_appField {taken : List String} {entries : List Value}
    {app : List (String × Definition)} {warnings : List SchemaWarning}
    (h : appFields taken entries = .ok (app, warnings)) {field : String × Definition}
    (hfield : field ∈ app) : ∃ v ∈ entries, ∃ before, appField before v = .ok (.ok field) := by
  induction entries generalizing taken app warnings with
  | nil =>
      cases h
      cases hfield
  | cons v rest ih =>
      rcases Steps.bind_eq_ok.mp h with ⟨result, hfirst, hrest⟩
      cases result with
      | error warning =>
          rcases Steps.bind_eq_ok.mp hrest with ⟨⟨more, notes⟩, hmore, hresult⟩
          cases hresult
          rcases ih hmore hfield with ⟨w, hw, hadded⟩
          exact ⟨w, List.mem_cons_of_mem _ hw, hadded⟩
      | ok first =>
          rcases Steps.bind_eq_ok.mp hrest with ⟨⟨more, notes⟩, hmore, hresult⟩
          cases hresult
          rcases List.mem_cons.mp hfield with rfl | hlater
          · exact ⟨v, List.mem_cons_self, taken, hfirst⟩
          · rcases ih hmore hlater with ⟨w, hw, hadded⟩
            exact ⟨w, List.mem_cons_of_mem _ hw, hadded⟩

/-- The attributes of an application field are its name, its category, what was supplied beside
them, and what is filled in. -/
theorem forall_completeEntries {P : String × Value → Prop} {name : String}
    {entry complete : Entries} (h : completeEntries name entry = .ok complete)
    (hname : P ("field_name", .str name)) (hcategory : P ("category", .str "app"))
    (hkept : ∀ e ∈ entry, e.1 ∉ renewedAttributes → P e)
    (hfilled : ∀ key ∈ ["label", "type", "required", "null_value"], ∀ v : Value,
      v = (entry.lookup "label").getD .null ∨ v = .bool false ∨ (∃ s, v = .str s) → P (key, v)) :
    ∀ e ∈ complete, P e := by
  -- The kind and the flag are put behind the others, each only where none is there.
  have hadded : ∀ (entries : Entries) (key : String) (v : Value), P (key, v) →
      (∀ e ∈ entries, P e) →
      ∀ e ∈ (if Entries.has entries key then entries else entries ++ [(key, v)]), P e := by
    intro entries key v hlast hentries
    split
    · exact hentries
    · rw [List.forall_mem_append, List.forall_mem_singleton]
      exact ⟨hentries, hlast⟩
  have hnamed : ∀ e ∈ (entry.filter fun e => !renewedAttributes.contains e.1) ++
      [("field_name", .str name), ("category", .str "app"),
        ("label", if ((entry.lookup "label").getD .null).isGiven
          then (entry.lookup "label").getD .null else .str (labelize name))], P e := by
    rw [List.forall_mem_append]
    constructor
    · intro e he
      rcases List.mem_filter.mp he with ⟨hmem, hother⟩
      rw [Bool.not_eq_true', ← Bool.not_eq_true, List.contains_iff_mem] at hother
      exact hkept e hmem hother
    · simp only [List.forall_mem_cons]
      refine ⟨hname, hcategory, ?_, fun e he => nomatch he⟩
      split
      · exact hfilled "label" (by decide) _ (Or.inl rfl)
      · exact hfilled "label" (by decide) _ (Or.inr (Or.inr ⟨_, rfl⟩))
  have htyped := hadded _ "type" (.str "text")
    (hfilled "type" (by decide) _ (Or.inr (Or.inr ⟨_, rfl⟩))) hnamed
  have hflagged := hadded _ "required" (.bool false)
    (hfilled "required" (by decide) _ (Or.inr (Or.inl rfl))) htyped
  rw [completeEntries] at h
  split at h
  · rcases Steps.bind_eq_ok.mp h with ⟨nullValue, -, hcomplete⟩
    cases hcomplete
    intro e he
    rcases Entries.mem_set he with rfl | hold
    · exact hfilled "null_value" (by decide) _ (Or.inr (Or.inr ⟨nullValue, rfl⟩))
    · exact hflagged e hold
  · cases h
    exact hflagged

theorem appFields_names {taken : List String} {entries : List Value}
    {app : List (String × Definition)} {warnings : List SchemaWarning}
    (h : appFields taken entries = .ok (app, warnings)) :
    (Entries.keys app).Nodup ∧
      ∀ name ∈ Entries.keys app, name ∉ Catalog.reservedFields ∧ name ∉ taken := by
  induction entries generalizing taken app warnings with
  | nil =>
      cases h
      exact ⟨List.nodup_nil, fun name hname => nomatch hname⟩
  | cons v rest ih =>
      rcases Steps.bind_eq_ok.mp h with ⟨result, hfirst, hrest⟩
      cases result with
      | error warning =>
          rcases Steps.bind_eq_ok.mp hrest with ⟨⟨more, notes⟩, hmore, hresult⟩
          cases hresult
          exact ih hmore
      | ok field =>
          rcases Steps.bind_eq_ok.mp hrest with ⟨⟨more, notes⟩, hmore, hresult⟩
          cases hresult
          rcases ih hmore with ⟨hnodup, hfree⟩
          rcases appField_eq_ok hfirst with ⟨-, -, hreserved, htaken, -⟩
          constructor
          · rw [Entries.keys, List.map_cons, List.nodup_cons]
            exact ⟨fun hmem => (hfree _ hmem).2 List.mem_cons_self, hnodup⟩
          · intro name hname
            rcases List.mem_cons.mp hname with rfl | hmem
            · exact ⟨hreserved, htaken⟩
            · exact ⟨(hfree name hmem).1, fun hold => (hfree name hmem).2
                (List.mem_cons_of_mem _ hold)⟩

end Assembly

/-!
## The whole schema
-/

namespace Assembly

def overrideItems (entries : Entries) : Except ValueFault (List Value) :=
  let overrides := (entries.lookup "field_overrides").getD .null
  if overrides.isGiven then overrides.items else .ok []

/-- What comes up while a schema is assembled. -/
structure Run where
  entries : Entries
  isProtected : Value → Bool
  standard : Noted (List String)
  overrides : List Value
  overridden : Noted (List (String × Definition))
  offers : List Value
  app : Noted (List (String × Definition))

namespace Run

variable (run : Run)

def builtIn : List (String × Definition) :=
  Catalog.core ++ Catalog.system ++
    Catalog.standard.filter fun field => run.standard.1.contains field.1

/-- The definitions before their options are finished. -/
def drafts : List (String × Definition) :=
  run.overridden.1 ++ run.app.1

def schema : Schema where
  fields := Catalog.coreFields ++ run.standard.1 ++ Entries.keys run.app.1 ++ Catalog.systemFields
  definitions := run.drafts.map fun field => (field.1, finishOptions field.2)

def warnings : List SchemaWarning :=
  run.standard.2 ++ run.overridden.2 ++ run.app.2

/-- Everything that came up is what its step gives. -/
structure IsOf (config : Value) : Prop where
  entries : config.entries = .ok run.entries
  isProtected : protection ((run.entries.lookup "protected_fields").getD .null) = .ok run.isProtected
  standard : standardFields (run.entries.lookup "include_standard_fields") = .ok run.standard
  overrides : overrideItems run.entries = .ok run.overrides
  overridden : applyOverrides run.isProtected run.builtIn run.overrides = .ok run.overridden
  offers : appEntries ((run.entries.lookup "app_fields").getD .null) = .ok run.offers
  app : appFields (Catalog.coreFields ++ run.standard.1) run.offers = .ok run.app

end Run
end Assembly

theorem Schema.assemble_eq_ok_iff {config : Value} {result : Schema × List SchemaWarning} :
    Schema.assemble config = .ok result ↔
      ∃ run : Assembly.Run, run.IsOf config ∧ (run.schema, run.warnings) = result := by
  constructor
  · intro h
    rcases Steps.bind_eq_ok.mp h with ⟨entries, hentries, h⟩
    rcases Steps.bind_eq_ok.mp h with ⟨isProtected, hprotection, h⟩
    rcases Steps.bind_eq_ok.mp h with ⟨standard, hstandard, h⟩
    dsimp only at h
    rcases Steps.ite_bind_eq_ok.mp h with ⟨overrides, hoverrides, h⟩
    rcases Steps.bind_eq_ok.mp h with ⟨overridden, hoverridden, h⟩
    rcases Steps.bind_eq_ok.mp h with ⟨offers, hoffers, h⟩
    rcases Steps.bind_eq_ok.mp h with ⟨app, happ, h⟩
    cases h
    exact ⟨⟨entries, isProtected, standard, overrides, overridden, offers, app⟩, ⟨hentries,
      hprotection, hstandard, hoverrides, hoverridden, hoffers, happ⟩, rfl⟩
  · rintro ⟨run, h, rfl⟩
    refine Steps.bind_eq_ok.mpr ⟨_, h.entries, ?_⟩
    refine Steps.bind_eq_ok.mpr ⟨_, h.isProtected, ?_⟩
    refine Steps.bind_eq_ok.mpr ⟨_, h.standard, ?_⟩
    refine Steps.ite_bind_eq_ok.mpr ⟨_, h.overrides, ?_⟩
    refine Steps.bind_eq_ok.mpr ⟨_, h.overridden, ?_⟩
    refine Steps.bind_eq_ok.mpr ⟨_, h.offers, ?_⟩
    exact Steps.bind_eq_ok.mpr ⟨_, h.app, rfl⟩

theorem Schema.steps_of_assemble {config : Value} {schema : Schema} {warnings : List SchemaWarning}
    (h : Schema.assemble config = .ok (schema, warnings)) :
    ∃ entries isProtected standard overrides overridden offers app, config.entries = .ok entries ∧
      Assembly.protection ((entries.lookup "protected_fields").getD .null) = .ok isProtected ∧
      (∃ notes, Assembly.standardFields (entries.lookup "include_standard_fields") =
        .ok (standard, notes)) ∧
      (if ((entries.lookup "field_overrides").getD .null).isGiven
        then ((entries.lookup "field_overrides").getD .null).items else .ok []) = .ok overrides ∧
      (∃ notes, Assembly.applyOverrides isProtected (Catalog.core ++ Catalog.system ++
        Catalog.standard.filter fun field => standard.contains field.1) overrides =
          .ok (overridden, notes)) ∧
      Assembly.appEntries ((entries.lookup "app_fields").getD .null) = .ok offers ∧
      (∃ notes, Assembly.appFields (Catalog.coreFields ++ standard) offers = .ok (app, notes)) ∧
      schema.fields = Catalog.coreFields ++ standard ++ Entries.keys app ++ Catalog.systemFields ∧
      schema.definitions =
        (overridden ++ app).map fun field => (field.1, Assembly.finishOptions field.2) := by
  rcases Schema.assemble_eq_ok_iff.mp h with ⟨run, hrun, hresult⟩
  cases hresult
  exact ⟨run.entries, run.isProtected, run.standard.1, run.overrides, run.overridden.1, run.offers,
    run.app.1, hrun.entries, hrun.isProtected, ⟨_, hrun.standard⟩, hrun.overrides,
    ⟨_, hrun.overridden⟩, hrun.offers, ⟨_, hrun.app⟩, rfl, rfl⟩

/-- The parts of which a schema is assembled. -/
theorem Schema.assemble_eq_ok {config : Value} {schema : Schema} {warnings : List SchemaWarning}
    (h : Schema.assemble config = .ok (schema, warnings)) :
    ∃ (standard : List String) (overridden app : List (String × Definition)),
      standard.Sublist Catalog.standardFields ∧
      (∀ name, name ∈ Entries.keys overridden ↔
        name ∈ Catalog.coreFields ∨ name ∈ Catalog.systemFields ∨ name ∈ standard) ∧
      (Entries.keys overridden).Nodup ∧ (Entries.keys app).Nodup ∧
      (∀ name ∈ Entries.keys app, name ∉ Catalog.reservedFields) ∧
      (∀ name ∈ Catalog.protectedFields,
        overridden.lookup name = (Catalog.core ++ Catalog.system).lookup name) ∧
      schema.fields = Catalog.coreFields ++ standard ++ Entries.keys app ++ Catalog.systemFields ∧
      schema.definitions =
        (overridden ++ app).map fun field => (field.1, Assembly.finishOptions field.2) := by
  rcases Schema.steps_of_assemble h with
    ⟨entries, isProtected, standard, overrides, overridden, offers, app, -, hprotection,
      ⟨standardNotes, hstandard⟩, -, ⟨overrideNotes, hoverridden⟩, -, ⟨appNotes, happ⟩, hfields,
      hdefinitions⟩
  have hsublist := Assembly.standardFields_sublist hstandard
  have hkeys := Assembly.keys_applyOverrides hoverridden
  rcases Assembly.appFields_names happ with ⟨hnodup, hfree⟩
  refine ⟨standard, overridden, app, hsublist, fun name => ?_, ?_, hnodup,
    fun name hname => (hfree name hname).1, fun name hname => ?_, hfields, hdefinitions⟩
  · have hchosen := Assembly.keys_chosen hsublist name
    rw [Entries.keys] at hchosen
    rw [hkeys, Entries.keys, List.map_append, List.map_append, List.mem_append, List.mem_append,
      hchosen, Catalog.keys_core, Catalog.keys_system, or_assoc]
  · have hcatalog : (Entries.keys (Catalog.core ++ Catalog.system ++ Catalog.standard)).Nodup := by
      decide
    rw [hkeys]
    exact hcatalog.sublist ((List.filter_sublist.append_left _).map Prod.fst)
  · have hfound : ∀ name ∈ Catalog.protectedFields,
        ((Catalog.core ++ Catalog.system).lookup name).isSome = true := by
      decide
    rw [Assembly.lookup_applyOverrides hoverridden (Assembly.protection_eq_ok hprotection hname),
      List.lookup_append]
    rcases Option.isSome_iff_exists.mp (hfound name hname) with ⟨d, hd⟩
    rw [hd, Option.some_or]

theorem Schema.assemble_sound {config : Value} {schema : Schema} {warnings : List SchemaWarning}
    (h : Schema.assemble config = .ok (schema, warnings)) : schema.Sound := by
  rcases Schema.assemble_eq_ok h with
    ⟨standard, overridden, app, hstandard, hoverridden, -, hnodup, hfree, -, hfields, hdefinitions⟩
  have hreserved : ∀ name ∈ Catalog.coreFields ++ standard, name ∈ Catalog.reservedFields := by
    intro name hname
    rcases List.mem_append.mp hname with hcore | hchosen
    · exact List.mem_append_left _ (List.mem_append_left _ hcore)
    · exact List.mem_append_left _ (List.mem_append_right _ (hstandard.subset hchosen))
  constructor
  -- Built-in names are different by themselves, and application fields take none of them.
  · have hbuiltIn : (Catalog.coreFields ++ standard).Nodup := by
      have hall : (Catalog.coreFields ++ Catalog.standardFields).Nodup := by decide
      exact hall.sublist (hstandard.append_left _)
    have hfront : (Catalog.coreFields ++ standard ++ Entries.keys app).Nodup := by
      refine hbuiltIn.append hnodup ?_
      exact fun name hold hnew => hfree name hnew (hreserved name hold)
    rw [hfields]
    refine hfront.append (by decide) ?_
    intro name hname hsystem
    rcases List.mem_append.mp hname with hold | hnew
    · have hapart : ∀ name ∈ Catalog.systemFields,
          name ∉ Catalog.coreFields ++ Catalog.standardFields := by decide
      refine hapart name hsystem ?_
      exact (hstandard.append_left Catalog.coreFields).subset hold
    · exact hfree name hnew (List.mem_append_right _ hsystem)
  · intro name
    have hkeys : Entries.keys schema.definitions = Entries.keys overridden ++ Entries.keys app := by
      rw [hdefinitions, Entries.keys, List.map_map]
      exact List.map_append
    rw [Schema.has_iff_mem_keys, hkeys, List.mem_append, hoverridden, hfields]
    simp only [List.mem_append]
    tauto
  · intro name hname
    rw [hfields]
    simp only [List.mem_append]
    tauto
  · intro name hname
    rw [hfields]
    simp only [List.mem_append]
    tauto

theorem Schema.nodup_of_assemble {config : Value} {schema : Schema} {warnings : List SchemaWarning}
    (h : Schema.assemble config = .ok (schema, warnings)) :
    (Entries.keys schema.definitions).Nodup := by
  rcases Schema.assemble_eq_ok h with
    ⟨standard, overridden, app, hstandard, hoverridden, hold, hnew, hfree, -, -, hdefinitions⟩
  have hkeys : Entries.keys schema.definitions = Entries.keys overridden ++ Entries.keys app := by
    rw [hdefinitions, Entries.keys, List.map_map]
    exact List.map_append
  rw [hkeys]
  refine hold.append hnew fun name hfirst hsecond => hfree name hsecond ?_
  simp only [Catalog.reservedFields, List.mem_append]
  rcases (hoverridden name).mp hfirst with hcore | hsystem | hchosen
  · exact Or.inl (Or.inl hcore)
  · exact Or.inr hsystem
  · exact Or.inl (Or.inr (hstandard.subset hchosen))

/-- The definitions of the protected fields are those of the catalog. -/
theorem Schema.get?_of_protected {config : Value} {schema : Schema} {warnings : List SchemaWarning}
    (h : Schema.assemble config = .ok (schema, warnings)) {name : String}
    (hname : name ∈ Catalog.protectedFields) :
    schema.get? name = (Catalog.core ++ Catalog.system).lookup name := by
  rcases Schema.assemble_eq_ok h with
    ⟨standard, overridden, app, -, -, -, -, -, hprotected, -, hdefinitions⟩
  have hfinished : ∀ name ∈ Catalog.protectedFields,
      ∃ d, (Catalog.core ++ Catalog.system).lookup name = some d ∧
        Assembly.finishOptions d = d := by
    decide
  rcases hfinished name hname with ⟨d, hd, hsame⟩
  rw [Schema.get?, hdefinitions, Entries.lookup_map, List.lookup_append, hprotected name hname, hd,
    Option.some_or, Option.map_some, hsame]

namespace Schema

theorem Sound.known {schema : Schema} (h : schema.Sound) :
    ∀ field ∈ Record.readOnlyFields, field ∈ schema.fields := by
  intro field hfield
  have hcases : ∀ field ∈ Record.readOnlyFields,
      field ∈ Catalog.coreFields ∨ field ∈ Catalog.systemFields := by
    decide
  rcases hcases field hfield with hcore | hsystem
  · exact h.core field hcore
  · exact h.system field hsystem

theorem Sound.ne_nil {schema : Schema} (h : schema.Sound) : schema.fields ≠ [] := by
  intro hnil
  have hid := h.core Record.idField (by decide)
  rw [hnil] at hid
  cases hid

/-- The definition of a field, an empty one if there is none. -/
def definition (schema : Schema) (name : String) : Definition :=
  (schema.get? name).getD { fieldName := .null }

theorem Sound.get?_eq {schema : Schema} (h : schema.Sound) {name : String}
    (hname : name ∈ schema.fields) : schema.get? name = some (schema.definition name) := by
  have hhas := (h.has_iff name).mpr hname
  rcases Option.isSome_iff_exists.mp hhas with ⟨d, hd⟩
  rw [definition, hd, Option.getD_some]

theorem Sound.defined_eq {schema : Schema} (h : schema.Sound) :
    schema.defined = .ok (schema.fields.map fun name => (name, schema.definition name)) := by
  refine Steps.mapM_eq_ok fun name hname => ?_
  rw [h.get?_eq hname]

end Schema

/-- The schema of a setup, if it has one. -/
def Schema.ofSetup (config : Value) : Schema :=
  ((Schema.assemble config).toOption.map Prod.fst).getD ⟨[], []⟩

theorem Schema.assemble_ofSetup {config : Value} (h : (Schema.assemble config).isOk = true) :
    ∃ warnings, Schema.assemble config = .ok (Schema.ofSetup config, warnings) := by
  cases hresult : Schema.assemble config with
  | error fault =>
      rw [hresult] at h
      cases h
  | ok result =>
      refine ⟨result.2, ?_⟩
      rw [ofSetup, hresult]
      rfl

namespace Registry

/-- A setup that asks for one field more than every record has. -/
def noteSetup : Value :=
  .map [("include_standard_fields", .list []),
    ("app_fields", .list [.map [("field_name", .str "note"), ("type", .str "text")]])]

def noteSchema : Schema :=
  ((Schema.assemble noteSetup).toOption.map Prod.fst).getD ⟨[], []⟩

theorem assemble_noteSetup :
    ∃ warnings, Schema.assemble noteSetup = .ok (noteSchema, warnings) :=
  Schema.assemble_ofSetup (by decide +kernel)

theorem sound_noteSchema : noteSchema.Sound := by
  rcases assemble_noteSetup with ⟨warnings, hassemble⟩
  exact Schema.assemble_sound hassemble

end Registry
end Roster
