import Roster.Manifest.Document
import Roster.Proofs.Schema.Assembly
import Roster.Proofs.Schema.Attributes

/-!
# What a manifest is read from

A manifest is read from any octets to one of two ends that are provided for: a manifest whose
fields are all defined, or a fault of the configuration.  Missing sections, texts that are no JSON
and fields without a definition are such faults.  Other ends come of values that are not of the kind
which reading takes for granted, and it is said here which kinds those are.
-/

namespace Roster
namespace Schema

/-!
## The sections of a schema
-/

/-- Under the key of the definitions there is a map from which each definition can be read. -/
def IsDefinedBy (sections definitions : Entries) : Prop :=
  sections.lookup "field_definitions" = some (.map definitions) ∧
    ∀ field ∈ definitions, ∃ entries, field.2 = .map entries ∧ Definition.IsReadable entries

theorem readDefinitions_eq {sections : Entries} {v : Value}
    (h : sections.lookup "field_definitions" = some v) (hgiven : v.isGiven = true) :
    readDefinitions (.map sections) = v.entries >>= fun definitions => definitions.mapM
      fun field => (Definition.ofValue field.2).map fun d => (field.1, d) := by
  have hget : (Value.map sections).get? "field_definitions" = some v := h
  rw [readDefinitions, hget]
  exact if_pos hgiven

theorem exists_readDefinitions_iff {sections : Entries}
    (hgiven : ((sections.lookup "field_definitions").getD .null).isGiven = true) :
    (∃ made, readDefinitions (.map sections) = .ok made) ↔
      ∃ definitions, IsDefinedBy sections definitions := by
  cases hlookup : sections.lookup "field_definitions" with
  | none =>
      rw [hlookup] at hgiven
      cases hgiven
  | some v =>
      rw [hlookup, Option.getD_some] at hgiven
      rw [readDefinitions_eq hlookup hgiven, Steps.exists_bind_iff]
      simp only [Steps.exists_mapM_iff, Steps.exists_map_iff, Definition.exists_ofValue_iff,
        IsDefinedBy, hlookup, Option.some_inj]
      cases v with
      | map definitions => simp [Value.entries]
      | _ => simp [Value.entries]

theorem keys_readDefinitions {sections definitions : Entries}
    (hgiven : ((sections.lookup "field_definitions").getD .null).isGiven = true)
    (h : IsDefinedBy sections definitions) {made : List (String × Definition)}
    (hmade : readDefinitions (.map sections) = .ok made) :
    Entries.keys made = Entries.keys definitions := by
  rw [h.1, Option.getD_some] at hgiven
  rw [readDefinitions_eq h.1 hgiven] at hmade
  rcases Steps.bind_eq_ok.mp hmade with ⟨entries, hentries, hread⟩
  cases hentries
  clear h hgiven hmade
  induction definitions generalizing made with
  | nil =>
      cases hread
      rfl
  | cons field rest ih =>
      rw [List.mapM_cons] at hread
      rcases Steps.bind_eq_ok.mp hread with ⟨first, hfirst, hread⟩
      rcases Steps.bind_eq_ok.mp hread with ⟨others, hothers, hread⟩
      rcases Steps.map_eq_ok.mp hfirst with ⟨d, -, rfl⟩
      cases hread
      exact congrArg (field.1 :: ·) (ih hothers)

theorem readFields_eq_items {sections : Entries}
    (hgiven : ((sections.lookup "fields").getD .null).isGiven = true) :
    readFields (.map sections) = ((sections.lookup "fields").getD .null).items := by
  cases hlookup : sections.lookup "fields" with
  | none =>
      rw [hlookup] at hgiven
      cases hgiven
  | some v =>
      rw [hlookup, Option.getD_some] at hgiven
      have hget : (Value.map sections).get? "fields" = some v := hlookup
      rw [readFields, hget]
      exact if_pos hgiven

theorem ofValue_map_eq_ok_iff {sections : Entries} {schema : Schema} :
    ofValue (.map sections) = .ok schema ↔
      ∃ made listed, readDefinitions (.map sections) = .ok made ∧
        readFields (.map sections) = .ok listed ∧ ⟨listed.map Value.text, made⟩ = schema := by
  have hsteps : ofValue (.map sections) = readDefinitions (.map sections) >>= fun made =>
      readFields (.map sections) >>= fun listed => .ok ⟨listed.map Value.text, made⟩ := rfl
  rw [hsteps]
  simp only [Steps.bind_eq_ok, Except.ok.injEq, exists_and_left]

theorem undefined_eq_ok_iff {schema : Schema} {listed undefined : List Value} :
    schema.undefined listed = .ok undefined ↔
      (∀ v ∈ listed, v.isScalar = true) ∧
        listed.filter (fun v => !v.text?.any schema.has) = undefined := by
  unfold Schema.undefined
  rw [Steps.bind_eq_ok]
  constructor
  · rintro ⟨keys, hkeys, hundefined⟩
    obtain rfl := Value.mapM_asKey_eq_ok hkeys
    constructor
    · intro v hv
      exact Value.exists_asKey_iff.mp (Steps.exists_mapM_iff.mp ⟨_, hkeys⟩ v hv)
    · exact Except.ok.inj hundefined
  · rintro ⟨hscalar, rfl⟩
    have hkeys : listed.mapM Value.asKey = .ok (listed.map id) := by
      refine Steps.mapM_eq_ok fun v hv => ?_
      exact Value.asKey_eq_ok_iff.mpr ⟨hscalar v hv, rfl⟩
    rw [List.map_id] at hkeys
    exact ⟨listed, hkeys, rfl⟩

/-- The names are those of defined fields. -/
def AllDefined (definitions : Entries) (listed : List Value) : Prop :=
  ∀ v ∈ listed, ∃ name ∈ Entries.keys definitions, v = .str name

theorem filter_eq_nil_iff_allDefined {fields : List String}
    {made : List (String × Definition)} {definitions : Entries}
    (hkeys : Entries.keys made = Entries.keys definitions) {listed : List Value} :
    listed.filter (fun v => !v.text?.any (has ⟨fields, made⟩)) = [] ↔
      AllDefined definitions listed := by
  rw [List.filter_eq_nil_iff]
  refine forall₂_congr fun v _ => ?_
  rw [Bool.not_eq_true, Bool.not_eq_false', ← hkeys]
  cases v with
  | str name => simp [Value.text?, has_iff_mem_keys]
  | _ => simp [Value.text?]

theorem has_of_allDefined {made : List (String × Definition)} {definitions : Entries}
    (hkeys : Entries.keys made = Entries.keys definitions) {listed : List Value}
    (h : AllDefined definitions listed) :
    ∀ name ∈ listed.map Value.text, has ⟨listed.map Value.text, made⟩ name = true := by
  intro name hname
  rcases List.mem_map.mp hname with ⟨v, hv, rfl⟩
  rcases h v hv with ⟨key, hkey, rfl⟩
  rw [has_iff_mem_keys, hkeys]
  exact hkey

end Schema

namespace Manifest

/-!
## Ends that are provided for
-/

/-- A manifest in which every field is defined, or a fault of the configuration. -/
def Documented (r : Except Fault Manifest) : Prop :=
  (∃ m, r = .ok m ∧ ∀ name ∈ m.schema.fields, m.schema.has name = true) ∨
    ∃ fault, r = .error (.configuration fault)

theorem not_documented_value {fault : ValueFault} : ¬Documented (.error (.value fault)) := by
  rintro (⟨m, hm, -⟩ | ⟨other, hother⟩)
  · cases hm
  · cases hother

theorem documented_bind_iff {α : Type} {x : Except ValueFault α} {f : α → Except Fault Manifest} :
    Documented ((liftM x : Except Fault α) >>= f) ↔ ∃ a, x = .ok a ∧ Documented (f a) := by
  cases x with
  | ok a =>
      change Documented (f a) ↔ _
      simp
  | error fault =>
      refine iff_of_false not_documented_value ?_
      rintro ⟨a, ha, -⟩
      cases ha

theorem documented_pure {m : Manifest} (h : ∀ name ∈ m.schema.fields, m.schema.has name = true) :
    Documented (pure m) :=
  Or.inl ⟨m, rfl, h⟩

theorem documented_pairs_iff {state options : Value}
    {f : Entries → Entries → Except Fault Manifest} {g : Entries → Except Fault Manifest}
    (hf : ∀ s o, Documented (f s o)) (hg : ∀ s, Documented (g s)) :
    Documented ((liftM state.pairs : Except Fault Entries) >>= fun s =>
        if options.isGiven = true then (liftM options.pairs : Except Fault Entries) >>= f s
        else g s) ↔
      state.IsPairs ∧ (options.isGiven = true → options.IsPairs) := by
  rw [documented_bind_iff]
  simp only [← Value.exists_pairs_iff]
  constructor
  · rintro ⟨s, hs, hrest⟩
    refine ⟨⟨s, hs⟩, fun hgiven => ?_⟩
    rw [if_pos hgiven, documented_bind_iff] at hrest
    rcases hrest with ⟨o, ho, -⟩
    exact ⟨o, ho⟩
  · rintro ⟨⟨s, hs⟩, hoptions⟩
    refine ⟨s, hs, ?_⟩
    split
    · rename_i hgiven
      rcases hoptions hgiven with ⟨o, ho⟩
      exact documented_bind_iff.mpr ⟨o, ho, hf s o⟩
    · exact hg s

/-- The state of the backend and the options are looked at only if every field is defined. -/
theorem documented_defined_iff {made : List (String × Definition)} {definitions : Entries}
    (hkeys : Entries.keys made = Entries.keys definitions) {listed : List Value}
    {refusal : Except Fault Manifest} (hrefusal : Documented refusal) {state options : Value}
    {f : Entries → Entries → Except Fault Manifest} {g : Entries → Except Fault Manifest}
    (hf : (∀ name ∈ listed.map Value.text,
      Schema.has ⟨listed.map Value.text, made⟩ name = true) → ∀ s o, Documented (f s o))
    (hg : (∀ name ∈ listed.map Value.text,
      Schema.has ⟨listed.map Value.text, made⟩ name = true) → ∀ s, Documented (g s)) :
    Documented (if (!(listed.filter fun v =>
          !v.text?.any (Schema.has ⟨listed.map Value.text, made⟩)).isEmpty) = true then refusal
        else (liftM state.pairs : Except Fault Entries) >>= fun s =>
          if options.isGiven = true then (liftM options.pairs : Except Fault Entries) >>= f s
          else g s) ↔
      (Schema.AllDefined definitions listed →
        state.IsPairs ∧ (options.isGiven = true → options.IsPairs)) := by
  by_cases hall : Schema.AllDefined definitions listed
  · have hhas := Schema.has_of_allDefined hkeys hall
    rw [(Schema.filter_eq_nil_iff_allDefined hkeys).mpr hall, if_neg (by decide),
      documented_pairs_iff (hf hhas) (hg hhas), forall_prop_of_true hall]
  · rw [if_pos]
    · exact iff_of_true hrefusal fun hdefined => absurd hdefined hall
    · rw [Bool.not_eq_true', List.isEmpty_eq_false_iff]
      exact fun hnil => hall ((Schema.filter_eq_nil_iff_allDefined hkeys).mp hnil)

/-!
## The sections of a manifest
-/

/-- All sections are of the kinds that reading takes for granted.  The state of the backend and the
options are looked at only if every field is defined. -/
def IsTyped (sections : Entries) : Prop :=
  ∃ definitions listed, Schema.IsDefinedBy sections definitions ∧
    ((sections.lookup "fields").getD .null).items = .ok listed ∧
    (∀ v ∈ listed, v.isScalar = true) ∧
    (Schema.AllDefined definitions listed →
      ((sections.lookup "backend_state").getD .null).IsPairs ∧
        (((sections.lookup "options").getD .null).isGiven = true →
          ((sections.lookup "options").getD .null).IsPairs))

theorem documented_ofEntries_of_missing {sections : Entries}
    (h : ¬∀ key ∈ requiredSections, ((sections.lookup key).getD .null).isGiven = true) :
    Documented (ofEntries sections) := by
  have hsome : (requiredSections.filter fun key =>
      !((sections.lookup key).getD .null).isGiven).isEmpty = false := by
    rw [List.isEmpty_eq_false_iff, ne_eq, List.filter_eq_nil_iff]
    intro hnone
    refine h fun key hkey => ?_
    simpa using hnone key hkey
  unfold ofEntries
  dsimp only
  rw [hsome]
  exact Or.inr ⟨_, rfl⟩

theorem documented_ofEntries_of_given {sections : Entries}
    (hgiven : ∀ key ∈ requiredSections, ((sections.lookup key).getD .null).isGiven = true) :
    Documented (ofEntries sections) ↔ IsTyped sections := by
  have hmissing : (requiredSections.filter fun key =>
      !((sections.lookup key).getD .null).isGiven) = [] := by
    rw [List.filter_eq_nil_iff]
    intro key hkey
    rw [hgiven key hkey]
    decide
  have hdefinitions := hgiven "field_definitions" (by decide)
  have hfields := hgiven "fields" (by decide)
  unfold ofEntries
  dsimp only
  rw [hmissing]
  simp only [List.isEmpty_nil, Bool.not_true, Bool.false_eq_true, if_false, pure_bind,
    documented_bind_iff, Schema.readFields_eq_items hfields, Schema.undefined_eq_ok_iff]
  -- Both ways the definitions are read first: whether the rest is documented depends on their
  -- names.
  constructor
  · rintro ⟨schema, hschema, listed, hlisted, undefined, ⟨hscalar, rfl⟩, hrest⟩
    rcases Schema.ofValue_map_eq_ok_iff.mp hschema with ⟨made, names, hmade, hread, rfl⟩
    obtain rfl : names = listed :=
      Except.ok.inj (hread.symm.trans ((Schema.readFields_eq_items hfields).trans hlisted))
    rcases (Schema.exists_readDefinitions_iff hdefinitions).mp ⟨made, hmade⟩ with
      ⟨definitions, hdefined⟩
    have hkeys := Schema.keys_readDefinitions hdefinitions hdefined hmade
    refine ⟨definitions, names, hdefined, hlisted, hscalar, ?_⟩
    refine (documented_defined_iff hkeys ?_ ?_ ?_).mp hrest
    · exact Or.inr ⟨_, rfl⟩
    · exact fun hhas state options => documented_pure hhas
    · exact fun hhas state => documented_pure hhas
  · rintro ⟨definitions, listed, hdefined, hlisted, hscalar, hpairs⟩
    rcases (Schema.exists_readDefinitions_iff hdefinitions).mpr ⟨definitions, hdefined⟩ with
      ⟨made, hmade⟩
    have hkeys := Schema.keys_readDefinitions hdefinitions hdefined hmade
    have hread := (Schema.readFields_eq_items hfields).trans hlisted
    refine ⟨⟨listed.map Value.text, made⟩,
      Schema.ofValue_map_eq_ok_iff.mpr ⟨made, listed, hmade, hread, rfl⟩, listed, hlisted, _,
      ⟨hscalar, rfl⟩, ?_⟩
    refine (documented_defined_iff hkeys ?_ ?_ ?_).mpr hpairs
    · exact Or.inr ⟨_, rfl⟩
    · exact fun hhas state options => documented_pure hhas
    · exact fun hhas state => documented_pure hhas

theorem documented_ofEntries_iff {sections : Entries} :
    Documented (ofEntries sections) ↔
      ((∀ key ∈ requiredSections, ((sections.lookup key).getD .null).isGiven = true) →
        IsTyped sections) := by
  by_cases hgiven : ∀ key ∈ requiredSections, ((sections.lookup key).getD .null).isGiven = true
  · rw [documented_ofEntries_of_given hgiven, forall_prop_of_true hgiven]
  · exact iff_of_true (documented_ofEntries_of_missing hgiven) fun hall => absurd hall hgiven

/-!
## The octets of a manifest
-/

/-- What was read as JSON is no number of too many digits, and if all sections that a manifest must
have are given in it, they are of the right kinds. -/
def IsWellRead : Except Json.Fault Value → Prop
  | .error fault => ∀ count, fault.reason ≠ .longNumeral count
  | .ok (.map sections) =>
      (∀ key ∈ requiredSections, ((sections.lookup key).getD .null).isGiven = true) →
        IsTyped sections
  | .ok _ => True

/-- The octets are those of a text, and that is read without a value of the wrong kind. -/
def IsWellKept (octets : ByteArray) : Prop :=
  ∃ text : String, octets = text.toUTF8 ∧
    IsWellRead (Json.read (String.ofList (Text.unifyLineEnds text.toList)))

theorem isWellKept_toUTF8_iff {text : String} :
    IsWellKept text.toUTF8 ↔
      IsWellRead (Json.read (String.ofList (Text.unifyLineEnds text.toList))) := by
  constructor
  · rintro ⟨other, hother, hread⟩
    have hsame := Text.decodeUtf8_eq_ok_iff.mpr hother
    rw [Text.decodeUtf8_toUTF8] at hsame
    cases hsame
    exact hread
  · exact fun hread => ⟨text, rfl, hread⟩

/-- A manifest is read as it is provided for if the octets are well kept, and else it is not. -/
theorem documented_ofOctets_iff {path : String} {octets : ByteArray} :
    Documented (ofOctets path octets) ↔ IsWellKept octets := by
  unfold ofOctets
  cases hdecode : Text.decodeUtf8 octets with
  | error fault =>
      refine iff_of_false ?_ ?_
      · rintro (⟨m, hm, -⟩ | ⟨other, hother⟩)
        · cases hm
        · cases hother
      · rintro ⟨text, htext, -⟩
        rw [Text.decodeUtf8_eq_ok_iff.mpr htext] at hdecode
        cases hdecode
  | ok text =>
      obtain rfl := Text.decodeUtf8_eq_ok_iff.mp hdecode
      rw [isWellKept_toUTF8_iff]
      dsimp only [Except.mapError, bind, Except.bind]
      cases Json.read (String.ofList (Text.unifyLineEnds text.toList)) with
      | error fault =>
          dsimp only
          cases hreason : fault.reason with
          | longNumeral count =>
              exact iff_of_false not_documented_value fun hread => hread count hreason
          | _ =>
              refine iff_of_true (Or.inr ⟨_, rfl⟩) fun count hlong => ?_
              rw [hreason] at hlong
              cases hlong
      | ok v =>
          cases v with
          | map sections => exact documented_ofEntries_iff
          | _ => exact iff_of_true (Or.inr ⟨_, rfl⟩) trivial

end Manifest
end Roster
