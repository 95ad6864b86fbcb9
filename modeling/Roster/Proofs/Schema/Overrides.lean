import Roster.Proofs.Schema.Assembly

/-!
# Overrides beside each other

An override is taken or refused, and noted, whatever the overrides in front of it made of the
fields.  It changes the field that it names and no other.  So each field comes out as if there had
been its own overrides alone.
-/

namespace Roster

theorem Definition.assign_alike (d other : Definition) (a : Attribute) (v : Value) :
    (∃ next twin, d.assign a v = .ok next ∧ other.assign a v = .ok twin) ∨
      ∃ fault, d.assign a v = .error fault ∧ other.assign a v = .error fault := by
  have hmap : ∀ {α : Type} (read : Except ValueFault α) (f g : α → Definition),
      (∃ next twin, read.map f = .ok next ∧ read.map g = .ok twin) ∨
        ∃ fault, read.map f = .error fault ∧ read.map g = .error fault := by
    intro α read f g
    cases read with
    | ok a => exact Or.inl ⟨f a, g a, rfl, rfl⟩
    | error fault => exact Or.inr ⟨fault, rfl, rfl⟩
  cases a with
  | options | cleanOptions | maxLength => exact hmap _ _ _
  | _ => exact Or.inl ⟨_, _, rfl, rfl⟩

namespace Assembly

variable {isProtected : Value → Bool} {definitions changed : List (String × Definition)}
  {name : String} {d : Definition} {v : Value} {overrides : List Value}
  {notes warnings : List SchemaWarning}

/-!
## Notes
-/

theorem problems_applyAttribute {draft other : Draft} (h : draft.problems = other.problems)
    (entry : String × Value) :
    (applyAttribute draft entry).map Draft.problems =
      (applyAttribute other entry).map Draft.problems := by
  have hnote : ∀ problem, Except.ok (draft.problems ++ [(entry.1, problem)]) =
      (Except.ok (other.problems ++ [(entry.1, problem)]) : Except ValueFault _) := by
    intro problem
    rw [h]
  unfold applyAttribute
  dsimp only
  split
  · exact congrArg Except.ok h
  · split
    · exact hnote _
    · split
      · exact congrArg Except.ok h
      · split
        · exact congrArg Except.ok h
        · exact hnote _
      · rename_i a _ _
        rcases Definition.assign_alike draft.definition other.definition a entry.2 with
          ⟨next, twin, hnext, htwin⟩ | ⟨fault, hfirst, hsecond⟩
        · rw [hnext, htwin]
          exact congrArg Except.ok h
        · rw [hfirst, hsecond]
          dsimp only
          split
          · exact hnote _
          · rfl

theorem problems_foldlM_applyAttribute (sets : Entries) {draft other : Draft}
    (h : draft.problems = other.problems) :
    (sets.foldlM applyAttribute draft).map Draft.problems =
      (sets.foldlM applyAttribute other).map Draft.problems := by
  induction sets generalizing draft other with
  | nil => exact congrArg Except.ok h
  | cons entry rest ih =>
      rw [List.foldlM_cons, List.foldlM_cons]
      exact Steps.map_bind_congr (problems_applyAttribute h entry) fun _ _ _ hsame => ih hsame

/-- What an override notes does not depend on the definition that it changes. -/
theorem notes_overrideDefinition (name : String) (sets : Entries) (d other : Definition) :
    (overrideDefinition name sets d).map Prod.snd =
      (overrideDefinition name sets other).map Prod.snd := by
  refine Steps.map_bind_congr (problems_foldlM_applyAttribute sets rfl) ?_
  intro draft twin _ hproblems
  simp only [Except.map, hproblems]

theorem notes_applyOverride {other : List (String × Definition)}
    (h : Entries.keys definitions = Entries.keys other) (v : Value) :
    (applyOverride isProtected definitions v).map Prod.snd =
      (applyOverride isProtected other v).map Prod.snd := by
  unfold applyOverride
  split
  · dsimp only
    split
    · rfl
    · refine Steps.map_bind_congr (p := id) rfl ?_
      intro target twin _ hsame
      obtain rfl : target = twin := hsame
      split
      · rfl
      · cases target.text? with
        | none => rfl
        | some key =>
            rw [Option.bind_some, Option.bind_some]
            rcases Entries.lookup_alike h key with ⟨hd, hother⟩ | ⟨d, twin, hd, hother⟩
            · rw [hd, hother]
              rfl
            · rw [hd, hother]
              exact Steps.map_bind_congr (notes_overrideDefinition key _ d twin)
                fun _ _ _ hsame => congrArg Except.ok hsame
  · rfl

theorem notes_applyOverrides {other : List (String × Definition)}
    (h : Entries.keys definitions = Entries.keys other) :
    (applyOverrides isProtected definitions overrides).map Prod.snd =
      (overrides.mapM fun v => (applyOverride isProtected other v).map Prod.snd).map
        List.flatten := by
  induction overrides generalizing definitions with
  | nil => rfl
  | cons v rest ih =>
      rw [List.mapM_cons, ← notes_applyOverride h v, applyOverrides]
      refine Steps.map_bind_congr (p := Prod.snd) (r := id) ?_ ?_
      · cases applyOverride isProtected definitions v <;> rfl
      · intro result part hresult hpart
        have hkeys := (keys_applyOverride hresult).trans h
        refine Steps.map_bind_congr (ih hkeys) ?_
        intro last parts _ hparts
        rw [hpart]
        exact congrArg (fun more => Except.ok (part ++ more)) hparts

theorem exists_applyOverrides_iff :
    (∃ result, applyOverrides isProtected definitions overrides = .ok result) ↔
      ∀ v ∈ overrides, ∃ result, applyOverride isProtected definitions v = .ok result := by
  rw [← Steps.exists_map_iff, notes_applyOverrides rfl, Steps.exists_map_iff,
    Steps.exists_mapM_iff]
  simp only [Steps.exists_map_iff]

theorem notes_perm {overrides' : List Value} {changed' : List (String × Definition)}
    {warnings' : List SchemaWarning} (hperm : overrides'.Perm overrides)
    (h : applyOverrides isProtected definitions overrides = .ok (changed, warnings))
    (h' : applyOverrides isProtected definitions overrides' = .ok (changed', warnings')) :
    warnings'.Perm warnings := by
  have hnotes : ∀ {overrides : List Value} {result},
      applyOverrides isProtected definitions overrides = .ok result →
        ∃ parts, (overrides.mapM fun v => (applyOverride isProtected definitions v).map Prod.snd) =
          .ok parts ∧ parts.flatten = result.2 := by
    intro overrides result h
    rw [← Steps.map_eq_ok, ← notes_applyOverrides rfl, h]
    rfl
  rcases hnotes h with ⟨parts, hparts, rfl⟩
  rcases hnotes h' with ⟨parts', hparts', rfl⟩
  rcases Steps.mapM_perm hperm hparts with ⟨parts'', hparts'', hsame⟩
  obtain rfl : parts' = parts'' := Except.ok.inj (hparts'.symm.trans hparts'')
  exact hsame.flatten

/-!
## Fields
-/

/-- The override names the field. -/
def names (name : String) (v : Value) : Bool :=
  v.get? "field_name" == some (.str name)

/-- The overrides that name the field, in their order. -/
def overridesOf (name : String) (overrides : List Value) : List Value :=
  overrides.filter (names name)

theorem applyOverride_of_names {sets : Entries} (hname : sets.lookup "field_name" = some (.str name))
    (hd : definitions.lookup name = some d) :
    applyOverride isProtected definitions (.map sets) =
      if name = "" then .ok (definitions, [.overrideWithoutName])
      else if isProtected (.str name) then .ok (definitions, [.overrideOfProtected (.str name)])
      else (overrideDefinition name sets d).map fun result =>
        (Entries.set definitions name result.1, result.2) := by
  have hgiven : (!(Value.str name).isGiven) = true ↔ name = "" := by
    rw [Value.isGiven, Bool.not_eq_true', bne_eq_false_iff_eq]
  rw [applyOverride, hname, Option.getD_some]
  by_cases hempty : name = ""
  · rw [if_pos hempty, if_pos (hgiven.mpr hempty)]
  · rw [if_neg hempty, if_neg (mt hgiven.mp hempty)]
    change (if isProtected (.str name) then _ else _) = _
    split
    · rfl
    · simp only [Value.text?, Option.bind_some, hd]
      cases overrideDefinition name sets d <;> rfl

/-- An override acts on the field that it names as if there were no other. -/
theorem applyOverride_alone (hv : names name v = true) (hd : definitions.lookup name = some d)
    (h : applyOverride isProtected definitions v = .ok (changed, notes)) :
    ∃ d', applyOverride isProtected [(name, d)] v = .ok ([(name, d')], notes) ∧
      changed.lookup name = some d' := by
  cases v with
  | map sets =>
      have hname : sets.lookup "field_name" = some (.str name) := beq_iff_eq.mp hv
      have halone : ([(name, d)] : List (String × Definition)).lookup name = some d :=
        Entries.lookup_set_self [] name d
      rw [applyOverride_of_names hname hd] at h
      rw [applyOverride_of_names hname halone]
      split at h
      · cases h
        exact ⟨d, if_pos ‹_›, hd⟩
      · rw [if_neg ‹_›]
        split at h
        · cases h
          exact ⟨d, if_pos ‹_›, hd⟩
        · rcases Steps.map_eq_ok.mp h with ⟨⟨d', more⟩, hset, hresult⟩
          cases hresult
          refine ⟨d', ?_, Entries.lookup_set_self definitions name d'⟩
          rw [if_neg ‹_›, hset]
          simp [Except.map, Entries.set]
  | _ => cases hv

theorem lookup_applyOverride (hv : names name v = false)
    (h : applyOverride isProtected definitions v = .ok (changed, notes)) :
    changed.lookup name = definitions.lookup name := by
  rcases applyOverride_cases h with rfl | ⟨sets, other, d, d', -, rfl, hother, -, -, -, rfl⟩
  · rfl
  · apply Entries.lookup_set_of_ne
    rintro rfl
    exact absurd (beq_iff_eq.mpr hother) (Bool.eq_false_iff.mp hv)

theorem applyOverrides_alone (hd : definitions.lookup name = some d)
    (h : applyOverrides isProtected definitions overrides = .ok (changed, warnings)) :
    ∃ d' notes, applyOverrides isProtected [(name, d)] (overridesOf name overrides) =
      .ok ([(name, d')], notes) ∧ changed.lookup name = some d' := by
  induction overrides generalizing definitions d warnings with
  | nil =>
      cases h
      exact ⟨d, [], rfl, hd⟩
  | cons v rest ih =>
      rcases Steps.bind_eq_ok.mp h with ⟨⟨next, notes⟩, hfirst, hrest⟩
      rcases Steps.bind_eq_ok.mp hrest with ⟨⟨last, more⟩, hmore, hresult⟩
      cases hresult
      cases hv : names name v with
      | false =>
          have hnext := (lookup_applyOverride hv hfirst).trans hd
          rw [overridesOf, List.filter_cons_of_neg (Bool.eq_false_iff.mp hv)]
          exact ih hnext hmore
      | true =>
          rcases applyOverride_alone hv hd hfirst with ⟨d', halone, hnext⟩
          rcases ih hnext hmore with ⟨d'', notes', hothers, hlast⟩
          refine ⟨d'', notes ++ notes', ?_, hlast⟩
          rw [overridesOf, List.filter_cons_of_pos hv, applyOverrides, halone]
          exact Steps.bind_eq_ok.mpr ⟨_, rfl, Steps.bind_eq_ok.mpr ⟨_, hothers, rfl⟩⟩

/-- The overrides that name a field settle what becomes of it. -/
theorem lookup_applyOverrides_congr {overrides' : List Value}
    {changed' : List (String × Definition)} {warnings' : List SchemaWarning}
    (hsame : overridesOf name overrides' = overridesOf name overrides)
    (h : applyOverrides isProtected definitions overrides = .ok (changed, warnings))
    (h' : applyOverrides isProtected definitions overrides' = .ok (changed', warnings')) :
    changed'.lookup name = changed.lookup name := by
  cases hd : definitions.lookup name with
  | none =>
      have hmissing : ∀ {overrides last notes},
          applyOverrides isProtected definitions overrides = .ok (last, notes) →
            last.lookup name = none := by
        intro overrides last notes h
        rwa [Entries.lookup_eq_none_iff, keys_applyOverrides h, ← Entries.lookup_eq_none_iff]
      rw [hmissing h, hmissing h']
  | some d =>
      rcases applyOverrides_alone hd h with ⟨last, notes, halone, hlast⟩
      rcases applyOverrides_alone hd h' with ⟨last', notes', halone', hlast'⟩
      rw [hsame, halone] at halone'
      cases halone'
      rw [hlast, hlast']

/-!
## Schemas
-/

variable {entries entries' : Entries} {run run' : Run}

theorem Run.IsOf.congr (hother : ∀ key, key ≠ "field_overrides" →
    entries'.lookup key = entries.lookup key) (h : run.IsOf (.map entries))
    (h' : run'.IsOf (.map entries')) :
    run'.isProtected = run.isProtected ∧ run'.standard = run.standard ∧ run'.app = run.app := by
  obtain rfl : entries = run.entries := Except.ok.inj h.entries
  obtain rfl : entries' = run'.entries := Except.ok.inj h'.entries
  have hprotection := h'.isProtected
  have hstandard := h'.standard
  have hoffers := h'.offers
  have happ := h'.app
  rw [hother _ (by decide)] at hprotection hstandard hoffers
  rw [h.standard] at hstandard
  rw [h.offers] at hoffers
  rw [← Except.ok.inj hoffers, ← Except.ok.inj hstandard, h.app] at happ
  rw [h.isProtected] at hprotection
  exact ⟨(Except.ok.inj hprotection).symm, (Except.ok.inj hstandard).symm, (Except.ok.inj happ).symm⟩

/-- The same run with other overrides. -/
theorem Run.IsOf.exists_of_overrides (hother : ∀ key, key ≠ "field_overrides" →
    entries'.lookup key = entries.lookup key) (h : run.IsOf (.map entries))
    {overrides' : List Value} (hoverrides' : overrideItems entries' = .ok overrides')
    (hsubset : ∀ v ∈ overrides', v ∈ run.overrides) : ∃ run' : Run, run'.IsOf (.map entries') := by
  obtain rfl : entries = run.entries := Except.ok.inj h.entries
  have htaken := exists_applyOverrides_iff.mp ⟨_, h.overridden⟩
  rcases exists_applyOverrides_iff.mpr fun v hv => htaken v (hsubset v hv) with
    ⟨overridden', hoverridden'⟩
  refine ⟨{ run with entries := entries', overrides := overrides', overridden := overridden' }, ?_⟩
  constructor
  case entries => rfl
  case isProtected => rw [hother _ (by decide), h.isProtected]
  case standard => rw [hother _ (by decide), h.standard]
  case overrides => exact hoverrides'
  case overridden => exact hoverridden'
  case offers => rw [hother _ (by decide), h.offers]
  case app => exact h.app

theorem Run.get?_schema (run : Run) (name : String) : run.schema.get? name =
    ((run.overridden.1.lookup name).or (run.app.1.lookup name)).map finishOptions := by
  rw [Schema.get?, schema, Entries.lookup_map, drafts, List.lookup_append]

theorem Run.IsOf.keys_definitions {config : Value} (h : run.IsOf config) :
    Entries.keys run.schema.definitions =
      Entries.keys run.builtIn ++ Entries.keys run.app.1 := by
  rw [← keys_applyOverrides h.overridden, schema, drafts, Entries.keys, List.map_map]
  exact List.map_append

end Assembly

open Assembly

/-- Overrides of different fields leave each other alone.  Of two setups that differ in their overrides
only, the schemas have the same fields, a field has the same definition if the same overrides name
it in the same order, and if this is so for all fields, the schemas are the same.  Overrides in another
order give their warnings in another order, and no overrides fail that are taken among others. -/
theorem Schema.assemble_of_overrides {entries entries' : Entries} {overrides overrides' : List Value}
    {schema : Schema} {warnings : List SchemaWarning}
    (hother : ∀ key, key ≠ "field_overrides" → entries'.lookup key = entries.lookup key)
    (hoverrides : overrideItems entries = .ok overrides)
    (hoverrides' : overrideItems entries' = .ok overrides')
    (h : Schema.assemble (.map entries) = .ok (schema, warnings)) :
    (∀ schema' warnings', Schema.assemble (.map entries') = .ok (schema', warnings') →
      schema'.fields = schema.fields ∧
      (∀ name, overridesOf name overrides' = overridesOf name overrides →
        schema'.get? name = schema.get? name) ∧
      ((∀ name ∈ schema.fields, overridesOf name overrides' = overridesOf name overrides) →
        schema' = schema) ∧
      (overrides'.Perm overrides → warnings'.Perm warnings)) ∧
    ((∀ v ∈ overrides', v ∈ overrides) →
      ∃ schema' warnings', Schema.assemble (.map entries') = .ok (schema', warnings')) := by
  rcases Schema.assemble_eq_ok_iff.mp h with ⟨run, hrun, hresult⟩
  cases hresult
  obtain rfl : entries = run.entries := Except.ok.inj hrun.entries
  obtain rfl : run.overrides = overrides := Except.ok.inj (hrun.overrides.symm.trans hoverrides)
  constructor
  · intro schema' warnings' h'
    rcases Schema.assemble_eq_ok_iff.mp h' with ⟨run', hrun', hresult'⟩
    cases hresult'
    obtain rfl : entries' = run'.entries := Except.ok.inj hrun'.entries
    obtain rfl : run'.overrides = overrides' :=
      Except.ok.inj (hrun'.overrides.symm.trans hoverrides')
    rcases hrun.congr hother hrun' with ⟨hprotected, hstandard, happ⟩
    have hbuiltIn : run'.builtIn = run.builtIn := by
      rw [Run.builtIn, hstandard, Run.builtIn]
    have hoverridden := hrun'.overridden
    rw [hprotected, hbuiltIn] at hoverridden
    have hfields : run'.schema.fields = run.schema.fields := by
      rw [Run.schema, hstandard, happ, Run.schema]
    have hget : ∀ name, overridesOf name run'.overrides = overridesOf name run.overrides →
        run'.schema.get? name = run.schema.get? name := by
      intro name hsame
      rw [Run.get?_schema, Run.get?_schema, happ,
        lookup_applyOverrides_congr hsame hrun.overridden hoverridden]
    refine ⟨hfields, hget, ?_, ?_⟩
    · intro hall
      have hkeys : Entries.keys run'.schema.definitions = Entries.keys run.schema.definitions := by
        rw [hrun'.keys_definitions, hrun.keys_definitions, hbuiltIn, happ]
      have hdefinitions : run'.schema.definitions = run.schema.definitions := by
        refine Entries.ext_lookup hkeys (Schema.nodup_of_assemble h') fun name => ?_
        by_cases hname : name ∈ run.schema.fields
        · exact hget name (hall name hname)
        · have hmissing : name ∉ Entries.keys run.schema.definitions := by
            rwa [← Schema.has_iff_mem_keys, (Schema.assemble_sound h).has_iff]
          rw [Entries.lookup_eq_none_iff.mpr hmissing,
            Entries.lookup_eq_none_iff.mpr (hkeys ▸ hmissing)]
      exact congrArg₂ Schema.mk hfields hdefinitions
    · intro hperm
      have hnotes := notes_perm hperm hrun.overridden hoverridden
      rw [Run.warnings, Run.warnings, hstandard, happ]
      exact (hnotes.append_left _).append_right _
  · intro hsubset
    rcases hrun.exists_of_overrides hother hoverrides' hsubset with ⟨run', hrun'⟩
    exact ⟨_, _, Schema.assemble_eq_ok_iff.mpr ⟨run', hrun', rfl⟩⟩

/-- Two overrides of one field with one of another field between them or in front of them. -/
theorem Schema.assemble_of_overrides_moved :
    let first : Value := .map [("field_name", .str "email"), ("required", .bool true)]
    let second : Value := .map [("field_name", .str "email"), ("color", .str "red")]
    let other : Value := .map [("field_name", .str "phone"), ("type", .str "none")]
    let between : Entries := [("field_overrides", .list [first, other, second])]
    let inFront : Entries := [("field_overrides", .list [other, first, second])]
    ∃ schema warnings warnings', Schema.assemble (.map between) = .ok (schema, warnings) ∧
      Schema.assemble (.map inFront) = .ok (schema, warnings') ∧ warnings'.Perm warnings := by
  intro first second other between inFront
  have hother : ∀ key, key ≠ "field_overrides" → inFront.lookup key = between.lookup key := by
    intro key hkey
    have hbeq : (key == "field_overrides") = false := beq_false_of_ne hkey
    simp only [between, inFront, List.lookup_cons, hbeq, List.lookup_nil]
  have hmoved : [other, first, second].Perm [first, other, second] := List.Perm.swap _ _ _
  have hok : (Schema.assemble (.map between)).isOk = true := by decide +kernel
  rcases Schema.assemble_ofSetup hok with ⟨warnings, hbetween⟩
  rcases Schema.assemble_of_overrides hother rfl rfl hbetween with ⟨hsame, hreturns⟩
  rcases hreturns fun v hv => hmoved.mem_iff.mp hv with ⟨schema', warnings', hinFront⟩
  rcases hsame schema' warnings' hinFront with ⟨-, -, hschema, hwarnings⟩
  obtain rfl : schema' = ofSetup (.map between) := by
    refine hschema fun name _ => ?_
    by_cases hname : name = "phone"
    · rw [hname]
      decide
    · have hapart : names name other = false :=
        beq_false_of_ne fun heq => hname (Value.str.inj (Option.some.inj heq)).symm
      simp [overridesOf, List.filter_cons, hapart]
  exact ⟨_, _, _, hbetween, hinFront, hwarnings hmoved⟩

end Roster
