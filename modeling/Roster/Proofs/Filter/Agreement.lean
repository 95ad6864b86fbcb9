import Mathlib.Data.List.Forall2
import Roster.Proofs.Filter.Pattern
import Roster.Proofs.Number.Numeral

/-!
# Filters and their clauses

A filter selects the same records whether it is evaluated in memory or as the clause of a query.
The two sides read a record in their own ways: a query sees columns that may be without a value,
memory sees a map in which a field may be missing or null.  Both count as the empty text.
-/

namespace Roster

/-!
## Fields on both sides
-/

/-- A row and a map say the same of a field: no value on one side is a missing or null value on
the other, and a text is the same text. -/
def SameCell (row : String → Option String) (record : Entries) (field : String) : Prop :=
  match row field with
  | none => record.lookup field = none ∨ record.lookup field = some .null
  | some s => record.lookup field = some (.str s)

namespace Record

theorem lookup_ofEntries (record : Entries) (field : String) :
    (Record.ofEntries record).lookup field = (record.lookup field).map Value.stored := by
  induction record with
  | nil => rfl
  | cons entry rest ih =>
      rcases entry with ⟨name, v⟩
      by_cases hname : (field == name) = true
      · simp [ofEntries, List.lookup_cons, hname]
      · rw [Bool.not_eq_true] at hname
        simpa [ofEntries, List.lookup_cons, hname] using ih

theorem valueOf_ofEntries {row : String → Option String} {record : Entries} {field : String}
    (hsame : SameCell row record field) :
    (Record.ofEntries record).valueOf field = (row field).getD "" := by
  rw [valueOf, lookup_ofEntries]
  unfold SameCell at hsame
  cases hrow : row field with
  | none =>
      rw [hrow] at hsame
      rcases hsame with hmissing | hnull
      · rw [hmissing]
        rfl
      · rw [hnull]
        rfl
  | some s =>
      rw [hrow] at hsame
      simp only at hsame
      rw [hsame]
      rfl

end Record

/-!
## One condition
-/

theorem Clause.holds_comparisonOf (c : Condition) (value : String) :
    (Clause.comparisonOf c.operator).holds value (Clause.parameterOf c) =
      c.operator.holds value c.value := by
  cases hop : c.operator with
  | equals => simp [Clause.comparisonOf, Clause.parameterOf, hop, Comparison.holds, Operator.holds]
  | contains =>
      simp only [Clause.comparisonOf, Clause.parameterOf, hop, Comparison.holds, Operator.holds]
      exact Like.accepts_pattern c.value value
  | notContains =>
      simp only [Clause.comparisonOf, Clause.parameterOf, hop, Comparison.holds, Operator.holds]
      rw [Like.accepts_pattern c.value value]
  | greater => simp [Clause.comparisonOf, Clause.parameterOf, hop, Comparison.holds, Operator.holds]
  | less => simp [Clause.comparisonOf, Clause.parameterOf, hop, Comparison.holds, Operator.holds]

/-!
## Lists side by side
-/

theorem map_eq_map {α β γ : Type} {f : α → γ} {g : β → γ} {items : List α} {others : List β}
    (h : List.Forall₂ (fun a b => f a = g b) items others) : items.map f = others.map g := by
  rwa [← List.forall₂_eq_eq_eq, List.forall₂_map_left_iff, List.forall₂_map_right_iff]

theorem exists_of_mem_left {α β : Type} {R : α → β → Prop} {items : List α} {others : List β}
    (h : List.Forall₂ R items others) {a : α} (ha : a ∈ items) : ∃ b ∈ others, R a b := by
  induction h with
  | nil => cases ha
  | cons hfirst _ ih =>
      rcases List.mem_cons.mp ha with rfl | hrest
      · exact ⟨_, List.mem_cons_self, hfirst⟩
      · rcases ih hrest with ⟨b, hb, hab⟩
        exact ⟨b, List.mem_cons_of_mem _ hb, hab⟩

namespace Clause

/-!
## Numbering of parameters

Terms are numbered across groups, so the parameters of a group stand behind those of the groups in
front of it.  Each lemma is about a part of the numbering, with the parameters around it.
-/

/-- A term says the same as a condition, with its parameter among others. -/
def Says (parameters : List String) (term : Term) (c : Condition) : Prop :=
  term.column = c.field ∧ term.comparison = comparisonOf c.operator ∧
    parameters[term.parameter]? = some (parameterOf c)

theorem says_termsFrom (group : List Condition) (before after : List String) :
    List.Forall₂ (Says (before ++ (group.map parameterOf ++ after)))
      (termsFrom before.length group) group := by
  induction group generalizing before with
  | nil => exact .nil
  | cons c rest ih =>
      have hrest := ih (before ++ [parameterOf c])
      rw [List.length_append, List.length_singleton, List.append_assoc] at hrest
      exact .cons ⟨rfl, rfl, by simp⟩ hrest

theorem says_groupsFrom (groups : Groups) (before : List String) :
    List.Forall₂ (List.Forall₂ (Says (before ++ groups.flatten.map parameterOf)))
      (groupsFrom before.length groups) groups := by
  induction groups generalizing before with
  | nil => exact .nil
  | cons group rest ih =>
      have hrest := ih (before ++ group.map parameterOf)
      rw [List.length_append, List.length_map, List.append_assoc] at hrest
      rw [List.flatten_cons, List.map_append]
      exact .cons (says_termsFrom group before _) hrest

/-- The terms of a clause say the conditions that it was made of. -/
theorem says_ofGroups (groups : Groups) :
    List.Forall₂ (List.Forall₂ (Says (ofGroups groups).parameters)) (ofGroups groups).groups
      groups :=
  says_groupsFrom groups []

/-- A condition as its term sees it: the column against the parameter itself. -/
def holdsOf (row : String → Option String) (c : Condition) : Bool :=
  (comparisonOf c.operator).holds ((row c.field).getD "") (parameterOf c)

theorem termHolds_of_says {parameters : List String} {term : Term} {c : Condition}
    (h : Says parameters term c) (row : String → Option String) :
    termHolds parameters row term = holdsOf row c := by
  rcases h with ⟨hcolumn, hcomparison, hparameter⟩
  rw [termHolds, holdsOf, hcolumn, hcomparison, hparameter, Option.getD_some]

theorem any_ofGroups (row : String → Option String) (groups : Groups) :
    (ofGroups groups).groups.any (·.all (termHolds (ofGroups groups).parameters row)) =
      groups.any (·.all (holdsOf row)) := by
  have hgroups : (ofGroups groups).groups.map (·.all (termHolds (ofGroups groups).parameters row)) =
      groups.map (·.all (holdsOf row)) := by
    apply map_eq_map
    apply (says_ofGroups groups).imp
    intro terms group hmeans
    have hterms := map_eq_map (hmeans.imp fun _ _ h => termHolds_of_says h row)
    simpa using congrArg (List.all · id) hterms
  simpa using congrArg (List.any · id) hgroups

theorem isEmpty_groupsFrom (next : Nat) (groups : Groups) :
    (groupsFrom next groups).isEmpty = groups.isEmpty := by
  cases groups <;> rfl

theorem exists_condition_of_mem_ofGroups {groups : Groups} {terms : List Term} {term : Term}
    (hterms : terms ∈ (ofGroups groups).groups) (hmem : term ∈ terms) :
    ∃ group ∈ groups, ∃ c ∈ group, term.column = c.field ∧
      term.comparison = comparisonOf c.operator ∧
      (ofGroups groups).parameters[term.parameter]? = some (parameterOf c) := by
  rcases exists_of_mem_left (says_ofGroups groups) hterms with ⟨group, hgroup, hall⟩
  rcases exists_of_mem_left hall hmem with ⟨c, hc, hmeans⟩
  exact ⟨group, hgroup, c, hc, hmeans⟩

/-!
## Names of parameters
-/

theorem parameterName_inj {m n : Nat} (h : parameterName m = parameterName n) : m = n :=
  Numeral.toString_nat_inj ((String.append_right_inj "p").mp h)

theorem lookup_bindings_from (values : List String) (first n : Nat) :
    ((values.zipIdx first).map fun (value, i) => (parameterName i, value)).lookup
        (parameterName (first + n)) = values[n]? := by
  induction values generalizing first n with
  | nil => rfl
  | cons value rest ih =>
      rw [List.zipIdx_cons, List.map_cons]
      cases n with
      | zero => simp
      | succ n =>
          have hne : (parameterName (first + (n + 1)) == parameterName first) = false := by
            rw [beq_eq_false_iff_ne]
            intro h
            have hindex := parameterName_inj h
            omega
          have hrest := ih (first + 1) n
          rw [Nat.add_right_comm, Nat.add_assoc] at hrest
          simpa [List.lookup_cons, hne] using hrest

theorem lookup_bindings (clause : Clause) (n : Nat) :
    clause.bindings.lookup (parameterName n) = clause.parameters[n]? := by
  have hfrom := lookup_bindings_from clause.parameters 0 n
  rwa [Nat.zero_add] at hfrom

end Clause

/-!
## The whole filter
-/

namespace Filter

/-- A clause selects a row that says the same of all its fields as a record that the filter
selects. -/
theorem selects_ofGroups {f : Filter} {row : String → Option String} {record : Record}
    (hsame : ∀ group ∈ f.groups, ∀ c ∈ group, (row c.field).getD "" = record.valueOf c.field) :
    (Clause.ofGroups f.groups).selects row = f.selects record := by
  have hholds : ∀ group ∈ f.groups,
      group.all (Clause.holdsOf row) = group.all (·.holds record) := by
    intro group hgroup
    rw [Bool.eq_iff_iff, List.all_eq_true, List.all_eq_true]
    refine forall₂_congr fun c hc => ?_
    rw [Clause.holdsOf, Clause.holds_comparisonOf, ConditionOf.holds, hsame group hgroup c hc]
  rw [Clause.selects, selects, selectsAll, groupsHold, Clause.any_ofGroups, Clause.ofGroups,
    Clause.isEmpty_groupsFrom]
  congr 1
  rw [Bool.eq_iff_iff, List.any_eq_true, List.any_eq_true]
  refine exists_congr fun group => and_congr_right fun hgroup => ?_
  rw [hholds group hgroup]

/-- The clause of a filter, with its parameters, holds for a row exactly when the filter selects
the same record in memory; the filter without groups selects everything on both sides; and every
term finds its parameter under the name by which the text of the clause asks for it. -/
theorem clause_selects_eq_selects (f : Filter) (row : String → Option String) (record : Entries)
    (hsame : ∀ group ∈ f.groups, ∀ c ∈ group, SameCell row record c.field) :
    (Clause.ofGroups f.groups).selects row = f.selects (Record.ofEntries record) ∧
      (f.selectsAll = true → f.selects (Record.ofEntries record) = true) ∧
      ∀ terms ∈ (Clause.ofGroups f.groups).groups, ∀ term ∈ terms, ∃ value,
        (Clause.ofGroups f.groups).parameters[term.parameter]? = some value ∧
          (Clause.ofGroups f.groups).bindings.lookup (Clause.parameterName term.parameter) =
            some value := by
  refine ⟨?_, ?_, ?_⟩
  · refine selects_ofGroups fun group hgroup c hc => ?_
    rw [Record.valueOf_ofEntries (hsame group hgroup c hc)]
  · intro hall
    rw [selects, hall, Bool.true_or]
  · intro terms hterms term hterm
    rcases Clause.exists_condition_of_mem_ofGroups hterms hterm with
      ⟨-, -, c, -, -, -, hparameter⟩
    refine ⟨Clause.parameterOf c, hparameter, ?_⟩
    rw [Clause.lookup_bindings, hparameter]

/-- Wild cards and a backslash in the values, a null and a missing field, and two groups. -/
theorem clause_selects_eq_selects_of_wild_cards :
    let f : Filter := { groups := [[⟨"note", .contains, "50%_\\"⟩, ⟨"city", .notContains, "%"⟩],
      [⟨"town", .equals, ""⟩]] }
    let row : String → Option String := fun field =>
      if field = "note" then some "from 50%_\\ on" else none
    let record : Entries := [("note", .str "from 50%_\\ on"), ("city", .null)]
    (∀ group ∈ f.groups, ∀ c ∈ group, SameCell row record c.field) ∧
      (Clause.ofGroups f.groups).selects row = f.selects (Record.ofEntries record) := by
  intro f row record
  have hsame : ∀ group ∈ f.groups, ∀ c ∈ group, SameCell row record c.field := by
    intro group hgroup c hc
    simp only [f, List.mem_cons, List.not_mem_nil, or_false] at hgroup
    rcases hgroup with rfl | rfl
    · simp only [List.mem_cons, List.not_mem_nil, or_false] at hc
      rcases hc with rfl | rfl
      · simp [SameCell, row, record]
      · simp [SameCell, row, record, List.lookup_cons]
    · simp only [List.mem_cons, List.not_mem_nil, or_false] at hc
      rcases hc with rfl
      simp [SameCell, row, record, List.lookup_cons]
  exact ⟨hsame, (clause_selects_eq_selects f row record hsame).1⟩

end Filter
end Roster
