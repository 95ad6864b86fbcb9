import Mathlib.Data.List.Basic
import Roster.Check.Policy
import Roster.Proofs.Value.Entries

/-!
# Verdicts entry by entry

What becomes of an entry depends on the schema and its value alone.  A record passes when none of
its entries is rejected, and what is accepted then, and the warnings, come from its entries one by
one.
-/

namespace Roster
namespace Policy

/-!
## The outcome of an entry
-/

/-- The value of an entry stands for no data. -/
def IsVacant (d : Definition) (value : Option String) : Prop :=
  value = none ∨ value = some d.nullValue

/-- What becomes of an entry.  A value that stands for no data is never given to a validator. -/
inductive Outcome (schema : Schema) : String × Option String → Ruling → Prop where
  | unknown {name : String} {value : Option String} (hd : schema.get? name = none) :
      Outcome schema (name, value)
        (.warn ("Field '" ++ name ++ "' not recognized in schema; input data skipped"))
  | missing {name : String} {value : Option String} {d : Definition}
      (hd : schema.get? name = some d) (hvacant : IsVacant d value) (hrequired : d.required = true) :
      Outcome schema (name, value) (.reject (d.shownName name ++ " is required"))
  | spared {name : String} {value : Option String} {d : Definition}
      (hd : schema.get? name = some d) (hvacant : IsVacant d value)
      (hrequired : d.required = false) :
      Outcome schema (name, value) .skip
  | unvalidatable {name text : String} {d : Definition} (hd : schema.get? name = some d)
      (hdata : text ≠ d.nullValue) (hkind : d.validator? = none) :
      Outcome schema (name, some text)
        (.warn ("Validator not found for '" ++ name ++ "'; input skipped"))
  | passing {name text : String} {d : Definition} {kind : ValidatorKind}
      (hd : schema.get? name = some d) (hdata : text ≠ d.nullValue)
      (hkind : d.validator? = some kind) (hpasses : kind.accepts d text = true) :
      Outcome schema (name, some text) (.keep text)
  | failing {name text : String} {d : Definition} {kind : ValidatorKind}
      (hd : schema.get? name = some d) (hdata : text ≠ d.nullValue)
      (hkind : d.validator? = some kind) (hfails : kind.accepts d text = false)
      (hmust : d.mustValidate = true) :
      Outcome schema (name, some text) (.reject (kind.complaint d (d.shownName name) text))
  | softlyFailing {name text : String} {d : Definition} {kind : ValidatorKind}
      (hd : schema.get? name = some d) (hdata : text ≠ d.nullValue)
      (hkind : d.validator? = some kind) (hfails : kind.accepts d text = false)
      (hmust : d.mustValidate = false) :
      Outcome schema (name, some text)
        (.warn (name ++ ": " ++ kind.complaint d (d.shownName name) text))

variable {schema : Schema} {name : String} {value : Option String} {d : Definition}

theorem isNull_iff : isNull d value = true ↔ IsVacant d value := by
  cases value <;> simp [isNull, IsVacant]

theorem rule_of_vacant (hd : schema.get? name = some d) (hvacant : IsVacant d value) :
    rule schema name value =
      if d.required then .reject (d.shownName name ++ " is required") else .skip := by
  rw [rule, hd]
  dsimp only
  rw [if_pos (isNull_iff.mpr hvacant)]

theorem rule_of_data {text : String} (hd : schema.get? name = some d)
    (hdata : text ≠ d.nullValue) : rule schema name (some text) = ruleValue d name text := by
  have hnull : ¬isNull d (some text) = true := by
    simpa [isNull] using hdata
  rw [rule, hd]
  dsimp only
  rw [if_neg hnull, Option.getD_some]

theorem ruleValue_of_fails {text : String} {kind : ValidatorKind}
    (hkind : d.validator? = some kind) (hfails : kind.accepts d text = false) :
    ruleValue d name text =
      if d.mustValidate then .reject (kind.complaint d (d.shownName name) text)
      else .warn (name ++ ": " ++ kind.complaint d (d.shownName name) text) := by
  rw [ruleValue, hkind]
  dsimp only
  rw [ValidatorKind.check, hfails]
  rfl

theorem Outcome.rule_eq {entry : String × Option String} {ruling : Ruling}
    (h : Outcome schema entry ruling) : rule schema entry.1 entry.2 = ruling := by
  cases h with
  | unknown hd => rw [rule, hd]
  | missing hd hvacant hrequired => rw [rule_of_vacant hd hvacant, if_pos hrequired]
  | spared hd hvacant hrequired =>
      rw [rule_of_vacant hd hvacant, hrequired, if_neg Bool.false_ne_true]
  | unvalidatable hd hdata hkind => rw [rule_of_data hd hdata, ruleValue, hkind]
  | passing hd hdata hkind hpasses =>
      rw [rule_of_data hd hdata, ruleValue, hkind]
      dsimp only
      rw [(ValidatorKind.check_eq_accepted_iff _ _ _ _).mpr hpasses]
  | failing hd hdata hkind hfails hmust =>
      rw [rule_of_data hd hdata, ruleValue_of_fails hkind hfails, if_pos hmust]
  | softlyFailing hd hdata hkind hfails hmust =>
      rw [rule_of_data hd hdata, ruleValue_of_fails hkind hfails, hmust,
        if_neg Bool.false_ne_true]

theorem exists_outcome (schema : Schema) (name : String) (value : Option String) :
    ∃ ruling, Outcome schema (name, value) ruling := by
  cases hd : schema.get? name with
  | none => exact ⟨_, .unknown hd⟩
  | some d =>
      by_cases hvacant : IsVacant d value
      · cases hrequired : d.required with
        | true => exact ⟨_, .missing hd hvacant hrequired⟩
        | false => exact ⟨_, .spared hd hvacant hrequired⟩
      · rw [IsVacant, not_or] at hvacant
        rcases hvacant with ⟨hsome, hne⟩
        rcases Option.ne_none_iff_exists'.mp hsome with ⟨text, rfl⟩
        have hdata : text ≠ d.nullValue := fun htext => hne (congrArg some htext)
        cases hkind : d.validator? with
        | none => exact ⟨_, .unvalidatable hd hdata hkind⟩
        | some kind =>
            cases hpasses : kind.accepts d text with
            | true => exact ⟨_, .passing hd hdata hkind hpasses⟩
            | false =>
                cases hmust : d.mustValidate with
                | true => exact ⟨_, .failing hd hdata hkind hpasses hmust⟩
                | false => exact ⟨_, .softlyFailing hd hdata hkind hpasses hmust⟩

theorem rule_eq_iff {entry : String × Option String} {ruling : Ruling} :
    rule schema entry.1 entry.2 = ruling ↔ Outcome schema entry ruling := by
  constructor
  · rcases exists_outcome schema entry.1 entry.2 with ⟨other, h⟩
    rw [h.rule_eq]
    rintro rfl
    exact h
  · exact Outcome.rule_eq

theorem outcome_rule (schema : Schema) (name : String) (value : Option String) :
    Outcome schema (name, value) (rule schema name value) :=
  rule_eq_iff.mp rfl

theorem rule_eq_keep {text : String} (h : rule schema name value = .keep text) :
    ∃ d kind, schema.get? name = some d ∧ value = some text ∧ text ≠ d.nullValue ∧
      d.validator? = some kind ∧ kind.accepts d text = true := by
  have houtcome := outcome_rule schema name value
  rw [h] at houtcome
  cases houtcome with
  | passing hd hdata hkind hpasses => exact ⟨_, _, hd, rfl, hdata, hkind, hpasses⟩

/-!
## Records
-/

/-- What an entry adds to the accepted values. -/
def keptOf (schema : Schema) (entry : String × Option String) : Option (String × String) :=
  match rule schema entry.1 entry.2 with
  | .keep text => some (entry.1, text)
  | _ => none

/-- What an entry adds to the warnings. -/
def warningOf (schema : Schema) (entry : String × Option String) : Option String :=
  match rule schema entry.1 entry.2 with
  | .warn warning => some warning
  | _ => none

/-- No entry of the record is rejected. -/
def Passes (schema : Schema) (record : Submission) : Prop :=
  ∀ entry ∈ record, ∀ message, rule schema entry.1 entry.2 ≠ .reject message

theorem checkFrom_append_of_passes {record : Submission} (h : Passes schema record)
    (accepted : List (String × String)) (warnings : List String) (rest : Submission) :
    checkFrom schema accepted warnings (record ++ rest) =
      checkFrom schema (accepted ++ record.filterMap (keptOf schema))
        (warnings ++ record.filterMap (warningOf schema)) rest := by
  induction record generalizing accepted warnings with
  | nil => simp
  | cons entry others ih =>
      rcases entry with ⟨name, value⟩
      have hothers : Passes schema others := fun other hother =>
        h other (List.mem_cons_of_mem _ hother)
      rw [List.cons_append, checkFrom]
      cases hrule : rule schema name value with
      | keep text =>
          rw [List.filterMap_cons, List.filterMap_cons]
          simp [keptOf, warningOf, hrule, ih hothers]
      | skip =>
          rw [List.filterMap_cons, List.filterMap_cons]
          simp [keptOf, warningOf, hrule, ih hothers]
      | warn warning =>
          rw [List.filterMap_cons, List.filterMap_cons]
          simp [keptOf, warningOf, hrule, ih hothers]
      | reject message => exact absurd hrule (h (name, value) List.mem_cons_self message)

theorem checkFrom_of_passes {record : Submission} (h : Passes schema record)
    (accepted : List (String × String)) (warnings : List String) :
    checkFrom schema accepted warnings record =
      { success := true, accepted := accepted ++ record.filterMap (keptOf schema),
        warnings := warnings ++ record.filterMap (warningOf schema) } := by
  have happend := checkFrom_append_of_passes h accepted warnings []
  rwa [List.append_nil] at happend

theorem checkFrom_of_reject {entry : String × Option String} {message : String}
    (h : rule schema entry.1 entry.2 = .reject message) (accepted : List (String × String))
    (warnings : List String) (rest : Submission) :
    checkFrom schema accepted warnings (entry :: rest) =
      { success := false, warnings, message, field := some entry.1 } := by
  rcases entry with ⟨name, value⟩
  rw [checkFrom, h]

theorem passes_of_checkFrom {record : Submission} {accepted : List (String × String)}
    {warnings : List String} (h : (checkFrom schema accepted warnings record).success = true) :
    Passes schema record := by
  induction record generalizing accepted warnings with
  | nil => exact fun entry hentry => nomatch hentry
  | cons entry rest ih =>
      rcases entry with ⟨name, value⟩
      rw [checkFrom] at h
      have hfirst : ∀ message, rule schema name value ≠ .reject message := by
        intro message hreject
        rw [hreject] at h
        cases h
      have hrest : Passes schema rest := by
        cases hrule : rule schema name value with
        | keep text =>
            rw [hrule] at h
            exact ih h
        | skip =>
            rw [hrule] at h
            exact ih h
        | warn warning =>
            rw [hrule] at h
            exact ih h
        | reject message => exact absurd hrule (hfirst message)
      intro other hother
      rcases List.mem_cons.mp hother with rfl | hmem
      · exact hfirst
      · exact hrest other hmem

theorem check_of_success {record : Submission} (h : (check schema record).success = true) :
    (check schema record).accepted = record.filterMap (keptOf schema) ∧
      (check schema record).warnings = record.filterMap (warningOf schema) := by
  have hpasses := passes_of_checkFrom h
  rw [check, checkFrom_of_passes hpasses]
  exact ⟨rfl, rfl⟩

theorem keptOf_eq_some {entry : String × Option String} {other : String × String}
    (h : keptOf schema entry = some other) :
    other.1 = entry.1 ∧ rule schema entry.1 entry.2 = .keep other.2 := by
  rw [keptOf] at h
  split at h
  · rename_i text hrule
    cases h
    exact ⟨rfl, hrule⟩
  · cases h

theorem key_of_keptOf (entry : String × Option String) (other : String × String)
    (h : keptOf schema entry = some other) : other.1 = entry.1 :=
  (keptOf_eq_some h).1

/-- When a record passes without warnings, every field of it is known.  A value stands for no data in
a field that may go without, or it is valid. -/
theorem settled_of_no_warnings {record : Submission} (h : (check schema record).success = true)
    (hwarnings : (check schema record).warnings = []) {name text : String}
    (hentry : (name, some text) ∈ record) :
    ∃ d, schema.get? name = some d ∧
      ((text = d.nullValue ∧ d.required = false) ∨
        (text ≠ d.nullValue ∧ ∃ kind ∈ d.validator?, kind.accepts d text = true)) := by
  have hreject := passes_of_checkFrom h (name, some text) hentry
  rw [(check_of_success h).2, List.filterMap_eq_nil_iff] at hwarnings
  have hwarn := hwarnings (name, some text) hentry
  have houtcome := outcome_rule schema name (some text)
  rw [warningOf] at hwarn
  dsimp only at hreject hwarn
  generalize rule schema name (some text) = ruling at *
  cases houtcome with
  | spared hd hvacant hrequired =>
      have hnull := Option.some.inj (hvacant.resolve_left (Option.some_ne_none text))
      exact ⟨_, hd, Or.inl ⟨hnull, hrequired⟩⟩
  | passing hd hdata hkind hpasses => exact ⟨_, hd, Or.inr ⟨hdata, _, hkind, hpasses⟩⟩
  | missing => exact absurd rfl (hreject _)
  | failing => exact absurd rfl (hreject _)
  | unknown => cases hwarn
  | unvalidatable => cases hwarn
  | softlyFailing => cases hwarn

theorem keptOf_of_no_warnings {record : Submission} (h : (check schema record).success = true)
    (hwarnings : (check schema record).warnings = []) {name text : String}
    (hentry : (name, some text) ∈ record) :
    ∃ d, schema.get? name = some d ∧
      keptOf schema (name, some text) = if text = d.nullValue then none else some (name, text) := by
  rcases settled_of_no_warnings h hwarnings hentry with
    ⟨d, hd, ⟨hnull, hrequired⟩ | ⟨hdata, kind, hkind, haccepts⟩⟩
  · have hskip := (Outcome.spared hd (Or.inr (congrArg some hnull)) hrequired).rule_eq
    exact ⟨d, hd, by rw [keptOf, hskip, if_pos hnull]⟩
  · have hkeep := (Outcome.passing hd hdata hkind haccepts).rule_eq
    exact ⟨d, hd, by rw [keptOf, hkeep, if_neg hdata]⟩

/-- When a record passes and no value is accepted for a required field, the values supplied for it
stand for data and are dropped with warnings. -/
theorem dropped_of_required {record : Submission} (h : (check schema record).success = true)
    {name : String} (hleft : name ∉ Entries.keys (check schema record).accepted) {d : Definition}
    (hd : schema.get? name = some d) (hrequired : d.required = true) {text : String}
    (hentry : (name, some text) ∈ record) :
    text ≠ d.nullValue ∧ ∃ warning, ruleValue d name text = .warn warning := by
  have hreject := passes_of_checkFrom h (name, some text) hentry
  have hkeep : ∀ kept, rule schema name (some text) ≠ .keep kept := by
    intro kept hkept
    rw [(check_of_success h).1] at hleft
    refine hleft (List.mem_map.mpr ⟨(name, kept), List.mem_filterMap.mpr ⟨_, hentry, ?_⟩, rfl⟩)
    rw [keptOf, hkept]
  have hdata : text ≠ d.nullValue := by
    rintro rfl
    have hrule := rule_of_vacant hd (Or.inr rfl)
    rw [if_pos hrequired] at hrule
    exact hreject _ hrule
  refine ⟨hdata, ?_⟩
  rw [← rule_of_data hd hdata]
  have houtcome := outcome_rule schema name (some text)
  dsimp only at hreject
  -- Of the seven outcomes four are ruled out: the value is neither spared nor kept, and nothing
  -- rejects the record.  The other three are warnings.
  generalize rule schema name (some text) = ruling at *
  cases houtcome with
  | spared hother hvacant hspared =>
      rw [hd] at hother
      cases hother
      rw [hrequired] at hspared
      cases hspared
  | passing => exact absurd rfl (hkeep _)
  | missing => exact absurd rfl (hreject _)
  | failing => exact absurd rfl (hreject _)
  | unknown => exact ⟨_, rfl⟩
  | unvalidatable => exact ⟨_, rfl⟩
  | softlyFailing => exact ⟨_, rfl⟩

end Policy
end Roster
