import Roster.Check.Validator
import Roster.Proofs.Schema.Overrides
import Roster.Proofs.Text.Trimming

/-!
# Options of a choice

Options may carry a mark.  In an assembled schema they stand once more without it, a choice without
a default has the first marked one for it, and what its validator takes is what stands there.
-/

namespace Roster

/-- A mark is taken off an option with the blanks behind it. -/
inductive Strips : String → String → Prop
  | plain {option : String} (h : isMarked option = false) : Strips option option
  | marked {option clean : String} {blanks : List Char}
      (h : option.toList = defaultMarker :: (blanks ++ clean.toList))
      (hblanks : ∀ c ∈ blanks, Text.isBlank c = true)
      (hclean : ∀ c ∈ clean.toList.head?, Text.isBlank c = false) : Strips option clean

theorem stripMarker_eq (option : String) : stripMarker option =
    if isMarked option then String.ofList (Text.trimLeft option.toList.tail) else option := by
  unfold stripMarker isMarked
  cases option.toList with
  | nil => rfl
  | cons c rest =>
      by_cases hc : c = defaultMarker
      · simp [hc]
      · simp [hc]

theorem strips_iff {option clean : String} : Strips option clean ↔ stripMarker option = clean := by
  constructor
  · intro h
    cases h with
    | plain h => rw [stripMarker_eq, h, if_neg Bool.false_ne_true]
    | marked h hblanks hclean =>
        have hmarked : isMarked option = true := by
          rw [isMarked, h, List.head?_cons, beq_self_eq_true]
        rw [stripMarker_eq, if_pos hmarked, h, List.tail_cons,
          Text.trimLeft_eq_iff.mpr ⟨_, rfl, hblanks, hclean⟩, String.ofList_toList]
  · rintro rfl
    rw [stripMarker_eq]
    split
    · rename_i hmarked
      rw [isMarked, beq_iff_eq, List.head?_eq_some_iff] at hmarked
      rcases hmarked with ⟨rest, hrest⟩
      rcases Text.trimLeft_eq_iff.mp (rfl : Text.trimLeft rest = _) with
        ⟨blanks, hcut, hblanks, hfirst⟩
      refine Strips.marked ?_ hblanks ?_
      · rw [hrest, List.tail_cons, String.toList_ofList, ← hcut]
      · rwa [hrest, List.tail_cons, String.toList_ofList]
    · exact Strips.plain (Bool.eq_false_iff.mpr ‹_›)

theorem strips_stripMarker (option : String) : Strips option (stripMarker option) :=
  strips_iff.mpr rfl

namespace Assembly

variable {draft d : Definition}

/-!
## Finishing a definition
-/

/-- What the definition of a choice comes to: its options are cleaned, whatever stood there as
cleaned, and a default that is not set is taken from the first mark. -/
structure IsFinished (draft d : Definition) : Prop where
  /-- Nothing else is changed. -/
  same : d = { draft with cleanOptions := d.cleanOptions, default := d.default }
  clean : List.Forall₂ Strips d.options d.cleanOptions
  kept : ∀ text, text ≠ "" → draft.default = some text → d.default = some text
  marked : draft.default.getD "" = "" → ∀ before option after,
    d.options = before ++ option :: after → (∀ other ∈ before, isMarked other = false) →
    isMarked option = true →
    ∃ clean, Strips option clean ∧ d.default = some clean ∧ clean ∈ d.cleanOptions
  unmarked : draft.default.getD "" = "" → (∀ option ∈ d.options, isMarked option = false) →
    d.default = some ""

theorem isChoice_finishOptions (draft : Definition) :
    isChoice (finishOptions draft) = isChoice draft := by
  unfold finishOptions
  split <;> rfl

theorem options_finishOptions (draft : Definition) :
    (finishOptions draft).options = draft.options := by
  unfold finishOptions
  split <;> rfl

theorem markedDefault_of_marked {before after : List String} {option : String}
    (hbefore : ∀ other ∈ before, isMarked other = false) (hmarked : isMarked option = true) :
    markedDefault (before ++ option :: after) = stripMarker option := by
  have hfound : (before ++ option :: after).find? isMarked = some option := by
    rw [List.find?_eq_some_iff_append]
    refine ⟨hmarked, before, after, rfl, fun other hother => ?_⟩
    rw [hbefore other hother, Bool.not_false]
  rw [markedDefault, hfound, Option.map_some, Option.getD_some]

theorem markedDefault_of_unmarked {options : List String}
    (h : ∀ option ∈ options, isMarked option = false) : markedDefault options = "" := by
  have hmissing : options.find? isMarked = none :=
    List.find?_eq_none.mpr fun option hoption => Bool.eq_false_iff.mp (h option hoption)
  rw [markedDefault, hmissing, Option.map_none, Option.getD_none]

theorem isFinished_finishOptions (hchoice : isChoice draft = true) (hoptions : draft.options ≠ []) :
    IsFinished draft (finishOptions draft) := by
  have hfinish : (isChoice draft && !draft.options.isEmpty) = true := by
    rw [hchoice, Bool.true_and, Bool.not_eq_true', List.isEmpty_eq_false_iff]
    exact hoptions
  -- A default that is set to nothing counts as one that is not set.
  have hunset : draft.default.getD "" = "" →
      (finishOptions draft).default = some (markedDefault draft.options) := by
    intro hdefault
    rw [finishOptions, if_pos hfinish]
    dsimp only
    split
    · rfl
    · rfl
    · rename_i text hne hset
      rw [hset, Option.getD_some] at hdefault
      exact absurd hdefault hne
  have hclean : (finishOptions draft).cleanOptions = draft.options.map stripMarker := by
    rw [finishOptions, if_pos hfinish]
  constructor
  case same => rw [finishOptions, if_pos hfinish]
  case clean =>
    rw [hclean, options_finishOptions, List.forall₂_map_right_iff, List.forall₂_same]
    exact fun option _ => strips_stripMarker option
  case kept =>
    intro text hne hset
    rw [finishOptions, if_pos hfinish]
    simp only [hset]
  case marked =>
    intro hdefault before option after hsplit hbefore hmarked
    rw [options_finishOptions] at hsplit
    refine ⟨stripMarker option, strips_stripMarker option, ?_, ?_⟩
    · rw [hunset hdefault, hsplit, markedDefault_of_marked hbefore hmarked]
    · rw [hclean, hsplit]
      exact List.mem_map_of_mem (List.mem_append_right _ List.mem_cons_self)
  case unmarked =>
    intro hdefault hall
    rw [options_finishOptions] at hall
    rw [hunset hdefault, markedDefault_of_unmarked hall]

/-- The validator of options takes what they are without their marks. -/
theorem IsFinished.check_eq_accepted_iff (h : IsFinished draft d) (name text : String) :
    ValidatorKind.enum.check d name text = .accepted ↔ ∃ option ∈ d.options, Strips option text := by
  have hclean : List.Forall₂ Eq (d.options.map stripMarker) d.cleanOptions :=
    List.forall₂_map_left_iff.mpr (h.clean.imp fun _ _ => strips_iff.mp)
  rw [List.forall₂_eq_eq_eq] at hclean
  rw [ValidatorKind.check_eq_accepted_iff, ValidatorKind.accepts, List.contains_iff_mem, ← hclean,
    List.mem_map]
  simp only [strips_iff]

/-!
## Choices of a schema
-/

variable {run : Run} {name : String}

/-- Where a definition comes from before its options are finished: from the catalog, changed by the
overrides that name the field, or from an entry of the setup. -/
def Run.Supplies (run : Run) (name : String) (draft : Definition) : Prop :=
  (∃ builtIn notes, run.builtIn.lookup name = some builtIn ∧
    applyOverrides run.isProtected [(name, builtIn)] (overridesOf name run.overrides) =
      .ok ([(name, draft)], notes)) ∨
  ∃ v ∈ run.offers, ∃ taken, appField taken v = .ok (.ok (name, draft))

theorem Run.IsOf.supplies {config : Value} (h : run.IsOf config)
    (hdraft : run.drafts.lookup name = some draft) : run.Supplies name draft := by
  rw [drafts, List.lookup_append, Option.or_eq_some_iff] at hdraft
  rcases hdraft with hbuiltIn | ⟨-, happ⟩
  · left
    rcases Entries.lookup_alike (keys_applyOverrides h.overridden) name with
      ⟨hmissing, -⟩ | ⟨last, builtIn, -, hfound⟩
    · rw [hmissing] at hbuiltIn
      cases hbuiltIn
    · rcases applyOverrides_alone hfound h.overridden with ⟨last, notes, halone, hlast⟩
      rw [hlast] at hbuiltIn
      cases hbuiltIn
      exact ⟨builtIn, notes, hfound, halone⟩
  · right
    exact exists_appField h.app (Entries.mem_of_lookup happ)

end Assembly

open Assembly

theorem ValidatorKind.eq_label_of_ofValue? {v : Value} {kind : ValidatorKind}
    (h : ofValue? v = some kind) : v = .str kind.label := by
  cases v with
  | str s =>
      have hlabel := List.find?_some h
      rw [beq_iff_eq] at hlabel
      rw [hlabel]
  | _ => cases h

theorem isChoice_of_validator? {d : Definition} (h : d.validator? = some .enum) :
    isChoice d = true := by
  rw [isChoice, Bool.or_eq_true, beq_iff_eq, beq_iff_eq]
  rcases Option.or_eq_some_iff.mp h with hasked | ⟨-, hkind⟩
  · exact Or.inr (ValidatorKind.eq_label_of_ofValue? hasked)
  · exact Or.inl (ValidatorKind.eq_label_of_ofValue? hkind)

/-- In an assembled schema the options of a field, its default and its validator go together,
wherever the options came from. -/
theorem Schema.choices_of_assemble {config : Value} {schema : Schema} {warnings : List SchemaWarning}
    (h : Schema.assemble config = .ok (schema, warnings)) :
    ∃ run : Run, run.IsOf config ∧ run.schema = schema ∧
      ∀ name d, schema.get? name = some d → d.options ≠ [] →
        ∃ draft, run.drafts.lookup name = some draft ∧ run.Supplies name draft ∧
          (isChoice d = true → IsFinished draft d) ∧
          (d.validator? = some .enum → ∀ text, ValidatorKind.enum.check d name text = .accepted ↔
            ∃ option ∈ d.options, Strips option text) := by
  rcases Schema.assemble_eq_ok_iff.mp h with ⟨run, hrun, hresult⟩
  cases hresult
  refine ⟨run, hrun, rfl, ?_⟩
  intro name d hd hoptions
  rw [Schema.get?, Run.schema, Entries.lookup_map] at hd
  rcases Option.map_eq_some_iff.mp hd with ⟨draft, hdraft, rfl⟩
  rw [options_finishOptions] at hoptions
  have hfinished : isChoice (finishOptions draft) = true →
      IsFinished draft (finishOptions draft) := by
    intro hchoice
    rw [isChoice_finishOptions] at hchoice
    exact isFinished_finishOptions hchoice hoptions
  refine ⟨draft, hdraft, hrun.supplies hdraft, hfinished, ?_⟩
  intro henum text
  exact (hfinished (isChoice_of_validator? henum)).check_eq_accepted_iff name text

/-- A setup gives the status of a user other options, of which two carry the mark, and cleaned options
that come to nothing. -/
theorem Schema.choices_of_assemble_of_status :
    let config : Value := .map [("field_overrides", .list [.map [("field_name", .str "user_status"),
      ("options", .list [.str "Guest", .str "*  Member", .str "*"]),
      ("clean_options", .list [.str "Other"])]])]
    ∃ schema warnings d, Schema.assemble config = .ok (schema, warnings) ∧
      schema.get? "user_status" = some d ∧ d.default = some "Member" ∧
      ValidatorKind.enum.check d "user_status" "Member" = .accepted ∧
      ValidatorKind.enum.check d "user_status" "Other" ≠ .accepted := by
  intro config
  have hok : (Schema.assemble config).isOk = true := by decide +kernel
  rcases Schema.assemble_ofSetup hok with ⟨warnings, h⟩
  have hstatus : (((Schema.ofSetup config).get? "user_status").filter fun d =>
      d.options = ["Guest", "*  Member", "*"] ∧ d.default = some "Member" ∧
        d.validator? = some .enum).isSome = true := by
    decide +kernel
  rcases Option.isSome_iff_exists.mp hstatus with ⟨d, hkept⟩
  rcases Option.filter_eq_some_iff.mp hkept with ⟨hd, hattributes⟩
  rcases of_decide_eq_true hattributes with ⟨hoptions, hdefault, henum⟩
  rcases Schema.choices_of_assemble h with ⟨run, -, -, hchoices⟩
  rcases hchoices "user_status" d hd (by rw [hoptions]; decide) with ⟨draft, -, -, -, hcheck⟩
  refine ⟨_, warnings, d, h, hd, hdefault, ?_, ?_⟩
  · rw [hcheck henum, hoptions]
    exact ⟨"*  Member", by decide, strips_iff.mpr (by decide)⟩
  · rw [Ne, hcheck henum, hoptions]
    simp only [strips_iff]
    decide

end Roster
