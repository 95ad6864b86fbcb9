import Roster.Proofs.Check.Policy

/-!
# What a verdict says

A verdict says the outcomes of the entries of a record in order, up to the first entry that rejects
the record.  So the order makes no difference to what is accepted, and what was accepted is accepted
again.
-/

namespace Roster
namespace Policy

/-!
## Entries
-/

/-- An entry as it is checked: the text of its value, if it has one. -/
def submitted (entry : String × Value) : String × Option String :=
  (entry.1, match entry.2 with | .null => none | v => some v.text)

def Rejects (schema : Schema) (entry : String × Value) (message : String) : Prop :=
  Outcome schema (submitted entry) (.reject message)

/-- The value of the entry is accepted, as text. -/
def Accepts (schema : Schema) (entry : String × Value) (kept : String × String) : Prop :=
  kept.1 = entry.1 ∧ Outcome schema (submitted entry) (.keep kept.2)

/-- The entry is dropped with a warning. -/
def Warns (schema : Schema) (entry : String × Value) (warning : String) : Prop :=
  Outcome schema (submitted entry) (.warn warning)

variable {schema : Schema} {entry : String × Value} {entries : Entries}

theorem ofEntries_eq_map (entries : Entries) :
    Submission.ofEntries entries = entries.map submitted := rfl

/-- What was accepted is accepted again as the text that it became. -/
theorem Accepts.again {kept : String × String} (h : Accepts schema entry kept) :
    Accepts schema (kept.1, .str kept.2) kept := by
  rcases h with ⟨hname, hkeep⟩
  rcases rule_eq_keep hkeep.rule_eq with ⟨d, kind, hd, -, hdata, hkind, hpasses⟩
  have hfield : schema.get? kept.1 = some d := by
    rw [hname]
    exact hd
  exact ⟨rfl, .passing hfield hdata hkind hpasses⟩

/-!
## Records
-/

/-- The second list has one member, in order, for each member of the first with an outcome. -/
inductive Picks {α β : Type} (R : α → β → Prop) : List α → List β → Prop where
  | nil : Picks R [] []
  | take {a : α} {b : β} {rest : List α} {others : List β} (h : R a b)
      (hrest : Picks R rest others) : Picks R (a :: rest) (b :: others)
  | pass {a : α} {rest : List α} {others : List β} (h : ∀ b, ¬R a b)
      (hrest : Picks R rest others) : Picks R (a :: rest) others

theorem picks_filterMap {α β : Type} {R : α → β → Prop} {f : α → Option β}
    (h : ∀ a b, f a = some b ↔ R a b) (items : List α) : Picks R items (items.filterMap f) := by
  induction items with
  | nil => exact .nil
  | cons a rest ih =>
      cases hf : f a with
      | none =>
          rw [List.filterMap_cons_none hf]
          refine .pass (fun b hb => ?_) ih
          rw [← h, hf] at hb
          cases hb
      | some b =>
          rw [List.filterMap_cons_some hf]
          exact .take ((h a b).mp hf) ih

/-- What the entries add to the accepted values. -/
def acceptedOf (schema : Schema) (entries : Entries) : List (String × String) :=
  entries.filterMap (keptOf schema ∘ submitted)

/-- What the entries add to the warnings. -/
def warnedOf (schema : Schema) (entries : Entries) : List String :=
  entries.filterMap (warningOf schema ∘ submitted)

theorem keptOf_submitted_eq_some_iff {kept : String × String} :
    (keptOf schema ∘ submitted) entry = some kept ↔ Accepts schema entry kept := by
  constructor
  · intro hkept
    rcases keptOf_eq_some hkept with ⟨hname, hrule⟩
    exact ⟨hname, rule_eq_iff.mp hrule⟩
  · rintro ⟨hname, hkeep⟩
    rw [Function.comp_apply, keptOf, hkeep.rule_eq, submitted, ← hname]

theorem warningOf_submitted_eq_some_iff {warning : String} :
    (warningOf schema ∘ submitted) entry = some warning ↔ Warns schema entry warning := by
  rw [Warns, ← rule_eq_iff, Function.comp_apply, warningOf]
  cases rule schema (submitted entry).1 (submitted entry).2 <;> simp

def Unopposed (schema : Schema) (entries : Entries) : Prop :=
  ∀ entry ∈ entries, ∀ message, ¬Rejects schema entry message

theorem unopposed_nil : Unopposed schema [] :=
  fun _ hentry => nomatch hentry

theorem passes_ofEntries (h : Unopposed schema entries) :
    Passes schema (Submission.ofEntries entries) := by
  rw [ofEntries_eq_map, Passes, List.forall_mem_map]
  intro entry hentry message hrule
  exact h entry hentry message (rule_eq_iff.mp hrule)

theorem check_of_unopposed (h : Unopposed schema entries) :
    check schema (Submission.ofEntries entries) =
      { success := true, accepted := acceptedOf schema entries,
        warnings := warnedOf schema entries } := by
  rw [check, checkFrom_of_passes (passes_ofEntries h), ofEntries_eq_map, List.filterMap_map,
    List.filterMap_map]
  rfl

theorem check_of_rejects {before after : Entries} {message : String}
    (hbefore : Unopposed schema before) (hrejects : Rejects schema entry message) :
    check schema (Submission.ofEntries (before ++ entry :: after)) =
      { success := false, warnings := warnedOf schema before, message, field := some entry.1 } := by
  have hpasses := passes_ofEntries hbefore
  rw [ofEntries_eq_map] at hpasses
  rw [ofEntries_eq_map, List.map_append, check, checkFrom_append_of_passes hpasses, List.map_cons,
    checkFrom_of_reject hrejects.rule_eq, List.filterMap_map]
  rfl

theorem exists_first_of_not_unopposed (h : ¬Unopposed schema entries) :
    ∃ before entry after message, entries = before ++ entry :: after ∧
      Unopposed schema before ∧ Rejects schema entry message := by
  induction entries with
  | nil => exact absurd unopposed_nil h
  | cons first rest ih =>
      by_cases hfirst : ∃ message, Rejects schema first message
      · rcases hfirst with ⟨message, hrejects⟩
        exact ⟨[], first, rest, message, rfl, unopposed_nil, hrejects⟩
      · rw [not_exists] at hfirst
        have hrest : ¬Unopposed schema rest := by
          intro hrest
          exact h (List.forall_mem_cons.mpr ⟨hfirst, hrest⟩)
        rcases ih hrest with ⟨before, entry, after, message, rfl, hbefore, hrejects⟩
        exact ⟨first :: before, entry, after, message, rfl,
          List.forall_mem_cons.mpr ⟨hfirst, hbefore⟩, hrejects⟩

theorem check_success_iff :
    (check schema (Submission.ofEntries entries)).success = true ↔ Unopposed schema entries := by
  constructor
  · intro hsuccess
    by_contra hopposed
    rcases exists_first_of_not_unopposed hopposed with
      ⟨before, entry, after, message, rfl, hbefore, hrejects⟩
    rw [check_of_rejects hbefore hrejects] at hsuccess
    cases hsuccess
  · intro h
    rw [check_of_unopposed h]

/-!
## Two checks
-/

theorem unopposed_of_perm {others : Entries} (hperm : others.Perm entries) :
    Unopposed schema others ↔ Unopposed schema entries := by
  simp only [Unopposed, hperm.mem_iff]

theorem unopposed_of_accepts (h : ∀ entry ∈ entries, ∃ kept, Accepts schema entry kept) :
    Unopposed schema entries := by
  intro entry hentry message hrejects
  rcases h entry hentry with ⟨kept, -, hkeep⟩
  cases hrejects.rule_eq.symm.trans hkeep.rule_eq

theorem warnedOf_of_accepts (h : ∀ entry ∈ entries, ∃ kept, Accepts schema entry kept) :
    warnedOf schema entries = [] := by
  rw [warnedOf, List.filterMap_eq_nil_iff]
  intro entry hentry
  rcases h entry hentry with ⟨kept, -, hkeep⟩
  rw [Option.eq_none_iff_forall_ne_some]
  intro warning hwarning
  have hwarns := (warningOf_submitted_eq_some_iff.mp hwarning).rule_eq
  cases hwarns.symm.trans hkeep.rule_eq

/-- Accepted values as entries of another record. -/
def asEntries (accepted : List (String × String)) : Entries :=
  accepted.map fun (name, text) => (name, .str text)

theorem keys_asEntries (accepted : List (String × String)) :
    Entries.keys (asEntries accepted) = Entries.keys accepted := by
  rw [asEntries, Entries.keys, Entries.keys, List.map_map]
  rfl

theorem check_asEntries_acceptedOf (entries : Entries) :
    check schema (Submission.ofEntries (asEntries (acceptedOf schema entries))) =
      { success := true, accepted := acceptedOf schema entries } := by
  have hagain : ∀ kept ∈ acceptedOf schema entries, Accepts schema (kept.1, .str kept.2) kept := by
    intro kept hkept
    rcases List.mem_filterMap.mp hkept with ⟨entry, -, hentry⟩
    exact (keptOf_submitted_eq_some_iff.mp hentry).again
  have haccepts : ∀ entry ∈ asEntries (acceptedOf schema entries),
      ∃ kept, Accepts schema entry kept := by
    intro entry hentry
    rcases List.mem_map.mp hentry with ⟨kept, hkept, rfl⟩
    exact ⟨kept, hagain kept hkept⟩
  have hsame : acceptedOf schema (asEntries (acceptedOf schema entries)) =
      acceptedOf schema entries := by
    calc acceptedOf schema (asEntries (acceptedOf schema entries))
        = (acceptedOf schema entries).filterMap some := by
          rw [acceptedOf, asEntries, List.filterMap_map]
          exact List.filterMap_congr fun kept hkept =>
            keptOf_submitted_eq_some_iff.mpr (hagain kept hkept)
      _ = acceptedOf schema entries := List.filterMap_some
  rw [check_of_unopposed (unopposed_of_accepts haccepts), hsame, warnedOf_of_accepts haccepts]

/-!
## The whole verdict
-/

/-- A verdict says the outcomes of the entries of a record. -/
structure IsVerdictOn (schema : Schema) (entries : Entries) (verdict : Verdict String) : Prop where
  success_iff : verdict.success = true ↔
    ∀ entry ∈ entries, ∀ message, ¬Rejects schema entry message
  of_success : verdict.success = true →
    Picks (Accepts schema) entries verdict.accepted ∧ Picks (Warns schema) entries verdict.warnings
  of_failure : verdict.success = false → verdict.accepted = [] ∧
    ∃ before entry after, entries = before ++ entry :: after ∧
      (∀ other ∈ before, ∀ message, ¬Rejects schema other message) ∧
      Rejects schema entry verdict.message ∧ verdict.field = some entry.1 ∧
      Picks (Warns schema) before verdict.warnings

theorem picks_acceptedOf (entries : Entries) :
    Picks (Accepts schema) entries (acceptedOf schema entries) :=
  picks_filterMap (fun _ _ => keptOf_submitted_eq_some_iff) entries

theorem picks_warnedOf (entries : Entries) :
    Picks (Warns schema) entries (warnedOf schema entries) :=
  picks_filterMap (fun _ _ => warningOf_submitted_eq_some_iff) entries

theorem isVerdictOn_check (schema : Schema) (entries : Entries) :
    IsVerdictOn schema entries (check schema (Submission.ofEntries entries)) := by
  by_cases h : Unopposed schema entries
  · constructor
    case success_iff => exact check_success_iff
    case of_success =>
      intro _
      rw [check_of_unopposed h]
      exact ⟨picks_acceptedOf entries, picks_warnedOf entries⟩
    case of_failure =>
      intro hfailure
      rw [check_success_iff.mpr h] at hfailure
      cases hfailure
  · constructor
    case success_iff => exact check_success_iff
    case of_success => exact fun hsuccess => absurd (check_success_iff.mp hsuccess) h
    case of_failure =>
      intro _
      rcases exists_first_of_not_unopposed h with
        ⟨before, entry, after, message, rfl, hbefore, hrejects⟩
      rw [check_of_rejects hbefore hrejects]
      exact ⟨rfl, before, entry, after, rfl, hbefore, hrejects, rfl, picks_warnedOf before⟩

/-- A record is checked entry by entry.  The order of the entries makes no difference to success and
to what is accepted, and what was accepted is accepted as it is and without warnings. -/
theorem check_ofEntries (schema : Schema) (entries : Entries) :
    IsVerdictOn schema entries (check schema (Submission.ofEntries entries)) ∧
      (∀ others : Entries, others.Perm entries →
        (check schema (Submission.ofEntries others)).success =
            (check schema (Submission.ofEntries entries)).success ∧
          (check schema (Submission.ofEntries others)).accepted.Perm
            (check schema (Submission.ofEntries entries)).accepted) ∧
      check schema (Submission.ofEntries
          (asEntries (check schema (Submission.ofEntries entries)).accepted)) =
        { success := true,
          accepted := (check schema (Submission.ofEntries entries)).accepted } := by
  constructor
  · exact isVerdictOn_check schema entries
  by_cases h : Unopposed schema entries
  · rw [check_of_unopposed h]
    constructor
    · intro others hperm
      rw [check_of_unopposed ((unopposed_of_perm hperm).mpr h)]
      exact ⟨rfl, hperm.filterMap _⟩
    · exact check_asEntries_acceptedOf entries
  · have hrejected : ∀ {others : Entries}, ¬Unopposed schema others →
        (check schema (Submission.ofEntries others)).success = false ∧
          (check schema (Submission.ofEntries others)).accepted = [] := by
      intro others hothers
      have hfailure : (check schema (Submission.ofEntries others)).success = false := by
        rw [← Bool.not_eq_true, check_success_iff]
        exact hothers
      exact ⟨hfailure, ((isVerdictOn_check schema others).of_failure hfailure).1⟩
    rw [(hrejected h).1, (hrejected h).2]
    constructor
    · intro others hperm
      have hothers := (unopposed_of_perm hperm).not.mpr h
      rw [(hrejected hothers).1, (hrejected hothers).2]
      exact ⟨rfl, List.Perm.refl _⟩
    · rfl

end Policy
end Roster
