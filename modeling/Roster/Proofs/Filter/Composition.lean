import Roster.Filter.Matching
import Roster.Filter.Parser
import Roster.Proofs.Text.Trimming

/-!
# Filters made of two filters

Two filters with a bar between them are read as the groups of the one and then those of the other.
Two filters of one group each with a semicolon between them are read as one group.
-/

namespace Roster
namespace Filter

/-!
## Parts
-/

theorem trimmedParts_append_cons (at_ : Char) (front back : List Char) :
    trimmedParts at_ (front ++ at_ :: back) = trimmedParts at_ front ++ trimmedParts at_ back := by
  rw [trimmedParts, Text.cut_append_cons, List.map_append]
  rfl

theorem trimmedParts_of_not_mem {at_ : Char} {cs : List Char} (h : at_ ∉ cs) :
    trimmedParts at_ cs = [Text.trim cs] := by
  rw [trimmedParts, Text.cut_of_not_mem h]
  rfl

theorem trimmedParts_trim {at_ : Char} (h : Text.isBlank at_ = false) (cs : List Char) :
    trimmedParts at_ (Text.trim cs) = trimmedParts at_ cs :=
  Text.map_trim_cut_trim h cs

variable {known : String → Bool}

theorem readParts_of_not_mem {cs : List Char} (h : '|' ∉ cs) :
    readParts known cs = [(trimmedParts ';' cs).map (readPart known)] := by
  have hsemicolon : Text.isBlank ';' = false := by decide
  rw [readParts, trimmedParts_of_not_mem h, List.map_singleton, readGroup,
    trimmedParts_trim hsemicolon]

theorem readParts_bar (front back : List Char) :
    readParts known (front ++ '|' :: back) = readParts known front ++ readParts known back := by
  rw [readParts, trimmedParts_append_cons, List.map_append]
  rfl

theorem readParts_semicolon {front back : List Char} (hfront : '|' ∉ front) (hback : '|' ∉ back) :
    readParts known (front ++ ';' :: back) =
      [(readParts known front).flatten ++ (readParts known back).flatten] := by
  have hjoined : '|' ∉ front ++ ';' :: back := by
    simp [hfront, hback]
  rw [readParts_of_not_mem hjoined, readParts_of_not_mem hfront, readParts_of_not_mem hback,
    trimmedParts_append_cons, List.map_append, List.flatten_singleton, List.flatten_singleton]

/-!
## What is read
-/

/-- The groups that parts leave, those without conditions left out. -/
def groupsOf (parts : List (List Part)) : Groups :=
  (parts.map (·.filterMap Part.condition?)).filter (!·.isEmpty)

theorem groupsOf_append (front back : List (List Part)) :
    groupsOf (front ++ back) = groupsOf front ++ groupsOf back := by
  rw [groupsOf, List.map_append, List.filter_append]
  rfl

theorem flatten_groupsOf (parts : List (List Part)) :
    (groupsOf parts).flatten = parts.flatten.filterMap Part.condition? := by
  induction parts with
  | nil => rfl
  | cons part rest ih =>
      have hrest : groupsOf (part :: rest) = groupsOf [part] ++ groupsOf rest :=
        groupsOf_append [part] rest
      rw [hrest, List.flatten_append, ih, List.flatten_cons, List.filterMap_append]
      cases hpart : part.filterMap Part.condition? with
      | nil => simp [groupsOf, hpart]
      | cons c more => simp [groupsOf, hpart]

/-- A filter of blanks selects everything, as its parts have it. -/
theorem readParts_of_blank {cs : List Char} (h : Text.trim cs = []) :
    readParts known cs = [[.blank]] := by
  have hbar : Text.isBlank '|' = false := by decide
  rw [readParts, ← trimmedParts_trim hbar, h]
  rfl

theorem groups_parse (known : String → Bool) (s : String) :
    (parse known s).groups = groupsOf (readParts known s.toList) := by
  rw [parse]
  split
  · rename_i hblank
    rw [readParts_of_blank (List.isEmpty_iff.mp hblank)]
    rfl
  · rfl

theorem warnings_parse (known : String → Bool) (s : String) :
    (parse known s).warnings = (readParts known s.toList).flatten.filterMap Part.warning? := by
  rw [parse]
  split
  · rename_i hblank
    rw [readParts_of_blank (List.isEmpty_iff.mp hblank)]
    rfl
  · rfl

/-- The conditions that were kept, whatever their groups. -/
def conditions (f : Filter) : List Condition :=
  f.groups.flatten

theorem conditions_parse (known : String → Bool) (s : String) :
    (parse known s).conditions = (readParts known s.toList).flatten.filterMap Part.condition? := by
  rw [conditions, groups_parse, flatten_groupsOf]

/-- Conditions as a filter of one group at most. -/
def oneGroup (conditions : List Condition) : Groups :=
  if conditions.isEmpty then [] else [conditions]

theorem groupsOf_singleton (parts : List Part) :
    groupsOf [parts] = oneGroup (parts.filterMap Part.condition?) := by
  rw [oneGroup, groupsOf]
  cases hparts : parts.filterMap Part.condition? with
  | nil => simp [hparts]
  | cons c more => simp [hparts]

theorem groups_parse_of_not_mem {s : String} (h : '|' ∉ s.toList) :
    (parse known s).groups = oneGroup (parse known s).conditions := by
  rw [conditions_parse, groups_parse, readParts_of_not_mem h, List.flatten_singleton,
    groupsOf_singleton]

/-!
## What is selected
-/

theorem selects_of_groups {f : Filter} (h : f.groups ≠ []) (record : Record) :
    f.selects record = groupsHold f.groups record := by
  rw [selects, selectsAll, List.isEmpty_eq_false_iff.mpr h, Bool.false_or]

theorem selects_of_oneGroup {f : Filter} {conditions : List Condition}
    (hgroups : f.groups = oneGroup conditions) (record : Record) :
    f.selects record = conditions.all (·.holds record) := by
  rw [selects, selectsAll, hgroups, oneGroup]
  cases conditions with
  | nil => rfl
  | cons c more => simp [groupsHold]

/-- Two filters with a bar between them have the groups and the warnings of both, and select what
one of them selects; with a semicolon between them, when neither has a bar, they have the conditions
of both in one group and the warnings of both, and select what both select. -/
theorem parse_of_joined (known : String → Bool) (a b : String) :
    ((parse known (a ++ "|" ++ b)).groups = (parse known a).groups ++ (parse known b).groups ∧
      (parse known (a ++ "|" ++ b)).warnings =
        (parse known a).warnings ++ (parse known b).warnings) ∧
    ((parse known a).conditions ≠ [] → (parse known b).conditions ≠ [] → ∀ record,
      (parse known (a ++ "|" ++ b)).selects record =
        ((parse known a).selects record || (parse known b).selects record)) ∧
    ('|' ∉ a.toList → '|' ∉ b.toList →
      (parse known (a ++ ";" ++ b)).groups =
        oneGroup ((parse known a).conditions ++ (parse known b).conditions) ∧
      (parse known (a ++ ";" ++ b)).warnings =
        (parse known a).warnings ++ (parse known b).warnings ∧
      ∀ record, (parse known (a ++ ";" ++ b)).selects record =
        ((parse known a).selects record && (parse known b).selects record)) := by
  have hbar : (a ++ "|" ++ b).toList = a.toList ++ '|' :: b.toList := by simp
  have hsemicolon : (a ++ ";" ++ b).toList = a.toList ++ ';' :: b.toList := by simp
  have hgroups : (parse known (a ++ "|" ++ b)).groups =
      (parse known a).groups ++ (parse known b).groups := by
    rw [groups_parse, groups_parse, groups_parse, hbar, readParts_bar, groupsOf_append]
  constructor
  · constructor
    · exact hgroups
    · rw [warnings_parse, warnings_parse, warnings_parse, hbar, readParts_bar, List.flatten_append,
        List.filterMap_append]
  constructor
  · intro ha hb record
    have hfilled : ∀ {s : String}, (parse known s).conditions ≠ [] → (parse known s).groups ≠ [] := by
      intro s hs hnone
      apply hs
      rw [conditions, hnone, List.flatten_nil]
    have hjoined : (parse known (a ++ "|" ++ b)).groups ≠ [] := by
      rw [hgroups]
      exact List.append_ne_nil_of_left_ne_nil (hfilled ha) _
    rw [selects_of_groups hjoined, selects_of_groups (hfilled ha), selects_of_groups (hfilled hb),
      hgroups, groupsHold, List.any_append]
    rfl
  · intro ha hb
    have hone : (parse known (a ++ ";" ++ b)).groups =
        oneGroup ((parse known a).conditions ++ (parse known b).conditions) := by
      rw [groups_parse, conditions_parse, conditions_parse, hsemicolon, readParts_semicolon ha hb,
        groupsOf_singleton, List.filterMap_append]
    refine ⟨hone, ?_, ?_⟩
    · rw [warnings_parse, warnings_parse, warnings_parse, hsemicolon, readParts_semicolon ha hb,
        List.flatten_singleton, List.filterMap_append]
    · intro record
      rw [selects_of_oneGroup hone, selects_of_oneGroup (groups_parse_of_not_mem ha),
        selects_of_oneGroup (groups_parse_of_not_mem hb), List.all_append]

/-- Filters with blanks around their separators, and with parts that are dropped. -/
theorem parse_of_joined_of_visits :
    let known : String → Bool := ["level", "note"].contains
    let f := parse known " level=staff ;; age>3 "
    let g := parse known "note:a b\t; x"
    f.conditions ≠ [] ∧ g.conditions ≠ [] ∧ f.warnings.length = 1 ∧ g.warnings.length = 1 ∧
    '|' ∉ " level=staff ;; age>3 ".toList ∧ '|' ∉ "note:a b\t; x".toList ∧
    (parse known (" level=staff ;; age>3 " ++ "|" ++ "note:a b\t; x")).groups =
      f.groups ++ g.groups ∧
    (∀ record, (parse known (" level=staff ;; age>3 " ++ "|" ++ "note:a b\t; x")).selects record =
      (f.selects record || g.selects record)) ∧
    ∀ record, (parse known (" level=staff ;; age>3 " ++ ";" ++ "note:a b\t; x")).selects record =
      (f.selects record && g.selects record) := by
  intro known f g
  have hf : f.conditions ≠ [] := by decide +kernel
  have hg : g.conditions ≠ [] := by decide +kernel
  have hnoBar : '|' ∉ " level=staff ;; age>3 ".toList ∧ '|' ∉ "note:a b\t; x".toList := by
    decide +kernel
  rcases parse_of_joined known " level=staff ;; age>3 " "note:a b\t; x" with
    ⟨⟨hgroups, -⟩, heither, hboth⟩
  refine ⟨hf, hg, by decide +kernel, by decide +kernel, hnoBar.1, hnoBar.2, hgroups, ?_, ?_⟩
  · exact heither hf hg
  · exact (hboth hnoBar.1 hnoBar.2).2.2

end Filter
end Roster
