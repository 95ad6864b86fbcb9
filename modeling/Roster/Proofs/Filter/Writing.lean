import Mathlib.Data.List.Forall2
import Mathlib.Data.List.TakeDrop
import Roster.Proofs.Check.LoginName
import Roster.Proofs.Filter.Agreement
import Roster.Proofs.Filter.Composition
import Roster.Proofs.Storage.Path

/-!
# Filters are read as they were written

A filter is written as its conditions, with semicolons between those of a group and bars between the
groups, and any blanks around each of them.  Reading takes the blanks off again and gives back the
groups.  A value may begin with blanks and hold signs of operators; a condition that cannot be
written is never read either.
-/

namespace Roster

namespace Text

/-- A text with blanks around it. -/
def IsPadded (part cs : List Char) : Prop :=
  ∃ front back, cs = front ++ part ++ back ∧
    (∀ c ∈ front, isBlank c = true) ∧ ∀ c ∈ back, isBlank c = true

theorem IsPadded.of_all {part cs : List Char} (front back : List Char)
    (hcs : cs = front ++ part ++ back) (hfront : front.all isBlank = true)
    (hback : back.all isBlank = true) : IsPadded part cs :=
  ⟨front, back, hcs, List.all_eq_true.mp hfront, List.all_eq_true.mp hback⟩

theorem IsPadded.trim_eq {part cs : List Char} (h : IsPadded part cs) : trim cs = trim part := by
  rcases h with ⟨front, back, rfl, hfront, hback⟩
  rw [trim_append_blanks _ hback, trim_append_of_blank hfront]

theorem IsPadded.not_mem {part cs : List Char} (h : IsPadded part cs) {c : Char}
    (hc : isBlank c = false) (hpart : c ∉ part) : c ∉ cs := by
  rcases h with ⟨front, back, rfl, hfront, hback⟩
  rw [List.mem_append, List.mem_append, not_or, not_or]
  constructor
  · constructor
    · intro hmem
      rw [hfront c hmem] at hc
      cases hc
    · exact hpart
  · intro hmem
    rw [hback c hmem] at hc
    cases hc

theorem isBlank_eq_false_of_isWord {c : Char} (h : isWord c = true) : isBlank c = false := by
  unfold isWord at h
  split at h
  · rw [Bool.or_eq_true, beq_iff_eq] at h
    rcases h with halnum | rfl
    · have hranges := Grammar.toNat_of_isAlnum halnum
      have hcode : 48 ≤ c.toNat ∧ c.toNat ≤ 122 := by omega
      exact inRanges_eq_false_of_apart hcode (by decide)
    · decide
  · have hapart : ∀ range ∈ alphanumericRanges, ∀ blank ∈ blankRanges,
        blank.2 < range.1 ∨ range.2 < blank.1 := by
      decide +kernel
    rw [inRanges, List.any_eq_true] at h
    rcases h with ⟨range, hrange, hc⟩
    rw [Bool.and_eq_true, decide_eq_true_eq, decide_eq_true_eq] at hc
    exact inRanges_eq_false_of_apart hc (hapart range hrange)

end Text

/-!
## Conditions
-/

namespace ConditionOf

/-- How a condition is written: the field, the sign of the operator, and the value. -/
def written (c : Condition) : List Char :=
  c.field.toList ++ c.operator.sign :: c.value.toList

/-- A condition that can be written in a filter: the field is a known word, and the value is not
empty, holds no separator and does not end in a blank. -/
structure IsWritable (known : String → Bool) (c : Condition) : Prop where
  known : known c.field = true
  field_ne : c.field ≠ ""
  word : ∀ a ∈ c.field.toList, Text.isWord a = true
  value_ne : c.value ≠ ""
  semicolon : ';' ∉ c.value.toList
  bar : '|' ∉ c.value.toList
  trimmed : ∀ a ∈ c.value.toList.getLast?, Text.isBlank a = false

variable {known : String → Bool} {c : Condition}

theorem isWritable_iff : c.IsWritable known ↔
    known c.field = true ∧ c.field ≠ "" ∧ c.field.toList.all Text.isWord = true ∧
      c.value ≠ "" ∧ ';' ∉ c.value.toList ∧ '|' ∉ c.value.toList ∧
      c.value.toList.getLast?.any Text.isBlank = false := by
  rw [List.all_eq_true, Option.any_eq_false]
  constructor
  · rintro ⟨hknown, hfield, hword, hvalue, hsemicolon, hbar, htrimmed⟩
    exact ⟨hknown, hfield, hword, hvalue, hsemicolon, hbar, by simpa using htrimmed⟩
  · rintro ⟨hknown, hfield, hword, hvalue, hsemicolon, hbar, htrimmed⟩
    exact ⟨hknown, hfield, hword, hvalue, hsemicolon, hbar, by simpa using htrimmed⟩

instance : Decidable (c.IsWritable known) :=
  decidable_of_iff' _ isWritable_iff

theorem isWord_sign (op : Operator) : Text.isWord op.sign = false := by
  cases op <;> decide

theorem getLast?_written (h : c.value ≠ "") : c.written.getLast? = c.value.toList.getLast? := by
  cases hvalue : c.value.toList with
  | nil => exact absurd (String.toList_eq_nil_iff.mp hvalue) h
  | cons first rest =>
      rw [written, hvalue, List.getLast?_append, List.getLast?_cons_cons, List.getLast?_cons]
      rfl

theorem written_ne_nil (c : Condition) : c.written ≠ [] := by
  rw [written]
  exact List.append_ne_nil_of_right_ne_nil _ (List.cons_ne_nil _ _)

theorem IsWritable.trim_written (h : IsWritable known c) : Text.trim c.written = c.written := by
  apply Text.trim_eq_self_of_ends
  · cases hfield : c.field.toList with
    | nil => exact absurd (String.toList_eq_nil_iff.mp hfield) h.field_ne
    | cons first rest =>
        intro a ha
        rw [written, hfield, List.cons_append, List.head?_cons, Option.mem_some_iff] at ha
        subst ha
        apply Text.isBlank_eq_false_of_isWord
        apply h.word
        rw [hfield]
        exact List.mem_cons_self
  · rw [getLast?_written h.value_ne]
    exact h.trimmed

theorem IsWritable.not_mem_written (h : IsWritable known c) {a : Char} (hword : Text.isWord a = false)
    (hsign : Operator.ofSign? a = none) (hvalue : a ∉ c.value.toList) : a ∉ c.written := by
  rw [written, List.mem_append, List.mem_cons, not_or, not_or]
  constructor
  · intro hfield
    rw [h.word a hfield] at hword
    cases hword
  · constructor
    · rintro rfl
      rw [Operator.ofSign?_sign] at hsign
      cases hsign
    · exact hvalue

end ConditionOf

namespace Filter

variable {known : String → Bool} {c : Condition}

/-- A condition is read from what is written for it, and from nothing else. -/
theorem readCondition_eq_some_iff {cs : List Char} :
    readCondition cs = some c ↔ cs = c.written ∧ c.field ≠ "" ∧
      (∀ a ∈ c.field.toList, Text.isWord a = true) ∧ c.value ≠ "" := by
  constructor
  · intro h
    rw [readCondition, List.span_eq_takeWhile_dropWhile] at h
    split at h
    · rename_i name sign value hspan
      rw [Prod.mk.injEq] at hspan
      rcases hspan with ⟨hname, hrest⟩
      split at h
      · cases h
      · rename_i hfilled
        rw [Bool.or_eq_true, List.isEmpty_iff, List.isEmpty_iff, not_or] at hfilled
        rcases Option.map_eq_some_iff.mp h with ⟨op, hop, rfl⟩
        have hsign : op.sign = sign := by
          have hfound := List.find?_some hop
          exact eq_of_beq hfound
        constructor
        · rw [ConditionOf.written, hsign, String.toList_ofList, String.toList_ofList, ← hname, ← hrest,
            List.takeWhile_append_dropWhile]
        · constructor
          · intro hempty
            exact hfilled.1 (by simpa using congrArg String.toList hempty)
          · constructor
            · rw [String.toList_ofList, ← hname]
              intro a ha
              exact List.mem_takeWhile_imp ha
            · intro hempty
              exact hfilled.2 (by simpa using congrArg String.toList hempty)
    · cases h
  · rintro ⟨rfl, hfield, hword, hvalue⟩
    have hsign := ConditionOf.isWord_sign c.operator
    have hspan : c.written.span Text.isWord =
        (c.field.toList, c.operator.sign :: c.value.toList) := by
      rw [List.span_eq_takeWhile_dropWhile, ConditionOf.written, List.takeWhile_append_of_pos hword,
        List.dropWhile_append_of_pos hword, List.takeWhile_cons_of_neg, List.append_nil,
        List.dropWhile_cons_of_neg]
      · simp [hsign]
      · simp [hsign]
    have hfilled : (c.field.toList.isEmpty || c.value.toList.isEmpty) = false := by
      simp [hfield, hvalue]
    rw [readCondition, hspan]
    simp only [hfilled, Operator.ofSign?_sign, String.ofList_toList, Option.map_some]
    rfl

theorem readPart_written (h : c.IsWritable known) : readPart known c.written = .condition c := by
  have hread : readCondition c.written = some c := by
    rw [readCondition_eq_some_iff]
    exact ⟨rfl, h.field_ne, h.word, h.value_ne⟩
  rw [readPart, List.isEmpty_eq_false_iff.mpr c.written_ne_nil, hread]
  simp only [h.known]
  rfl

theorem of_condition?_readPart {cs : List Char} (h : (readPart known cs).condition? = some c) :
    known c.field = true ∧ readCondition cs = some c := by
  unfold readPart at h
  split at h
  · cases h
  · split at h
    · cases h
    · rename_i read hread
      split at h
      · rename_i hknown
        cases h
        exact ⟨hknown, hread⟩
      · cases h

/-!
## Written filters
-/

/-- Parts are written one after the other with a separator between them. -/
def WritesParts {α : Type} (separator : Char) (Writes : α → List Char → Prop) (parts : List α)
    (cs : List Char) : Prop :=
  ∃ texts, List.Forall₂ Writes parts texts ∧ cs = Text.join [separator] texts

/-- The conditions of a group are written with semicolons between them, each with blanks around
it. -/
def WritesGroup (group : List Condition) (cs : List Char) : Prop :=
  WritesParts ';' (fun c => Text.IsPadded c.written) group cs

/-- The text is one of those that can be written for the groups of a filter. -/
def Writes (groups : Groups) (s : String) : Prop :=
  WritesParts '|' WritesGroup groups s.toList

/-- The groups of a filter without any blanks. -/
def written (groups : Groups) : String :=
  String.ofList (Text.join ['|'] (groups.map fun group =>
    Text.join [';'] (group.map ConditionOf.written)))

theorem writes_written (groups : Groups) : Writes groups (written groups) := by
  exists groups.map fun group => Text.join [';'] (group.map ConditionOf.written)
  constructor
  · rw [List.forall₂_map_right_iff, List.forall₂_same]
    intro group _
    exists group.map ConditionOf.written
    constructor
    · rw [List.forall₂_map_right_iff, List.forall₂_same]
      intro c _
      exact ⟨[], [], by simp, List.forall_mem_nil _, List.forall_mem_nil _⟩
    · rfl
  · rw [written, String.toList_ofList]

theorem map_trimmedParts_join {β : Type} {separator : Char} {read : List Char → β}
    {parts : List β} {texts : List (List Char)}
    (h : List.Forall₂ (fun part text => separator ∉ text ∧ read (Text.trim text) = part) parts texts)
    (hne : parts ≠ []) :
    (trimmedParts separator (Text.join [separator] texts)).map read = parts := by
  have hfree : ∀ text ∈ texts, separator ∉ text := by
    intro text htext
    rcases exists_of_mem_left h.flip htext with ⟨-, -, hseparator, -⟩
    exact hseparator
  have hread : (texts.map Text.trim).map read = parts := by
    have hparts : List.Forall₂ (fun text part => read (Text.trim text) = id part) texts parts :=
      h.flip.imp fun _ _ hpart => hpart.2
    rw [List.map_map, ← List.map_id parts]
    exact map_eq_map hparts
  have htexts : texts ≠ [] := by
    rintro rfl
    exact hne hread.symm
  rw [trimmedParts, Text.cut_join htexts hfree, hread]

theorem readGroup_of_writes {group : List Condition} {cs : List Char} (h : WritesGroup group cs)
    (hne : group ≠ []) (hwritable : ∀ c ∈ group, c.IsWritable known) :
    '|' ∉ cs ∧ readGroup known (Text.trim cs) = group.map .condition := by
  rcases h with ⟨texts, hwritten, rfl⟩
  have hwritten := (List.forall₂_and_left group texts).mpr ⟨hwritable, hwritten⟩
  constructor
  · intro hbar
    rcases Text.mem_join hbar with hseparator | ⟨text, htext, hbar⟩
    · exact absurd hseparator (by decide)
    · rcases exists_of_mem_left hwritten.flip htext with ⟨c, -, hc, hpadded⟩
      have hfree : '|' ∉ c.written := hc.not_mem_written (by decide) (by decide) hc.bar
      exact hpadded.not_mem (by decide) hfree hbar
  · have hsemicolon : Text.isBlank ';' = false := by decide
    rw [readGroup, trimmedParts_trim hsemicolon]
    apply map_trimmedParts_join
    · rw [List.forall₂_map_left_iff]
      apply hwritten.imp
      rintro c text ⟨hc, hpadded⟩
      constructor
      · apply hpadded.not_mem hsemicolon
        exact hc.not_mem_written (by decide) (by decide) hc.semicolon
      · rw [hpadded.trim_eq, hc.trim_written, readPart_written hc]
    · rwa [Ne, List.map_eq_nil_iff]

theorem readParts_of_writes {groups : Groups} {s : String} (h : Writes groups s)
    (hne : groups ≠ [])
    (hwritable : ∀ group ∈ groups, group ≠ [] ∧ ∀ c ∈ group, c.IsWritable known) :
    readParts known s.toList = groups.map (·.map .condition) := by
  rcases h with ⟨texts, hwritten, hs⟩
  rw [readParts, hs]
  apply map_trimmedParts_join
  · rw [List.forall₂_map_left_iff]
    apply ((List.forall₂_and_left groups texts).mpr ⟨hwritable, hwritten⟩).imp
    rintro group text ⟨⟨hfilled, hgroup⟩, hwrites⟩
    exact readGroup_of_writes hwrites hfilled hgroup
  · rwa [Ne, List.map_eq_nil_iff]

theorem groupsOf_conditions {groups : Groups} (h : ∀ group ∈ groups, group ≠ []) :
    groupsOf (groups.map (·.map .condition)) = groups := by
  have hconditions : ∀ group : List Condition,
      (group.map Part.condition).filterMap Part.condition? = group := by
    intro group
    rw [List.filterMap_map]
    exact List.filterMap_some
  have hfilled : ∀ group ∈ groups, (!group.isEmpty) = true := by
    intro group hgroup
    rw [Bool.not_eq_true', List.isEmpty_eq_false_iff]
    exact h group hgroup
  rw [groupsOf, List.map_map]
  simp only [Function.comp_def, hconditions, List.map_id']
  exact List.filter_eq_self.mpr hfilled

/-!
## Filters that were read
-/

/-- Whatever is read could have been written. -/
theorem isWritable_of_mem_parse {s : String} {group : List Condition}
    (hgroup : group ∈ (parse known s).groups) (hc : c ∈ group) : c.IsWritable known := by
  rw [groups_parse] at hgroup
  rcases List.mem_map.mp (List.mem_filter.mp hgroup).1 with ⟨parts, hparts, rfl⟩
  rcases List.mem_map.mp hparts with ⟨groupText, hgroupText, rfl⟩
  rcases List.mem_filterMap.mp hc with ⟨part, hpart, hcondition⟩
  rcases List.mem_map.mp hpart with ⟨text, htext, rfl⟩
  rcases of_condition?_readPart hcondition with ⟨hknown, hread⟩
  rcases readCondition_eq_some_iff.mp hread with ⟨hwritten, hfield, hword, hvalue⟩
  rcases List.mem_map.mp hgroupText with ⟨groupCut, hgroupCut, rfl⟩
  rcases List.mem_map.mp htext with ⟨cut, hcut, rfl⟩
  have hin : ∀ {a : Char}, a ∈ c.value.toList → a ∈ cut := by
    intro a ha
    apply Text.mem_of_mem_trim
    rw [hwritten, ConditionOf.written]
    exact List.mem_append_right _ (List.mem_cons_of_mem _ ha)
  exact {
    known := hknown
    field_ne := hfield
    word := hword
    value_ne := hvalue
    semicolon := fun hmem => Text.not_mem_of_mem_cut hcut (hin hmem)
    bar := by
      intro hmem
      have hbar : '|' ∈ Text.trim groupCut := Text.mem_of_mem_cut hcut (hin hmem)
      exact Text.not_mem_of_mem_cut hgroupCut (Text.mem_of_mem_trim hbar)
    trimmed := by
      intro a ha
      rw [← ConditionOf.getLast?_written hvalue, ← hwritten] at ha
      exact Text.isBlank_eq_false_of_mem_getLast? ha }

/-- Groups that are written, with or without blanks around their conditions, are read again without
warnings, when none of them is empty and all their conditions can be written; and whatever is read
from any text is of that kind. -/
theorem parse_of_writes (known : String → Bool) :
    (∀ groups, Writes groups (written groups)) ∧
    (∀ groups s, (∀ group ∈ groups, group ≠ [] ∧ ∀ c ∈ group, c.IsWritable known) →
      Writes groups s → (parse known s).groups = groups ∧ (parse known s).warnings = []) ∧
    ∀ s, ∀ group ∈ (parse known s).groups, group ≠ [] ∧ ∀ c ∈ group, c.IsWritable known := by
  constructor
  · exact writes_written
  constructor
  · intro groups s hwritable hwrites
    rw [groups_parse, warnings_parse]
    cases groups with
    | nil =>
        rcases hwrites with ⟨texts, hwritten, hs⟩
        cases hwritten
        rw [hs]
        exact ⟨rfl, rfl⟩
    | cons group rest =>
        rw [readParts_of_writes hwrites (List.cons_ne_nil _ _) hwritable]
        constructor
        · exact groupsOf_conditions fun group hgroup => (hwritable group hgroup).1
        · rw [List.filterMap_eq_nil_iff]
          intro part hpart
          rcases List.mem_flatten.mp hpart with ⟨parts, hparts, hpart⟩
          rcases List.mem_map.mp hparts with ⟨group, -, rfl⟩
          rcases List.mem_map.mp hpart with ⟨c, -, rfl⟩
          rfl
  · intro s group hgroup
    constructor
    · rw [groups_parse] at hgroup
      have hfilled := (List.mem_filter.mp hgroup).2
      rwa [Bool.not_eq_true', List.isEmpty_eq_false_iff] at hfilled
    · intro c hc
      exact isWritable_of_mem_parse hgroup hc

/-- Blanks in front of values and around conditions, signs inside values, and two groups. -/
theorem parse_of_writes_of_padded :
    let known : String → Bool := ["level", "note"].contains
    let groups : Groups :=
      [[⟨"level", .equals, " x"⟩, ⟨"note", .contains, "a=b!\n\"c\""⟩], [⟨"note", .less, "\t>2"⟩]]
    let s := " level= x \n;note:a=b!\n\"c\"| \t note<\t>2\n "
    (∀ group ∈ groups, group ≠ [] ∧ ∀ c ∈ group, c.IsWritable known) ∧ Writes groups s ∧
      (parse known s).groups = groups ∧ (parse known s).warnings = [] ∧
      (parse known " level= x ;; note:a ;").groups ≠ [] ∧
      ∀ group ∈ (parse known " level= x ;; note:a ;").groups, ∀ c ∈ group, c.IsWritable known := by
  intro known groups s
  have hwritable : ∀ group ∈ groups, group ≠ [] ∧ ∀ c ∈ group, c.IsWritable known := by
    decide +kernel
  have hwrites : Writes groups s := by
    refine ⟨[" level= x \n;note:a=b!\n\"c\"".toList, " \t note<\t>2\n ".toList],
      .cons ⟨[" level= x \n".toList, "note:a=b!\n\"c\"".toList], .cons ?_ (.cons ?_ .nil), ?_⟩
        (.cons ⟨[" \t note<\t>2\n ".toList], .cons ?_ .nil, ?_⟩ .nil), ?_⟩
    · exact .of_all [' '] [' ', '\n'] (by decide +kernel) (by decide) (by decide)
    · exact .of_all [] [] (by decide +kernel) (by decide) (by decide)
    · decide +kernel
    · exact .of_all [' ', '\t', ' '] ['\n', ' '] (by decide +kernel) (by decide) (by decide)
    · decide +kernel
    · decide +kernel
  rcases parse_of_writes known with ⟨-, hread, hsound⟩
  rcases hread groups s hwritable hwrites with ⟨hgroups, hwarnings⟩
  exact ⟨hwritable, hwrites, hgroups, hwarnings, by decide +kernel,
    fun group hgroup => (hsound _ group hgroup).2⟩

end Filter
end Roster
