import Roster.Proofs.Filter.Agreement
import Roster.Proofs.Filter.Lexemes
import Roster.Proofs.Storage.Archive

/-!
# The text of a clause says what the filter says

The text of a clause is cut into lexemes, groups are read between `OR` and terms between `AND`, and
each term gives back the condition that it was made of, with the value behind its parameter.  So
nothing in the name of a field can be taken for a part of the clause, and values do not occur in the
text at all.
-/

namespace Roster
namespace Clause

/-!
## Reading a clause
-/

/-- What escaped characters stand for; a wild card that is not escaped stands for no character. -/
def unescapeLike : List Char → Option (List Char)
  | [] => some []
  | [c] => if c == escapeChar || c == '%' || c == '_' then none else some [c]
  | c :: d :: rest =>
      if c == escapeChar then (unescapeLike rest).map (d :: ·)
      else if c == '%' || c == '_' then none
      else (unescapeLike (d :: rest)).map (c :: ·)

/-- The text that a pattern looks for between two wild cards. -/
def soughtIn (pattern : String) : Option String :=
  match pattern.toList with
  | '%' :: rest =>
      if rest.getLast? = some '%' then (unescapeLike rest.dropLast).map String.ofList else none
  | _ => none

/-- The operator and the parameter of a comparison. -/
def readComparison : List Lexeme → Option (Operator × String)
  | [.sign '=', .parameter cs] => some (.equals, String.ofList cs)
  | [.keyword .like, .parameter cs, .keyword .escape, .text ['\\']] =>
      some (.contains, String.ofList cs)
  | [.keyword .not, .keyword .like, .parameter cs, .keyword .escape, .text ['\\']] =>
      some (.notContains, String.ofList cs)
  | [.sign '>', .parameter cs] => some (.greater, String.ofList cs)
  | [.sign '<', .parameter cs] => some (.less, String.ofList cs)
  | _ => none

/-- The value of a condition, from what its parameter is bound to. -/
def valueOf (op : Operator) (bound : String) : Option String :=
  match op with
  | .contains | .notContains => soughtIn bound
  | _ => some bound

def readTerm (bindings : List (String × String)) : List Lexeme → Option Condition
  | .keyword .coalesce :: .sign '(' :: .name field :: .sign ',' :: .text [] :: .sign ')' :: rest => do
      let (op, parameter) ← readComparison rest
      let bound ← bindings.lookup parameter
      let value ← valueOf op bound
      some ⟨String.ofList field, op, value⟩
  | _ => none

/-- The conditions of a group: terms in parentheses with `AND` between them. -/
def readGroup (bindings : List (String × String)) : List Lexeme → Option (List Condition)
  | .sign '(' :: rest =>
      if rest.getLast? = some (.sign ')') then
        (rest.dropLast.splitOn (.keyword .and)).mapM (readTerm bindings)
      else none
  | _ => none

/-- The groups of a clause, with `OR` between them. -/
def readGroups (bindings : List (String × String)) (lexemes : List Lexeme) : Option Groups :=
  if lexemes.isEmpty then some []
  else (lexemes.splitOn (.keyword .or)).mapM (readGroup bindings)

/-- The groups that the text of a clause says, with its parameters bound. -/
def readText (text : String) (bindings : List (String × String)) : Option Groups := do
  readGroups bindings (← Lexeme.read text.toList)

/-!
## Patterns
-/

theorem unescapeLike_escapeLike (cs : List Char) : unescapeLike (escapeLike cs) = some cs := by
  induction cs with
  | nil => rfl
  | cons c rest ih =>
      rw [escapeLike]
      by_cases hc : (c == escapeChar || c == '%' || c == '_') = true
      · rw [if_pos hc, unescapeLike, if_pos (beq_self_eq_true escapeChar), ih]
        rfl
      · rw [if_neg hc]
        cases hrest : escapeLike rest with
        | nil =>
            rw [hrest, unescapeLike, Option.some_inj] at ih
            rw [unescapeLike, if_neg hc, ← ih]
        | cons d more =>
            rw [hrest] at ih
            rw [Bool.or_eq_true, Bool.or_eq_true, not_or, not_or] at hc
            rcases hc with ⟨⟨hescape, hwild⟩, hone⟩
            rw [unescapeLike, if_neg hescape, if_neg (by simp [hwild, hone]), ih]
            rfl

theorem soughtIn_pattern (value : String) : soughtIn (pattern value) = some value := by
  have hpattern : (pattern value).toList = '%' :: (escapeLike value.toList ++ ['%']) := by
    simp [pattern]
  rw [soughtIn, hpattern]
  simp [unescapeLike_escapeLike]

theorem valueOf_parameterOf (c : Condition) : valueOf c.operator (parameterOf c) = some c.value := by
  cases hop : c.operator with
  | contains => simp [valueOf, parameterOf, hop, soughtIn_pattern]
  | notContains => simp [valueOf, parameterOf, hop, soughtIn_pattern]
  | _ => simp [valueOf, parameterOf, hop]

/-!
## Lexemes of a clause
-/

/-- The lexemes of a comparison with a parameter. -/
def comparisonLexemes (comparison : Comparison) (name : String) : List Lexeme :=
  match comparison with
  | .equal => [.sign '=', .parameter name.toList]
  | .like => [.keyword .like, .parameter name.toList, .keyword .escape, .text [escapeChar]]
  | .notLike =>
      [.keyword .not, .keyword .like, .parameter name.toList, .keyword .escape, .text [escapeChar]]
  | .greater => [.sign '>', .parameter name.toList]
  | .less => [.sign '<', .parameter name.toList]

def termLexemes (term : Term) : List Lexeme :=
  [.keyword .coalesce, .sign '(', .name term.column.toList, .sign ',', .text [], .sign ')'] ++
    comparisonLexemes term.comparison (parameterName term.parameter)

def groupLexemes (group : List Term) : List Lexeme :=
  .sign '(' :: ([.keyword .and].intercalate (group.map termLexemes) ++ [.sign ')'])

def lexemes (clause : Clause) : List Lexeme :=
  [.keyword .or].intercalate (clause.groups.map groupLexemes)

theorem isWordChar_of_mem_parameterName {n : Nat} {c : Char} (h : c ∈ (parameterName n).toList) :
    Lexeme.isWordChar c = true := by
  rw [parameterName, String.toList_append, List.mem_append] at h
  rcases h with hfirst | hdigit
  · have hc : c = 'p' := by simpa using hfirst
    rw [hc]
    decide
  · simp [Lexeme.isWordChar, Char.isAlphanum, Archive.mem_toString hdigit]

theorem gives_quoteIdentifier (name : String) :
    Lexeme.Gives (quoteIdentifier name).toList [.name name.toList] := by
  have hdoubled : (fun c => if c == '"' then ['"', '"'] else [c]) =
      fun c => if c == Quote.double.char then [c, c] else [c] := by
    funext c
    by_cases hc : c = '"'
    · rw [hc]
      rfl
    · simp [hc, Quote.char]
  have hquoted : (quoteIdentifier name).toList =
      Quote.double.char :: (Lexeme.doubled .double name.toList ++ [Quote.double.char]) := by
    rw [quoteIdentifier, String.toList_ofList, hdoubled]
    rfl
  rw [hquoted]
  exact Lexeme.gives_quoted .double name.toList

/-- What stands in front of the parameter of a comparison. -/
def comparisonFront : Comparison → String × List Lexeme
  | .equal => (" = :", [.sign '='])
  | .like => (" LIKE :", [.keyword .like])
  | .notLike => (" NOT LIKE :", [.keyword .not, .keyword .like])
  | .greater => (" > :", [.sign '>'])
  | .less => (" < :", [.sign '<'])

theorem gives_comparisonText (comparison : Comparison) (n : Nat) :
    Lexeme.Gives (comparisonText comparison (parameterName n)).toList
      (comparisonLexemes comparison (parameterName n)) := by
  have hfront : Lexeme.scan .between (comparisonFront comparison).1.toList =
      ((comparisonFront comparison).2, .inParameter []) := by
    cases comparison <;> decide
  have hname : ∀ c ∈ (parameterName n).toList, Lexeme.isWordChar c = true :=
    fun c hc => isWordChar_of_mem_parameterName hc
  have hparameter := Lexeme.gives_parameter hfront hname
  have hescape : Lexeme.Gives (' ' :: "ESCAPE '\\'".toList) [.keyword .escape, .text [escapeChar]] :=
    ⟨[.keyword .escape], .afterQuote .single [escapeChar], by decide, nofun, rfl⟩
  -- For patterns the parameter is not the last lexeme: the blank behind its name is the break.
  cases comparison with
  | like =>
      have htext : (comparisonText .like (parameterName n)).toList =
          (" LIKE :".toList ++ (parameterName n).toList) ++ ' ' :: "ESCAPE '\\'".toList := by
        simp [comparisonText, escapeChar]
      rw [htext]
      exact hparameter.append ⟨by decide, by decide⟩ hescape
  | notLike =>
      have htext : (comparisonText .notLike (parameterName n)).toList =
          (" NOT LIKE :".toList ++ (parameterName n).toList) ++ ' ' :: "ESCAPE '\\'".toList := by
        simp [comparisonText, escapeChar]
      rw [htext]
      exact hparameter.append ⟨by decide, by decide⟩ hescape
  | _ =>
      rw [comparisonText, String.toList_append]
      exact hparameter

theorem gives_termText (term : Term) : Lexeme.Gives (termText term).toList (termLexemes term) := by
  have hclosed : Lexeme.scan .between ", '')".toList =
      ([.sign ',', .text [], .sign ')'], .between) := by
    decide
  have hopened : Lexeme.scan .between "COALESCE(".toList =
      ([.keyword .coalesce, .sign '('], .between) := by
    decide
  have hback := Lexeme.Gives.of_scan hclosed
    (gives_comparisonText term.comparison term.parameter)
  have hname := (gives_quoteIdentifier term.column).append ⟨by decide, by decide⟩ hback
  have htext : (termText term).toList = "COALESCE(".toList ++
      ((quoteIdentifier term.column).toList ++ (", '')".toList ++
        (comparisonText term.comparison (parameterName term.parameter)).toList)) := by
    rw [termText, String.toList_append, String.toList_append, String.toList_append,
      List.append_assoc, List.append_assoc]
  have hterm := Lexeme.Gives.of_scan hopened hname
  rw [htext]
  exact hterm

theorem forall₂_gives {α : Type} {text : α → String} {lexemes : α → List Lexeme} {items : List α}
    (h : ∀ a ∈ items, Lexeme.Gives (text a).toList (lexemes a)) :
    List.Forall₂ (fun (text : String) found => Lexeme.Gives text.toList found)
      (items.map text) (items.map lexemes) := by
  rwa [List.forall₂_map_left_iff, List.forall₂_map_right_iff, List.forall₂_same]

theorem gives_groupText {group : List Term} (hne : group ≠ []) :
    Lexeme.Gives (groupText group).toList (groupLexemes group) := by
  have hand : Lexeme.scan .between " AND ".toList = ([.keyword .and], .between) := by decide
  have hopened : Lexeme.scan .between ['('] = ([.sign '('], .between) := by decide
  have hclosed : Lexeme.Gives [')'] [.sign ')'] := ⟨[.sign ')'], .between, by decide, nofun, rfl⟩
  have hterms : List.Forall₂ (fun (text : String) found => Lexeme.Gives text.toList found)
      (group.map termText) (group.map termLexemes) :=
    forall₂_gives fun term _ => gives_termText term
  have hjoined := Lexeme.gives_intercalate rfl hand hterms (by simpa using hne)
  have hinner := hjoined.append ⟨by decide, by decide⟩ hclosed
  have htext : (groupText group).toList =
      ['('] ++ ((String.intercalate " AND " (group.map termText)).toList ++ [')']) := by
    rw [groupText, String.toList_append, String.toList_append, List.append_assoc]
    rfl
  rw [htext]
  exact Lexeme.Gives.of_scan hopened hinner

/-- The text of a clause is cut into the lexemes of the clause. -/
theorem read_text {clause : Clause} (h : ∀ group ∈ clause.groups, group ≠ []) :
    Lexeme.read clause.text.toList = some clause.lexemes := by
  apply Lexeme.read_of_gives
  by_cases hnone : clause.groups = []
  · rw [text, lexemes, hnone]
    exact ⟨[], .between, rfl, nofun, rfl⟩
  · have hor : Lexeme.scan .between " OR ".toList = ([.keyword .or], .between) := by decide
    exact Lexeme.gives_intercalate rfl hor (forall₂_gives fun group hgroup =>
      gives_groupText (h group hgroup)) (by simpa using hnone)

/-!
## From lexemes to groups
-/

theorem mapM_eq_some {α β : Type} {f : α → Option β} {items : List α} {results : List β}
    (h : List.Forall₂ (fun a b => f a = some b) items results) : items.mapM f = some results := by
  induction h with
  | nil => rfl
  | cons hfirst _ ih =>
      rw [List.mapM_cons, hfirst, ih]
      rfl

theorem readTerm_termLexemes {clause : Clause} {term : Term} {c : Condition}
    (h : Says clause.parameters term c) : readTerm clause.bindings (termLexemes term) = some c := by
  rcases h with ⟨hcolumn, hcomparison, hparameter⟩
  have hread : readComparison (comparisonLexemes term.comparison (parameterName term.parameter)) =
      some (c.operator, parameterName term.parameter) := by
    rw [hcomparison]
    cases c.operator <;> simp [comparisonOf, comparisonLexemes, readComparison, escapeChar]
  have hbound : clause.bindings.lookup (parameterName term.parameter) = some (parameterOf c) := by
    rw [lookup_bindings, hparameter]
  simp only [termLexemes, List.cons_append, List.nil_append, readTerm]
  rw [hread]
  simp only [Option.bind_eq_bind, Option.bind_some, hbound, valueOf_parameterOf, hcolumn,
    String.ofList_toList]

theorem keyword_not_mem_termLexemes {keyword : Keyword} (h : keyword = .and ∨ keyword = .or)
    (term : Term) : Lexeme.keyword keyword ∉ termLexemes term := by
  rcases h with rfl | rfl
  · cases hcomparison : term.comparison <;>
      simp [termLexemes, comparisonLexemes, hcomparison]
  · cases hcomparison : term.comparison <;>
      simp [termLexemes, comparisonLexemes, hcomparison]

theorem not_mem_intercalate {α : Type} {x y : α} (hne : x ≠ y) {parts : List (List α)}
    (h : ∀ part ∈ parts, x ∉ part) : x ∉ [y].intercalate parts := by
  induction parts with
  | nil => exact List.not_mem_nil
  | cons part rest ih =>
      rw [List.forall_mem_cons] at h
      cases rest with
      | nil => simpa using h.1
      | cons next more =>
          have hrest := ih h.2
          rw [List.intercalate_cons_cons]
          simp [h.1, hne, hrest]

theorem or_not_mem_groupLexemes (group : List Term) : .keyword .or ∉ groupLexemes group := by
  have hterms : .keyword .or ∉ [.keyword .and].intercalate (group.map termLexemes) := by
    apply not_mem_intercalate (by decide)
    intro part hpart
    rcases List.mem_map.mp hpart with ⟨term, _, rfl⟩
    exact keyword_not_mem_termLexemes (.inr rfl) term
  simp [groupLexemes, hterms]

theorem readGroup_groupLexemes {clause : Clause} {group : List Term} {conditions : List Condition}
    (hne : group ≠ []) (h : List.Forall₂ (Says clause.parameters) group conditions) :
    readGroup clause.bindings (groupLexemes group) = some conditions := by
  have hsplit : ([Lexeme.keyword .and].intercalate (group.map termLexemes)).splitOn (.keyword .and) =
      group.map termLexemes := by
    apply List.splitOn_intercalate
    · intro part hpart
      rcases List.mem_map.mp hpart with ⟨term, _, rfl⟩
      exact keyword_not_mem_termLexemes (.inl rfl) term
    · simpa using hne
  have hterms : (group.map termLexemes).mapM (readTerm clause.bindings) = some conditions := by
    apply mapM_eq_some
    rw [List.forall₂_map_left_iff]
    exact h.imp fun _ _ hmeans => readTerm_termLexemes hmeans
  rw [groupLexemes, readGroup, List.getLast?_concat, if_pos rfl, List.dropLast_concat, hsplit,
    hterms]

theorem readGroups_lexemes {clause : Clause} {groups : Groups}
    (hne : ∀ group ∈ clause.groups, group ≠ [])
    (h : List.Forall₂ (List.Forall₂ (Says clause.parameters)) clause.groups groups) :
    readGroups clause.bindings clause.lexemes = some groups := by
  by_cases hnone : clause.groups = []
  · rw [hnone, List.forall₂_nil_left_iff] at h
    rw [lexemes, hnone, h]
    rfl
  · have hsplit : clause.lexemes.splitOn (.keyword .or) = clause.groups.map groupLexemes := by
      apply List.splitOn_intercalate
      · intro part hpart
        rcases List.mem_map.mp hpart with ⟨group, _, rfl⟩
        exact or_not_mem_groupLexemes group
      · simpa using hnone
    have hsome : clause.lexemes ≠ [] := by
      intro hempty
      rw [hempty] at hsplit
      rcases List.exists_cons_of_ne_nil hnone with ⟨group, rest, hgroups⟩
      rw [hgroups] at hsplit
      simp [groupLexemes] at hsplit
    have hgroups : (clause.groups.map groupLexemes).mapM (readGroup clause.bindings) =
        some groups := by
      apply mapM_eq_some
      rw [List.forall₂_map_left_iff]
      apply List.forall₂_iff_zip.mpr
      rw [List.forall₂_iff_zip] at h
      constructor
      · exact h.1
      · intro group conditions hmem
        exact readGroup_groupLexemes (hne group (List.of_mem_zip hmem).1) (h.2 hmem)
    rw [readGroups, if_neg (by simpa using hsome), hsplit, hgroups]

/-!
## Parameters
-/

theorem filterMap_intercalate {α β : Type} {f : α → Option β} {x : α} (hx : f x = none)
    (parts : List (List α)) :
    ([x].intercalate parts).filterMap f = (parts.map (List.filterMap f)).flatten := by
  induction parts with
  | nil => rfl
  | cons part rest ih =>
      cases rest with
      | nil => simp
      | cons next more =>
          rw [List.intercalate_cons_cons, List.filterMap_append, List.filterMap_append, ih]
          simp [hx]

theorem parameters_termLexemes (term : Term) :
    (termLexemes term).filterMap Lexeme.parameter? = [parameterName term.parameter] := by
  cases hcomparison : term.comparison <;>
    simp [termLexemes, comparisonLexemes, hcomparison, List.filterMap_cons, Lexeme.parameter?]

theorem parameters_groupLexemes (group : List Term) :
    (groupLexemes group).filterMap Lexeme.parameter? =
      group.map fun term => parameterName term.parameter := by
  have hterms : List.filterMap Lexeme.parameter? ∘ termLexemes =
      fun term => [parameterName term.parameter] := by
    funext term
    exact parameters_termLexemes term
  rw [groupLexemes, List.filterMap_cons_none rfl, List.filterMap_append,
    filterMap_intercalate rfl, List.map_map, hterms, ← List.flatMap_def, ← List.map_eq_flatMap]
  exact List.append_nil _

theorem parameters_lexemes (clause : Clause) :
    clause.lexemes.filterMap Lexeme.parameter? =
      (clause.groups.flatten.map Term.parameter).map parameterName := by
  have hgroups : List.filterMap Lexeme.parameter? ∘ groupLexemes =
      List.map fun term => parameterName term.parameter := by
    funext group
    exact parameters_groupLexemes group
  rw [lexemes, filterMap_intercalate rfl, List.map_map, hgroups, List.map_map, List.map_flatten]
  rfl

theorem parameters_termsFrom (next : Nat) (group : List Condition) :
    (termsFrom next group).map Term.parameter = List.range' next group.length := by
  induction group generalizing next with
  | nil => rfl
  | cons c rest ih => rw [termsFrom, List.map_cons, ih, List.length_cons, List.range'_succ]

theorem parameters_groupsFrom (next : Nat) (groups : Groups) :
    (groupsFrom next groups).flatten.map Term.parameter =
      List.range' next groups.flatten.length := by
  induction groups generalizing next with
  | nil => rfl
  | cons group rest ih =>
      rw [groupsFrom, List.flatten_cons, List.map_append, parameters_termsFrom, ih,
        List.range'_append_1, List.flatten_cons, List.length_append]

theorem keys_bindings (clause : Clause) :
    Entries.keys clause.bindings = (List.range clause.parameters.length).map parameterName := by
  rw [Entries.keys, bindings, List.map_map, List.range_eq_range', ← List.zipIdx_map_snd 0,
    List.map_map]
  rfl

/-!
## Values
-/

/-- Filters that differ in the values of their conditions alone. -/
def DifferInValues (groups others : Groups) : Prop :=
  List.Forall₂ (List.Forall₂ fun c d => c.field = d.field ∧ c.operator = d.operator) groups others

theorem termsFrom_congr {group other : List Condition}
    (h : List.Forall₂ (fun c d => c.field = d.field ∧ c.operator = d.operator) group other)
    (next : Nat) : termsFrom next group = termsFrom next other := by
  induction h generalizing next with
  | nil => rfl
  | cons hfirst _ ih => rw [termsFrom, termsFrom, hfirst.1, hfirst.2, ih]

theorem groupsFrom_congr {groups others : Groups} (h : DifferInValues groups others) (next : Nat) :
    groupsFrom next groups = groupsFrom next others := by
  induction h generalizing next with
  | nil => rfl
  | cons hfirst _ ih => rw [groupsFrom, groupsFrom, termsFrom_congr hfirst, hfirst.length_eq, ih]

/-!
## The whole clause
-/

/-- Reading the text of a clause gives back the groups that it was made of, whatever stands in
their fields and values.  Its parameters are bound and occur in it once each and in order, and
other values of the same conditions leave the text as it is. -/
theorem readText_ofGroups (groups : Groups) (hne : ∀ group ∈ groups, group ≠ []) :
    readText (ofGroups groups).text (ofGroups groups).bindings = some groups ∧
      (∃ lexemes, Lexeme.read (ofGroups groups).text.toList = some lexemes ∧
        lexemes.filterMap Lexeme.parameter? =
          (List.range groups.flatten.length).map parameterName) ∧
      Entries.keys (ofGroups groups).bindings =
        (List.range groups.flatten.length).map parameterName ∧
      ∀ others, DifferInValues groups others → (ofGroups others).text = (ofGroups groups).text := by
  have hmeans := says_ofGroups groups
  have hterms : ∀ terms ∈ (ofGroups groups).groups, terms ≠ [] := by
    rintro terms hmem rfl
    rcases exists_of_mem_left hmeans hmem with ⟨group, hgroup, hall⟩
    rw [List.forall₂_nil_left_iff] at hall
    exact hne group hgroup hall
  have hread := read_text hterms
  constructor
  · rw [readText, hread]
    exact readGroups_lexemes hterms hmeans
  constructor
  · refine ⟨_, hread, ?_⟩
    rw [parameters_lexemes, ofGroups, parameters_groupsFrom, List.range_eq_range']
  constructor
  · rw [keys_bindings, ofGroups, List.length_map]
  · intro others hothers
    rw [text, text, ofGroups, ofGroups, groupsFrom_congr hothers]

/-- Fields that look like the rest of a clause, and values full of wild cards and quotes. -/
def hostileGroups : Groups :=
  [[⟨"a\"), '') OR (\"b", .contains, "50%_\\"⟩, ⟨"x\\' AND y", .equals, "' OR '1"⟩],
    [⟨"", .less, ""⟩]]

theorem readText_ofGroups_of_hostileGroups :
    (∀ group ∈ hostileGroups, group ≠ []) ∧
      readText (ofGroups hostileGroups).text (ofGroups hostileGroups).bindings =
        some hostileGroups :=
  ⟨by decide, (readText_ofGroups hostileGroups (by decide)).1⟩

end Clause
end Roster
