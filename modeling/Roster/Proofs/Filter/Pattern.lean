import Mathlib.Data.List.Infix
import Roster.Filter.Clause
import Roster.Filter.Matching

/-!
# Patterns and occurrence

The pattern made from a value matches exactly the texts in which the value occurs when the case of
ASCII letters is left out of account.  The wild cards and escape characters of the value itself
stand behind escape characters, so they match nothing but themselves.
-/

namespace Roster

/-!
## Occurrence
-/

namespace Text

theorem occursIn_eq_true_iff {inner text : List Char} :
    occursIn inner text = true ↔ inner <:+: text := by
  induction text with
  | nil => simp [occursIn]
  | cons c rest ih =>
      rw [occursIn, Bool.or_eq_true, ih, List.isPrefixOf_iff_prefix, List.infix_cons_iff]

theorem occursIn_map_iff {f : Char → Char} {inner text : List Char} :
    occursIn (inner.map f) (text.map f) = true ↔
      ∃ before middle after, text = before ++ middle ++ after ∧ middle.map f = inner.map f := by
  rw [occursIn_eq_true_iff]
  constructor
  · rintro ⟨front, back, hsplit⟩
    rcases List.map_eq_append_iff.mp hsplit.symm with ⟨start, after, htext, hstart, -⟩
    rcases List.map_eq_append_iff.mp hstart with ⟨before, middle, hbefore, -, hmiddle⟩
    exact ⟨before, middle, after, by rw [htext, hbefore], hmiddle⟩
  · rintro ⟨before, middle, after, rfl, hmiddle⟩
    exact ⟨before.map f, after.map f, by simp [hmiddle]⟩

end Text

/-!
## Matching
-/

namespace Like

theorem accepts_wild_iff {rest text : List Char} :
    accepts ('%' :: rest) text = true ↔
      ∃ before after, text = before ++ after ∧ accepts rest after = true := by
  induction text with
  | nil => simp [accepts]
  | cons c text ih =>
      have hstep : accepts ('%' :: rest) (c :: text) =
          (accepts rest (c :: text) || accepts ('%' :: rest) text) := by
        conv_lhs => unfold accepts
        simp
      rw [hstep, Bool.or_eq_true, ih]
      constructor
      · rintro (hhere | ⟨before, after, rfl, hafter⟩)
        · exact ⟨[], c :: text, rfl, hhere⟩
        · exact ⟨c :: before, after, rfl, hafter⟩
      · rintro ⟨before, after, hsplit, hafter⟩
        cases before with
        | nil =>
            left
            rw [List.nil_append] at hsplit
            rw [hsplit]
            exact hafter
        | cons b before =>
            right
            rcases List.cons_eq_cons.mp hsplit with ⟨-, htext⟩
            exact ⟨before, after, htext, hafter⟩

theorem accepts_escaped_nil {c : Char} {rest : List Char} :
    accepts (Clause.escapeChar :: c :: rest) [] = false := by
  simp [accepts, Clause.escapeChar]

theorem accepts_escaped_cons {c d : Char} {rest text : List Char} :
    accepts (Clause.escapeChar :: c :: rest) (d :: text) =
      (alike c d && accepts rest text) := by
  conv_lhs => unfold accepts
  simp [Clause.escapeChar]

theorem accepts_plain_nil {c : Char} {rest : List Char} (hc : c ≠ '%') :
    accepts (c :: rest) [] = false := by
  simp [accepts, hc]

theorem accepts_plain_cons {c d : Char} {rest text : List Char}
    (hwild : c ≠ '%') (hone : c ≠ '_') (hescape : c ≠ Clause.escapeChar) :
    accepts (c :: rest) (d :: text) = (alike c d && accepts rest text) := by
  conv_lhs => unfold accepts
  simp [hwild, hone, hescape]

theorem accepts_escapeLike_cons (c : Char) (value rest : List Char) :
    (∀ d text, accepts (Clause.escapeLike (c :: value) ++ rest) (d :: text) =
        (alike c d && accepts (Clause.escapeLike value ++ rest) text)) ∧
      accepts (Clause.escapeLike (c :: value) ++ rest) [] = false := by
  by_cases hspecial : (c == Clause.escapeChar || c == '%' || c == '_') = true
  · have hwritten : Clause.escapeLike (c :: value) ++ rest =
        Clause.escapeChar :: c :: (Clause.escapeLike value ++ rest) := by
      rw [Clause.escapeLike, if_pos hspecial]
      rfl
    rw [hwritten]
    exact ⟨fun _ _ => accepts_escaped_cons, accepts_escaped_nil⟩
  · have hwritten : Clause.escapeLike (c :: value) ++ rest =
        c :: (Clause.escapeLike value ++ rest) := by
      rw [Clause.escapeLike, if_neg hspecial]
      rfl
    simp only [Bool.or_eq_true, beq_iff_eq, not_or] at hspecial
    rcases hspecial with ⟨⟨hescape, hwild⟩, hone⟩
    rw [hwritten]
    exact ⟨fun _ _ => accepts_plain_cons hwild hone hescape, accepts_plain_nil hwild⟩

/-- An escaped value matches the texts that are like it, character by character. -/
theorem accepts_escapeLike_append_iff {value rest text : List Char} :
    accepts (Clause.escapeLike value ++ rest) text = true ↔
      ∃ middle after, text = middle ++ after ∧
        middle.map Char.toLower = value.map Char.toLower ∧ accepts rest after = true := by
  -- Each character of the value takes one character of the text, so the induction is on the value.
  induction value generalizing text with
  | nil =>
      constructor
      · intro h
        exact ⟨[], text, rfl, rfl, h⟩
      · rintro ⟨middle, after, rfl, hmiddle, hafter⟩
        have hnil : middle = [] := List.map_eq_nil_iff.mp hmiddle
        rw [hnil]
        exact hafter
  | cons c value ih =>
      rcases accepts_escapeLike_cons c value rest with ⟨hcons, hnil⟩
      cases text with
      | nil =>
          rw [hnil]
          constructor
          · intro h
            cases h
          · rintro ⟨middle, after, hsplit, hmiddle, -⟩
            have hempty : middle = [] := (List.nil_eq_append_iff.mp hsplit).1
            rw [hempty] at hmiddle
            cases hmiddle
      | cons d text =>
          rw [hcons, Bool.and_eq_true, ih, alike, beq_iff_eq]
          constructor
          · rintro ⟨hlike, middle, after, rfl, hmiddle, hafter⟩
            exact ⟨d :: middle, after, rfl, by simp [hlike, hmiddle], hafter⟩
          · rintro ⟨middle, after, hsplit, hmiddle, hafter⟩
            cases middle with
            | nil => cases hmiddle
            | cons e middle =>
                rcases List.cons_eq_cons.mp hsplit with ⟨rfl, rfl⟩
                rcases List.cons_eq_cons.mp hmiddle with ⟨hlike, hrest⟩
                exact ⟨hlike.symm, middle, after, rfl, hrest, hafter⟩

/-- The pattern of a value matches where the value occurs, whatever the case of ASCII letters. -/
theorem accepts_pattern (value text : String) :
    accepts (Clause.pattern value).toList text.toList =
      Text.occursIn (Text.foldAscii value).toList (Text.foldAscii text).toList := by
  rw [Bool.eq_iff_iff]
  have hpattern : (Clause.pattern value).toList =
      '%' :: (Clause.escapeLike value.toList ++ ['%']) := by
    simp [Clause.pattern]
  have htail : ∀ after : List Char, accepts ['%'] after = true := fun after =>
    accepts_wild_iff.mpr ⟨after, [], by simp, by simp [accepts]⟩
  rw [hpattern, accepts_wild_iff, Text.foldAscii, Text.foldAscii, String.toList_ofList,
    String.toList_ofList, Text.occursIn_map_iff]
  constructor
  · rintro ⟨before, back, htext, hback⟩
    rcases accepts_escapeLike_append_iff.mp hback with ⟨middle, after, rfl, hmiddle, -⟩
    exact ⟨before, middle, after, by rw [htext, List.append_assoc], hmiddle⟩
  · rintro ⟨before, middle, after, htext, hmiddle⟩
    refine ⟨before, middle ++ after, by rw [htext, List.append_assoc], ?_⟩
    exact accepts_escapeLike_append_iff.mpr ⟨middle, after, rfl, hmiddle, htail after⟩

end Like
end Roster
