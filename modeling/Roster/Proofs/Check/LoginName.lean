import Mathlib.Data.List.TakeWhile
import Roster.Check.Grammar
import Roster.Text.Blank

/-!
# Login names

A login name is not empty and holds no blanks, so it is more than blanks.
-/

namespace Roster

namespace Text

theorem trim_ne_nil {cs : List Char} {c : Char} (hmem : c ∈ cs) (h : isBlank c = false) :
    trim cs ≠ [] := by
  intro htrim
  rw [trim, trimRight, List.reverse_eq_nil_iff, List.dropWhile_eq_nil_iff] at htrim
  rw [← List.takeWhile_append_dropWhile (p := isBlank) (l := cs), List.mem_append] at hmem
  have hblank : isBlank c = true := by
    rcases hmem with hfront | hback
    · exact List.mem_takeWhile_imp hfront
    · exact htrim c (List.mem_reverse.mpr hback)
  rw [h] at hblank
  cases hblank

theorem trim_eq_self {cs : List Char} (h : ∀ c ∈ cs, isBlank c = false) : trim cs = cs := by
  have hkeep : ∀ {l : List Char}, (∀ c ∈ l, isBlank c = false) → l.dropWhile isBlank = l := by
    intro l hl
    refine List.dropWhile_eq_self_iff.mpr fun hpos => ?_
    rw [hl _ (List.getElem_mem hpos)]
    exact Bool.false_ne_true
  rw [trim, trimRight, trimLeft, hkeep h, hkeep fun c hc => h c (List.mem_reverse.mp hc),
    List.reverse_reverse]

theorem inRanges_eq_false_of_apart {ranges : List (Nat × Nat)} {c : Char} {low high : Nat}
    (hc : low ≤ c.toNat ∧ c.toNat ≤ high)
    (hapart : ∀ range ∈ ranges, range.2 < low ∨ high < range.1) : inRanges ranges c = false := by
  rw [inRanges, List.any_eq_false]
  intro range hrange
  rw [Bool.and_eq_true, decide_eq_true_eq, decide_eq_true_eq]
  have hrange := hapart range hrange
  omega

end Text

namespace Grammar

theorem toNat_of_isAlnum {c : Char} (h : isAlnum c = true) :
    48 ≤ c.toNat ∧ c.toNat ≤ 57 ∨ 65 ≤ c.toNat ∧ c.toNat ≤ 90 ∨ 97 ≤ c.toNat ∧ c.toNat ≤ 122 := by
  have hranges : isAlnum c = (decide (c.val ≥ 65 ∧ c.val ≤ 90) ||
      (c.val ≥ 97 && c.val ≤ 122) || (c.val ≥ 48 && c.val ≤ 57)) := rfl
  simp only [hranges, Bool.or_eq_true, Bool.and_eq_true, decide_eq_true_eq,
    UInt32.le_iff_toNat_le, ge_iff_le] at h
  simp only [Char.toNat]
  rcases h with (h | h) | h
  · exact Or.inr (Or.inl h)
  · exact Or.inr (Or.inr h)
  · exact Or.inl h

theorem isBlank_eq_false_of_isUserIdChar {c : Char} (h : isUserIdChar c = true) :
    Text.isBlank c = false := by
  have hcode : 45 ≤ c.toNat ∧ c.toNat ≤ 122 := by
    simp only [isUserIdChar, Bool.or_eq_true, beq_iff_eq] at h
    rcases h with (((halnum | rfl) | rfl) | rfl) | rfl
    · have hranges := toNat_of_isAlnum halnum
      omega
    · decide
    · decide
    · decide
    · decide
  have hapart : ∀ range ∈ Text.blankRanges, range.2 < 45 ∨ 122 < range.1 := by decide
  exact Text.inRanges_eq_false_of_apart hcode hapart

end Grammar

theorem isUserId_ne_empty {id : String} (h : isUserId id = true) : id ≠ "" := by
  rintro rfl
  exact absurd h (by decide)

theorem trim_ne_nil_of_isUserId {id : String} (h : isUserId id = true) :
    Text.trim id.toList ≠ [] := by
  rcases List.exists_mem_of_ne_nil id.toList
    (fun hnil => isUserId_ne_empty h (String.toList_eq_nil_iff.mp hnil)) with ⟨c, hc⟩
  simp only [isUserId, Grammar.isUserId, Bool.and_eq_true, List.all_eq_true] at h
  exact Text.trim_ne_nil hc (Grammar.isBlank_eq_false_of_isUserIdChar (h.1.1 c hc))

end Roster
