import Mathlib.Data.List.TakeWhile
import Roster.Text.Blank
import Roster.Text.Segments

/-!
# Cutting and trimming

Blanks are taken off one end of a text or off both without regard to the order.  When the parts of
a text are trimmed anyway, nothing is changed by trimming the text before it is cut.
-/

namespace Roster
namespace Text

variable {c : Char} {cs rest : List Char}

theorem trimLeft_cons_of_blank (h : isBlank c = true) : trimLeft (c :: rest) = trimLeft rest :=
  List.dropWhile_cons_of_pos h

theorem trimLeft_cons_of_not_blank (h : isBlank c = false) : trimLeft (c :: rest) = c :: rest := by
  apply List.dropWhile_cons_of_neg
  rw [h]
  exact Bool.false_ne_true

theorem trimLeft_eq_iff : trimLeft cs = rest ↔
    ∃ blanks, cs = blanks ++ rest ∧ (∀ c ∈ blanks, isBlank c = true) ∧
      ∀ c ∈ rest.head?, isBlank c = false := by
  constructor
  · rintro rfl
    refine ⟨cs.takeWhile isBlank, List.takeWhile_append_dropWhile.symm, ?_, ?_⟩
    · exact fun c hc => List.mem_takeWhile_imp hc
    · intro c hc
      have hhead := List.head?_dropWhile_not isBlank cs
      rw [trimLeft, Option.mem_def] at hc
      rw [hc] at hhead
      simpa using hhead
  · rintro ⟨blanks, rfl, hblanks, hrest⟩
    rw [trimLeft, List.dropWhile_append_of_pos hblanks]
    cases rest with
    | nil => rfl
    | cons c others => exact List.dropWhile_cons_of_neg (Bool.eq_false_iff.mp (hrest c rfl))

/-- A character in front is taken off from behind only when it is blank and nothing is left. -/
theorem trimRight_cons (c : Char) (rest : List Char) :
    trimRight (c :: rest) =
      if trimRight rest = [] ∧ isBlank c = true then [] else c :: trimRight rest := by
  rw [trimRight, trimRight, List.reverse_cons, List.dropWhile_append]
  cases hback : rest.reverse.dropWhile isBlank with
  | nil => cases hc : isBlank c <;> simp [hc]
  | cons last more => simp

theorem trim_eq (cs : List Char) : trim cs = trimLeft (trimRight cs) := by
  rw [trim]
  induction cs with
  | nil => rfl
  | cons c rest ih =>
      rw [trimRight_cons]
      cases hc : isBlank c with
      | false =>
          have hkept : ¬(trimRight rest = [] ∧ false = true) := fun h => Bool.false_ne_true h.2
          rw [trimLeft_cons_of_not_blank hc, trimRight_cons, hc, if_neg hkept,
            trimLeft_cons_of_not_blank hc]
      | true =>
          rw [trimLeft_cons_of_blank hc, ih]
          by_cases hnone : trimRight rest = []
          · rw [if_pos ⟨hnone, rfl⟩, hnone]
          · rw [if_neg (fun h => hnone h.1), trimLeft_cons_of_blank hc]

theorem trim_append_of_blank {front : List Char} (h : ∀ c ∈ front, isBlank c = true)
    (cs : List Char) : trim (front ++ cs) = trim cs := by
  rw [trim, trim, trimLeft, trimLeft, List.dropWhile_append_of_pos h]

theorem trim_append_blanks (cs : List Char) {back : List Char}
    (h : ∀ c ∈ back, isBlank c = true) : trim (cs ++ back) = trim cs := by
  have hback : ∀ c ∈ back.reverse, isBlank c = true := by
    intro c hc
    exact h c (List.mem_reverse.mp hc)
  rw [trim_eq, trim_eq, trimRight, trimRight, List.reverse_append,
    List.dropWhile_append_of_pos hback]

theorem trim_eq_self_of_ends (hfirst : ∀ c ∈ cs.head?, isBlank c = false)
    (hlast : ∀ c ∈ cs.getLast?, isBlank c = false) : trim cs = cs := by
  have hkept : ∀ l : List Char, (∀ c ∈ l.head?, isBlank c = false) → l.dropWhile isBlank = l := by
    intro l hl
    cases l with
    | nil => rfl
    | cons c rest => exact trimLeft_cons_of_not_blank (hl c rfl)
  have hback : ∀ c ∈ cs.reverse.head?, isBlank c = false := by
    rw [List.head?_reverse]
    exact hlast
  rw [trim, trimRight, trimLeft, hkept cs hfirst, hkept cs.reverse hback, List.reverse_reverse]

theorem mem_of_mem_trim (h : c ∈ trim cs) : c ∈ cs := by
  have hback : c ∈ (trimLeft cs).reverse := by
    apply (List.dropWhile_sublist isBlank).subset
    exact List.mem_reverse.mp h
  apply (List.dropWhile_sublist isBlank).subset
  exact List.mem_reverse.mp hback

theorem isBlank_eq_false_of_mem_getLast? (h : c ∈ (trim cs).getLast?) : isBlank c = false := by
  have hfirst := List.head?_dropWhile_not isBlank (trimLeft cs).reverse
  rw [trim, trimRight, List.getLast?_reverse, Option.mem_def] at h
  rw [h] at hfirst
  exact hfirst

theorem trim_trim (cs : List Char) : trim (trim cs) = trim cs := by
  apply trim_eq_self_of_ends
  · rcases trimLeft_eq_iff.mp (trim_eq cs).symm with ⟨blanks, -, -, hfirst⟩
    exact hfirst
  · exact fun c hc => isBlank_eq_false_of_mem_getLast? hc

theorem strip_strip (s : String) : strip (strip s) = strip s := by
  rw [strip, strip, String.toList_ofList, trim_trim]

/-!
## Parts of a joined text
-/

variable {at_ : Char}

theorem join_cons_cons (separator part next : List Char) (more : List (List Char)) :
    join separator (part :: next :: more) =
      part ++ separator ++ join separator (next :: more) := rfl

theorem mem_join {separator : List Char} {parts : List (List Char)}
    (h : c ∈ join separator parts) : c ∈ separator ∨ ∃ part ∈ parts, c ∈ part := by
  induction parts with
  | nil => cases h
  | cons part rest ih =>
      cases rest with
      | nil => exact Or.inr ⟨part, List.mem_cons_self, h⟩
      | cons next more =>
          rw [join_cons_cons, List.mem_append, List.mem_append] at h
          rcases h with (hpart | hseparator) | hrest
          · exact Or.inr ⟨part, List.mem_cons_self, hpart⟩
          · exact Or.inl hseparator
          · apply (ih hrest).imp_right
            rintro ⟨other, hother, hc⟩
            exact ⟨other, List.mem_cons_of_mem _ hother, hc⟩

theorem mem_join_of_mem {separator part : List Char} {parts : List (List Char)}
    (hpart : part ∈ parts) (hc : c ∈ part) : c ∈ join separator parts := by
  induction parts with
  | nil => cases hpart
  | cons first rest ih =>
      cases rest with
      | nil =>
          rw [List.mem_singleton] at hpart
          rwa [join, ← hpart]
      | cons next more =>
          rw [join_cons_cons, List.mem_append, List.mem_append]
          rcases List.mem_cons.mp hpart with rfl | hrest
          · exact Or.inl (Or.inl hc)
          · exact Or.inr (ih hrest)

theorem mem_of_mem_cut {part : List Char} (hpart : part ∈ cut at_ cs) (hc : c ∈ part) : c ∈ cs := by
  rw [← join_cut at_ cs]
  exact mem_join_of_mem hpart hc

theorem cut_join {parts : List (List Char)} (hne : parts ≠ []) (h : ∀ part ∈ parts, at_ ∉ part) :
    cut at_ (join [at_] parts) = parts := by
  induction parts with
  | nil => exact absurd rfl hne
  | cons part rest ih =>
      have hpart := h part List.mem_cons_self
      cases rest with
      | nil => rw [join, cut_of_not_mem hpart]
      | cons next more =>
          have hrest := ih (List.cons_ne_nil _ _) fun p hp => h p (List.mem_cons_of_mem _ hp)
          rw [join_cons_cons, List.append_assoc, List.singleton_append, cut_append_cons,
            cut_of_not_mem hpart, hrest]
          rfl

/-!
## Parts of a trimmed text
-/

theorem cut_cons_of_ne (h : c ≠ at_) (rest : List Char) :
    ∃ part parts, cut at_ rest = part :: parts ∧ cut at_ (c :: rest) = (c :: part) :: parts := by
  cases hcut : cut at_ rest with
  | nil => exact absurd hcut (cut_ne_nil at_ rest)
  | cons part parts =>
      refine ⟨part, parts, rfl, ?_⟩
      simp [cut, h, hcut]

theorem map_trim_cut_trimLeft (hat : isBlank at_ = false) (cs : List Char) :
    (cut at_ (trimLeft cs)).map trim = (cut at_ cs).map trim := by
  induction cs with
  | nil => rfl
  | cons c rest ih =>
      cases hc : isBlank c with
      | false => rw [trimLeft_cons_of_not_blank hc]
      | true =>
          have hne : c ≠ at_ := by
            intro heq
            rw [heq, hat] at hc
            cases hc
          rcases cut_cons_of_ne hne rest with ⟨part, parts, hrest, hcons⟩
          rw [trimLeft_cons_of_blank hc, ih, hrest, hcons, List.map_cons, List.map_cons, trim, trim,
            trimLeft_cons_of_blank hc]

theorem map_trimRight_cut_trimRight (hat : isBlank at_ = false) (cs : List Char) :
    (cut at_ (trimRight cs)).map trimRight = (cut at_ cs).map trimRight := by
  induction cs with
  | nil => rfl
  | cons c rest ih =>
      by_cases hc : c = at_
      · have hkept : trimRight (c :: rest) = c :: trimRight rest := by
          rw [trimRight_cons, if_neg]
          intro h
          rw [hc, hat] at h
          cases h.2
        rw [hkept, hc, ← List.nil_append (at_ :: trimRight rest), ← List.nil_append (at_ :: rest),
          cut_append_cons, cut_append_cons, List.map_append, List.map_append, ih]
      · rcases cut_cons_of_ne hc rest with ⟨part, parts, hrest, hcons⟩
        rcases cut_cons_of_ne hc (trimRight rest) with ⟨trimmed, others, htrimmed, hkept⟩
        rw [hrest, htrimmed, List.map_cons, List.map_cons, List.cons.injEq] at ih
        -- The first part begins with the character, unless all of it is blank.
        have hfirst : trimRight (c :: trimmed) = trimRight (c :: part) := by
          rw [trimRight_cons, trimRight_cons, ih.1]
        rw [hcons, List.map_cons, ← hfirst, ← ih.2, trimRight_cons]
        split
        · rename_i hblank
          rw [hblank.1] at htrimmed
          cases htrimmed
          rw [trimRight_cons, if_pos ⟨rfl, hblank.2⟩]
          rfl
        · rw [hkept, List.map_cons]

/-- The trimmed parts of a text are those of the trimmed text. -/
theorem map_trim_cut_trim (hat : isBlank at_ = false) (cs : List Char) :
    (cut at_ (trim cs)).map trim = (cut at_ cs).map trim := by
  have hright : ∀ cs : List Char, (cut at_ (trimRight cs)).map trim = (cut at_ cs).map trim := by
    intro cs
    have hsame := congrArg (List.map trimLeft) (map_trimRight_cut_trimRight hat cs)
    rw [List.map_map, List.map_map] at hsame
    have htrim : trimLeft ∘ trimRight = trim := funext fun part => (trim_eq part).symm
    rwa [htrim] at hsame
  rw [trim, hright, map_trim_cut_trimLeft hat]

end Text
end Roster
