import Mathlib.Data.List.Basic
import Roster.Storage.Path

/-!
# Paths and their texts

A path that was read from a text is read back from its own text, and so is every path below it.
The keys of what a directory holds differ only in the last name.
-/

namespace Roster

/-!
## Cutting
-/

namespace Text

theorem not_mem_of_mem_cut {at_ : Char} {cs part : List Char} (h : part ∈ cut at_ cs) :
    at_ ∉ part := by
  induction cs generalizing part with
  | nil =>
      rw [cut, List.mem_singleton] at h
      rw [h]
      exact List.not_mem_nil
  | cons c rest ih =>
      by_cases hc : (c == at_) = true
      · rw [cut, if_pos hc] at h
        rcases List.mem_cons.mp h with rfl | hrest
        · exact List.not_mem_nil
        · exact ih hrest
      · rw [cut, if_neg hc] at h
        have hne : at_ ≠ c := by
          rintro rfl
          exact hc (beq_self_eq_true _)
        cases hcut : cut at_ rest with
        | nil => exact absurd hcut (cut_ne_nil at_ rest)
        | cons first parts =>
            rw [hcut] at h ih
            rcases List.mem_cons.mp h with rfl | hparts
            · rw [List.mem_cons, not_or]
              exact ⟨hne, ih List.mem_cons_self⟩
            · exact ih (List.mem_cons_of_mem _ hparts)

theorem cut_intercalate {at_ : Char} {parts : List String} (hne : parts ≠ [])
    (h : ∀ part ∈ parts, at_ ∉ part.toList) :
    cut at_ (String.intercalate (String.singleton at_) parts).toList = parts.map String.toList := by
  induction parts with
  | nil => exact absurd rfl hne
  | cons part rest ih =>
      have hpart := h part List.mem_cons_self
      cases rest with
      | nil => rw [String.intercalate_singleton, cut_of_not_mem hpart, List.map_singleton]
      | cons next more =>
          have hrest := ih (List.cons_ne_nil _ _) fun p hp => h p (List.mem_cons_of_mem _ hp)
          rw [String.intercalate_cons_cons, String.toList_append, String.toList_append,
            List.append_assoc, String.toList_singleton, List.singleton_append, cut_append_cons,
            cut_of_not_mem hpart, hrest]
          rfl

end Text

/-!
## Texts of paths
-/

namespace Path

/-- A name that a path can have as one of its parts. -/
def IsPart (part : String) : Prop :=
  part ≠ "" ∧ part ≠ "." ∧ '/' ∉ part.toList

/-- The parts are as reading a text makes them. -/
structure IsPlain (p : Path) : Prop where
  root : p.root = "" ∨ p.root = "/" ∨ p.root = "//"
  parts : ∀ part ∈ p.parts, IsPart part

theorem rootOf_cases (cs : List Char) : rootOf cs = "" ∨ rootOf cs = "/" ∨ rootOf cs = "//" := by
  unfold rootOf
  split <;> simp

theorem isPlain_ofText (s : String) : (ofText s).IsPlain := by
  refine ⟨rootOf_cases s.toList, fun part hpart => ?_⟩
  rcases List.mem_map.mp hpart with ⟨cs, hcs, rfl⟩
  rcases List.mem_filter.mp hcs with ⟨hcut, hkept⟩
  rw [Bool.and_eq_true, Bool.not_eq_true', List.isEmpty_eq_false_iff, bne_iff_ne] at hkept
  refine ⟨?_, ?_, ?_⟩
  · simpa using hkept.1
  · intro hdot
    exact hkept.2 (by simpa using congrArg String.toList hdot)
  · rw [String.toList_ofList]
    exact Text.not_mem_of_mem_cut hcut

theorem IsPlain.child {p : Path} (h : p.IsPlain) {name : String} (hname : IsPart name) :
    (p.child name).IsPlain := by
  refine ⟨h.root, fun part hpart => ?_⟩
  rcases List.mem_append.mp hpart with hparts | hlast
  · exact h.parts part hparts
  · rw [List.mem_singleton.mp hlast]
    exact hname

theorem partsOf_cons_separator (cs : List Char) : partsOf ('/' :: cs) = partsOf cs := by
  simp [partsOf, Text.cut]

theorem partsOf_intercalate {parts : List String} (h : ∀ part ∈ parts, IsPart part) :
    partsOf (String.intercalate "/" parts).toList = parts := by
  by_cases hne : parts = []
  · subst hne
    rfl
  · have hcut := Text.cut_intercalate hne fun part hpart => (h part hpart).2.2
    have hkept : (parts.map String.toList).filter
        (fun part => !part.isEmpty && part != ['.']) = parts.map String.toList := by
      rw [List.filter_eq_self]
      intro cs hcs
      rcases List.mem_map.mp hcs with ⟨part, hpart, rfl⟩
      rcases h part hpart with ⟨hempty, hdot, -⟩
      have hne : part.toList ≠ ['.'] := fun heq =>
        hdot (String.toList_inj.mp heq)
      simpa [hne] using hempty
    rw [partsOf, show ("/" : String) = String.singleton '/' from rfl, hcut, hkept, List.map_map]
    simp

theorem rootOf_of_head {cs : List Char} (h : cs.head? ≠ some '/') :
    rootOf cs = "" ∧ rootOf ('/' :: cs) = "/" ∧ rootOf ('/' :: '/' :: cs) = "//" := by
  cases cs with
  | nil => exact ⟨rfl, rfl, rfl⟩
  | cons c rest =>
      have hc : c ≠ '/' := by simpa using h
      exact ⟨by simp [rootOf, hc], by simp [rootOf, hc], by simp [rootOf, hc]⟩

theorem head_intercalate {parts : List String} (h : ∀ part ∈ parts, IsPart part) :
    (String.intercalate "/" parts).toList.head? ≠ some '/' := by
  cases parts with
  | nil => simp
  | cons part rest =>
      rcases h part List.mem_cons_self with ⟨hempty, -, hslash⟩
      cases hpart : part.toList with
      | nil => exact absurd (String.toList_eq_nil_iff.mp hpart) hempty
      | cons c cs =>
          have hc : c ≠ '/' := by
            rintro rfl
            exact hslash (by rw [hpart]; exact List.mem_cons_self)
          cases rest with
          | nil => simpa [hpart] using hc
          | cons next more =>
              rw [String.intercalate_cons_cons, String.toList_append, String.toList_append, hpart]
              simpa using hc

/-- A path is read back from its text. -/
theorem ofText_text {p : Path} (h : p.IsPlain) : ofText p.text = p := by
  rcases p with ⟨root, parts⟩
  have hparts := partsOf_intercalate h.parts
  rcases rootOf_of_head (head_intercalate h.parts) with ⟨hnone, hone, htwo⟩
  rcases h.root with hroot | hroot | hroot
  · simp only at hroot
    subst hroot
    by_cases hnil : parts = []
    · subst hnil
      rfl
    · have htext : text ⟨"", parts⟩ = String.intercalate "/" parts := by
        simp [text, hnil]
      rw [htext, ofText, hparts, hnone]
  · simp only at hroot
    subst hroot
    have htext : (text ⟨"/", parts⟩).toList = '/' :: (String.intercalate "/" parts).toList := by
      simp [text]
    rw [ofText, htext, partsOf_cons_separator, hparts, hone]
  · simp only at hroot
    subst hroot
    have htext : (text ⟨"//", parts⟩).toList =
        '/' :: '/' :: (String.intercalate "/" parts).toList := by
      simp [text]
    rw [ofText, htext, partsOf_cons_separator, partsOf_cons_separator, hparts, htwo]

/-!
## Keys
-/

theorem resolve_append_singleton {above parts : List String} {name : String} (h : name ≠ "..") :
    resolve above (parts ++ [name]) = resolve above parts ++ [name] := by
  have hname : ¬(name == "..") = true := by simpa using h
  induction parts generalizing above with
  | nil =>
      rw [List.nil_append, resolve.eq_2, if_neg hname, resolve, resolve, List.reverse_cons]
  | cons part rest ih =>
      rw [List.cons_append, resolve, resolve]
      split
      · exact ih
      · exact ih

theorem key_child {name : String} (h : name ≠ "..") (p : Path) :
    (p.child name).key = p.key ++ [name] := by
  rw [key, key, child, resolve_append_singleton h, List.append_assoc]

end Path
end Roster
