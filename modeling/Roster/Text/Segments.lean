/-!
# Cutting and joining texts

Texts are cut at one character and joined with a separator; cutting undoes joining when no part
holds the character.
-/

namespace Roster
namespace Text

/-- The parts between the occurrences of a character, always at least one. -/
def cut (at_ : Char) : List Char → List (List Char)
  | [] => [[]]
  | c :: rest =>
      if c == at_ then [] :: cut at_ rest
      else
        match cut at_ rest with
        | [] => [[c]]
        | part :: parts => (c :: part) :: parts

def join (separator : List Char) : List (List Char) → List Char
  | [] => []
  | [part] => part
  | part :: parts => part ++ separator ++ join separator parts

/-- `inner` occurs in the text without a gap. -/
def occursIn (inner : List Char) : List Char → Bool
  | [] => inner.isEmpty
  | c :: rest => inner.isPrefixOf (c :: rest) || occursIn inner rest

/-- Replace the occurrences of a non-empty text from left to right. -/
def replaceAll (old new : List Char) (cs : List Char) : List Char :=
  go cs.length cs
where
  /-- The bound counts the characters that are left. -/
  go : Nat → List Char → List Char
    | 0, cs => cs
    | _ + 1, [] => []
    | n + 1, c :: rest =>
        if old.isPrefixOf (c :: rest) && !old.isEmpty then
          new ++ go n ((c :: rest).drop old.length)
        else c :: go n rest

theorem cut_ne_nil (at_ : Char) (cs : List Char) : cut at_ cs ≠ [] := by
  induction cs with
  | nil => simp [cut]
  | cons c rest ih =>
      unfold cut
      split
      · simp
      · split <;> simp

/-- A text that does not hold the character is its only part. -/
theorem cut_of_not_mem {at_ : Char} {cs : List Char} (h : at_ ∉ cs) : cut at_ cs = [cs] := by
  induction cs with
  | nil => rfl
  | cons c rest ih =>
      simp only [List.mem_cons, not_or] at h
      have hc : (c == at_) = false := by simpa using fun e => h.1 e.symm
      simp [cut, hc, ih h.2]

/-- Two texts with the character between them are cut each for itself. -/
theorem cut_append_cons (at_ : Char) (front back : List Char) :
    cut at_ (front ++ at_ :: back) = cut at_ front ++ cut at_ back := by
  induction front with
  | nil => simp [cut]
  | cons c rest ih =>
      rw [List.cons_append, cut]
      by_cases hc : (c == at_) = true
      · simp [cut, hc, ih]
      · cases hcut : cut at_ rest with
        | nil => exact absurd hcut (cut_ne_nil at_ rest)
        | cons part parts => simp [cut, hc, ih, hcut]

/-- Joining the parts with the character gives the text back. -/
theorem join_cut (at_ : Char) (cs : List Char) : join [at_] (cut at_ cs) = cs := by
  induction cs with
  | nil => rfl
  | cons c rest ih =>
      by_cases hc : (c == at_) = true
      · have hne := cut_ne_nil at_ rest
        cases hcut : cut at_ rest with
        | nil => exact absurd hcut hne
        | cons part parts =>
            rw [hcut] at ih
            simp only [cut, hc, hcut, if_true, join, List.nil_append, List.cons_append]
            rw [ih, eq_of_beq hc]
      · cases hcut : cut at_ rest with
        | nil => exact absurd hcut (cut_ne_nil at_ rest)
        | cons part parts =>
            rw [hcut] at ih
            cases parts with
            | nil => simp_all [cut, join]
            | cons next more => simp_all [cut, join]

end Text
end Roster
