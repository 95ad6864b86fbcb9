import Mathlib.Computability.Language
import Roster.Proofs.Text.Trimming

/-!
# Patterns of values

The written form of a value is laid down by a pattern: classes of characters one behind the other,
each of them once or a number of times.  A pattern is the language of the texts that it matches from
the first character to the last.  What a pattern says of whole texts is found from what it says of
the runs of one class.
-/

open Computability

namespace Roster
namespace Pattern

/-!
## Classes of characters
-/

/-- ASCII letters. -/
def IsLetter (c : Char) : Prop :=
  'a' ≤ c ∧ c ≤ 'z' ∨ 'A' ≤ c ∧ c ≤ 'Z'

/-- ASCII digits. -/
def IsDigit (c : Char) : Prop :=
  '0' ≤ c ∧ c ≤ '9'

/-- What may stand in front of the sign of a mail address. -/
def IsMailName (c : Char) : Prop :=
  IsLetter c ∨ IsDigit c ∨ c ∈ ['.', '_', '%', '+', '-']

/-- What may stand in the domain of a mail address. -/
def IsMailDomain (c : Char) : Prop :=
  IsLetter c ∨ IsDigit c ∨ c ∈ ['.', '-']

/-- What a phone number is made of behind its sign. -/
def IsPhone (c : Char) : Prop :=
  IsDigit c ∨ c ∈ [' ', '(', ')', '-']

/-- What a word of a person's name is made of. -/
def IsName (c : Char) : Prop :=
  IsLetter c ∨ '\u00c0' ≤ c ∧ c ≤ '\u024f' ∨ c ∈ ['\x27', '\u2019', '.', '-']

instance : DecidablePred IsLetter := fun _ => inferInstanceAs (Decidable (_ ∨ _))

instance : DecidablePred IsDigit := fun _ => inferInstanceAs (Decidable (_ ∧ _))

instance : DecidablePred IsMailName := fun _ => inferInstanceAs (Decidable (_ ∨ _))

instance : DecidablePred IsMailDomain := fun _ => inferInstanceAs (Decidable (_ ∨ _))

instance : DecidablePred IsPhone := fun _ => inferInstanceAs (Decidable (_ ∨ _))

instance : DecidablePred IsName := fun _ => inferInstanceAs (Decidable (_ ∨ _))

/-!
## Runs of one class
-/

variable {p : Char → Prop} {cs : List Char} {n : Nat}

/-- One character of a class. -/
def one (p : Char → Prop) : Language Char :=
  {cs | ∃ c, p c ∧ cs = [c]}

/-- At least so many characters of a class. -/
def atLeast (n : Nat) (p : Char → Prop) : Language Char :=
  one p ^ n * (one p)∗

/-- From so many to so many characters of a class. -/
def between (least most : Nat) (p : Char → Prop) : Language Char :=
  {cs | ∃ n, least ≤ n ∧ n ≤ most ∧ cs ∈ one p ^ n}

theorem length_flatten_of_mem_one {parts : List (List Char)} (h : ∀ part ∈ parts, part ∈ one p) :
    parts.flatten.length = parts.length ∧ ∀ c ∈ parts.flatten, p c := by
  induction parts with
  | nil => exact ⟨rfl, List.forall_mem_nil _⟩
  | cons part rest ih =>
      rw [List.forall_mem_cons] at h
      rcases h.1 with ⟨c, hc, rfl⟩
      rcases ih h.2 with ⟨hlength, hrest⟩
      constructor
      · rw [List.flatten_cons, List.length_append, List.length_cons, List.length_cons, hlength]
        exact Nat.add_comm _ _
      · exact List.forall_mem_cons.mpr ⟨hc, hrest⟩

theorem exists_parts_of_one (h : ∀ c ∈ cs, p c) :
    ∃ parts : List (List Char), cs = parts.flatten ∧ parts.length = cs.length ∧
      ∀ part ∈ parts, part ∈ one p := by
  refine ⟨cs.map fun c => [c], (List.flatMap_singleton' cs).symm, List.length_map _, ?_⟩
  intro part hpart
  rcases List.mem_map.mp hpart with ⟨c, hc, rfl⟩
  exact ⟨c, h c hc, rfl⟩

theorem mem_one_pow_iff : cs ∈ one p ^ n ↔ cs.length = n ∧ ∀ c ∈ cs, p c := by
  rw [Language.mem_pow]
  constructor
  · rintro ⟨parts, rfl, hcount, hparts⟩
    rcases length_flatten_of_mem_one hparts with ⟨hlength, hall⟩
    exact ⟨hlength.trans hcount, hall⟩
  · rintro ⟨hlength, hall⟩
    rcases exists_parts_of_one hall with ⟨parts, hcs, hcount, hparts⟩
    exact ⟨parts, hcs, hcount.trans hlength, hparts⟩

theorem mem_kstar_one_iff : cs ∈ (one p)∗ ↔ ∀ c ∈ cs, p c := by
  rw [Language.mem_kstar]
  constructor
  · rintro ⟨parts, rfl, hparts⟩
    exact (length_flatten_of_mem_one hparts).2
  · intro hall
    rcases exists_parts_of_one hall with ⟨parts, hcs, -, hparts⟩
    exact ⟨parts, hcs, hparts⟩

theorem mem_atLeast_iff : cs ∈ atLeast n p ↔ n ≤ cs.length ∧ ∀ c ∈ cs, p c := by
  rw [atLeast, Language.mem_mul]
  constructor
  · rintro ⟨front, hfront, back, hback, rfl⟩
    rw [mem_one_pow_iff] at hfront
    rw [mem_kstar_one_iff] at hback
    constructor
    · rw [List.length_append, hfront.1]
      exact Nat.le_add_right _ _
    · exact List.forall_mem_append.mpr ⟨hfront.2, hback⟩
  · rintro ⟨hlength, hall⟩
    refine ⟨cs.take n, mem_one_pow_iff.mpr ⟨List.length_take_of_le hlength, ?_⟩, cs.drop n,
      mem_kstar_one_iff.mpr ?_, List.take_append_drop n cs⟩
    · exact fun c hc => hall c (List.mem_of_mem_take hc)
    · exact fun c hc => hall c (List.mem_of_mem_drop hc)

theorem mem_atLeast_one_iff : cs ∈ atLeast 1 p ↔ cs ≠ [] ∧ ∀ c ∈ cs, p c := by
  rw [mem_atLeast_iff, Nat.one_le_iff_ne_zero, Ne, List.length_eq_zero_iff]

theorem mem_between_iff {least most : Nat} :
    cs ∈ between least most p ↔ least ≤ cs.length ∧ cs.length ≤ most ∧ ∀ c ∈ cs, p c := by
  constructor
  · rintro ⟨n, hleast, hmost, hcs⟩
    rcases mem_one_pow_iff.mp hcs with ⟨rfl, hall⟩
    exact ⟨hleast, hmost, hall⟩
  · rintro ⟨hleast, hmost, hall⟩
    exact ⟨cs.length, hleast, hmost, mem_one_pow_iff.mpr ⟨rfl, hall⟩⟩

/-!
## Signs
-/

theorem mem_one_mul_iff {sign : Char} {L : Language Char} :
    cs ∈ one (· = sign) * L ↔ ∃ rest ∈ L, cs = sign :: rest := by
  rw [Language.mem_mul]
  constructor
  · rintro ⟨_, ⟨c, rfl, rfl⟩, rest, hrest, rfl⟩
    exact ⟨rest, hrest, rfl⟩
  · rintro ⟨rest, hrest, rfl⟩
    exact ⟨[sign], ⟨sign, rfl, rfl⟩, rest, hrest, rfl⟩

/-- A sign that may be missing. -/
def optional (c : Char) : Language Char :=
  1 + one (· = c)

theorem mem_optional_mul_iff {sign : Char} :
    cs ∈ optional sign * atLeast 1 p ↔
      ∃ body, (cs = body ∨ cs = sign :: body) ∧ body ≠ [] ∧ ∀ c ∈ body, p c := by
  simp only [Language.mem_mul, mem_atLeast_one_iff]
  constructor
  · rintro ⟨front, hfront, body, hbody, rfl⟩
    rcases (Language.mem_add _ _ _).mp hfront with hnone | ⟨c, rfl, rfl⟩
    · rw [(Language.mem_one front).mp hnone]
      exact ⟨body, Or.inl rfl, hbody⟩
    · exact ⟨body, Or.inr rfl, hbody⟩
  · rintro ⟨body, rfl | rfl, hbody⟩
    · exact ⟨[], (Language.mem_add _ _ _).mpr (Or.inl rfl), cs, hbody, rfl⟩
    · exact ⟨[sign], (Language.mem_add _ _ _).mpr (Or.inr ⟨sign, rfl, rfl⟩), body, hbody, rfl⟩

/-!
## Texts of a fixed length
-/

/-- One character for each class. -/
def shape (classes : List (Char → Prop)) : Language Char :=
  {cs | List.Forall₂ (fun p c => p c) classes cs}

variable {first second : List (Char → Prop)}

theorem mem_shape_cons_iff {c : Char} {classes : List (Char → Prop)} :
    c :: cs ∈ shape (p :: classes) ↔ p c ∧ cs ∈ shape classes :=
  List.forall₂_cons

theorem shape_append : shape (first ++ second) = shape first * shape second := by
  ext cs
  rw [Language.mem_mul]
  induction first generalizing cs with
  | nil =>
      constructor
      · intro hcs
        exact ⟨[], List.Forall₂.nil, cs, hcs, rfl⟩
      · rintro ⟨front, hfront, back, hback, rfl⟩
        cases hfront
        exact hback
  | cons p rest ih =>
      constructor
      · intro hcs
        rcases hcs with _ | ⟨hc, hrest⟩
        rcases (ih _).mp hrest with ⟨front, hfront, back, hback, rfl⟩
        exact ⟨_ :: front, List.Forall₂.cons hc hfront, back, hback, rfl⟩
      · rintro ⟨front, hfront, back, hback, rfl⟩
        rcases hfront with _ | ⟨hc, hrest⟩
        exact List.Forall₂.cons hc ((ih _).mpr ⟨_, hrest, back, hback, rfl⟩)

theorem shape_replicate : shape (List.replicate n p) = one p ^ n := by
  ext cs
  rw [mem_one_pow_iff]
  induction n generalizing cs with
  | zero =>
      constructor
      · intro hcs
        cases hcs
        exact ⟨rfl, List.forall_mem_nil _⟩
      · rintro ⟨hlength, -⟩
        rw [List.length_eq_zero_iff.mp hlength]
        exact List.Forall₂.nil
  | succ n ih =>
      constructor
      · intro hcs
        rcases hcs with _ | ⟨hc, hrest⟩
        rcases (ih _).mp hrest with ⟨hlength, hall⟩
        exact ⟨congrArg Nat.succ hlength, List.forall_mem_cons.mpr ⟨hc, hall⟩⟩
      · rintro ⟨hlength, hall⟩
        cases cs with
        | nil => cases hlength
        | cons c rest =>
            rw [List.forall_mem_cons] at hall
            exact List.Forall₂.cons hall.1 ((ih rest).mpr ⟨Nat.succ.inj hlength, hall.2⟩)

theorem shape_singleton : shape [p] = one p := by
  rw [← pow_one (one p), ← shape_replicate]
  rfl

theorem mem_shape_range_iff {class_ : Nat → Char → Prop} :
    cs ∈ shape ((List.range n).map class_) ↔
      cs.length = n ∧ ∀ i, ∀ h : i < cs.length, class_ i cs[i] := by
  change List.Forall₂ _ _ _ ↔ _
  rw [List.forall₂_iff_get]
  simp only [List.length_map, List.length_range, List.get_eq_getElem, List.getElem_map,
    List.getElem_range]
  constructor
  · rintro ⟨hlength, hall⟩
    exact ⟨hlength.symm, fun i hi => hall i (hlength.symm ▸ hi) hi⟩
  · rintro ⟨hlength, hall⟩
    exact ⟨hlength.symm, fun i _ hi => hall i hi⟩

/-!
## Words
-/

theorem join_eq_append_flatten (first : List Char) (rest : List (List Char)) :
    Text.join [' '] (first :: rest) = first ++ (rest.map (' ' :: ·)).flatten := by
  induction rest generalizing first with
  | nil => exact (List.append_nil first).symm
  | cons next more ih =>
      rw [Text.join_cons_cons, ih, List.map_cons, List.flatten_cons, List.append_assoc]
      rfl

theorem exists_words_of_parts {L : Language Char} {parts : List (List Char)}
    (h : ∀ part ∈ parts, part ∈ one (· = ' ') * L) :
    ∃ words : List (List Char), parts = words.map (' ' :: ·) ∧ ∀ word ∈ words, word ∈ L := by
  induction parts with
  | nil => exact ⟨[], rfl, List.forall_mem_nil _⟩
  | cons part rest ih =>
      rw [List.forall_mem_cons] at h
      rcases ih h.2 with ⟨words, rfl, hwords⟩
      rcases mem_one_mul_iff.mp h.1 with ⟨word, hword, rfl⟩
      exact ⟨word :: words, rfl, List.forall_mem_cons.mpr ⟨hword, hwords⟩⟩

/-- Words are found again between the blanks of the text that they make up. -/
theorem mem_words_iff (hblank : ¬p ' ') :
    cs ∈ atLeast 1 p * (one (· = ' ') * atLeast 1 p)∗ ↔
      ∀ word ∈ Text.cut ' ' cs, word ≠ [] ∧ ∀ c ∈ word, p c := by
  rw [Language.mem_mul]
  constructor
  · rintro ⟨first, hfirst, back, ⟨parts, rfl, hparts⟩, rfl⟩
    rcases exists_words_of_parts hparts with ⟨words, rfl, hwords⟩
    have hall := List.forall_mem_cons.mpr ⟨hfirst, hwords⟩
    simp only [mem_atLeast_one_iff] at hall
    have hapart : ∀ word ∈ first :: words, ' ' ∉ word := by
      intro word hword hmem
      exact hblank ((hall word hword).2 ' ' hmem)
    rw [← join_eq_append_flatten, Text.cut_join (List.cons_ne_nil _ _) hapart]
    exact hall
  · intro hall
    cases hcut : Text.cut ' ' cs with
    | nil => exact absurd hcut (Text.cut_ne_nil ' ' cs)
    | cons first words =>
        rw [hcut, List.forall_mem_cons] at hall
        have hcs := Text.join_cut ' ' cs
        rw [hcut, join_eq_append_flatten] at hcs
        refine ⟨first, mem_atLeast_one_iff.mpr hall.1, _, ⟨_, rfl, ?_⟩, hcs⟩
        intro part hpart
        rcases List.mem_map.mp hpart with ⟨word, hword, rfl⟩
        exact mem_one_mul_iff.mpr ⟨word, mem_atLeast_one_iff.mpr (hall.2 word hword), rfl⟩

end Pattern
end Roster
