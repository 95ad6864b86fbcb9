import Mathlib.Data.List.TakeWhile
import Roster.Check.Validator
import Roster.Proofs.Check.Patterns
import Roster.Proofs.Storage.Path
import Roster.Text.Ranges

/-!
# Forms of values

Seven validators ask for a written form.  The form is laid down by a pattern, it can be said in
words, and the validator goes through the characters of a value once.  All three come to the same
texts.
-/

open Computability

namespace Roster

namespace Pattern

/-!
## The patterns
-/

/-- A name, the sign, and a domain that ends in a dot and two letters or more. -/
def email : Language Char :=
  atLeast 1 IsMailName * one (· = '@') * atLeast 1 IsMailDomain * one (· = '.') * atLeast 2 IsLetter

def phone : Language Char :=
  optional '+' * atLeast 1 IsPhone

def date : Language Char :=
  one IsDigit ^ 4 * one (· = '-') * one IsDigit ^ 2 * one (· = '-') * one IsDigit ^ 2

def timestamp : Language Char :=
  date * one (fun c => c = 'T' ∨ c = ' ') * one IsDigit ^ 2 * one (· = ':') * one IsDigit ^ 2 *
    one (· = ':') * one IsDigit ^ 2

def integer : Language Char :=
  optional '-' * atLeast 1 IsDigit

def moniker : Language Char :=
  between 2 24 fun c => IsLetter c ∨ IsDigit c

def name : Language Char :=
  atLeast 1 IsName * (one (· = ' ') * atLeast 1 IsName)∗

/-!
## The forms
-/

/-- There is exactly one sign.  The domain has something in front of its last dot and letters
behind it. -/
def IsEmailForm (cs : List Char) : Prop :=
  ∃ name domain, cs = name ++ '@' :: domain ∧ '@' ∉ name ∧ '@' ∉ domain ∧
    name ≠ [] ∧ (∀ c ∈ name, IsMailName c) ∧ (∀ c ∈ domain, IsMailDomain c) ∧
    ∃ front last, domain = front ++ '.' :: last ∧ '.' ∉ last ∧ front ≠ [] ∧
      2 ≤ last.length ∧ ∀ c ∈ last, IsLetter c

/-- Characters of one class, with a sign in front or without. -/
def IsSignedForm (sign : Char) (p : Char → Prop) (cs : List Char) : Prop :=
  ∃ body, (cs = body ∨ cs = sign :: body) ∧ body ≠ [] ∧ ∀ c ∈ body, p c

/-- So many characters, each of the class of its place. -/
def IsPlacedForm (count : Nat) (class_ : Nat → Char → Prop) (cs : List Char) : Prop :=
  cs.length = count ∧ ∀ i, ∀ h : i < cs.length, class_ i cs[i]

/-- Words of characters of one class, with one blank between two of them. -/
def IsWordsForm (p : Char → Prop) (cs : List Char) : Prop :=
  ∀ word ∈ Text.cut ' ' cs, word ≠ [] ∧ ∀ c ∈ word, p c

def dayClass (i : Nat) (c : Char) : Prop :=
  if i = 4 ∨ i = 7 then c = '-' else IsDigit c

/-- A day, a separator, and two colons between digits. -/
def momentClass (i : Nat) (c : Char) : Prop :=
  if i = 10 then c = 'T' ∨ c = ' ' else if i = 13 ∨ i = 16 then c = ':' else dayClass i c

/-!
## Patterns and forms
-/

variable {cs : List Char}

theorem mem_email_iff : cs ∈ email ↔ IsEmailForm cs := by
  have hsign : ¬IsMailName '@' ∧ ¬IsMailDomain '@' ∧ ¬IsLetter '.' := by decide
  rw [email, mul_assoc, mul_assoc, mul_assoc, Language.mem_mul]
  simp only [mem_one_mul_iff]
  constructor
  · rintro ⟨name, hname, _, ⟨domain, hparts, rfl⟩, rfl⟩
    rcases Language.mem_mul.mp hparts with ⟨front, hfront, _, hback, rfl⟩
    rcases mem_one_mul_iff.mp hback with ⟨last, hlast, rfl⟩
    rw [mem_atLeast_one_iff] at hname hfront
    rw [mem_atLeast_iff] at hlast
    have hdomain : ∀ c ∈ front ++ '.' :: last, IsMailDomain c := by
      rw [List.forall_mem_append, List.forall_mem_cons]
      exact ⟨hfront.2, by decide, fun c hc => Or.inl (hlast.2 c hc)⟩
    refine ⟨name, front ++ '.' :: last, rfl, ?_, ?_, hname.1, hname.2, hdomain, front, last, rfl, ?_,
      hfront.1, hlast⟩
    · exact fun hmem => hsign.1 (hname.2 _ hmem)
    · exact fun hmem => hsign.2.1 (hdomain _ hmem)
    · exact fun hmem => hsign.2.2 (hlast.2 _ hmem)
  · rintro ⟨name, domain, rfl, -, -, hne, hname, hdomain, front, last, rfl, -, hfront, hlast⟩
    rw [List.forall_mem_append] at hdomain
    refine ⟨name, mem_atLeast_one_iff.mpr ⟨hne, hname⟩, _, ⟨_, ?_, rfl⟩, rfl⟩
    exact Language.append_mem_mul (mem_atLeast_one_iff.mpr ⟨hfront, hdomain.1⟩)
      (mem_one_mul_iff.mpr ⟨last, mem_atLeast_iff.mpr hlast, rfl⟩)

theorem date_eq_shape : date = shape ((List.range 10).map dayClass) := by
  have hclasses : (List.range 10).map dayClass = List.replicate 4 IsDigit ++ [(· = '-')] ++
      List.replicate 2 IsDigit ++ [(· = '-')] ++ List.replicate 2 IsDigit := rfl
  rw [hclasses, shape_append, shape_append, shape_append, shape_append, shape_replicate,
    shape_replicate, shape_singleton, date]

theorem timestamp_eq_shape : timestamp = shape ((List.range 19).map momentClass) := by
  have hclasses : (List.range 19).map momentClass = (List.range 10).map dayClass ++
      [fun c => c = 'T' ∨ c = ' '] ++ List.replicate 2 IsDigit ++ [(· = ':')] ++
      List.replicate 2 IsDigit ++ [(· = ':')] ++ List.replicate 2 IsDigit := rfl
  rw [hclasses, shape_append, shape_append, shape_append, shape_append, shape_append, shape_append,
    ← date_eq_shape, shape_replicate, shape_singleton, shape_singleton, timestamp]

/-!
## Characters of the forms
-/

variable {c : Char}

theorem isAlpha_iff : c.isAlpha = true ↔ IsLetter c := by
  have hranges : c.isAlpha = (decide (c.val ≥ 65 ∧ c.val ≤ 90) || (c.val ≥ 97 && c.val ≤ 122)) :=
    rfl
  simp only [hranges, Bool.or_eq_true, decide_eq_true_eq, Bool.and_eq_true, IsLetter, Char.le_def]
  exact or_comm

theorem isDigit_iff : c.isDigit = true ↔ IsDigit c := by
  simp only [Char.isDigit, Bool.and_eq_true, decide_eq_true_eq, IsDigit, Char.le_def]

theorem isAlnum_iff : Grammar.isAlnum c = true ↔ IsLetter c ∨ IsDigit c := by
  rw [Grammar.isAlnum, Char.isAlphanum, Bool.or_eq_true, isAlpha_iff, isDigit_iff]

/-- Letters, digits and signs. -/
def IsWritten (c : Char) : Prop :=
  IsDigit c ∨ IsName c ∨ c ∈ [' ', '(', ')', '+', '_', '%', '@', ':']

instance : DecidablePred IsWritten := fun _ => inferInstanceAs (Decidable (_ ∨ _))

theorem isWritten_of_dayClass {i : Nat} {c : Char} (h : dayClass i c) : IsWritten c := by
  rw [dayClass] at h
  split at h
  · rw [h]
    decide
  · exact Or.inl h

theorem isWritten_of_momentClass {i : Nat} {c : Char} (h : momentClass i c) : IsWritten c := by
  rw [momentClass] at h
  split at h
  · rcases h with rfl | rfl <;> decide
  · split at h
    · rw [h]
      decide
    · exact isWritten_of_dayClass h

theorem IsLetter.isWritten {c : Char} (h : IsLetter c) : IsWritten c :=
  Or.inr (Or.inl (Or.inl h))

theorem IsEmailForm.isWritten (h : IsEmailForm cs) : ∀ c ∈ cs, IsWritten c := by
  rcases h with ⟨name, domain, rfl, -, -, -, hname, hdomain, -⟩
  have hsigns : ∀ c ∈ ['.', '_', '%', '+', '-'], IsWritten c :=
    List.forall_iff_forall_mem.mp (by decide)
  rw [List.forall_mem_append, List.forall_mem_cons]
  refine ⟨?_, by decide, ?_⟩
  · intro c hc
    rcases hname c hc with hletter | hdigit | hsign
    · exact hletter.isWritten
    · exact Or.inl hdigit
    · exact hsigns c hsign
  · intro c hc
    rcases hdomain c hc with hletter | hdigit | hsign
    · exact hletter.isWritten
    · exact Or.inl hdigit
    · exact hsigns c ((by decide : ['.', '-'] ⊆ ['.', '_', '%', '+', '-']) hsign)

theorem IsSignedForm.isWritten {sign : Char} {p : Char → Prop} (h : IsSignedForm sign p cs)
    (hsign : IsWritten sign) (hp : ∀ c, p c → IsWritten c) : ∀ c ∈ cs, IsWritten c := by
  rcases h with ⟨body, rfl | rfl, -, hbody⟩
  · exact fun c hc => hp c (hbody c hc)
  · exact List.forall_mem_cons.mpr ⟨hsign, fun c hc => hp c (hbody c hc)⟩

theorem IsPlacedForm.forall_mem {count : Nat} {class_ : Nat → Char → Prop} {p : Char → Prop}
    (h : IsPlacedForm count class_ cs) (hp : ∀ i c, class_ i c → p c) : ∀ c ∈ cs, p c := by
  intro c hc
  rcases List.mem_iff_getElem.mp hc with ⟨i, hi, rfl⟩
  exact hp i _ (h.2 i hi)

theorem IsWordsForm.isWritten (h : IsWordsForm IsName cs) : ∀ c ∈ cs, IsWritten c := by
  intro c hc
  rw [← Text.join_cut ' ' cs] at hc
  rcases Text.mem_join hc with hblank | ⟨word, hword, hmem⟩
  · rw [List.mem_singleton.mp hblank]
    decide
  · exact Or.inr (Or.inl ((h word hword).2 c hmem))

theorem isDigit_of_digitValue? (hc : c.toNat < 0x660)
    (h : (Text.digitValue? c).isSome = true) : IsDigit c := by
  have hzeros : ∀ start ∈ Text.digitZeros, 0x660 ≤ start := by decide
  by_contra hdigit
  rw [← isDigit_iff] at hdigit
  rw [Text.digitValue?, if_neg hdigit, Option.isSome_map, List.find?_isSome] at h
  rcases h with ⟨start, hstart, hbounds⟩
  have hlow := hzeros start hstart
  rw [Bool.and_eq_true, decide_eq_true_eq] at hbounds
  omega

theorem plain_of_range {low high : Char} (hlow : '\n' < low) (hhigh : high.toNat < 0x660)
    (hc : low ≤ c ∧ c ≤ high) :
    c ≠ '\n' ∧ ((Text.digitValue? c).isSome = true → IsDigit c) := by
  constructor
  · rintro rfl
    exact absurd hlow (Char.not_lt.mpr hc.1)
  · intro hdigit
    have hcode : c.toNat ≤ high.toNat := UInt32.le_iff_toNat_le.mp (Char.le_def.mp hc.2)
    exact isDigit_of_digitValue? (hcode.trans_lt hhigh) hdigit

theorem plain_of_sign
    (hc : c ∈ ['\x27', '\u2019', '.', '-'] ++ [' ', '(', ')', '+', '_', '%', '@', ':']) :
    c ≠ '\n' ∧ ((Text.digitValue? c).isSome = true → IsDigit c) := by
  have hsigns : ∀ c ∈ ['\x27', '\u2019', '.', '-'] ++ [' ', '(', ')', '+', '_', '%', '@', ':'],
      c ≠ '\n' ∧ (Text.digitValue? c).isSome = false :=
    List.forall_iff_forall_mem.mp (by decide)
  rcases hsigns c hc with ⟨hline, hvalue⟩
  refine ⟨hline, ?_⟩
  intro hdigit
  rw [hvalue] at hdigit
  cases hdigit

/-- Of the characters in use only the digits of ASCII are digits, and none ends a line. -/
theorem IsWritten.plain (h : IsWritten c) :
    c ≠ '\n' ∧ ((Text.digitValue? c).isSome = true → IsDigit c) := by
  rcases h with hdigit | (((hsmall | hlarge) | haccent | hsign)) | hsign
  · exact plain_of_range (by decide) (by decide) hdigit
  · exact plain_of_range (by decide) (by decide) hsmall
  · exact plain_of_range (by decide) (by decide) hlarge
  · exact plain_of_range (by decide) (by decide) haccent
  · exact plain_of_sign (List.mem_append_left _ hsign)
  · exact plain_of_sign (List.mem_append_right _ hsign)

end Pattern

namespace Grammar

open Pattern

/-!
## Checks and forms
-/

variable {c : Char} {cs : List Char}

theorem isMailName_iff : isMailName c = true ↔ IsMailName c := by
  rw [isMailName, Bool.or_eq_true, isAlnum_iff, List.contains_iff_mem, or_assoc]
  rfl

theorem isDomain_iff : isDomain c = true ↔ IsMailDomain c := by
  simp only [isDomain, Bool.or_eq_true, isAlnum_iff, beq_iff_eq, IsMailDomain, List.mem_cons,
    List.not_mem_nil, or_false, or_assoc]

theorem isPhoneChar_iff : isPhoneChar c = true ↔ IsPhone c := by
  simp only [isPhoneChar, Bool.or_eq_true, isDigit_iff, beq_iff_eq, IsPhone, List.mem_cons,
    List.not_mem_nil, or_false, or_assoc]

theorem isNameChar_iff : isNameChar c = true ↔ IsName c := by
  have haccent : 0xC0 ≤ c.toNat ∧ c.toNat ≤ 0x24F ↔ '\u00c0' ≤ c ∧ c ≤ '\u024f' := by
    rw [Char.le_def, Char.le_def, UInt32.le_iff_toNat_le, UInt32.le_iff_toNat_le]
    rfl
  simp only [isNameChar, Bool.or_eq_true, isAlpha_iff, beq_iff_eq, IsName, List.mem_cons,
    List.not_mem_nil, or_false, or_assoc, Bool.and_eq_true, decide_eq_true_eq, haccent]

theorem allOf_iff {test : Char → Bool} {p : Char → Prop} (h : ∀ c, test c = true ↔ p c) :
    allOf test cs = true ↔ cs ≠ [] ∧ ∀ c ∈ cs, p c := by
  simp only [allOf, Bool.and_eq_true, Bool.not_eq_true', List.isEmpty_eq_false_iff, List.all_eq_true,
    h, Ne]

theorem cut_eq_pair_iff {sign : Char} {front back : List Char} :
    Text.cut sign cs = [front, back] ↔ cs = front ++ sign :: back ∧ sign ∉ front ∧ sign ∉ back := by
  constructor
  · intro hcut
    have hjoin := Text.join_cut sign cs
    rw [hcut] at hjoin
    have hparts : ∀ part ∈ [front, back], sign ∉ part := by
      rw [← hcut]
      exact fun part hpart => Text.not_mem_of_mem_cut hpart
    refine ⟨?_, hparts front (by simp), hparts back (by simp)⟩
    rw [← hjoin, Text.join_cons_cons, List.append_assoc]
    rfl
  · rintro ⟨rfl, hfront, hback⟩
    rw [Text.cut_append_cons, Text.cut_of_not_mem hfront, Text.cut_of_not_mem hback]
    rfl

theorem span_eq_cons_iff {sign : Char} {front back : List Char} :
    cs.span (· != sign) = (front, sign :: back) ↔ cs = front ++ sign :: back ∧ sign ∉ front := by
  rw [List.span_eq_takeWhile_dropWhile, Prod.mk.injEq]
  constructor
  · intro h
    constructor
    · rw [← h.1, ← h.2, List.takeWhile_append_dropWhile]
    · intro hsign
      rw [← h.1] at hsign
      have hdiffers := List.mem_takeWhile_imp (p := fun c => c != sign) hsign
      exact bne_iff_ne.mp hdiffers rfl
  · rintro ⟨rfl, hsign⟩
    have hfront : ∀ c ∈ front, (c != sign) = true := by
      intro c hc
      rw [bne_iff_ne]
      exact ne_of_mem_of_not_mem hc hsign
    rw [List.takeWhile_append_of_pos hfront, List.dropWhile_append_of_pos hfront]
    simp

theorem isMailDomain_iff :
    isMailDomain cs = true ↔ ∃ front last, cs = front ++ '.' :: last ∧ '.' ∉ last ∧
      2 ≤ last.length ∧ (∀ c ∈ last, IsLetter c) ∧ front ≠ [] ∧ ∀ c ∈ front, IsMailDomain c := by
  constructor
  · intro h
    unfold isMailDomain at h
    split at h
    · rename_i last front hspan
      rcases span_eq_cons_iff.mp hspan with ⟨hreverse, hdot⟩
      rw [List.reverse_eq_iff, List.reverse_append, List.reverse_cons, List.append_assoc] at hreverse
      simp only [Bool.and_eq_true, decide_eq_true_eq, List.all_eq_true, isAlpha_iff,
        allOf_iff fun _ => isDomain_iff] at h
      refine ⟨front.reverse, last.reverse, hreverse, ?_⟩
      simp only [List.mem_reverse, List.length_reverse, Ne, List.reverse_eq_nil_iff]
      exact ⟨hdot, h.1.1, h.1.2, h.2⟩
    · cases h
  · rintro ⟨front, last, rfl, hdot, hlength, hlast, hne, hfront⟩
    have hspan : (front ++ '.' :: last).reverse.span (· != '.') =
        (last.reverse, '.' :: front.reverse) := by
      rw [span_eq_cons_iff, List.reverse_append, List.reverse_cons, List.append_assoc,
        List.mem_reverse]
      exact ⟨rfl, hdot⟩
    rw [isMailDomain, hspan]
    simp only [Bool.and_eq_true, decide_eq_true_eq, List.all_eq_true, isAlpha_iff,
      allOf_iff fun _ => isDomain_iff, List.length_reverse, List.mem_reverse, Ne,
      List.reverse_eq_nil_iff]
    exact ⟨⟨hlength, hlast⟩, hne, hfront⟩

theorem isEmail_iff : isEmail cs = true ↔ IsEmailForm cs := by
  constructor
  · intro h
    unfold isEmail at h
    split at h
    · rename_i name domain hcut
      rw [cut_eq_pair_iff] at hcut
      rw [Bool.and_eq_true, allOf_iff fun _ => isMailName_iff, isMailDomain_iff] at h
      rcases h with ⟨hname, front, last, rfl, hdot, hlength, hlast, hne, hfront⟩
      have hdomain : ∀ c ∈ front ++ '.' :: last, IsMailDomain c := by
        rw [List.forall_mem_append, List.forall_mem_cons]
        exact ⟨hfront, by decide, fun c hc => Or.inl (hlast c hc)⟩
      exact ⟨name, _, hcut.1, hcut.2.1, hcut.2.2, hname.1, hname.2, hdomain, front, last, rfl, hdot,
        hne, hlength, hlast⟩
    · cases h
  · rintro ⟨name, domain, hcs, hbefore, hbehind, hne, hname, hdomain, front, last, rfl, hdot, hfront,
      hlength, hlast⟩
    rw [List.forall_mem_append] at hdomain
    rw [isEmail, cut_eq_pair_iff.mpr ⟨hcs, hbefore, hbehind⟩]
    dsimp only
    rw [Bool.and_eq_true, allOf_iff fun _ => isMailName_iff, isMailDomain_iff]
    exact ⟨⟨hne, hname⟩, front, last, rfl, hdot, hlength, hlast, hfront, hdomain.1⟩

theorem isSignedForm_cons_iff {sign : Char} {p : Char → Prop} (hsign : ¬p sign) :
    IsSignedForm sign p (sign :: cs) ↔ cs ≠ [] ∧ ∀ c ∈ cs, p c := by
  constructor
  · rintro ⟨body, hbody | hbody, hne, hall⟩
    · rw [← hbody] at hall
      exact absurd (hall sign List.mem_cons_self) hsign
    · rw [(List.cons.inj hbody).2]
      exact ⟨hne, hall⟩
  · intro h
    exact ⟨cs, Or.inr rfl, h⟩

theorem isSignedForm_iff_of_head {sign : Char} {p : Char → Prop} (hhead : ∀ rest, cs ≠ sign :: rest) :
    IsSignedForm sign p cs ↔ cs ≠ [] ∧ ∀ c ∈ cs, p c := by
  constructor
  · rintro ⟨body, rfl | hbody, h⟩
    · exact h
    · exact absurd hbody (hhead body)
  · intro h
    exact ⟨cs, Or.inl rfl, h⟩

theorem isPhone_iff :
    isPhone cs = true ↔ IsSignedForm '+' IsPhone cs ∧ phoneMinLength ≤ cs.length := by
  unfold isPhone
  rw [Bool.and_eq_true, decide_eq_true_eq, allOf_iff fun _ => isPhoneChar_iff]
  apply and_congr_left'
  split
  · exact (isSignedForm_cons_iff (by decide)).symm
  · rename_i hhead
    exact (isSignedForm_iff_of_head hhead).symm

theorem isInteger_iff : isInteger cs = true ↔ IsSignedForm '-' IsDigit cs := by
  unfold isInteger
  split
  · rw [allOf_iff fun _ => isDigit_iff, isSignedForm_cons_iff (by decide)]
  · rename_i hhead
    rw [allOf_iff fun _ => isDigit_iff, isSignedForm_iff_of_head hhead]

theorem isMoniker_iff :
    isMoniker cs = true ↔ 2 ≤ cs.length ∧ cs.length ≤ 24 ∧ ∀ c ∈ cs, IsLetter c ∨ IsDigit c := by
  simp only [isMoniker, Bool.and_eq_true, List.all_eq_true, decide_eq_true_eq, isAlnum_iff]
  tauto

theorem isName_iff : isName cs = true ↔ IsWordsForm IsName cs := by
  simp only [isName, List.all_eq_true, allOf_iff fun _ => isNameChar_iff, IsWordsForm]

theorem hasShape_iff {tests : List (Char → Bool)} :
    hasShape tests cs = true ↔ cs ∈ shape (tests.map fun test c => test c = true) := by
  induction tests generalizing cs with
  | nil =>
      cases cs with
      | nil => exact iff_of_true rfl List.Forall₂.nil
      | cons c rest => exact iff_of_false Bool.false_ne_true nofun
  | cons test rest ih =>
      cases cs with
      | nil => exact iff_of_false Bool.false_ne_true nofun
      | cons c others =>
          rw [hasShape, Bool.and_eq_true, ih, List.map_cons, mem_shape_cons_iff]

/-- The tests of a day and of a moment are for the classes of their patterns. -/
theorem map_dayShape :
    dayShape.map (fun test c => test c = true) = (List.range 10).map dayClass := by
  have hdigit : (fun c => Char.isDigit c = true) = IsDigit := funext fun c => propext isDigit_iff
  have hhyphen : (fun c => (c == '-') = true) = (· = '-') := funext fun c => propext beq_iff_eq
  simp only [dayShape, digits, exactly, List.map_append, List.map_replicate, List.map_cons,
    List.map_nil, hdigit, hhyphen]
  rfl

theorem map_momentShape :
    (dayShape ++ [fun c => c == 'T' || c == ' '] ++ timeShape).map (fun test c => test c = true) =
      (List.range 19).map momentClass := by
  have hdigit : (fun c => Char.isDigit c = true) = IsDigit := funext fun c => propext isDigit_iff
  have hcolon : (fun c => (c == ':') = true) = (· = ':') := funext fun c => propext beq_iff_eq
  have hbetween : (fun c => (c == 'T' || c == ' ') = true) = fun c => c = 'T' ∨ c = ' ' := by
    funext c
    rw [Bool.or_eq_true, beq_iff_eq, beq_iff_eq]
  rw [List.map_append, List.map_append, map_dayShape]
  simp only [timeShape, digits, exactly, List.map_append, List.map_replicate, List.map_cons,
    List.map_nil, hdigit, hcolon, hbetween]
  rfl

theorem isDay_iff : isDay cs = true ↔ IsPlacedForm 10 dayClass cs := by
  rw [isDay, hasShape_iff, map_dayShape, mem_shape_range_iff, IsPlacedForm]

theorem isMoment_iff : isMoment cs = true ↔ IsPlacedForm 19 momentClass cs := by
  rw [isMoment, hasShape_iff, map_momentShape, mem_shape_range_iff, IsPlacedForm]

end Grammar

/-!
## Validators
-/

namespace ValidatorKind

/-- The pattern of the values of a validator, if there is one. -/
def pattern? : ValidatorKind → Option (Language Char)
  | .email => some Pattern.email
  | .phone => some Pattern.phone
  | .date => some Pattern.date
  | .timestamp => some Pattern.timestamp
  | .integer => some Pattern.integer
  | .moniker => some Pattern.moniker
  | .name => some Pattern.name
  | .text | .boolean | .enum => none

/-- How long a value has to be beside matching the pattern. -/
def leastLength : ValidatorKind → Nat
  | .phone => 7
  | _ => 0

/-- The form of the values of a validator in words, nothing if there is no pattern. -/
def HasForm (kind : ValidatorKind) (cs : List Char) : Prop :=
  match kind with
  | .email => Pattern.IsEmailForm cs
  | .phone => Pattern.IsSignedForm '+' Pattern.IsPhone cs ∧ 7 ≤ cs.length
  | .date => Pattern.IsPlacedForm 10 Pattern.dayClass cs
  | .timestamp => Pattern.IsPlacedForm 19 Pattern.momentClass cs
  | .integer => Pattern.IsSignedForm '-' Pattern.IsDigit cs
  | .moniker => 2 ≤ cs.length ∧ cs.length ≤ 24 ∧ ∀ c ∈ cs, Pattern.IsLetter c ∨ Pattern.IsDigit c
  | .name => Pattern.IsWordsForm Pattern.IsName cs
  | .text | .boolean | .enum => False

variable {kind : ValidatorKind} {pattern : Language Char}

theorem accepts_iff_hasForm (hpattern : kind.pattern? = some pattern) (d : Definition)
    (text : String) : kind.accepts d text = true ↔ kind.HasForm text.toList := by
  cases kind with
  | email => exact Grammar.isEmail_iff
  | phone => exact Grammar.isPhone_iff
  | date => exact Grammar.isDay_iff
  | timestamp => exact Grammar.isMoment_iff
  | integer => exact Grammar.isInteger_iff
  | moniker => exact Grammar.isMoniker_iff
  | name => exact Grammar.isName_iff
  | text | boolean | enum => cases hpattern

theorem hasForm_iff_mem (hpattern : kind.pattern? = some pattern) (cs : List Char) :
    kind.HasForm cs ↔ cs ∈ pattern ∧ kind.leastLength ≤ cs.length := by
  have hunbounded : ∀ {P : Prop}, P ↔ P ∧ 0 ≤ cs.length := (and_iff_left (Nat.zero_le _)).symm
  cases kind with
  | email =>
      cases hpattern
      exact Pattern.mem_email_iff.symm.trans hunbounded
  | phone =>
      cases hpattern
      exact and_congr_left' Pattern.mem_optional_mul_iff.symm
  | date =>
      cases hpattern
      rw [Pattern.date_eq_shape, Pattern.mem_shape_range_iff]
      exact hunbounded
  | timestamp =>
      cases hpattern
      rw [Pattern.timestamp_eq_shape, Pattern.mem_shape_range_iff]
      exact hunbounded
  | integer =>
      cases hpattern
      exact Pattern.mem_optional_mul_iff.symm.trans hunbounded
  | moniker =>
      cases hpattern
      exact Pattern.mem_between_iff.symm.trans hunbounded
  | name =>
      cases hpattern
      exact (Pattern.mem_words_iff (by decide)).symm.trans hunbounded
  | text | boolean | enum => cases hpattern

theorem isWritten_of_hasForm {cs : List Char} (h : kind.HasForm cs) :
    ∀ c ∈ cs, Pattern.IsWritten c := by
  cases kind with
  | email => exact h.isWritten
  | phone =>
      have hsigns : [' ', '(', ')', '-'].Forall Pattern.IsWritten := by decide
      refine h.1.isWritten (by decide) fun c hc => ?_
      rcases hc with hdigit | hsign
      · exact Or.inl hdigit
      · exact List.forall_iff_forall_mem.mp hsigns c hsign
  | date => exact h.forall_mem fun i c hc => Pattern.isWritten_of_dayClass hc
  | timestamp => exact h.forall_mem fun i c hc => Pattern.isWritten_of_momentClass hc
  | integer => exact h.isWritten (by decide) fun c hc => Or.inl hc
  | moniker =>
      intro c hc
      rcases h.2.2 c hc with hletter | hdigit
      · exact hletter.isWritten
      · exact Or.inl hdigit
  | name => exact h.isWritten
  | text | boolean | enum => cases h

/-- A validator with a pattern accepts exactly the texts that the pattern matches from end to end and
that are long enough, which are those of its form.  No text with a line feed is among them, and none
with a digit of another script. -/
theorem check_eq_accepted_iff_hasForm (hpattern : kind.pattern? = some pattern) (d : Definition)
    (name text : String) :
    (kind.check d name text = .accepted ↔
      text.toList ∈ pattern ∧ kind.leastLength ≤ text.toList.length) ∧
    (kind.check d name text = .accepted ↔ kind.HasForm text.toList) ∧
    (kind.check d name text = .accepted → ∀ c ∈ text.toList,
      c ≠ '\n' ∧ ((Text.digitValue? c).isSome = true → Pattern.IsDigit c)) := by
  rw [check_eq_accepted_iff, accepts_iff_hasForm hpattern d text]
  refine ⟨hasForm_iff_mem hpattern text.toList, Iff.rfl, ?_⟩
  intro hform c hc
  exact (isWritten_of_hasForm hform c hc).plain

/-- A mail address with several dots is found, and one with a line feed behind it is not; neither is
a number in the digits of another script. -/
theorem check_eq_accepted_iff_hasForm_of_samples :
    "a.b+c@d.e-f.org".toList ∈ Pattern.email ∧
      ¬ValidatorKind.email.HasForm "a@b.org\n".toList ∧
      ValidatorKind.integer.check { fieldName := .null } "n" "\u0661" ≠ .accepted := by
  have hmail := check_eq_accepted_iff_hasForm
    (rfl : ValidatorKind.email.pattern? = some Pattern.email) { fieldName := .null } "mail"
  have hnumber := check_eq_accepted_iff_hasForm
    (rfl : ValidatorKind.integer.pattern? = some Pattern.integer) { fieldName := .null } "n"
  refine ⟨((hmail "a.b+c@d.e-f.org").1.mp (by decide)).1, ?_, ?_⟩
  · intro hform
    have hchars := (hmail "a@b.org\n").2.2 ((hmail "a@b.org\n").2.1.mpr hform)
    exact (hchars '\n' (by decide)).1 rfl
  · intro haccepted
    have hdigit := ((hnumber "\u0661").2.2 haccepted '\u0661' (by decide)).2 (by decide)
    exact absurd hdigit (by decide)

end ValidatorKind
end Roster
