import Mathlib.Data.List.Chain
import Roster.Proofs.Yaml.Cursor
import Roster.Yaml.Printer

/-!
# Stretches of a text

A scalar without escapes is written stretch by stretch.  The stretches of a text put together are
the text, and where line ends and blanks do not meet, every second stretch is a word.
-/

namespace Roster
namespace Yaml

/-- What a character is to the pen. -/
inductive CharClass where
  | blank
  | lineEnd
  | letter
  deriving DecidableEq

namespace CharClass

def of (c : Char) : CharClass :=
  if c == ' ' then .blank else if Style.isBreak c then .lineEnd else .letter

theorem of_eq_blank_iff {c : Char} : of c = .blank ↔ c = ' ' := by
  rw [of]
  split
  · simpa using ‹(c == ' ') = true›
  · rename_i hspace
    refine iff_of_false (fun heq => ?_) (by simpa using hspace)
    split at heq <;> cases heq

theorem of_eq_lineEnd_iff {c : Char} : of c = .lineEnd ↔ Style.isBreak c = true := by
  rw [of]
  split
  · rename_i hspace
    rw [beq_iff_eq.mp hspace]
    exact iff_of_false (fun heq => nomatch heq) (by decide)
  · split
    · exact iff_of_true rfl ‹_›
    · exact iff_of_false (fun heq => nomatch heq) ‹_›

theorem of_eq_letter_iff {c : Char} : of c = .letter ↔ c ≠ ' ' ∧ Style.isBreak c = false := by
  rw [← Bool.not_eq_true, ← of_eq_lineEnd_iff, ne_eq, ← of_eq_blank_iff]
  cases of c <;> simp

/-- Of two neighbours of different classes one is a letter, where line ends and blanks do not
meet. -/
theorem letter_of_apart {c d : Char} (hne : of d ≠ of c)
    (hspace : c = ' ' → Style.isBreak d = false)
    (hbreak : Style.isBreak c = true → d ≠ ' ') : of c = .letter ↔ of d ≠ .letter := by
  cases hc : of c with
  | letter => simpa [hc] using hne
  | blank =>
      rw [of_eq_blank_iff] at hc
      have hletter := of_eq_letter_iff.mpr ⟨fun hd => hne (by rw [hd, hc]), hspace hc⟩
      simp [hletter]
  | lineEnd =>
      have hnot : Style.isBreak d = false := by
        rw [← Bool.not_eq_true, ← of_eq_lineEnd_iff, ← hc]
        exact hne
      rw [of_eq_lineEnd_iff] at hc
      simp [of_eq_letter_iff.mpr ⟨hbreak hc, hnot⟩]

end CharClass

namespace Stretch

def text : Stretch → List Char
  | .blanks count => List.replicate count ' '
  | .breaks cs => cs
  | .word cs => cs

/-- The class of the characters of a stretch. -/
def charClass : Stretch → CharClass
  | .blanks _ => .blank
  | .breaks _ => .lineEnd
  | .word _ => .letter

/-- The stretch has characters, all of its own class. -/
def IsProper (s : Stretch) : Prop :=
  s.text ≠ [] ∧ ∀ c ∈ s.text, CharClass.of c = s.charClass

/-- Words and what stands between them take turns. -/
abbrev TakeTurns (stretches : List Stretch) : Prop :=
  stretches.IsChain fun a b => (a.charClass = .letter) ↔ (b.charClass ≠ .letter)

/-- The stretches with one character more in front. -/
def grow (c : Char) (rest : List Stretch) : List Stretch :=
  if c == ' ' then
    match rest with
    | .blanks count :: rest => .blanks (count + 1) :: rest
    | _ => .blanks 1 :: rest
  else if Style.isBreak c then
    match rest with
    | .breaks cs :: rest => .breaks (c :: cs) :: rest
    | _ => .breaks [c] :: rest
  else
    match rest with
    | .word cs :: rest => .word (c :: cs) :: rest
    | _ => .word [c] :: rest

theorem stretches_cons (c : Char) (cs : List Char) : stretches (c :: cs) = grow c (stretches cs) :=
  rfl

/-- A character lengthens the first stretch when it is of the same class; otherwise it is a stretch
of its own. -/
theorem grow_cases (c : Char) (rest : List Stretch) :
    (∃ s s' more, rest = s :: more ∧ grow c rest = s' :: more ∧ s'.text = c :: s.text ∧
        s.charClass = CharClass.of c ∧ s'.charClass = CharClass.of c) ∨
      ∃ s', grow c rest = s' :: rest ∧ s'.text = [c] ∧ s'.charClass = CharClass.of c ∧
        ∀ s ∈ rest.head?, s.charClass ≠ CharClass.of c := by
  unfold grow CharClass.of
  cases rest with
  | nil => split_ifs <;> simp_all [text, charClass]
  | cons s more =>
      cases s with
      | blanks count => split_ifs <;> simp_all [text, charClass, List.replicate_succ]
      | breaks cs => split_ifs <;> simp_all [text, charClass]
      | word cs => split_ifs <;> simp_all [text, charClass]

theorem flatMap_text_stretches (cs : List Char) : (stretches cs).flatMap text = cs := by
  induction cs with
  | nil => rfl
  | cons c cs ih =>
      rw [stretches_cons]
      rcases grow_cases c (stretches cs) with
        ⟨s, s', more, hrest, hgrow, htext, -⟩ | ⟨s', hgrow, htext, -⟩
      · rw [hrest, List.flatMap_cons] at ih
        rw [hgrow, List.flatMap_cons, htext, List.cons_append, ih]
      · rw [hgrow, List.flatMap_cons, htext, ih, List.singleton_append]

theorem stretches_of_letters {cs : List Char} (hne : cs ≠ [])
    (h : ∀ ch ∈ cs, CharClass.of ch = .letter) : stretches cs = [.word cs] := by
  induction cs with
  | nil => exact absurd rfl hne
  | cons c cs ih =>
      rcases List.forall_mem_cons.mp h with ⟨hletter, hletters⟩
      rcases CharClass.of_eq_letter_iff.mp hletter with ⟨hblank, hbreak⟩
      rw [stretches_cons]
      cases cs with
      | nil => simp [stretches, grow, hblank, hbreak]
      | cons next cs => simp [ih (List.cons_ne_nil _ _) hletters, grow, hblank, hbreak]

theorem mem_of_mem_text {cs : List Char} {s : Stretch} {c : Char} (hs : s ∈ stretches cs)
    (hc : c ∈ s.text) : c ∈ cs := by
  rw [← flatMap_text_stretches cs]
  exact List.mem_flatMap.mpr ⟨s, hs, hc⟩

theorem isProper_of_mem {cs : List Char} {s : Stretch} (h : s ∈ stretches cs) : s.IsProper := by
  induction cs generalizing s with
  | nil => cases h
  | cons c cs ih =>
      rw [stretches_cons] at h
      rcases grow_cases c (stretches cs) with
        ⟨old, new, more, hrest, hgrow, htext, hold, hnew⟩ | ⟨new, hgrow, htext, hnew, -⟩
      · rw [hgrow, List.mem_cons] at h
        rcases h with rfl | hmore
        · have hproper := ih (hrest ▸ List.mem_cons_self)
          refine ⟨by simp [htext], ?_⟩
          rw [htext, List.forall_mem_cons, hnew, ← hold]
          exact ⟨rfl, hproper.2⟩
        · exact ih (hrest ▸ List.mem_cons_of_mem _ hmore)
      · rw [hgrow, List.mem_cons] at h
        rcases h with rfl | hold
        · exact ⟨by simp [htext], by simp [htext, hnew]⟩
        · exact ih hold

theorem apart_of_holdsPair {first second : Char → Bool} {c : Char} {cs : List Char}
    (h : Style.holdsPair first second (c :: cs) = false) :
    (∀ d ∈ cs.head?, first c = true → second d = false) ∧
      Style.holdsPair first second cs = false := by
  cases cs with
  | nil => exact ⟨fun _ hd => (nomatch hd), rfl⟩
  | cons d cs =>
      rw [Style.holdsPair, Bool.or_eq_false_iff, Bool.and_eq_false_imp] at h
      refine ⟨fun e he => ?_, h.2⟩
      cases he
      exact h.1

/-- In a text where line ends and blanks do not meet every second stretch is a word. -/
theorem takeTurns_stretches {cs : List Char}
    (hbefore : Style.holdsPair Style.isSpace Style.isBreak cs = false)
    (hbehind : Style.holdsPair Style.isBreak Style.isSpace cs = false) :
    TakeTurns (stretches cs) := by
  induction cs with
  | nil => exact List.isChain_nil
  | cons c cs ih =>
      rcases apart_of_holdsPair hbefore with ⟨hspace, hbefore⟩
      rcases apart_of_holdsPair hbehind with ⟨hbreak, hbehind⟩
      have hturns := ih hbefore hbehind
      rw [stretches_cons]
      rcases grow_cases c (stretches cs) with
        ⟨old, new, more, hrest, hgrow, -, hold, hnew⟩ | ⟨new, hgrow, -, hnew, hother⟩
      · rw [hrest, TakeTurns, List.isChain_cons] at hturns
        rw [hgrow, TakeTurns, List.isChain_cons, hnew, ← hold]
        exact hturns
      · rw [hgrow, TakeTurns, List.isChain_cons, hnew]
        refine ⟨fun s hs => ?_, hturns⟩
        -- The stretch behind is of another class; if neither is a word, a pair is found.
        rcases List.head?_eq_some_iff.mp hs with ⟨more, hrest⟩
        have hproper := isProper_of_mem (hrest ▸ List.mem_cons_self : s ∈ stretches cs)
        rcases List.exists_cons_of_ne_nil hproper.1 with ⟨d, ds, htext⟩
        have hd : d ∈ cs.head? := by
          rw [← flatMap_text_stretches cs, hrest, List.flatMap_cons, htext]
          rfl
        have hclass := hproper.2 d (htext ▸ List.mem_cons_self)
        have hne := hother s hs
        rw [← hclass] at hne ⊢
        exact CharClass.letter_of_apart hne (fun hc => hspace d hd (by simp [Style.isSpace, hc]))
          fun hc hd' => by simpa [Style.isSpace, hd'] using hbreak d hd hc

end Stretch
end Yaml
end Roster
