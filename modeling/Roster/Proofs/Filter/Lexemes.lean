import Mathlib.Data.List.Forall2
import Roster.Filter.Clause

/-!
# Lexemes of a query

A query is cut into lexemes in one pass.  A name stands between double quotes and a text between
single quotes, and a quote inside is written twice; a parameter is a colon with its name behind it;
any other word is a keyword or the name of a function.  Blanks only keep lexemes apart.
-/

namespace Roster

/-- The words of a query that mean something by themselves. -/
inductive Keyword where
  | and
  | or
  | not
  | like
  | escape
  | coalesce
  deriving DecidableEq, Repr

namespace Keyword

/-- All keywords. -/
def all : List Keyword := [.and, .or, .not, .like, .escape, .coalesce]

def text : Keyword → String
  | .and => "AND"
  | .or => "OR"
  | .not => "NOT"
  | .like => "LIKE"
  | .escape => "ESCAPE"
  | .coalesce => "COALESCE"

/-- The keyword that a word is, in letters of either case. -/
def ofWord? (word : List Char) : Option Keyword :=
  all.find? fun keyword => keyword.text.toList == word.map Char.toUpper

end Keyword

/-- The two kinds of quotes. -/
inductive Quote where
  | double
  | single
  deriving DecidableEq, Repr

namespace Quote

def char : Quote → Char
  | .double => '"'
  | .single => '\''

def ofChar? (c : Char) : Option Quote :=
  if c == '"' then some .double else if c == '\'' then some .single else none

@[simp] theorem ofChar?_char (quote : Quote) : ofChar? quote.char = some quote := by
  cases quote <;> decide

end Quote

/-- The smallest parts of a query. -/
inductive Lexeme where
  | keyword (keyword : Keyword)
  | word (cs : List Char)
  /-- What stands between double quotes. -/
  | name (cs : List Char)
  /-- What stands between single quotes. -/
  | text (cs : List Char)
  | parameter (cs : List Char)
  | sign (c : Char)
  deriving DecidableEq, Repr

namespace Lexeme

def parameter? : Lexeme → Option String
  | .parameter cs => some (String.ofList cs)
  | _ => none

def ofWord (cs : List Char) : Lexeme :=
  (Keyword.ofWord? cs).elim (.word cs) .keyword

def ofQuoted : Quote → List Char → Lexeme
  | .double, cs => .name cs
  | .single, cs => .text cs

/-- Characters of words and of names of parameters. -/
def isWordChar (c : Char) : Bool :=
  c.isAlphanum || c == '_' || c == '$' || decide (0x80 ≤ c.toNat)

/-- Where reading stands, with what it has seen of a lexeme. -/
inductive Mode where
  | between
  | inWord (seen : List Char)
  | inParameter (seen : List Char)
  | inQuotes (quote : Quote) (seen : List Char)
  /-- Behind a quote that closes the lexeme or stands for itself. -/
  | afterQuote (quote : Quote) (seen : List Char)
  deriving DecidableEq, Repr

namespace Mode

/-- The lexeme that ends here, if none goes on. -/
def pending : Mode → List Lexeme
  | .inWord seen => [ofWord seen]
  | .inParameter seen => [.parameter seen]
  | .afterQuote quote seen => [ofQuoted quote seen]
  | _ => []

/-- Where a character leads that goes on with the lexeme. -/
def goOn? : Mode → Char → Option Mode
  | .between, _ => none
  | .inWord seen, c => if isWordChar c then some (.inWord (seen ++ [c])) else none
  | .inParameter seen, c => if isWordChar c then some (.inParameter (seen ++ [c])) else none
  | .inQuotes quote seen, c =>
      some (if c == quote.char then .afterQuote quote seen else .inQuotes quote (seen ++ [c]))
  | .afterQuote quote seen, c =>
      if c == quote.char then some (.inQuotes quote (seen ++ [c])) else none

end Mode

/-- What a character is in front of which a lexeme may end. -/
def start (c : Char) : List Lexeme × Mode :=
  match Quote.ofChar? c with
  | some quote => ([], .inQuotes quote [])
  | none =>
      if c.isWhitespace then ([], .between)
      else if c == ':' then ([], .inParameter [])
      else if isWordChar c then ([], .inWord [c])
      else ([.sign c], .between)

def step (mode : Mode) (c : Char) : List Lexeme × Mode :=
  match mode.goOn? c with
  | some next => ([], next)
  | none => (mode.pending ++ (start c).1, (start c).2)

/-- Read some characters: the lexemes that ended, and where reading stands then. -/
def scan (mode : Mode) : List Char → List Lexeme × Mode
  | [] => ([], mode)
  | c :: rest =>
      let (found, next) := step mode c
      let (more, last) := scan next rest
      (found ++ more, last)

/-- The lexemes of a query, unless a quote is left open. -/
def read (cs : List Char) : Option (List Lexeme) :=
  match scan .between cs with
  | (_, .inQuotes _ _) => none
  | (found, last) => some (found ++ last.pending)

/-!
## Reading in pieces
-/

theorem scan_cons (mode : Mode) (c : Char) (rest : List Char) :
    scan mode (c :: rest) =
      ((step mode c).1 ++ (scan (step mode c).2 rest).1, (scan (step mode c).2 rest).2) := rfl

theorem scan_append (mode : Mode) (front back : List Char) :
    scan mode (front ++ back) =
      ((scan mode front).1 ++ (scan (scan mode front).2 back).1,
        (scan (scan mode front).2 back).2) := by
  induction front generalizing mode with
  | nil => rfl
  | cons c rest ih => rw [List.cons_append, scan_cons, scan_cons, ih, List.append_assoc]

/-- A text that gives lexemes when it is read from its start; the last of them may go on. -/
def Gives (cs : List Char) (lexemes : List Lexeme) : Prop :=
  ∃ found last, scan .between cs = (found, last) ∧ (∀ quote seen, last ≠ .inQuotes quote seen) ∧
    lexemes = found ++ last.pending

theorem read_of_gives {cs : List Char} {lexemes : List Lexeme} (h : Gives cs lexemes) :
    read cs = some lexemes := by
  rcases h with ⟨found, last, hscan, hopen, rfl⟩
  rw [read, hscan]
  cases last with
  | inQuotes quote seen => exact absurd rfl (hopen quote seen)
  | _ => rfl

/-- A text behind which nothing goes on can be followed by anything. -/
theorem Gives.of_scan {front back : List Char} {lexemes more : List Lexeme}
    (hfront : scan .between front = (lexemes, .between)) (hback : Gives back more) :
    Gives (front ++ back) (lexemes ++ more) := by
  rcases hback with ⟨found, last, hscan, hopen, rfl⟩
  exists lexemes ++ found, last
  constructor
  · rw [scan_append, hfront, hscan]
  · constructor
    · exact hopen
    · rw [List.append_assoc]

/-- The character ends any lexeme outside quotes. -/
structure IsBreak (c : Char) : Prop where
  isWordChar_eq : isWordChar c = false
  ofChar?_eq : Quote.ofChar? c = none

theorem goOn?_of_isBreak {mode : Mode} {c : Char} (hc : IsBreak c)
    (hopen : ∀ quote seen, mode ≠ .inQuotes quote seen) : mode.goOn? c = none := by
  cases mode with
  | between => rfl
  | inWord seen => rw [Mode.goOn?, hc.isWordChar_eq, if_neg Bool.false_ne_true]
  | inParameter seen => rw [Mode.goOn?, hc.isWordChar_eq, if_neg Bool.false_ne_true]
  | inQuotes quote seen => exact absurd rfl (hopen quote seen)
  | afterQuote quote seen =>
      rw [Mode.goOn?, if_neg]
      rw [beq_iff_eq]
      rintro rfl
      have hquote := hc.ofChar?_eq
      rw [Quote.ofChar?_char] at hquote
      cases hquote

theorem Gives.append {front back : List Char} {c : Char} {lexemes more : List Lexeme}
    (hfront : Gives front lexemes) (hc : IsBreak c) (hback : Gives (c :: back) more) :
    Gives (front ++ c :: back) (lexemes ++ more) := by
  rcases hfront with ⟨found, middle, hscan, hopen, rfl⟩
  rcases hback with ⟨others, last, hrest, hend, rfl⟩
  -- The break ends what the first text left pending, and is read as at the start of the second.
  have hmiddle : scan middle (c :: back) = (middle.pending ++ others, last) := by
    have hstep : step middle c = (middle.pending ++ (start c).1, (start c).2) := by
      rw [step, goOn?_of_isBreak hc hopen]
    rw [scan_cons, hstep, List.append_assoc]
    rw [scan_cons] at hrest
    have hfound := congrArg Prod.fst hrest
    have hlast := congrArg Prod.snd hrest
    exact Prod.ext (congrArg (middle.pending ++ ·) hfound) hlast
  exists found ++ (middle.pending ++ others), last
  constructor
  · rw [scan_append, hscan, hmiddle]
  · constructor
    · exact hend
    · rw [List.append_assoc, List.append_assoc, List.append_assoc]

/-!
## Names, texts and parameters
-/

/-- A text with each quote written twice. -/
def doubled (quote : Quote) (cs : List Char) : List Char :=
  cs.flatMap fun c => if c == quote.char then [c, c] else [c]

theorem scan_doubled (quote : Quote) (seen cs : List Char) :
    scan (.inQuotes quote seen) (doubled quote cs) = ([], .inQuotes quote (seen ++ cs)) := by
  induction cs generalizing seen with
  | nil => rw [List.append_nil]; rfl
  | cons c rest ih =>
      have hrest : seen ++ c :: rest = seen ++ [c] ++ rest := by simp
      have hdoubled : doubled quote (c :: rest) =
          (if c == quote.char then [c, c] else [c]) ++ doubled quote rest := rfl
      rw [hdoubled, hrest, scan_append]
      -- A doubled quote leaves the quotes and enters them again, with one quote more seen.
      by_cases hc : (c == quote.char) = true
      · have hpair : scan (.inQuotes quote seen) [c, c] = ([], .inQuotes quote (seen ++ [c])) := by
          simp [scan, step, Mode.goOn?, hc]
        rw [if_pos hc, hpair, ih]
        rfl
      · have hone : scan (.inQuotes quote seen) [c] = ([], .inQuotes quote (seen ++ [c])) := by
          simp [scan, step, Mode.goOn?, hc]
        rw [if_neg hc, hone, ih]
        rfl

theorem gives_quoted (quote : Quote) (cs : List Char) :
    Gives (quote.char :: (doubled quote cs ++ [quote.char])) [ofQuoted quote cs] := by
  exists [], .afterQuote quote cs
  constructor
  · have hopen : step .between quote.char = ([], .inQuotes quote []) := by
      rw [step, Mode.goOn?, start, Quote.ofChar?_char]
      rfl
    have hclose : scan (.inQuotes quote cs) [quote.char] = ([], .afterQuote quote cs) := by
      simp [scan, step, Mode.goOn?]
    rw [scan_cons, hopen, scan_append, scan_doubled]
    simp only [List.nil_append, hclose]
  · exact ⟨nofun, rfl⟩

theorem scan_parameter {cs : List Char} (h : ∀ c ∈ cs, isWordChar c = true) (seen : List Char) :
    scan (.inParameter seen) cs = ([], .inParameter (seen ++ cs)) := by
  induction cs generalizing seen with
  | nil => rw [List.append_nil]; rfl
  | cons c rest ih =>
      have hc : step (.inParameter seen) c = ([], .inParameter (seen ++ [c])) := by
        rw [step, Mode.goOn?, if_pos (h c List.mem_cons_self)]
      have hrest := ih (fun other hother => h other (List.mem_cons_of_mem _ hother)) (seen ++ [c])
      rw [scan_cons, hc, hrest, List.append_assoc]
      rfl

theorem gives_parameter {front cs : List Char} {lexemes : List Lexeme}
    (hfront : scan .between front = (lexemes, .inParameter []))
    (h : ∀ c ∈ cs, isWordChar c = true) : Gives (front ++ cs) (lexemes ++ [.parameter cs]) := by
  exists lexemes, .inParameter cs
  constructor
  · rw [scan_append, hfront, scan_parameter h, List.nil_append, List.append_nil]
  · exact ⟨nofun, rfl⟩

/-!
## Texts joined by a keyword
-/

theorem gives_intercalate {separator : String} {keyword : Keyword} {rest : List Char}
    (hseparator : separator.toList = ' ' :: rest)
    (hscan : scan .between separator.toList = ([.keyword keyword], .between))
    {texts : List String} {lexemes : List (List Lexeme)}
    (h : List.Forall₂ (fun (text : String) found => Gives text.toList found) texts lexemes)
    (hne : texts ≠ []) :
    Gives (separator.intercalate texts).toList ([.keyword keyword].intercalate lexemes) := by
  induction h with
  | nil => exact absurd rfl hne
  | @cons text found texts lexemes hfirst hothers ih =>
      cases hothers with
      | nil => simpa using hfirst
      | cons hnext hmore =>
          have hrest := ih (List.cons_ne_nil _ _)
          rw [String.intercalate_cons_cons, List.intercalate_cons_cons, String.toList_append,
            String.toList_append, List.append_assoc, List.append_assoc]
          have hback := Gives.of_scan hscan hrest
          rw [hseparator, List.cons_append] at hback ⊢
          exact hfirst.append ⟨by decide, by decide⟩ hback

end Lexeme
end Roster
