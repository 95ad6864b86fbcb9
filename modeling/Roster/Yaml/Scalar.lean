import Roster.Yaml.Cursor

/-!
# Reading scalars

A scalar stands without quotes, between quotes, or as a block of lines.  Line ends inside a scalar
are folded: a single one becomes a blank, of several the first is dropped.
-/

namespace Roster
namespace Yaml
namespace Scalar

/-! ## Between quotes -/

/-- Escapes of one letter between double quotes. -/
def letterEscapes : List (Char × Char) :=
  [('0', '\x00'), ('a', '\x07'), ('b', '\x08'), ('t', '\t'), ('\t', '\t'), ('n', '\n'),
    ('v', '\x0B'), ('f', '\x0C'), ('r', '\r'), ('e', '\x1B'), (' ', ' '), ('"', '"'),
    ('\\', '\\'), ('/', '/'), ('N', '\x85'), ('_', '\xA0'), ('L', '\u2028'), ('P', '\u2029')]

/-- Letters of the escapes that write a code point, with the count of their digits. -/
def codeEscapes : List (Char × Nat) := [('x', 2), ('u', 4), ('U', 8)]

/-- Value of a digit of base sixteen. -/
def hexValue? (c : Char) : Option Nat :=
  if c.isDigit then some (c.toNat - 48)
  else if 'a' ≤ c && c ≤ 'f' then some (c.toNat - 87)
  else if 'A' ≤ c && c ≤ 'F' then some (c.toNat - 55)
  else none

/-- Number that digits of base sixteen write. -/
def hexNumber (digits : List Char) : Nat :=
  digits.foldl (fun n c => 16 * n + (hexValue? c).getD 0) 0

def charOfCode (code : Nat) : Except Fault Char :=
  if code < 0x110000 then .ok (if code < 0xD800 || 0xDFFF < code then Char.ofNat code else '\uFFFD')
  else if code < 0x80000000 then .error .noCharacter
  else .error .hugeCharacter

/-- Digits of an escape, and the character that they write. -/
def codeEscape (start : Mark) (count : Nat) (c : Cursor) : Except Fault (Char × Cursor) := do
  let digits := (c.rest.take count).takeWhile fun ch => (hexValue? ch).isSome
  if digits.length < count then
    c.refuse .doubleQuoted start
      (.expected ("escape sequence of " ++ toString count ++ " hexadecimal numbers")
        (c.peekAt digits.length))
  else
    let ch ← charOfCode (hexNumber digits)
    .ok (ch, c.forward count)

/-- Further line ends and the blanks in front of the next word, in reverse. A line between documents
cannot stand inside quotes. -/
def quotedBreaks (start : Mark) : (bound : Nat) → List Char → Cursor → Except Fault (List Char × Cursor)
  | 0, reversed, c => .ok (reversed, c)
  | bound + 1, reversed, c =>
      if c.atDocumentLine then c.refuse .quoted start .documentSeparator
      else
        let c := c.skipWhile Cursor.isGap
        match c.lineBreak? with
        | some (ch, c) => quotedBreaks start bound (ch :: reversed) c
        | none => .ok (reversed, c)

/-- What line ends become: the first one a blank if it is the only one, or nothing, unless it is
of its own kind. -/
def foldBreaks (first : Char) (reversed : List Char) : List Char :=
  if first != '\n' then reversed ++ [first]
  else if reversed.isEmpty then [' ']
  else reversed

/-- Blanks or line ends between words, in reverse. -/
def quotedSpaces (start : Mark) (c : Cursor) : Except Fault (List Char × Cursor) := do
  let (blanks, c) := c.takeWhile Cursor.isGap
  if c.atEnd then c.refuse .quoted start .endOfStream
  else
    match c.lineBreak? with
    | some (first, c) => do
        let (breaks, c) ← quotedBreaks start c.rest.length [] c
        .ok (foldBreaks first breaks, c)
    | none => .ok (blanks.reverse, c)

/-- An escape behind its backslash, in reverse. -/
def quotedEscape (start : Mark) (c : Cursor) : Except Fault (List Char × Cursor) :=
  match letterEscapes.lookup c.peek, codeEscapes.lookup c.peek, c.lineBreak? with
  | some ch, _, _ => .ok ([ch], c.step)
  | none, some count, _ => do
      let (ch, c) ← codeEscape start count c.step
      .ok ([ch], c)
  | none, none, some (_, c) => quotedBreaks start c.rest.length [] c
  | none, none, none => c.refuse .doubleQuoted start (.unknownEscape c.peek)

/-- Characters up to the closing quote; `reversed` holds those so far. -/
def quotedFrom (double : Bool) (start : Mark) :
    (bound : Nat) → (reversed : List Char) → Cursor → Except Fault (String × Cursor)
  | 0, _, c => c.refuse .quoted start .endOfStream
  | bound + 1, reversed, c =>
      let quote := if double then '"' else '\''
      match c.rest with
      | [] => c.refuse .quoted start .endOfStream
      | ch :: rest =>
          if ch == quote then
            if !double && rest.head? == some quote then
              quotedFrom double start bound (quote :: reversed) (c.forward 2)
            else .ok (String.ofList reversed.reverse, c.step)
          else if double && ch == '\\' then do
            let (chars, c) ← quotedEscape start c.step
            quotedFrom double start bound (chars ++ reversed) c
          else if Cursor.isGap ch || Style.isBreak ch then do
            let (chars, c) ← quotedSpaces start c
            quotedFrom double start bound (chars ++ reversed) c
          else quotedFrom double start bound (ch :: reversed) c.step

def quoted (double : Bool) (c : Cursor) : Except Fault (String × Cursor) :=
  quotedFrom double c.mark (c.rest.length + 1) [] c.step

/-! ## Without quotes -/

def isFlowIndicator (c : Char) : Bool :=
  c == ',' || c == '[' || c == ']' || c == '\x7b' || c == '\x7d'

/-- The value behind a key can start here. -/
def endsKey (flow : Bool) : List Char → Bool
  | [] => true
  | c :: _ => Style.isSeparator c || (flow && isFlowIndicator c)

def plainWord (flow : Bool) : List Char → List Char
  | [] => []
  | c :: rest =>
      if Style.isSeparator c || (c == ':' && endsKey flow rest)
          || (flow && (isFlowIndicator c || c == '?')) then []
      else c :: plainWord flow rest

/-- What follows a word of a scalar without quotes. -/
structure Gap where
  /-- The blanks as they count, in reverse. -/
  reversed : List Char
  cursor : Cursor
  /-- The line ended. -/
  brokeLine : Bool

/-- Further line ends in reverse; `none` in front of a line between documents. -/
def plainBreaks : (bound : Nat) → List Char → Cursor → Option (List Char) × Cursor
  | 0, reversed, c => (some reversed, c)
  | bound + 1, reversed, c =>
      let c := c.skipWhile Cursor.isSpace
      match c.lineBreak? with
      | some (ch, c) =>
          if c.atDocumentLine then (none, c) else plainBreaks bound (ch :: reversed) c
      | none => (some reversed, c)

/-- Blanks or line ends behind a word. -/
def plainGap (c : Cursor) : Gap :=
  let (blanks, c) := c.takeWhile Cursor.isSpace
  match c.lineBreak? with
  | none => ⟨blanks.reverse, c, false⟩
  | some (first, c) =>
      if c.atDocumentLine then ⟨[], c, true⟩
      else
        match plainBreaks c.rest.length [] c with
        | (none, c) => ⟨[], c, true⟩
        | (some breaks, c) => ⟨foldBreaks first breaks, c, true⟩

/-- A scalar without quotes: its text, where it ends, and whether the line ended behind it. -/
structure Plain where
  text : String
  stop : Mark
  brokeLine : Bool

/-- Words and the blanks between them. Outside brackets every line has to be indented. -/
def plainFrom (flow : Bool) (indent : Int) :
    (bound : Nat) → (reversed : List Char) → (gap : Gap) → (stop : Mark) → Plain × Cursor
  | 0, reversed, gap, stop => (⟨String.ofList reversed.reverse, stop, gap.brokeLine⟩, gap.cursor)
  | bound + 1, reversed, gap, stop =>
      let c := gap.cursor
      -- behind a gap a hash starts a comment, inside a word it does not
      let word := if c.peek == '#' then [] else plainWord flow c.rest
      if word.isEmpty then (⟨String.ofList reversed.reverse, stop, gap.brokeLine⟩, c)
      else
        let reversed := word.reverse ++ (gap.reversed ++ reversed)
        let c := c.forward word.length
        let next := plainGap c
        if next.reversed.isEmpty || next.cursor.peek == '#'
            || (!flow && (next.cursor.column : Int) < indent) then
          (⟨String.ofList reversed.reverse, c.mark, next.brokeLine⟩, next.cursor)
        else plainFrom flow indent bound reversed next c.mark

def plain (flow : Bool) (indent : Int) (c : Cursor) : Plain × Cursor :=
  plainFrom flow indent (c.rest.length + 1) [] ⟨[], c, false⟩ c.mark

/-- A scalar without quotes can start here. -/
def startsPlain (flow : Bool) (c : Cursor) : Bool :=
  match c.rest with
  | [] => false
  | ch :: rest =>
      !(Style.isSeparator ch || "-?:,[]{}#&*!|>'\"%@\x60".toList.contains ch)
        || (!Style.atSeparator rest && (ch == '-' || (!flow && (ch == '?' || ch == ':'))))

/-! ## Blocks of lines -/

/-- What becomes of the line ends at the end of a block. -/
inductive Chomping where
  | clip
  | strip
  | keep
  deriving DecidableEq, Repr

/-- How many columns the lines are indented beyond their parent, if that is written. -/
def blockIndent (start : Mark) (c : Cursor) : Except Fault (Option Nat × Cursor) :=
  if c.peek.isDigit then
    if c.peek == '0' then c.refuse .blockScalar start .zeroIndentation
    else .ok (some (c.peek.toNat - 48), c.step)
  else .ok (none, c)

/-- The sign for the line ends, if there is one. -/
def blockSign (c : Cursor) : Option Chomping × Cursor :=
  if c.peek == '+' then (some .keep, c.step)
  else if c.peek == '-' then (some .strip, c.step)
  else (none, c)

/-- Signs behind the indicator, in either order. -/
def blockHeader (start : Mark) (c : Cursor) : Except Fault ((Chomping × Option Nat) × Cursor) := do
  let (before, c) := blockSign c
  let (indent, c) ← blockIndent start c
  let (after, c) := if before.isNone && indent.isSome then blockSign c else (none, c)
  if c.atSpaceOrEnd then .ok (((before.or after).getD .clip, indent), c)
  else c.unexpected .blockScalar start "chomping or indentation indicators"

/-- The rest of the line of the indicator: blanks, a comment, and the line end. -/
def blockHeaderEnd (start : Mark) (c : Cursor) : Except Fault Cursor :=
  let c := c.skipComment
  if c.atLineEnd then .ok c.skipBreak
  else c.unexpected .blockScalar start "a comment or a line break"

/-- Leading empty lines in reverse, and the widest indentation among them and the first line. -/
def blockLead : (bound : Nat) → List Char → Nat → Cursor → (List Char × Nat) × Cursor
  | 0, reversed, widest, c => ((reversed, widest), c)
  | bound + 1, reversed, widest, c =>
      match c.lineBreak? with
      | some (ch, c) => blockLead bound (ch :: reversed) widest c
      | none =>
          if c.peek == ' ' then
            blockLead bound reversed (max widest c.step.column) c.step
          else ((reversed, widest), c)

def skipIndent (indent : Nat) (c : Cursor) : Cursor :=
  c.forward (((c.rest.take (indent - c.column)).takeWhile Cursor.isSpace).length)

/-- Empty lines in reverse, and the indentation of the next line. -/
def blockBreaks (indent : Nat) : (bound : Nat) → List Char → Cursor → List Char × Cursor
  | 0, reversed, c => (reversed, c)
  | bound + 1, reversed, c =>
      let c := skipIndent indent c
      match c.lineBreak? with
      | some (ch, c) => blockBreaks indent bound (ch :: reversed) c
      | none => (reversed, c)

/-- Lines of a block; `breaks` are the empty lines in front of the cursor, and `reversed` holds all
text before them. -/
def blockLines (folded : Bool) (chomping : Chomping) (indent : Nat) :
    (bound : Nat) → (reversed breaks : List Char) → (last : Option Char) → Cursor →
      List Char × Cursor
  | 0, reversed, _, _, c => (reversed, c)
  | bound + 1, reversed, breaks, last, c =>
      if c.column == indent && !c.atEnd then
        let (line, after) := c.takeWhile Cursor.isInLine
        let reversed := line.reverse ++ (breaks ++ reversed)
        let lineEnd := after.lineBreak?.map Prod.fst
        let (breaks, next) := blockBreaks indent after.rest.length [] after.skipBreak
        if next.column == indent && !next.atEnd then
          -- lines that are indented further keep their line ends on both sides
          let folds := folded && lineEnd == some '\n' && !Cursor.isGap c.peek
            && !Cursor.isGap next.peek
          let joint :=
            if folds then (if breaks.isEmpty then [' '] else []) else lineEnd.toList
          blockLines folded chomping indent bound (joint ++ reversed) breaks lineEnd next
        else (finish reversed breaks lineEnd, next)
      else (finish reversed breaks last, c)
where
  /-- The line ends at the end of the block, as far as they count. -/
  finish (reversed breaks : List Char) (last : Option Char) : List Char :=
    match chomping with
    | .strip => reversed
    | .clip => last.toList ++ reversed
    | .keep => breaks ++ (last.toList ++ reversed)

/-- A block of lines, each kept or folded together, below a parent of some indentation. -/
def block (folded : Bool) (indent : Int) (c : Cursor) : Except Fault (String × Cursor) := do
  let start := c.mark
  let ((chomping, written), c) ← blockHeader start c.step
  let c ← blockHeaderEnd start c
  -- outside any collection the indentation is -1, and a block still has to be indented
  let least := (max 1 (indent + 1)).toNat
  let (breaks, width, c) :=
    match written with
    | some n =>
        let width := least + n - 1
        let (breaks, c) := blockBreaks width c.rest.length [] c
        (breaks, width, c)
    | none =>
        let ((breaks, widest), c) := blockLead c.rest.length [] 0 c
        (breaks, max least widest, c)
  let (reversed, c) := blockLines folded chomping width (c.rest.length + 1) [] breaks none c
  .ok (String.ofList reversed.reverse, c)

end Scalar
end Yaml
end Roster
