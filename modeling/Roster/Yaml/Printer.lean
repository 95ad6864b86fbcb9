import Roster.Number.Shortest
import Roster.Text.Quoted
import Roster.Value.Basic
import Roster.Yaml.Style

/-!
# Writing YAML

A document is written in block form with two blanks of indentation, entries in their order.  Lines
are folded at blanks once they are longer than 80 characters.  The pen knows the column and
whether anything but indentation stands on the line.
-/

namespace Roster
namespace Yaml

/-- The text so far, in reverse, and where on the line it ends. -/
structure Pen where
  reversed : List Char := []
  column : Nat := 0
  /-- The last character parts words. -/
  blank : Bool := true
  /-- Only indentation and indicators stand on the line. -/
  fresh : Bool := true

namespace Pen

/-- Column behind which lines are folded. -/
def width : Nat := 80

def put (pen : Pen) (cs : List Char) : Pen :=
  { pen with reversed := cs.reverse ++ pen.reversed, column := pen.column + cs.length }

/-- End the line with a line break. -/
def lineBreak (pen : Pen) (c : Char) : Pen :=
  { reversed := c :: pen.reversed, column := 0, blank := true, fresh := true }

/-- Go to an indentation, on a new line unless the pen stands on a fresh one before it. -/
def indent (pen : Pen) (level : Nat) : Pen :=
  let pen :=
    if !pen.fresh || level < pen.column || (pen.column == level && !pen.blank) then
      pen.lineBreak '\n'
    else pen
  if pen.column < level then
    { pen.put (List.replicate (level - pen.column) ' ') with blank := true }
  else pen

/-- Write an indicator; one that needs a blank in front gets it. -/
def indicator (pen : Pen) (cs : List Char) (needsBlank keepsFresh : Bool) : Pen :=
  let pen := pen.put (if pen.blank || !needsBlank then cs else ' ' :: cs)
  { pen with blank := false, fresh := pen.fresh && keepsFresh }

def text (pen : Pen) : String :=
  String.ofList pen.reversed.reverse

end Pen

/-! ## Scalars -/

/-- A stretch of a text: blanks, line breaks, or other characters. -/
inductive Stretch where
  | blanks (count : Nat)
  | breaks (cs : List Char)
  | word (cs : List Char)
  deriving DecidableEq, Repr

def stretches (cs : List Char) : List Stretch :=
  cs.foldr
    (fun c rest =>
      if c == ' ' then
        match rest with
        | .blanks count :: rest => .blanks (count + 1) :: rest
        | _ => .blanks 1 :: rest
      else if Style.isBreak c then
        match rest with
        | .breaks cs :: rest => .breaks (c :: cs) :: rest
        | _ => .breaks [c] :: rest
      else
        match rest with
        | .word cs :: rest => .word (c :: cs) :: rest
        | _ => .word [c] :: rest)
    []

namespace Pen

/-- Line breaks inside a scalar, each of its own kind; one more in front of a line feed. -/
def breaks (pen : Pen) (level : Nat) (cs : List Char) : Pen :=
  let pen := if cs.head? == some '\n' then pen.lineBreak '\n' else pen
  (cs.foldl lineBreak pen).indent level

/-- Stretches of a scalar without escapes. A single blank between words becomes a line break
behind the width, where folding is allowed. -/
def stretchesFrom (level : Nat) (folds : Bool) (escape : Char → List Char) :
    (first : Bool) → Pen → List Stretch → Pen
  | _, pen, [] => pen
  | first, pen, .blanks count :: rest =>
      let pen :=
        if count == 1 && width < pen.column && folds && !first && !rest.isEmpty then
          pen.indent level
        else pen.put (List.replicate count ' ')
      stretchesFrom level folds escape false pen rest
  | _, pen, .breaks cs :: rest => stretchesFrom level folds escape false (pen.breaks level cs) rest
  | _, pen, .word cs :: rest =>
      stretchesFrom level folds escape false (pen.put (cs.flatMap escape)) rest

def plain (pen : Pen) (level : Nat) (folds : Bool) (cs : List Char) : Pen :=
  if cs.isEmpty then pen
  else
    let pen := if pen.blank then pen else pen.put [' ']
    stretchesFrom level folds (fun c => [c]) true { pen with blank := false, fresh := false }
      (stretches cs)

/-- A quote inside single quotes is written twice. -/
def doubleQuote (c : Char) : List Char :=
  if c == '\'' then ['\'', '\''] else [c]

def single (pen : Pen) (level : Nat) (folds : Bool) (cs : List Char) : Pen :=
  let pen := pen.indicator ['\''] true false
  (stretchesFrom level folds doubleQuote true pen (stretches cs)).indicator ['\''] false false

def letterEscapes : List (Char × Char) :=
  [('\x00', '0'), ('\x07', 'a'), ('\x08', 'b'), ('\t', 't'), ('\n', 'n'), ('\x0B', 'v'),
    ('\x0C', 'f'), ('\r', 'r'), ('\x1B', 'e'), ('"', '"'), ('\\', '\\'), ('\x85', 'N'),
    ('\u2028', 'L'), ('\u2029', 'P')]

/-- The character stands as it is between double quotes. -/
def isBare (c : Char) : Bool :=
  let n := c.toNat
  !(c == '"' || c == '\\' || c == '\x85' || c == '\u2028' || c == '\u2029' || n == 0xFEFF)
    && ((0x20 ≤ n && n ≤ 0x7E) || (0xA0 ≤ n && n ≤ 0xFFFD))

/-- Digits of a number in base sixteen in capitals, up to a width. -/
def hex (width n : Nat) : List Char :=
  (Text.hexPadded width n).map Char.toUpper

def escape (c : Char) : List Char :=
  match letterEscapes.lookup c with
  | some letter => ['\\', letter]
  | none =>
      let n := c.toNat
      if n ≤ 0xFF then '\\' :: 'x' :: hex 2 n
      else if n ≤ 0xFFFF then '\\' :: 'u' :: hex 4 n
      else '\\' :: 'U' :: hex 8 n

/-- The characters of a scalar between double quotes. `waiting` holds, in reverse, the bare
characters that are still to be written; behind the width a line is broken at a blank or behind
an escape, and a blank that starts the next line is escaped. -/
def doubleFrom (level : Nat) (folds : Bool) :
    (first : Bool) → (waiting : List Char) → Pen → List Char → Pen
  | _, waiting, pen, [] => pen.put waiting.reverse
  | first, waiting, pen, c :: rest =>
      let bare := isBare c
      let pen := if bare then pen else (pen.put waiting.reverse).put (escape c)
      let waiting := if bare then waiting else []
      let reach := if bare then pen.column + waiting.length else pen.column - 1
      if folds && !first && !rest.isEmpty && (c == ' ' || waiting.isEmpty) && width < reach then
        let pen := ((pen.put waiting.reverse).put ['\\']).indent level
        let pen := { pen with blank := false, fresh := false }
        let next := if bare then some c else rest.head?
        let pen := if next == some ' ' then pen.put ['\\'] else pen
        doubleFrom level folds false (if bare then [c] else []) pen rest
      else doubleFrom level folds false (if bare then c :: waiting else []) pen rest

def double (pen : Pen) (level : Nat) (folds : Bool) (cs : List Char) : Pen :=
  (doubleFrom level folds true [] (pen.indicator ['"'] true false) cs).indicator ['"'] false false

/-- A text in the style that suits it. -/
def scalar (pen : Pen) (level : Nat) (isKey : Bool) (cs : List Char) : Pen :=
  match Style.ofText isKey cs with
  | .plain => pen.plain level (!isKey) cs
  | .single => pen.single level (!isKey) cs
  | .double => pen.double level (!isKey) cs

/-! ## Collections -/

/-- A key on one line: neither empty nor over several lines, and not too long. -/
def isSimpleKey (cs : List Char) : Bool :=
  !cs.isEmpty && !Style.isMultiline cs && cs.length < 123

end Pen

/-- Text of a number with a fraction; an exponent gets a point in front. -/
def floatText (d : Double) : List Char :=
  match d with
  | .nan => ".nan".toList
  | .infinite negative => if negative then "-.inf".toList else ".inf".toList
  | d =>
      let cs := d.render.toList
      if cs.contains 'e' && !cs.contains '.' then
        cs.flatMap fun c => if c == 'e' then ['.', '0', 'e'] else [c]
      else cs

mutual

/-- A value at the indentation of its parent, `none` at the top; `inMap` says whether it stands
behind a key. -/
def writeNode (level : Option Nat) (inMap : Bool) (pen : Pen) : Value → Pen
  | .null => pen.plain 0 false "null".toList
  | .bool b => pen.plain 0 false (if b then "true" else "false").toList
  | .int i => pen.plain 0 false (toString i).toList
  | .float d => pen.plain 0 false (floatText d)
  | .str s => pen.scalar (level.elim 2 (· + 2)) false s.toList
  | .list [] => (pen.indicator ['['] true false).indicator [']'] false false
  | .list items =>
      let inner :=
        match level with
        | none => 0
        | some n => if inMap && !pen.fresh then n else n + 2
      writeItems inner pen items
  | .map [] => (pen.indicator ['\x7b'] true false).indicator ['\x7d'] false false
  | .map entries => writeEntries (level.elim 0 (· + 2)) pen entries

/-- Items of a list, each behind a hyphen. -/
def writeItems (level : Nat) (pen : Pen) : List Value → Pen
  | [] => pen
  | v :: rest =>
      let pen := (pen.indent level).indicator ['-'] true true
      writeItems level (writeNode (some level) false pen v) rest

/-- Entries of a map. A key that does not fit on one line stands behind a question mark. -/
def writeEntries (level : Nat) (pen : Pen) : List (String × Value) → Pen
  | [] => pen
  | (k, v) :: rest =>
      let pen := pen.indent level
      let pen :=
        if Pen.isSimpleKey k.toList then
          (pen.scalar (level + 2) true k.toList).indicator [':'] false false
        else
          let pen := (pen.indicator ['?'] true true).scalar (level + 2) false k.toList
          (pen.indent level).indicator [':'] true true
      writeEntries level (writeNode (some level) true pen v) rest

end

def render (v : Value) : String :=
  ((writeNode none false {} v).indent 0).text

end Yaml
end Roster
