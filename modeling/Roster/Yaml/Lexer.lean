import Roster.Yaml.Tag

/-!
# Splitting a document into tokens

Outside brackets structure is shown by indentation, and whether something is a key is known only
at the colon behind it.  So tokens are held back while they may still turn out to be a key on one
line; `released` counts the tokens that are certain.  A fault ends the tokens behind the last
certain one.
-/

namespace Roster
namespace Yaml

/-- Something that may turn out to be a key: the number of its first token and its place. -/
structure KeyCandidate where
  token : Nat
  /-- Nothing else can stand here. -/
  required : Bool
  index : Nat
  mark : Mark
  deriving DecidableEq, Repr

/-- Where the lexer stands. -/
structure Lexer where
  cursor : Cursor
  /-- The tokens so far, the last one first. -/
  reversed : List Token
  /-- How many tokens there are. -/
  count : Nat
  /-- Depth of brackets. -/
  depth : Nat := 0
  /-- Column of the innermost collection outside brackets, -1 before the first. -/
  indent : Int := -1
  /-- Columns of the collections around it. -/
  outer : List Int := []
  /-- A key can start here. -/
  keyAllowed : Bool := true
  /-- Candidates by depth of brackets. -/
  candidates : List (Nat × KeyCandidate) := []
  released : Nat := 1
  finished : Bool := false

namespace Lexer

/-- The lexer in front of a document. -/
def ofChars (cs : List Char) : Lexer where
  cursor := { rest := cs }
  reversed := [⟨.streamStart, ⟨0, 0⟩, ⟨0, 0⟩⟩]
  count := 1

def push (l : Lexer) (token : Token) : Lexer :=
  { l with reversed := token :: l.reversed, count := l.count + 1 }

/-- Add a token without characters at the cursor. -/
def pushHere (l : Lexer) (kind : TokenKind) : Lexer :=
  l.push ⟨kind, l.cursor.mark, l.cursor.mark⟩

/-- Add an indicator of some characters and go behind it. -/
def indicator (l : Lexer) (kind : TokenKind) (length : Nat) : Lexer :=
  let after := l.cursor.forward length
  { l.push ⟨kind, l.cursor.mark, after.mark⟩ with cursor := after }

/-- Put a token in front of the token of a number. -/
def insert (l : Lexer) (number : Nat) (token : Token) : Lexer :=
  let behind := l.count - number
  { l with
    reversed := l.reversed.take behind ++ token :: l.reversed.drop behind
    count := l.count + 1 }

/-- The candidate at the present depth of brackets. -/
def candidate? (l : Lexer) : Option KeyCandidate := l.candidates.lookup l.depth

def missingColon {α : Type} (l : Lexer) (key : KeyCandidate) : Except Fault α :=
  l.cursor.refuse .simpleKey key.mark .noColon

/-- Forget the candidate at the present depth; one that is required cannot be forgotten. -/
def dropCandidate (l : Lexer) : Except Fault Lexer :=
  match l.candidate? with
  | some key =>
      if key.required then l.missingColon key
      else .ok { l with candidates := l.candidates.filter (·.1 != l.depth) }
  | none => .ok l

def addCandidate (l : Lexer) : Except Fault Lexer :=
  if l.keyAllowed then do
    let l ← l.dropCandidate
    -- in the column of a block mapping only another key can stand
    let required := l.depth == 0 && l.indent == (l.cursor.column : Int)
    let key : KeyCandidate := ⟨l.count, required, l.cursor.index, l.cursor.mark⟩
    .ok { l with candidates := l.candidates ++ [(l.depth, key)] }
  else .ok l

/-- A key is on one line and not longer than 1024 characters. -/
def isStale (l : Lexer) (key : KeyCandidate) : Bool :=
  key.mark.line != l.cursor.line || 1024 < l.cursor.index - key.index

/-- Forget the candidates that cannot be keys any more. -/
def dropStale (l : Lexer) : Except Fault Lexer :=
  match l.candidates.find? fun (_, key) => l.isStale key && key.required with
  | some (_, key) => l.missingColon key
  | none => .ok { l with candidates := l.candidates.filter fun (_, key) => !l.isStale key }

/-- End the collections that are indented further than a column. -/
def unwind (l : Lexer) (column : Int) : Lexer :=
  if l.depth == 0 then go l.outer.length l else l
where
  /-- The bound counts the collections that are open. -/
  go : Nat → Lexer → Lexer
    | 0, l => l
    | bound + 1, l =>
        if column < l.indent then
          go bound { l.pushHere .blockEnd with
            indent := l.outer.headD (-1), outer := l.outer.drop 1 }
        else l

/-- Start a collection at a column unless one is there already; says whether it did. -/
def addIndent (l : Lexer) (column : Nat) : Bool × Lexer :=
  if l.indent < (column : Int) then
    (true, { l with indent := column, outer := l.indent :: l.outer })
  else (false, l)

/-- Blanks, comments and line ends; outside brackets a key can start on a new line. -/
def skipToToken (l : Lexer) : Lexer :=
  let cursor :=
    if l.cursor.index == 0 && l.cursor.peek == '\uFEFF' then l.cursor.step else l.cursor
  go cursor.rest.length { l with cursor }
where
  /-- The bound counts the characters that are left. -/
  go : Nat → Lexer → Lexer
    | 0, l => l
    | bound + 1, l =>
        let cursor := l.cursor.skipComment
        match cursor.lineBreak? with
        | some (_, cursor) =>
            go bound { l with cursor, keyAllowed := l.keyAllowed || l.depth == 0 }
        | none => { l with cursor }

/-! ## Tokens one by one -/

def finish (l : Lexer) : Except Fault Lexer := do
  let l ← (l.unwind (-1)).dropCandidate
  .ok { l.pushHere .streamEnd with keyAllowed := false, candidates := [], finished := true }

def takeDirective (l : Lexer) : Except Fault Lexer := do
  let l ← (l.unwind (-1)).dropCandidate
  let (token, cursor) ← Tag.directive l.cursor
  .ok { l.push token with cursor, keyAllowed := false }

def takeDocumentLine (l : Lexer) (kind : TokenKind) : Except Fault Lexer := do
  let l ← (l.unwind (-1)).dropCandidate
  .ok { l.indicator kind 3 with keyAllowed := false }

def openBracket (l : Lexer) (kind : TokenKind) : Except Fault Lexer := do
  let l ← l.addCandidate
  .ok { l.indicator kind 1 with depth := l.depth + 1, keyAllowed := true }

def closeBracket (l : Lexer) (kind : TokenKind) : Except Fault Lexer := do
  let l ← l.dropCandidate
  .ok { l.indicator kind 1 with depth := l.depth - 1, keyAllowed := false }

def takeFlowEntry (l : Lexer) : Except Fault Lexer := do
  let l ← l.dropCandidate
  .ok { l.indicator .flowEntry 1 with keyAllowed := true }

/-- Refuse an indicator that cannot stand here. -/
def notAllowed {α : Type} (l : Lexer) (problem : Problem) : Except Fault α :=
  .error (.markup none problem l.cursor.mark)

/-- Start a collection at the cursor if the indicator there is its first. -/
def openCollection (l : Lexer) (kind : TokenKind) (problem : Problem) : Except Fault Lexer :=
  if l.depth != 0 then .ok l
  else if !l.keyAllowed then l.notAllowed problem
  else
    let (isNew, l) := l.addIndent l.cursor.column
    .ok (if isNew then l.pushHere kind else l)

/-- A hyphen in front of an item. -/
def takeBlockEntry (l : Lexer) : Except Fault Lexer := do
  let l ← l.openCollection .blockSequenceStart .entryNotAllowed
  let l ← l.dropCandidate
  .ok { l.indicator .blockEntry 1 with keyAllowed := true }

/-- A question mark in front of a key. -/
def takeKey (l : Lexer) : Except Fault Lexer := do
  let l ← l.openCollection .blockMappingStart .keyNotAllowed
  let l ← l.dropCandidate
  .ok { l.indicator .key 1 with keyAllowed := l.depth == 0 }

/-- A colon behind a candidate, which thereby becomes a key. -/
def confirmKey (l : Lexer) (key : KeyCandidate) : Lexer :=
  let l := { l with candidates := l.candidates.filter (·.1 != l.depth) }
  -- the start of the mapping goes in second, and so in front of its first key
  let l := l.insert key.token ⟨.key, key.mark, key.mark⟩
  let (isNew, l) := if l.depth == 0 then l.addIndent key.mark.column else (false, l)
  let l := if isNew then l.insert key.token ⟨.blockMappingStart, key.mark, key.mark⟩ else l
  { l.indicator .value 1 with keyAllowed := false }

/-- A colon in front of a value. -/
def takeValue (l : Lexer) : Except Fault Lexer :=
  match l.candidate? with
  | some key => .ok (l.confirmKey key)
  | none => do
      let l ← l.openCollection .blockMappingStart .valueNotAllowed
      .ok { l.indicator .value 1 with keyAllowed := l.depth == 0 }

/-- A token that can be the start of a key and is read by a function of its own. -/
def takeWith (l : Lexer) {α : Type} (read : Cursor → Except Fault (α × Cursor))
    (kind : α → TokenKind) : Except Fault Lexer := do
  let l ← l.addCandidate
  let (v, cursor) ← read l.cursor
  .ok { l.push ⟨kind v, l.cursor.mark, cursor.mark⟩ with cursor, keyAllowed := false }

def takeBlock (l : Lexer) (folded : Bool) : Except Fault Lexer := do
  let l ← l.dropCandidate
  let (text, cursor) ← Scalar.block folded l.indent l.cursor
  .ok { l.push ⟨.scalar false text, l.cursor.mark, cursor.mark⟩ with cursor, keyAllowed := true }

def takePlain (l : Lexer) : Except Fault Lexer := do
  let l ← l.addCandidate
  let (plain, cursor) := Scalar.plain (l.depth != 0) (l.indent + 1) l.cursor
  .ok { l.push ⟨.scalar true plain.text, l.cursor.mark, plain.stop⟩ with
    -- a key can follow only if the gap behind the words went over a line end
    cursor, keyAllowed := plain.brokeLine }

/-- The token that starts with a character. -/
def takeToken (l : Lexer) (c : Char) (rest : List Char) : Except Fault Lexer :=
  let flow := l.depth != 0
  let parted := Style.atSeparator rest
  let lineStart := l.cursor.column == 0
  if c == '%' && lineStart then l.takeDirective
  else if lineStart && l.cursor.atTriple '-' then l.takeDocumentLine .documentStart
  else if lineStart && l.cursor.atTriple '.' then l.takeDocumentLine .documentEnd
  else if c == '[' then l.openBracket .flowSequenceStart
  else if c == '\x7b' then l.openBracket .flowMappingStart
  else if c == ']' then l.closeBracket .flowSequenceEnd
  else if c == '\x7d' then l.closeBracket .flowMappingEnd
  else if c == ',' then l.takeFlowEntry
  else if c == '-' && parted then l.takeBlockEntry
  else if c == '?' && (flow || parted) then l.takeKey
  else if c == ':' && (flow || parted) then l.takeValue
  else if c == '*' then l.takeWith (Tag.name .alias_) .alias_
  else if c == '&' then l.takeWith (Tag.name .anchor) .anchor
  else if c == '!' then l.takeWith Tag.tag .tag
  else if c == '|' && !flow then l.takeBlock false
  else if c == '>' && !flow then l.takeBlock true
  else if c == '\'' then l.takeWith (Scalar.quoted false) (.scalar false)
  else if c == '"' then l.takeWith (Scalar.quoted true) (.scalar false)
  else if Scalar.startsPlain flow l.cursor then l.takePlain
  else .error (.markup (some (.token, none)) (.noToken c) l.cursor.mark)

/-- The tokens that are certain: all in front of the first candidate. -/
def release (l : Lexer) : Lexer :=
  { l with released := l.candidates.foldl (fun n (_, key) => min n key.token) l.count }

/-- The next token, with all that has to be settled before and behind it. -/
def advance (l : Lexer) : Except Fault Lexer := do
  let l ← l.skipToToken.dropStale
  let l := l.unwind l.cursor.column
  match l.cursor.rest with
  | [] => return (← l.finish).release
  -- the token itself may have made candidates stale, and a stale one holds tokens back
  | c :: rest => return (← (← l.takeToken c rest).dropStale).release

/-- The tokens of a document, and the fault behind them. -/
structure Output where
  tokens : List Token
  fault : Option Fault := none

/-- Go on to the end or to a fault. Every token takes at least one character. -/
def run : (bound : Nat) → Lexer → Output
  | 0, l => ⟨l.reversed.reverse, none⟩
  | bound + 1, l =>
      if l.finished then ⟨l.reversed.reverse, none⟩
      else
        match l.advance with
        | .ok next => run bound next
        | .error fault => ⟨l.reversed.reverse.take l.released, some fault⟩

end Lexer

def tokens (cs : List Char) : Lexer.Output :=
  Lexer.run (cs.length + 2) (Lexer.ofChars cs)

end Yaml
end Roster
