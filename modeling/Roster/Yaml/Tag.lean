import Roster.Yaml.Scalar
import Roster.Yaml.Token

/-!
# Reading names, tags and directives

Anchors and aliases have names, tags a handle and a text in which octets can be escaped, and
directives tell the version of the document or what its handles stand for.
-/

namespace Roster
namespace Yaml
namespace Tag

def isNameChar (c : Char) : Bool :=
  c.isAlphanum || c == '-' || c == '_'

/-- Characters of the text of a tag. -/
def isTextChar (c : Char) : Bool :=
  c.isAlphanum || "-;/?:@&=+$,_.!~*'()[]%".toList.contains c

/-- What has to follow a name in a document. -/
def mayFollowName (rest : List Char) : Bool :=
  Style.atSeparator rest || rest.head?.any ("?:,]\x7d%@\x60".toList.contains ·)

def name (context : Context) (c : Cursor) : Except Fault (String × Cursor) :=
  let start := c.mark
  let (letters, c) := c.step.takeWhile isNameChar
  if letters.isEmpty || !mayFollowName c.rest then
    c.unexpected context start "alphabetic or numeric character"
  else .ok (String.ofList letters, c)

/-- A handle: a name between exclamation marks, or one of them alone. -/
def handle (context : Context) (start : Mark) (c : Cursor) : Except Fault (String × Cursor) :=
  if c.peek != '!' then c.unexpected context start "'!'"
  else if c.peekAt 1 == ' ' then .ok ("!", c.step)
  else
    let (letters, after) := c.step.takeWhile isNameChar
    if after.peek != '!' then after.unexpected context start "'!'"
    else .ok (String.ofList ('!' :: letters ++ ['!']), after.step)

def escapedOctets (context : Context) (start : Mark) :
    (bound : Nat) → Cursor → Except Fault (List UInt8 × Cursor)
  | 0, c => .ok ([], c)
  | bound + 1, c =>
      if c.peek != '%' then .ok ([], c)
      else
        let c := c.step
        let digits := (c.rest.take 2).takeWhile fun ch => (Scalar.hexValue? ch).isSome
        if digits.length < 2 then
          c.refuse context start
            (.expected "URI escape sequence of 2 hexadecimal numbers" (c.peekAt digits.length))
        else do
          let (octets, c) ← escapedOctets context start bound (c.forward 2)
          .ok (UInt8.ofNat (Scalar.hexNumber digits) :: octets, c)

/-- The text of a tag; `reversed` holds the characters so far. -/
def textFrom (context missing : Context) (start : Mark) :
    (bound : Nat) → (reversed : List Char) → Cursor → Except Fault (String × Cursor)
  | 0, reversed, c => .ok (String.ofList reversed.reverse, c)
  | bound + 1, reversed, c =>
      if c.peek == '%' then do
        let mark := c.mark
        let (octets, c) ← escapedOctets context start c.rest.length c
        match Text.decodeUtf8 (ByteArray.mk octets.toArray) with
        | .ok s => textFrom context missing start bound (s.toList.reverse ++ reversed) c
        | .error fault => .error (.markup (some (context, some start)) (.badEscapeText fault) mark)
      else if isTextChar c.peek then
        textFrom context missing start bound (c.peek :: reversed) c.step
      else if reversed.isEmpty then c.unexpected missing start "URI"
      else .ok (String.ofList reversed.reverse, c)

def text (context missing : Context) (start : Mark) (c : Cursor) :
    Except Fault (String × Cursor) :=
  textFrom context missing start (c.rest.length + 1) [] c

/-- A second exclamation mark ends a handle before the next blank. -/
def hasHandle (c : Cursor) : Bool :=
  (c.step.takeWhile fun ch => ch != ' ' && Cursor.isInLine ch).1.contains '!'

/-- A tag without the check of what follows. -/
def body (c : Cursor) : Except Fault (WrittenTag × Cursor) := do
  let start := c.mark
  if c.peekAt 1 == '<' then
    let (suffix, c) ← text .tag .tagText start (c.forward 2)
    if c.peek == '>' then .ok (⟨none, suffix⟩, c.step)
    else c.unexpected .tagText start "'>'"
  else if Style.atSeparator (c.rest.drop 1) then .ok (⟨none, "!"⟩, c.step)
  else
    let (handle, c) ← if hasHandle c then handle .tag start c else .ok ("!", c.step)
    let (suffix, c) ← text .tag .tagText start c
    .ok (⟨some handle, suffix⟩, c)

def tag (c : Cursor) : Except Fault (WrittenTag × Cursor) := do
  let start := c.mark
  let (tag, c) ← body c
  if c.atSpaceOrEnd then .ok (tag, c) else c.unexpected .tag start "' '"

/-! ## Directives -/

def versionNumber (start : Mark) (c : Cursor) : Except Fault (Nat × Cursor) :=
  let (digits, after) := c.takeWhile Char.isDigit
  if digits.isEmpty then c.unexpected .directive start "a digit"
  else .ok (digits.foldl (fun n d => n * 10 + (d.toNat - 48)) 0, after)

def version (start : Mark) (c : Cursor) : Except Fault (TokenKind × Cursor) := do
  let (major, c) ← versionNumber start (c.skipWhile Cursor.isSpace)
  if c.peek != '.' then c.unexpected .directive start "a digit or '.'"
  else
    let (_, c) ← versionNumber start c.step
    if c.atSpaceOrEnd then .ok (.versionDirective major, c)
    else c.unexpected .directive start "a digit or ' '"

def handleMeaning (start : Mark) (c : Cursor) : Except Fault (TokenKind × Cursor) := do
  let (handle, c) ← handle .directive start (c.skipWhile Cursor.isSpace)
  if c.peek != ' ' then c.unexpected .directive start "' '"
  else
    let (text, c) ← text .directive .directiveTag start (c.skipWhile Cursor.isSpace)
    if c.atSpaceOrEnd then .ok (.tagDirective handle text, c)
    else c.unexpected .directive start "' '"

/-- A directive, up to the end of its line. -/
def directive (c : Cursor) : Except Fault (Token × Cursor) := do
  let start := c.mark
  let (letters, c) := c.step.takeWhile isNameChar
  if letters.isEmpty || !c.atSpaceOrEnd then
    c.unexpected .directive start "alphabetic or numeric character"
  else
    let (kind, c) ←
      if letters == "YAML".toList then version start c
      else if letters == "TAG".toList then handleMeaning start c
      else .ok (.otherDirective, c)
    let stop := c.mark
    let c := if kind == .otherDirective then c.skipWhile Cursor.isInLine else c
    let c := c.skipComment
    if c.atLineEnd then .ok (⟨kind, start, stop⟩, c.skipBreak)
    else c.unexpected .directive start "a comment or a line break"

end Tag
end Yaml
end Roster
