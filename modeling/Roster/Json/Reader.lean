import Roster.Number.Double
import Roster.Number.Numeral
import Roster.Value.Basic

/-!
# Reading JSON

The reader goes through the characters once and gives the value, or the first place where the
text is no JSON, by line, column and offset.  The names `NaN`, `Infinity` and `-Infinity` are
numbers.  Of a key that a map repeats, the last value is kept at the first place.
-/

namespace Roster
namespace Json

/-- What the reader looked for or found wrong. -/
inductive Reason where
  | value
  | comma
  | colon
  | name
  | extraData
  | unterminated
  | controlCharacter
  | escape
  | unitEscape
  | byteOrderMark
  /-- A whole number with this many digits. -/
  | longNumeral (count : Nat)
  deriving DecidableEq, Repr

/-- A place where the text is no JSON. -/
structure Fault where
  reason : Reason
  offset : Nat
  line : Nat
  column : Nat
  deriving DecidableEq, Repr

namespace Reason

def message : Reason → String
  | .value => "Expecting value"
  | .comma => "Expecting ',' delimiter"
  | .colon => "Expecting ':' delimiter"
  | .name => "Expecting property name enclosed in double quotes"
  | .extraData => "Extra data"
  | .unterminated => "Unterminated string starting at"
  | .controlCharacter => "Invalid control character at"
  | .escape => "Invalid \\escape"
  | .unitEscape => "Invalid \\uXXXX escape"
  | .byteOrderMark => "Unexpected UTF-8 BOM (decode using utf-8-sig)"
  | .longNumeral _ => "Exceeds the limit for whole numbers"

end Reason

namespace Fault

/-- Wording of a fault with its place. -/
def message (fault : Fault) : String :=
  fault.reason.message ++ ": line " ++ toString fault.line ++ " column " ++ toString fault.column
    ++ " (char " ++ toString fault.offset ++ ")"

end Fault

/-- While reading, a place is known by the characters that are left. -/
structure Stop where
  reason : Reason
  rest : List Char

/-- The result of reading, which comes with the characters behind it. -/
abbrev Reading := Except Stop

/-- White space between the parts of a document. -/
def isSpace (c : Char) : Bool :=
  c == ' ' || c == '\t' || c == '\n' || c == '\r'

def skip (cs : List Char) : List Char :=
  cs.dropWhile isSpace

/-- Value of a digit in base sixteen. -/
def hexValue? (c : Char) : Option Nat :=
  if c.isDigit then some (c.toNat - 48)
  else if 'a' ≤ c && c ≤ 'f' then some (c.toNat - 87)
  else if 'A' ≤ c && c ≤ 'F' then some (c.toNat - 55)
  else none

/-- A unit of four digits that is not the end of the document. -/
def readUnit : List Char → Option (Nat × List Char)
  | a :: b :: c :: d :: rest =>
      match rest, hexValue? a, hexValue? b, hexValue? c, hexValue? d with
      | _ :: _, some a, some b, some c, some d => some (((a * 16 + b) * 16 + c) * 16 + d, rest)
      | _, _, _, _, _ => none
  | _ => none

/-- Character of a unit; half a pair has none and is replaced. -/
def unitChar (n : Nat) : Char :=
  if 0xD800 ≤ n && n < 0xE000 then Char.ofNat 0xFFFD else Char.ofNat n

/-- The low half of a pair, with what follows it. -/
def lowHalf? : List Char → Option (Nat × List Char)
  | '\\' :: 'u' :: rest =>
      match readUnit rest with
      | some (low, rest) => if 0xDC00 ≤ low && low < 0xE000 then some (low, rest) else none
      | none => none
  | _ => none

def simpleEscape? : Char → Option Char
  | '"' => some '"'
  | '\\' => some '\\'
  | '/' => some '/'
  | 'b' => some '\x08'
  | 'f' => some '\x0c'
  | 'n' => some '\n'
  | 'r' => some '\r'
  | 't' => some '\t'
  | _ => none

/-- The rest of a text behind its opening quote; `start` is the text from the quote on. -/
def readText (start : List Char) : (bound : Nat) → List Char → Reading (List Char × List Char)
  | 0, _ => .error ⟨.unterminated, start⟩
  | _ + 1, [] => .error ⟨.unterminated, start⟩
  | _ + 1, '"' :: rest => .ok ([], rest)
  | _ + 1, ['\\'] => .error ⟨.unterminated, start⟩
  | bound + 1, '\\' :: 'u' :: rest =>
      match readUnit rest with
      | none => .error ⟨.unitEscape, 'u' :: rest⟩
      | some (n, rest) =>
          let (c, rest) :=
            if 0xD800 ≤ n && n < 0xDC00 then
              match lowHalf? rest with
              | some (low, rest) => (Char.ofNat (0x10000 + (n - 0xD800) * 0x400 + (low - 0xDC00)), rest)
              | none => (unitChar n, rest)
            else (unitChar n, rest)
          (readText start bound rest).map fun (cs, rest) => (c :: cs, rest)
  | bound + 1, '\\' :: e :: rest =>
      match simpleEscape? e with
      | none => .error ⟨.escape, '\\' :: e :: rest⟩
      | some c => (readText start bound rest).map fun (cs, rest) => (c :: cs, rest)
  | bound + 1, c :: rest =>
      if c.toNat < 0x20 then .error ⟨.controlCharacter, c :: rest⟩
      else (readText start bound rest).map fun (cs, rest) => (c :: cs, rest)

def spanDigits (cs : List Char) : List Char × List Char :=
  cs.span Char.isDigit

/-- Number that ASCII digits write. -/
def digitsValue (cs : List Char) : Nat :=
  Numeral.ofDigits 10 (cs.map fun c => c.toNat - 48)

def readFraction : List Char → List Char × List Char
  | '.' :: rest =>
      match spanDigits rest with
      | ([], _) => ([], '.' :: rest)
      | (digits, after) => (digits, after)
  | cs => ([], cs)

/-- An exponent: a letter, an optional sign and digits. -/
def readExponent (cs : List Char) : Option (Int × List Char) :=
  match cs with
  | letter :: rest =>
      if letter == 'e' || letter == 'E' then
        let (negative, unsigned) := Numeral.splitSign rest
        match spanDigits unsigned with
        | ([], _) => none
        | (digits, after) =>
            let size : Nat := digitsValue digits
            some (if negative then -(size : Int) else size, after)
      else none
  | [] => none

/-- Digits in front of a number: a zero alone, or digits that do not start with one. -/
def readWhole : List Char → Option (List Char × List Char)
  | '0' :: rest => some (['0'], rest)
  | cs =>
      match spanDigits cs with
      | ([], _) => none
      | (digits, after) => some (digits, after)

def readNumber (cs : List Char) : Reading (Value × List Char) :=
  let (negative, unsigned) :=
    match cs with
    | '-' :: rest => (true, rest)
    | _ => (false, cs)
  match readWhole unsigned with
  | none => .error ⟨.value, cs⟩
  | some (whole, rest) =>
      let (fraction, rest) := readFraction rest
      match readExponent rest with
      | some (power, rest) =>
          .ok (.float (.ofDecimal negative (digitsValue (whole ++ fraction))
            (power - fraction.length)), rest)
      | none =>
          if fraction.isEmpty then
            if Numeral.maxDigits < whole.length then .error ⟨.longNumeral whole.length, cs⟩
            else
              let size : Nat := digitsValue whole
              .ok (.int (if negative then -(size : Int) else size), rest)
          else
            .ok (.float (.ofDecimal negative (digitsValue (whole ++ fraction))
              (-(fraction.length : Int))), rest)

/-- The values that are written by name. -/
def names : List (List Char × Value) :=
  [("null".toList, .null), ("true".toList, .bool true), ("false".toList, .bool false),
    ("NaN".toList, .float .nan), ("Infinity".toList, .float (.infinite false)),
    ("-Infinity".toList, .float (.infinite true))]

/-- A value without parts: one written by name, or a number. -/
def readAtom (cs : List Char) : Reading (Value × List Char) :=
  match names.find? fun name => name.1.isPrefixOf cs with
  | some (name, v) => .ok (v, cs.drop name.length)
  | none => readNumber cs

mutual

def readValue : (bound : Nat) → List Char → Reading (Value × List Char)
  | 0, cs => .error ⟨.value, cs⟩
  | bound + 1, cs =>
      match cs with
      | '"' :: rest =>
          (readText cs rest.length rest).map fun (s, rest) => (.str (String.ofList s), rest)
      | '[' :: rest =>
          match skip rest with
          | ']' :: rest => .ok (.list [], rest)
          | rest => (readItems bound rest).map fun (items, rest) => (.list items, rest)
      | '\x7b' :: rest =>
          match skip rest with
          | '\x7d' :: rest => .ok (.map [], rest)
          | rest =>
              (readEntries bound rest).map fun (entries, rest) =>
                (.map (Entries.setAll [] entries), rest)
      | _ => readAtom cs

/-- Items up to the end of a list. -/
def readItems : (bound : Nat) → List Char → Reading (List Value × List Char)
  | 0, cs => .error ⟨.value, cs⟩
  | bound + 1, cs => do
      let (v, rest) ← readValue bound cs
      match skip rest with
      | ']' :: rest => .ok ([v], rest)
      | ',' :: rest =>
          (readItems bound (skip rest)).map fun (items, rest) => (v :: items, rest)
      | rest => .error ⟨.comma, rest⟩

/-- Entries up to the end of a map. -/
def readEntries : (bound : Nat) → List Char → Reading (Entries × List Char)
  | 0, cs => .error ⟨.value, cs⟩
  | bound + 1, cs => do
      match cs with
      | '"' :: rest =>
          let (key, rest) ← readText cs rest.length rest
          match skip rest with
          | ':' :: rest =>
              let (v, rest) ← readValue bound (skip rest)
              let entry := (String.ofList key, v)
              match skip rest with
              | '\x7d' :: rest => .ok ([entry], rest)
              | ',' :: rest =>
                  (readEntries bound (skip rest)).map fun (entries, rest) => (entry :: entries, rest)
              | rest => .error ⟨.comma, rest⟩
          | rest => .error ⟨.colon, rest⟩
      | _ => .error ⟨.name, cs⟩

end

/-- Place of the characters that are left in the whole text. -/
def locate (all : List Char) (stop : Stop) : Fault :=
  let offset := all.length - stop.rest.length
  let before := all.take offset
  let line := before.count '\n' + 1
  ⟨stop.reason, offset, line, (before.reverse.takeWhile (· != '\n')).length + 1⟩

/-- A document: one value with white space around it. Every character opens at most one list or map,
which takes two steps. -/
def readDocument (cs : List Char) : Except Stop Value :=
  match cs with
  | '\uFEFF' :: _ => .error ⟨.byteOrderMark, cs⟩
  | _ => do
      let (v, rest) ← readValue (2 * cs.length + 2) (skip cs)
      match skip rest with
      | [] => .ok v
      | rest => .error ⟨.extraData, rest⟩

def read (s : String) : Except Fault Value :=
  let cs := s.toList
  match readDocument cs with
  | .ok v => .ok v
  | .error stop => .error (locate cs stop)

end Json
end Roster
