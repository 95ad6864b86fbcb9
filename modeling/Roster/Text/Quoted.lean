import Roster.Text.Printable

/-!
# Quoted text

A text inside messages stands between single quotes, or between double quotes when it holds a
single quote and no double one.  Control and other hidden characters are written as escapes.
-/

namespace Roster
namespace Text

/-- Digits of a number in base sixteen, lower case, most significant first. -/
def hexDigits (n : Nat) : List Char :=
  Nat.toDigits 16 n

/-- A number in base sixteen with zeros in front up to a width. -/
def hexPadded (width n : Nat) : List Char :=
  let digits := hexDigits n
  List.replicate (width - digits.length) '0' ++ digits

/-- Escape of a hidden character, by the size of its code point. -/
def hiddenEscape (c : Char) : List Char :=
  let n := c.toNat
  if n < 0x100 then '\\' :: 'x' :: hexPadded 2 n
  else if n < 0x10000 then '\\' :: 'u' :: hexPadded 4 n
  else '\\' :: 'U' :: hexPadded 8 n

/-- The quote that stands around a text. -/
def quoteFor (cs : List Char) : Char :=
  if cs.contains '\'' && !cs.contains '"' then '"' else '\''

def quotedChar (quote c : Char) : List Char :=
  if c == quote || c == '\\' then ['\\', c]
  else if c == '\t' then ['\\', 't']
  else if c == '\n' then ['\\', 'n']
  else if c == '\r' then ['\\', 'r']
  else if isPrintable c then [c]
  else hiddenEscape c

def quoted (s : String) : String :=
  let cs := s.toList
  let quote := quoteFor cs
  String.ofList (quote :: cs.flatMap (quotedChar quote) ++ [quote])

/-- Octets between single quotes behind the letter `b`, with escapes for all but visible ASCII. -/
def quotedOctets (octets : List UInt8) : String :=
  let cs := octets.map fun octet => Char.ofNat octet.toNat
  let quote := quoteFor cs
  let shown (c : Char) : List Char :=
    if c == quote || c == '\\' then ['\\', c]
    else if c == '\t' then ['\\', 't']
    else if c == '\n' then ['\\', 'n']
    else if c == '\r' then ['\\', 'r']
    else if 0x20 ≤ c.toNat && c.toNat < 0x7F then [c]
    else '\\' :: 'x' :: hexPadded 2 c.toNat
  String.ofList ('b' :: quote :: cs.flatMap shown ++ [quote])

end Text
end Roster
