import Roster.Yaml.Meaning

/-!
# YAML documents in files

A file is decoded as UTF-8 with line ends of all kinds and must hold no control characters and a
single document.
-/

namespace Roster
namespace Yaml

/-- The character may stand in a document. -/
def isAcceptable (c : Char) : Bool :=
  let n := c.toNat
  c == '\t' || c == '\n' || c == '\r' || (0x20 ≤ n && n ≤ 0x7E) || n == 0x85
    || (0xA0 ≤ n && n ≤ 0xD7FF) || (0xE000 ≤ n && n ≤ 0xFFFD) || 0x10000 ≤ n

/-- The data of the document in a text, `none` for an empty one. -/
def dataOf (cs : List Char) : Except Fault (Option Datum) := do
  let clear := cs.takeWhile isAcceptable
  match cs.drop clear.length with
  | c :: _ => .error (.unacceptable c.toNat clear.length)
  | [] =>
      match ← Node.ofChars cs with
      | some node => return some (← node.data)
      | none => return none

/-- Texts by key of a document that holds a map; `none` for any other. -/
def textsOf (d : Option Datum) : Except Fault (Option (List (String × String))) :=
  match d with
  | some (.map anchor entries) =>
      let whole := Datum.map anchor entries
      if whole.isWritable then
        .ok (some (Entries.setAll [] (entries.map fun (k, v) =>
          (k.text whole, match v with
            | .scalar .null => ""
            | v => v.text whole))))
      else .error .longValue
  | _ => .ok none

/-- Texts by key of the document in the octets of a file. -/
def readTexts (octets : ByteArray) : Except Fault (Option (List (String × String))) := do
  let s ← (Text.decodeUtf8 octets).mapError .undecodable
  textsOf (← dataOf (Text.unifyLineEnds s.toList))

end Yaml
end Roster
