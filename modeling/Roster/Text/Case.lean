import Roster.Text.CaseTable
import Roster.Text.Ranges

/-!
# Letter case

`lower` writes a text in lower case, `capitalize` its first character in title case and the rest
in lower case.  Both follow the full case mappings: a character may become several, and a capital
sigma becomes a final one at the end of a word.  `foldAscii` touches the letters of ASCII only,
`capital` those that become one of them.
-/

namespace Roster
namespace Text

/-- Move a code point by the run that holds it. -/
def shiftCase (runs : List CaseRun) (c : Char) : Char :=
  match runs.find? fun run => run.holds c.toNat with
  | some run => Char.ofNat (Int.toNat (c.toNat + run.offset))
  | none => c

/-- Lower-case form of a character outside any context. -/
def lowerChar (c : Char) : List Char :=
  if c.toNat < 0x80 then [c.toLower]
  else if c == 'İ' then ['i', Char.ofNat 0x307]
  else [shiftCase lowerRuns c]

def titleChar (c : Char) : List Char :=
  if c.toNat < 0x80 then [c.toUpper]
  else
    match titleSequences.lookup c.toNat with
    | some sequence => sequence.map Char.ofNat
    | none => [shiftCase titleRuns c]

/-- The nearest character that is not passed over has case. -/
def meetsCased (cs : List Char) : Bool :=
  match cs.dropWhile (inRanges caseIgnorableRanges) with
  | [] => false
  | c :: _ => inRanges casedRanges c

/-- Lower case of the text that follows `before`, which is kept in reverse. -/
def lowerAfter : (before : List Char) → List Char → List Char
  | _, [] => []
  | before, c :: rest =>
      let here :=
        if c == 'Σ' then
          if meetsCased before && !meetsCased rest then ['ς'] else ['σ']
        else lowerChar c
      here ++ lowerAfter (c :: before) rest

def lower (s : String) : String :=
  String.ofList (lowerAfter [] s.toList)

/-- First character in title case, the others in lower case. -/
def capitalize : List Char → List Char
  | [] => []
  | c :: rest => titleChar c ++ lowerAfter [c] rest

/-- Capital of a character whose capital is a single letter of ASCII; others stay as they are. -/
def capital (c : Char) : Char :=
  if c == 'ı' then 'I' else if c == 'ſ' then 'S' else c.toUpper

/-- Lower case for the letters of ASCII only. -/
def foldAscii (s : String) : String :=
  String.ofList (s.toList.map Char.toLower)

end Text
end Roster
