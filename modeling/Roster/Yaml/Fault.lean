import Roster.Text.Quoted
import Roster.Text.Utf8

/-!
# What is wrong with a YAML document

A fault of the markup names what was being read, where that started, what is wrong, and where.
A fault of a value comes from a scalar whose text does not fit what the scalar stands for.
-/

namespace Roster
namespace Yaml

/-- A place in a document, counted from zero. -/
structure Mark where
  line : Nat
  column : Nat
  deriving DecidableEq, Repr

/-- What was being read. -/
inductive Context where
  | token
  | simpleKey
  | directive
  | directiveTag
  | alias_
  | anchor
  | tag
  | tagText
  | blockScalar
  | quoted
  | doubleQuoted
  | node
  | blockNode
  | flowNode
  | blockCollection
  | blockMapping
  | flowSequence
  | flowMapping
  | firstAnchor (name : String)
  | stream
  | mapping
  | orderedMap
  | pairs
  deriving DecidableEq, Repr

/-- What is wrong. -/
inductive Problem where
  | noToken (c : Char)
  | noColon
  | entryNotAllowed
  | keyNotAllowed
  | valueNotAllowed
  /-- A character stands where something else was expected. -/
  | expected (what : String) (found : Char)
  | zeroIndentation
  | unknownEscape (c : Char)
  | endOfStream
  | documentSeparator
  | badEscapeText (fault : Text.Utf8Fault)
  /-- A token stands where something else was expected. -/
  | expectedToken (what joint token : String)
  | repeatedVersion
  | foreignVersion
  | repeatedHandle (handle : String)
  | unknownHandle (handle : String)
  | unknownAlias (name : String)
  | secondAnchor
  | secondDocument
  | unknownTag (tag : String)
  | wrongNode (what kind : String)
  | wrongCount (count : Nat)
  | unhashableKey
  /-- Characters of this range are not of base sixty-four. -/
  | notAscii (first last : Nat) (c : Char)
  | badPadding
  | loneDigit (count : Nat)
  deriving DecidableEq, Repr

/-- Part of a moment that is out of range. -/
inductive MomentFault where
  | year (year : Nat)
  | month
  | day
  | hour
  | minute
  | second
  /-- The distance from universal time, in days and seconds. -/
  | offset (days : Int) (seconds : Nat)
  deriving DecidableEq, Repr

/-- Why a document cannot be read. -/
inductive Fault where
  | undecodable (fault : Text.Utf8Fault)
  /-- A character that no document may hold, and its place among all characters. -/
  | unacceptable (code position : Nat)
  | markup (context : Option (Context × Option Mark)) (problem : Problem) (mark : Mark)
  | badInteger (base : Nat) (text : String)
  | longInteger (count : Nat)
  /-- A whole number has too many digits to be written. -/
  | longValue
  | badNumber (text : String)
  | badMoment (fault : MomentFault)
  /-- An escape writes a number beyond all characters. -/
  | noCharacter
  | hugeCharacter
  | notTruth
  | noDigits
  | notMoment
  | mapMoment
  deriving DecidableEq, Repr

namespace Context

/-- Wording of a context. -/
def text : Context → String
  | .token => "while scanning for the next token"
  | .simpleKey => "while scanning a simple key"
  | .directive => "while scanning a directive"
  | .directiveTag => "while parsing a directive"
  | .alias_ => "while scanning an alias"
  | .anchor => "while scanning an anchor"
  | .tag => "while scanning a tag"
  | .tagText => "while parsing a tag"
  | .blockScalar => "while scanning a block scalar"
  | .quoted => "while scanning a quoted scalar"
  | .doubleQuoted => "while scanning a double-quoted scalar"
  | .node => "while parsing a node"
  | .blockNode => "while parsing a block node"
  | .flowNode => "while parsing a flow node"
  | .blockCollection => "while parsing a block collection"
  | .blockMapping => "while parsing a block mapping"
  | .flowSequence => "while parsing a flow sequence"
  | .flowMapping => "while parsing a flow mapping"
  | .firstAnchor name => "found duplicate anchor " ++ Text.quoted name ++ "; first occurrence"
  | .stream => "expected a single document in the stream"
  | .mapping => "while constructing a mapping"
  | .orderedMap => "while constructing an ordered map"
  | .pairs => "while constructing pairs"

end Context

namespace Problem

def shownChar (c : Char) : String :=
  Text.quoted (String.singleton c)

/-- Characters that cannot be written in ASCII, as messages show them. -/
def shownRange (first last : Nat) (c : Char) : String :=
  if first == last then
    let escape :=
      if c.toNat < 0x100 then "\\x" ++ String.ofList (Text.hexPadded 2 c.toNat)
      else if c.toNat < 0x10000 then "\\u" ++ String.ofList (Text.hexPadded 4 c.toNat)
      else "\\U" ++ String.ofList (Text.hexPadded 8 c.toNat)
    "character '" ++ escape ++ "' in position " ++ toString first
  else "characters in position " ++ toString first ++ "-" ++ toString last

def text : Problem → String
  | .noToken c => "found character " ++ shownChar c ++ " that cannot start any token"
  | .noColon => "could not find expected ':'"
  | .entryNotAllowed => "sequence entries are not allowed here"
  | .keyNotAllowed => "mapping keys are not allowed here"
  | .valueNotAllowed => "mapping values are not allowed here"
  | .expected what found => "expected " ++ what ++ ", but found " ++ shownChar found
  | .zeroIndentation => "expected indentation indicator in the range 1-9, but found 0"
  | .unknownEscape c => "found unknown escape character " ++ shownChar c
  | .endOfStream => "found unexpected end of stream"
  | .documentSeparator => "found unexpected document separator"
  | .badEscapeText fault => fault.messageAt fault.position
  | .expectedToken what joint token =>
      "expected " ++ what ++ ", but " ++ joint ++ " " ++ Text.quoted token
  | .repeatedVersion => "found duplicate YAML directive"
  | .foreignVersion => "found incompatible YAML document (version 1.* is required)"
  | .repeatedHandle handle => "duplicate tag handle " ++ Text.quoted handle
  | .unknownHandle handle => "found undefined tag handle " ++ Text.quoted handle
  | .unknownAlias name => "found undefined alias " ++ Text.quoted name
  | .secondAnchor => "second occurrence"
  | .secondDocument => "but found another document"
  | .unknownTag tag => "could not determine a constructor for the tag " ++ Text.quoted tag
  | .wrongNode what kind => "expected " ++ what ++ ", but found " ++ kind
  | .wrongCount count =>
      "expected a single mapping item, but found " ++ toString count ++ " items"
  | .unhashableKey => "found unhashable key"
  | .notAscii first last c =>
      "failed to convert base64 data into ascii: 'ascii' codec can't encode "
        ++ shownRange first last c ++ ": ordinal not in range(128)"
  | .badPadding => "failed to decode base64 data: Incorrect padding"
  | .loneDigit count =>
      "failed to decode base64 data: Invalid base64-encoded string: number of data characters ("
        ++ toString count ++ ") cannot be 1 more than a multiple of 4"

end Problem

namespace MomentFault

/-- Wording of a moment out of range. -/
def text : MomentFault → String
  | .year n => "year " ++ toString n ++ " is out of range"
  | .month => "month must be in 1..12"
  | .day => "day is out of range for month"
  | .hour => "hour must be in 0..23"
  | .minute => "minute must be in 0..59"
  | .second => "second must be in 0..59"
  | .offset days seconds =>
      let parts := "days=" ++ toString days
        ++ (if seconds == 0 then "" else ", seconds=" ++ toString seconds)
      "offset must be a timedelta strictly between -timedelta(hours=24) and "
        ++ "timedelta(hours=24), not datetime.timedelta(" ++ parts ++ ")"

end MomentFault

namespace Fault

/-- A place in the document of a path. -/
def place (path : String) (mark : Mark) : String :=
  "  in \"" ++ path ++ "\", line " ++ toString (mark.line + 1) ++ ", column "
    ++ toString (mark.column + 1)

/-- Wording of a fault in the document at a path. The place of the context is left out where it
is that of the problem. -/
def message (path : String) : Fault → String
  | .undecodable fault => fault.message
  | .unacceptable code position =>
      "unacceptable character #x" ++ String.ofList (Text.hexPadded 4 code)
        ++ ": special characters are not allowed\n  in \"" ++ path ++ "\", position "
        ++ toString position
  | .markup context problem mark =>
      let contextLines :=
        match context with
        | none => []
        | some (context, none) => [context.text]
        | some (context, some start) =>
            if start == mark then [context.text] else [context.text, place path start]
      String.intercalate "\n" (contextLines ++ [problem.text, place path mark])
  | .badInteger base text =>
      "invalid literal for int() with base " ++ toString base ++ ": " ++ Text.quoted text
  | .longInteger count =>
      "Exceeds the limit (4300 digits) for integer string conversion: value has "
        ++ toString count ++ " digits; use sys.set_int_max_str_digits() to increase the limit"
  | .longValue =>
      "Exceeds the limit (4300 digits) for integer string conversion; "
        ++ "use sys.set_int_max_str_digits() to increase the limit"
  | .badNumber text => "could not convert string to float: " ++ Text.quoted text
  | .badMoment fault => fault.text
  | .noCharacter => "chr() arg not in range(0x110000)"
  | .hugeCharacter => "signed integer is greater than maximum"
  | .notTruth => "no truth value"
  | .noDigits => "string index out of range"
  | .notMoment => "no moment"
  | .mapMoment => "expected string or bytes-like object, got 'list'"

/-- The fault belongs to the document; others are left to the caller. -/
def isReported : Fault → Bool
  | .hugeCharacter | .notTruth | .noDigits | .notMoment | .mapMoment => false
  | _ => true

end Fault
end Yaml
end Roster
