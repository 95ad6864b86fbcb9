import Roster.Number.Decimal
import Roster.Text.Case
import Roster.Yaml.Datum
import Roster.Yaml.Node

/-!
# What a document stands for

The tag of a node decides what its text or its items stand for.  Collections are gone through level
by level, so of several faults the one nearest to the top counts, and of those the first.
-/

namespace Roster
namespace Yaml
namespace Meaning

/-- Data, or a fault with the level at which it is met. -/
abbrev Outcome (α : Type) := Except (Nat × Fault) α

/-- Both results, or the fault that is met first. -/
def both {α β : Type} (a : Outcome α) (b : Outcome β) : Outcome (α × β) :=
  match a, b with
  | .ok x, .ok y => .ok (x, y)
  | .error e, .ok _ => .error e
  | .ok _, .error e => .error e
  | .error e, .error f => .error (if f.1 < e.1 then f else e)

/-- All results, or the fault that is met first. -/
def all {α : Type} : List (Outcome α) → Outcome (List α)
  | [] => .ok []
  | a :: rest => (both a (all rest)).map fun (x, xs) => x :: xs

/-! ## Scalars -/

/-- The text of a scalar; a mapping gives the text under its default key. -/
def textOf : (bound : Nat) → Node → Except Fault String
  | _, .scalar _ text _ => .ok text
  | bound + 1, .mapping _ _ entries start =>
      match entries.find? fun (key, _) => key.tag == Node.standardTag "value" with
      | some (_, value) => textOf bound value
      | none => .error (.markup none (.wrongNode "a scalar node" "mapping") start)
  | _, node => .error (.markup none (.wrongNode "a scalar node" node.kindName) node.start)

def trueWords : List String := ["yes", "true", "on"]

def falseWords : List String := ["no", "false", "off"]

def boolOf (s : String) : Except Fault Datum :=
  let word := Text.lower s
  if trueWords.contains word then .ok (.scalar (.bool true))
  else if falseWords.contains word then .ok (.scalar (.bool false))
  else .error .notTruth

/-- A number without low lines and without its sign. -/
def withoutSign (s : String) : Except Fault (Bool × List Char) :=
  match s.toList.filter (· != '_') with
  | [] => .error .noDigits
  | cs => .ok (Numeral.splitSign cs)

def decimalOf (cs : List Char) : Except Fault Int :=
  match Numeral.parse cs with
  | .ok i => .ok i
  | .error .malformed => .error (.badInteger 10 (String.ofList cs))
  | .error (.tooLong count) => .error (.longInteger count)

def inBase (base : Nat) (cs : List Char) : Except Fault Int :=
  (Numeral.parseBase base cs).elim (.error (.badInteger base (String.ofList cs))) .ok

/-- A whole number without its sign: in base two, eight, ten, sixteen, or sixty. -/
def sizeOf_ (cs : List Char) : Except Fault Int :=
  match cs with
  | [] => .error .noDigits
  | ['0'] => .ok 0
  | '0' :: 'b' :: rest => inBase 2 rest
  | '0' :: 'x' :: rest => inBase 16 rest
  | '0' :: rest => inBase 8 ('0' :: rest)
  | cs =>
      if cs.contains ':' then do
        let parts ← (Text.cut ':' cs).mapM decimalOf
        .ok (parts.foldl (fun n part => 60 * n + part) 0)
      else decimalOf cs

def intOf (s : String) : Except Fault Datum := do
  let (negative, cs) ← withoutSign s
  let size ← sizeOf_ cs
  .ok (.scalar (.int (if negative then -size else size)))

def numberOf (cs : List Char) : Except Fault Double :=
  (Decimal.parse? cs).elim (.error (.badNumber (String.ofList cs))) .ok

/-- Parts in base sixty, the last one first, added up from the last one on. -/
def sixties (parts : List Double) : Double :=
  (parts.zipIdx.foldl (fun sum (part, place) => sum.add (part.times (Nat.pow 60 place)))
    (Double.zero false))

def floatOf (s : String) : Except Fault Datum := do
  let (negative, cs) ← withoutSign (Text.lower s)
  let size ←
    if cs == ".inf".toList then .ok (.infinite false)
    else if cs == ".nan".toList then .ok .nan
    else if cs.contains ':' then do
      .ok (sixties (← (Text.cut ':' cs).reverse.mapM numberOf))
    else numberOf cs
  .ok (.scalar (.float (if negative then size.neg else size)))

/-- A day or a moment; one line end behind it does not count. -/
def momentOf (s : String) : Except Fault Datum :=
  let cs := s.toList
  let cs := if cs.getLast? == some '\n' then cs.dropLast else cs
  match Timestamp.parse? cs with
  | none => .error .notMoment
  | some t => (t.fault?).elim (.ok (.moment t)) fun fault => .error (.badMoment fault)

/-! ## Octets -/

/-- Value of a digit of base sixty-four. -/
def base64Value? (c : Char) : Option Nat :=
  if 'A' ≤ c && c ≤ 'Z' then some (c.toNat - 65)
  else if 'a' ≤ c && c ≤ 'z' then some (c.toNat - 71)
  else if c.isDigit then some (c.toNat + 4)
  else if c == '+' then some 62
  else if c == '/' then some 63
  else none

/-- Octets so far in reverse, the digits of the group that is open, the bits left over from the
last digit, and how many signs of padding came last. -/
structure Group where
  reversed : List UInt8 := []
  digits : Nat := 0
  left : Nat := 0
  padding : Nat := 0

/-- Go on with one digit. -/
def Group.push (g : Group) (value : Nat) : Group :=
  match g.digits with
  | 0 => ⟨g.reversed, 1, value, 0⟩
  | 1 => ⟨UInt8.ofNat (g.left * 4 + value / 16) :: g.reversed, 2, value % 16, 0⟩
  | 2 => ⟨UInt8.ofNat (g.left * 16 + value / 4) :: g.reversed, 3, value % 4, 0⟩
  | _ => ⟨UInt8.ofNat (g.left * 64 + value) :: g.reversed, 0, 0, 0⟩

/-- Octets written in base sixty-four. Other characters do not count; a full group ends at its
padding. -/
def decode64 (g : Group) : List Char → Except Problem (List UInt8)
  | [] =>
      if g.digits == 0 then .ok g.reversed.reverse
      else if g.digits == 1 then .error (.loneDigit (g.reversed.length / 3 * 4 + 1))
      else .error .badPadding
  | c :: rest =>
      if c == '=' then
        if 2 ≤ g.digits then
          if 4 ≤ g.digits + g.padding + 1 then .ok g.reversed.reverse
          else decode64 { g with padding := g.padding + 1 } rest
        else decode64 g rest
      else
        match base64Value? c with
        | none => decode64 g rest
        | some value => decode64 (g.push value) rest

/-- Octets; the text has to be in ASCII. -/
def octetsOf (s : String) (start : Mark) : Except Fault Datum :=
  let cs := s.toList
  let isAscii (c : Char) : Bool := c.toNat < 128
  let clear := (cs.takeWhile isAscii).length
  match cs.drop clear with
  | c :: rest =>
      let last := clear + (rest.takeWhile (!isAscii ·)).length
      .error (.markup none (.notAscii clear last c) start)
  | [] =>
      match decode64 {} cs with
      | .ok octets => .ok (.octets octets)
      | .error problem => .error (.markup none problem start)

/-! ## Collections -/

/-- Height of a tree, which bounds all that goes down into it. -/
def height : Node → Nat
  | .scalar .. | .loop .. => 1
  | .sequence _ _ items _ => heights items + 1
  | .mapping _ _ entries _ => entryHeights entries + 1
where
  /-- Greatest height of the items. -/
  heights : List Node → Nat
    | [] => 0
    | node :: rest => max (height node) (heights rest)
  /-- Greatest height of the keys and values. -/
  entryHeights : List (Node × Node) → Nat
    | [] => 0
    | (key, value) :: rest => max (max (height key) (height value)) (entryHeights rest)

def isMergeKey (node : Node) : Bool := node.tag == Node.standardTag "merge"

/-- The default key counts as a text where it is a key. -/
def plainKey : Node → Node
  | .scalar tag text start =>
      .scalar (if tag == Node.standardTag "value" then Node.standardTag "str" else tag) text start
  | node => node

/-- The entries of a mapping: those that are merged from others first, the nearest last. -/
def entriesOf : (bound : Nat) → Mark → List (Node × Node) → Except Fault (List (Node × Node))
  | 0, _, entries => .ok entries
  | bound + 1, start, entries => do
      let merged ← (entries.filter fun (key, _) => isMergeKey key).mapM fun (_, value) =>
        match value with
        | .mapping _ _ inner innerStart => entriesOf bound innerStart inner
        | .loop _ true _ => .ok []
        | .sequence _ _ items _ => do
            let parts ← items.mapM fun item =>
              match item with
              | .mapping _ _ inner innerStart => entriesOf bound innerStart inner
              | .loop _ true _ => .ok []
              | item => .error (.markup (some (.mapping, some start))
                  (.wrongNode "a mapping for merging" item.kindName) item.start)
            .ok parts.reverse.flatten
        | value => .error (.markup (some (.mapping, some start))
            (.wrongNode "a mapping or list of mappings for merging" value.kindName) value.start)
      .ok (merged.flatten ++ (entries.filter fun (key, _) => !isMergeKey key).map
        fun (key, value) => (plainKey key, value))

/-- The single entry of each item of a list of pairs. -/
def pairEntry (context : Context) (start : Mark) (item : Node) : Except Fault (Node × Node) :=
  match item with
  | .mapping _ _ [entry] _ => .ok entry
  | .mapping _ _ entries itemStart =>
      .error (.markup (some (context, some start)) (.wrongCount entries.length) itemStart)
  | item =>
      .error (.markup (some (context, some start))
        (.wrongNode "a mapping of length 1" item.kindName) item.start)

/-- A key at a level; a collection cannot be one, whatever is wrong further down in it. -/
def keyOf (start : Mark) (node : Node) (level : Nat) (key : Outcome Datum) : Outcome Datum :=
  let unhashable : Outcome Datum :=
    .error (level, .markup (some (.mapping, some start)) .unhashableKey node.start)
  match key with
  | .ok d => if d.isHashable then .ok d else unhashable
  | .error e => if level < e.1 then unhashable else .error e

/-- What a tag stands for. -/
inductive Kind where
  | null
  | bool
  | int
  | float
  | binary
  | timestamp
  | orderedMap
  | pairs
  | set
  | str
  | seq
  | map
  deriving DecidableEq, Repr

def Kind.names : List (Kind × String) :=
  [(.null, "null"), (.bool, "bool"), (.int, "int"), (.float, "float"), (.binary, "binary"),
    (.timestamp, "timestamp"), (.orderedMap, "omap"), (.pairs, "pairs"), (.set, "set"),
    (.str, "str"), (.seq, "seq"), (.map, "map")]

def Kind.ofTag? (tag : String) : Option Kind :=
  (names.find? fun (_, name) => tag == Node.standardTag name).map Prod.fst

/-- The data of a node met at a level. -/
def construct : (bound level : Nat) → Node → Outcome Datum
  | 0, level, node => .error (level, .markup none (.unknownTag node.tag) node.start)
  | _ + 1, _, .loop anchor isMapping _ => .ok (.loop anchor isMapping)
  | bound + 1, level, node =>
      let anchor :=
        match node with
        | .sequence _ anchor _ _ | .mapping _ anchor _ _ => anchor
        | _ => none
      let here {α : Type} (r : Except Fault α) : Outcome α := r.mapError fun fault => (level, fault)
      let below {α : Type} (r : Except Fault α) : Outcome α :=
        r.mapError fun fault => (level + 1, fault)
      let ofText (read : String → Except Fault Datum) : Outcome Datum :=
        here ((textOf bound node).bind read)
      let entry (e : Node × Node) : Outcome (Datum × Datum) :=
        both (construct bound (level + 1) e.1) (construct bound (level + 1) e.2)
      let hashed (start : Mark) (e : Node × Node) : Outcome (Datum × Datum) :=
        both (keyOf start e.1 (level + 1) (construct bound (level + 1) e.1))
          (construct bound (level + 1) e.2)
      let mapEntries : Outcome (List (Datum × Datum)) := do
        match node with
        | .mapping _ _ entries start =>
            let entries ← below (entriesOf (bound + 1) start entries)
            all (entries.map (hashed start))
        | node =>
            below (.error (.markup none (.wrongNode "a mapping node" node.kindName) node.start))
      let listItems : Outcome (List Datum) :=
        match node with
        | .sequence _ _ items _ => all (items.map (construct bound (level + 1)))
        | node =>
            below (.error (.markup none (.wrongNode "a sequence node" node.kindName) node.start))
      let pairEntries (context : Context) : Outcome (List (Datum × Datum)) :=
        match node with
        | .sequence _ _ items start =>
            all (items.map fun item =>
              match pairEntry context start item with
              | .ok e => entry e
              | .error fault => .error (level + 1, fault))
        | node =>
            below (.error (.markup (some (context, some node.start))
              (.wrongNode "a sequence" node.kindName) node.start))
      match Kind.ofTag? node.tag with
      | some .null => ofText fun _ => .ok (.scalar .null)
      | some .bool => ofText boolOf
      | some .int => ofText intOf
      | some .float => ofText floatOf
      | some .binary => ofText fun s => octetsOf s node.start
      | some .timestamp =>
          ofText fun s =>
            match node with
            | .scalar .. => momentOf s
            | _ => .error .mapMoment
      | some .orderedMap => (pairEntries .orderedMap).map (.pairs anchor)
      | some .pairs => (pairEntries .pairs).map (.pairs anchor)
      | some .set => mapEntries.map fun entries =>
          .set anchor ((Datum.ofEntries entries).map Prod.fst)
      | some .str => ofText fun s => .ok (.scalar (.str s))
      | some .seq => listItems.map (.list anchor)
      | some .map => mapEntries.map fun entries => .map anchor (Datum.ofEntries entries)
      | none => here (.error (.markup none (.unknownTag node.tag) node.start))

end Meaning

def Node.data (node : Node) : Except Fault Datum :=
  (Meaning.construct (Meaning.height node + 1) 0 node).mapError Prod.snd

end Yaml
end Roster
