import Roster.Yaml.Implicit
import Roster.Yaml.Lexer

/-!
# The tree of a document

A document is a tree of scalars, sequences and mappings, each with its tag.  An alias stands for
the node that was anchored before; one for a collection that is still open is kept as a loop.
-/

namespace Roster
namespace Yaml

/-- A node with the place where it starts. -/
inductive Node where
  | scalar (tag text : String) (start : Mark)
  | sequence (tag : String) (anchor : Option String) (items : List Node) (start : Mark)
  | mapping (tag : String) (anchor : Option String) (entries : List (Node × Node)) (start : Mark)
  /-- An alias inside the collection that it stands for. -/
  | loop (anchor : String) (isMapping : Bool) (start : Mark)

namespace Node

/-- Start of the tags that every document knows. -/
def standardTag (name : String) : String := "tag:yaml.org,2002:" ++ name

/-- Tag of what a plain scalar stands for. -/
def tagOfSort : Sort_ → String
  | .str => standardTag "str"
  | .bool => standardTag "bool"
  | .float => standardTag "float"
  | .int => standardTag "int"
  | .merge => standardTag "merge"
  | .null => standardTag "null"
  | .timestamp => standardTag "timestamp"
  | .value => standardTag "value"
  | .indicator => standardTag "yaml"

def start : Node → Mark
  | .scalar _ _ start | .sequence _ _ _ start | .mapping _ _ _ start | .loop _ _ start => start

def tag : Node → String
  | .scalar tag _ _ | .sequence tag _ _ _ | .mapping tag _ _ _ => tag
  | .loop _ isMapping _ => standardTag (if isMapping then "map" else "seq")

/-- Name of the kind of a node in messages. -/
def kindName : Node → String
  | .scalar .. => "scalar"
  | .sequence .. => "sequence"
  | .mapping .. => "mapping"
  | .loop _ isMapping _ => if isMapping then "mapping" else "sequence"

end Node

/-! ## Building the tree -/

/-- The tokens that are left with what is known of the document so far. -/
structure Builder where
  tokens : List Token
  /-- The fault behind the last token. -/
  fault : Option Fault
  /-- What the handles of tags stand for. -/
  handles : List (String × String) := []
  /-- Anchored nodes; a collection that is still open is a loop. -/
  anchors : List (String × Node) := []

abbrev Build := StateT Builder (Except Fault)

namespace Builder

/-- Refuse for a reason, with what was being read. -/
def refuse {α : Type} (context : Option (Context × Mark)) (problem : Problem) (mark : Mark) :
    Build α :=
  throw (.markup (context.map fun (context, start) => (context, some start)) problem mark)

def peek : Build Token := do
  let b ← get
  match b.tokens, b.fault with
  | token :: _, _ => return token
  | [], some fault => throw fault
  | [], none => return ⟨.streamEnd, ⟨0, 0⟩, ⟨0, 0⟩⟩

/-- The next token, which is used up. -/
def next : Build Token := do
  let token ← peek
  modify fun b => { b with tokens := b.tokens.drop 1 }
  return token

/-- The next token is of some kinds. -/
def sees (test : TokenKind → Bool) : Build Bool := do
  return test (← peek).kind

def unexpected {α : Type} (context : Option (Context × Mark)) (what joint : String) : Build α := do
  let token ← peek
  refuse context (.expectedToken what joint token.kind.name) token.start

def standardHandles : List (String × String) := [("!", "!"), ("!!", Node.standardTag "")]

/-- What stands in front of a node. -/
structure Properties where
  anchor : Option String := none
  tag : Option WrittenTag := none
  tagMark : Mark := ⟨0, 0⟩
  start : Option Mark := none

def takeAnchor (p : Properties) : Build Properties := do
  match (← peek).kind with
  | .anchor name => do
      let token ← next
      return { p with anchor := some name, start := p.start.or (some token.start) }
  | _ => return p

def takeTag (p : Properties) : Build Properties := do
  match (← peek).kind with
  | .tag written => do
      let token ← next
      return { p with
        tag := some written, tagMark := token.start, start := p.start.or (some token.start) }
  | _ => return p

def takeProperties : Build Properties := do
  let p ← takeAnchor {}
  let q ← takeTag p
  if p.anchor.isNone && q.tag.isSome then takeAnchor q else return q

/-- The tag that is meant by a written one. -/
def meaning (p : Properties) : Build (Option String) := do
  match p.tag with
  | none => return none
  | some ⟨none, suffix⟩ => return some suffix
  | some ⟨some handle, suffix⟩ =>
      match (← get).handles.lookup handle with
      | some text => return some (text ++ suffix)
      | none =>
          refuse (some (.node, p.start.getD ⟨0, 0⟩)) (.unknownHandle handle) p.tagMark

/-- Make a node known by its anchor. -/
def remember (anchor : Option String) (node : Node) : Build Unit :=
  match anchor with
  | some name => modify fun b => { b with anchors := (name, node) :: b.anchors }
  | none => return ()

def checkAnchor (anchor : Option String) (start : Mark) : Build Unit := do
  match anchor with
  | none => return ()
  | some name =>
      match (← get).anchors.lookup name with
      | some node => refuse (some (.firstAnchor name, node.start)) .secondAnchor start
      | none => return ()

/-- A tag, or another one where none is given. -/
def tagOr (tag : Option String) (other : String) : String :=
  match tag with
  | none | some "!" => other
  | some tag => tag

/-- A scalar node. A plain one without a tag stands for what its text says. -/
def scalarNode (p : Properties) (tag : Option String) (plain : Bool) (text : String)
    (start : Mark) : Build Node := do
  checkAnchor p.anchor start
  let resolved :=
    if plain && tag.isNone || tag == some "!" then Implicit.sortOf text.toList else .str
  let node := Node.scalar (tagOr tag (Node.tagOfSort resolved)) text start
  remember p.anchor node
  return node

def emptyNode (mark : Mark) : Build Node :=
  scalarNode {} none true "" mark

/-- What a node can be. -/
structure Place where
  /-- Indentation counts. -/
  block : Bool
  /-- Items can stand here without further indentation. -/
  indentless : Bool := false

/-- Start a collection: its anchor stands for a loop until it is closed. -/
def openNode (p : Properties) (isMapping : Bool) (start : Mark) : Build Unit := do
  checkAnchor p.anchor start
  match p.anchor with
  | some name => remember p.anchor (.loop name isMapping start)
  | none => return ()

/-- The kind is one of those that end an item without text. -/
def endsEntry (kind : TokenKind) : Bool :=
  kind == .key || kind == .value || kind == .blockEnd

/-- The kind ends an item or a value inside brackets. -/
def endsFlow (close kind : TokenKind) : Bool :=
  kind == .flowEntry || kind == close

/-- The comma in front of all items but the first. -/
def comma (context : Context) (start : Mark) (what : String) (first : Bool) : Build Unit := do
  if first then return ()
  else if ← sees (· == .flowEntry) then
    let _ ← next
    return ()
  else unexpected (some (context, start)) what "got"

mutual

/-- A node. Every bound here counts down the steps that are left; each takes a token at least
every third time. -/
def node : (bound : Nat) → Place → Build Node
  | 0, _ => emptyNode ⟨0, 0⟩
  | bound + 1, place => do
      let first ← peek
      match first.kind with
      | .alias_ name => do
          let _ ← next
          match (← get).anchors.lookup name with
          | some node => return node
          | none => refuse none (.unknownAlias name) first.start
      | _ => do
          let p ← takeProperties
          let tag ← meaning p
          let token ← peek
          content bound place p tag (p.start.getD token.start) token

/-- A node behind its anchor and tag. -/
def content : (bound : Nat) → Place → Properties → Option String → Mark → Token → Build Node
  | 0, _, _, _, start, _ => emptyNode start
  | bound + 1, place, p, tag, start, token => do
      let sequence (items : Build (List Node)) : Build Node := do
        openNode p false start
        let items ← items
        let node := Node.sequence (tagOr tag (Node.standardTag "seq")) p.anchor items start
        remember p.anchor node
        return node
      let mapping (entries : Build (List (Node × Node))) : Build Node := do
        openNode p true start
        let entries ← entries
        let node := Node.mapping (tagOr tag (Node.standardTag "map")) p.anchor entries start
        remember p.anchor node
        return node
      match token.kind, place.block, place.indentless with
      | .blockEntry, _, true => sequence (indentlessItems bound)
      | .scalar plain text, _, _ => do
          let _ ← next
          scalarNode p tag plain text start
      | .flowSequenceStart, _, _ => sequence (do
          let _ ← next
          flowItems bound token.start true)
      | .flowMappingStart, _, _ => mapping (do
          let _ ← next
          flowEntries bound token.start true)
      | .blockSequenceStart, true, _ => sequence (do
          let _ ← next
          blockItems bound token.start)
      | .blockMappingStart, true, _ => mapping (do
          let _ ← next
          blockEntries bound token.start)
      | _, block, _ =>
          if p.anchor.isSome || tag.isSome then scalarNode p tag true "" start
          else
            unexpected (some (if block then .blockNode else .flowNode, start))
              "the node content" "found"

/-- A node, or an empty scalar where the next token ends the entry. -/
def nodeOrEmpty : (bound : Nat) → Place → (ends : TokenKind → Bool) → Mark → Build Node
  | 0, _, _, mark => emptyNode mark
  | bound + 1, place, ends, mark => do
      if ← sees ends then emptyNode mark else node bound place

/-- Items behind hyphens up to the end of the indentation. -/
def blockItems : (bound : Nat) → Mark → Build (List Node)
  | 0, _ => return []
  | bound + 1, start => do
      let token ← peek
      match token.kind with
      | .blockEntry => do
          let _ ← next
          let item ← nodeOrEmpty bound ⟨true, false⟩
            (fun kind => kind == .blockEntry || kind == .blockEnd) token.stop
          return item :: (← blockItems bound start)
      | .blockEnd => do
          let _ ← next
          return []
      | _ => unexpected (some (.blockCollection, start)) "<block end>" "found"

/-- Items behind hyphens that are not indented. -/
def indentlessItems : (bound : Nat) → Build (List Node)
  | 0 => return []
  | bound + 1 => do
      let token ← peek
      match token.kind with
      | .blockEntry => do
          let _ ← next
          let item ← nodeOrEmpty bound ⟨true, false⟩
            (fun kind => kind == .blockEntry || endsEntry kind) token.stop
          return item :: (← indentlessItems bound)
      | _ => return []

/-- Entries up to the end of the indentation. -/
def blockEntries : (bound : Nat) → Mark → Build (List (Node × Node))
  | 0, _ => return []
  | bound + 1, start => do
      let token ← peek
      match token.kind with
      | .blockEnd => do
          let _ ← next
          return []
      | .key => do
          let _ ← next
          let key ← nodeOrEmpty bound ⟨true, true⟩ endsEntry token.stop
          let value ← blockValue bound
          return (key, value) :: (← blockEntries bound start)
      | _ => unexpected (some (.blockMapping, start)) "<block end>" "found"

def blockValue : (bound : Nat) → Build Node
  | 0 => emptyNode ⟨0, 0⟩
  | bound + 1 => do
      let token ← peek
      if token.kind == .value then do
        let _ ← next
        nodeOrEmpty bound ⟨true, true⟩ endsEntry token.stop
      else emptyNode token.start

/-- Items between brackets; a comma stands in front of each but the first. -/
def flowItems : (bound : Nat) → Mark → (first : Bool) → Build (List Node)
  | 0, _, _ => return []
  | bound + 1, start, first => do
      if ← sees (· == .flowSequenceEnd) then
        let _ ← next
        return []
      else do
        comma .flowSequence start "',' or ']'" first
        let token ← peek
        match token.kind with
        | .key => do
            let _ ← next
            let pair ← flowPair bound token
            return pair :: (← flowItems bound start false)
        | .flowSequenceEnd => do
            let _ ← next
            return []
        | _ => do
            let item ← node bound ⟨false, false⟩
            return item :: (← flowItems bound start false)

def flowPair : (bound : Nat) → Token → Build Node
  | 0, token => emptyNode token.start
  | bound + 1, token => do
      let ends (kind : TokenKind) : Bool := endsFlow .flowSequenceEnd kind
      let key ← nodeOrEmpty bound ⟨false, false⟩ (fun kind => kind == .value || ends kind) token.stop
      let value ← flowValue bound ends
      return .mapping (Node.standardTag "map") none [(key, value)] token.start

/-- The value of an entry between brackets. -/
def flowValue : (bound : Nat) → (ends : TokenKind → Bool) → Build Node
  | 0, _ => emptyNode ⟨0, 0⟩
  | bound + 1, ends => do
      let token ← peek
      if token.kind == .value then do
        let _ ← next
        nodeOrEmpty bound ⟨false, false⟩ ends token.stop
      else emptyNode token.start

/-- Entries between braces; a comma stands in front of each but the first. -/
def flowEntries : (bound : Nat) → Mark → (first : Bool) → Build (List (Node × Node))
  | 0, _, _ => return []
  | bound + 1, start, first => do
      let ends (kind : TokenKind) : Bool := endsFlow .flowMappingEnd kind
      if ← sees (· == .flowMappingEnd) then
        let _ ← next
        return []
      else do
        comma .flowMapping start "',' or '\x7d'" first
        let token ← peek
        match token.kind with
        | .key => do
            let _ ← next
            let key ← nodeOrEmpty bound ⟨false, false⟩ (fun kind => kind == .value || ends kind)
              token.stop
            let value ← flowValue bound ends
            return (key, value) :: (← flowEntries bound start false)
        | .flowMappingEnd => do
            let _ ← next
            return []
        | _ => do
            let key ← node bound ⟨false, false⟩
            let value ← emptyNode (← peek).start
            return (key, value) :: (← flowEntries bound start false)

end

/-! ## Documents -/

def skipDocumentEnds : (bound : Nat) → Build Unit
  | 0 => return ()
  | bound + 1 => do
      if ← sees (· == .documentEnd) then
        let _ ← next
        skipDocumentEnds bound
      else return ()

/-- Directives in front of a document; a version can be given once, and so can each handle. -/
def directives : (bound : Nat) → (versioned : Bool) → (handles : List (String × String)) →
    Build (List (String × String))
  | 0, _, handles => return handles
  | bound + 1, versioned, handles => do
      let token ← peek
      match token.kind with
      | .versionDirective major => do
          let _ ← next
          if versioned then refuse none .repeatedVersion token.start
          else if major != 1 then refuse none .foreignVersion token.start
          else directives bound true handles
      | .tagDirective handle text => do
          let _ ← next
          if (handles.lookup handle).isSome then refuse none (.repeatedHandle handle) token.start
          else directives bound versioned (handles ++ [(handle, text)])
      | .otherDirective => do
          let _ ← next
          directives bound versioned handles
      | _ => return handles

/-- The start of a document with its directives, and its place; `none` at the end of the stream. -/
def documentStart : Build (Option Mark) := do
  let bound := (← get).tokens.length
  skipDocumentEnds bound
  if ← sees (· == .streamEnd) then return none
  else do
    let start := (← peek).start
    let handles ← directives bound false []
    modify fun b => { b with handles := handles ++ standardHandles }
    if ← sees (· == .documentStart) then
      let _ ← next
      return some start
    else unexpected none "'<document start>'" "found"

def isDirective : TokenKind → Bool
  | .versionDirective _ | .tagDirective .. | .otherDirective => true
  | _ => false

/-- The next token shows that a document has no content. -/
def endsDocument (kind : TokenKind) : Bool :=
  isDirective kind || kind == .documentStart || kind == .documentEnd || kind == .streamEnd

/-- The content of the only document; `none` when there is no document. -/
def onlyDocument : Build (Option Node) := do
  let _ ← next
  let bound := 4 * (← get).tokens.length + 8
  let explicit ← sees fun kind =>
    isDirective kind || kind == .documentStart || kind == .streamEnd
  let root ←
    if explicit then do
      match ← documentStart with
      | none => return none
      | some _ => nodeOrEmpty bound ⟨true, false⟩ endsDocument (← peek).start
    else do
      modify fun b => { b with handles := standardHandles }
      node bound ⟨true, false⟩
  if ← sees (· == .documentEnd) then
    let _ ← next
  match ← documentStart with
  | none => return some root
  | some mark => refuse (some (.stream, root.start)) .secondDocument mark

end Builder

/-- The tree of the only document in a text, `none` for an empty one. -/
def Node.ofChars (cs : List Char) : Except Fault (Option Node) :=
  let output := tokens cs
  (Builder.onlyDocument.run' ⟨output.tokens, output.fault, [], []⟩)

end Yaml
end Roster
