import Roster.Proofs.Yaml.Words

/-!
# Documents as they are written

A value stands on the line of its key or hyphen, or on the lines below, further to the right; only a
list below its key starts in the column of the key.  The relations here say so for values, items and
entries, and leave open where scalars are folded.
-/

namespace Roster
namespace Yaml

/-- A scalar as it is written, whatever it stands for. -/
inductive ScalarWritten (level : Nat) : Value → List Char → Prop where
  | text {s : String} {text} (h : Written level false s.toList text) :
      ScalarWritten level (.str s) text
  | word {v : Value} {cs} (h : word? v = some cs) (hv : IsReadable v) : ScalarWritten level v cs

/-- The character may stand in a document, and no reading of line ends changes it. -/
def IsKept (ch : Char) : Prop := isAcceptable ch = true ∧ ch ≠ '\r'

instance (ch : Char) : Decidable (IsKept ch) := inferInstanceAs (Decidable (_ ∧ _))

/-- The character can stand in a comment. -/
def IsRemarkable (ch : Char) : Prop := Style.isBreak ch = false ∧ IsKept ch

instance (ch : Char) : Decidable (IsRemarkable ch) := inferInstanceAs (Decidable (_ ∧ _))

/-- What stands behind a colon whose value follows below: nothing, or a remark. -/
inductive Remark (noted : Bool) : List Char → Prop where
  | none : Remark noted []
  | some {cs : List Char} (hnoted : noted = true) (hcs : ∀ ch ∈ cs, IsRemarkable ch) :
      Remark noted (' ' :: ' ' :: '#' :: cs)

/-- The key of an entry with its colon: both on one line, with lists and maps below, or the key
behind a question mark and the colon on a line of its own. -/
inductive KeyWritten (column : Nat) : (below : Bool) → String → List Char → Prop where
  | simple {k : String} {text} (hsimple : Pen.isSimpleKey k.toList = true)
      (h : Written (column + 2) true k.toList text) : KeyWritten column true k (text ++ [':'])
  | long {k : String} {text} (hsimple : Pen.isSimpleKey k.toList = false)
      (h : Written (column + 2) false k.toList text) :
      KeyWritten column false k ('?' :: ' ' :: text ++ (newLine column ++ [':']))

mutual

/-- A value behind an indicator, inside a collection that starts in a column; `below` says whether
lists and maps go on in the next line. -/
inductive NodeWritten (noted : Bool) : (column : Nat) → (below : Bool) → Value → List Char → Prop where
  | scalar {column below v text} (h : ScalarWritten (column + 2) v text) :
      NodeWritten noted column below v (' ' :: text)
  | noItems {column below} : NodeWritten noted column below (.list []) [' ', '[', ']']
  | noEntries {column below} : NodeWritten noted column below (.map []) [' ', '\x7b', '\x7d']
  | items {column items text} (h : ItemsWritten noted (column + 2) items text) :
      NodeWritten noted column false (.list items) (' ' :: text)
  | itemsBelow {column remark items text} (hremark : Remark noted remark)
      (h : ItemsWritten noted column items text) :
      NodeWritten noted column true (.list items) (remark ++ (newLine column ++ text))
  | entries {column entries text} (h : EntriesWritten noted (column + 2) entries text) :
      NodeWritten noted column false (.map entries) (' ' :: text)
  | entriesBelow {column remark entries text} (hremark : Remark noted remark)
      (h : EntriesWritten noted (column + 2) entries text) :
      NodeWritten noted column true (.map entries) (remark ++ (newLine (column + 2) ++ text))

/-- Items in a column, each behind a hyphen. -/
inductive ItemsWritten (noted : Bool) : (column : Nat) → List Value → List Char → Prop where
  | last {column v text} (h : NodeWritten noted column false v text) :
      ItemsWritten noted column [v] ('-' :: text)
  | cons {column v rest front back} (h : NodeWritten noted column false v front)
      (hrest : ItemsWritten noted column rest back) :
      ItemsWritten noted column (v :: rest) ('-' :: front ++ (newLine column ++ back))

/-- Entries in a column. -/
inductive EntriesWritten (noted : Bool) : (column : Nat) → List (String × Value) → List Char → Prop where
  | last {column below k v key value} (hkey : KeyWritten column below k key)
      (hvalue : NodeWritten noted column below v value) :
      EntriesWritten noted column [(k, v)] (key ++ value)
  | cons {column below k v rest key value back} (hkey : KeyWritten column below k key)
      (hvalue : NodeWritten noted column below v value)
      (hrest : EntriesWritten noted column rest back) :
      EntriesWritten noted column ((k, v) :: rest) (key ++ value ++ (newLine column ++ back))

end

/-!
## How far to the right values stand
-/

mutual

/-- How many collections are inside one another. -/
def nesting : Value → Nat
  | .list items => itemNesting items + 1
  | .map entries => entryNesting entries + 1
  | _ => 0

def itemNesting : List Value → Nat
  | [] => 0
  | v :: rest => max (nesting v) (itemNesting rest)

/-- The deepest of the values of some entries. -/
def entryNesting : List (String × Value) → Nat
  | [] => 0
  | (_, v) :: rest => max (nesting v) (entryNesting rest)

end

/-!
## What a value holds
-/

section EachPart

variable (key : String → Prop) (scalar : Value → Prop)

mutual

/-- Every key inside a value has a property, and every scalar has another. -/
def EachPart : Value → Prop
  | .list items => EachItemPart items
  | .map entries => EachEntryPart entries
  | v => scalar v

/-- The keys and scalars inside some items have the properties. -/
def EachItemPart : List Value → Prop
  | [] => True
  | v :: rest => EachPart v ∧ EachItemPart rest

/-- The keys of some entries and what is inside their values have the properties. -/
def EachEntryPart : List (String × Value) → Prop
  | [] => True
  | (k, v) :: rest => key k ∧ EachPart v ∧ EachEntryPart rest

end

mutual

/-- Whether every key and scalar inside a value has its property. -/
def decideEachPart [DecidablePred key] [DecidablePred scalar] :
    (v : Value) → Decidable (EachPart key scalar v)
  | .null => inferInstanceAs (Decidable (scalar .null))
  | .bool b => inferInstanceAs (Decidable (scalar (.bool b)))
  | .int i => inferInstanceAs (Decidable (scalar (.int i)))
  | .float d => inferInstanceAs (Decidable (scalar (.float d)))
  | .str s => inferInstanceAs (Decidable (scalar (.str s)))
  | .list items => decideEachItemPart items
  | .map entries => decideEachEntryPart entries

def decideEachItemPart [DecidablePred key] [DecidablePred scalar] :
    (items : List Value) → Decidable (EachItemPart key scalar items)
  | [] => .isTrue trivial
  | v :: rest =>
      have := decideEachPart v
      have := decideEachItemPart rest
      inferInstanceAs (Decidable (EachPart key scalar v ∧ EachItemPart key scalar rest))

def decideEachEntryPart [DecidablePred key] [DecidablePred scalar] :
    (entries : List (String × Value)) → Decidable (EachEntryPart key scalar entries)
  | [] => .isTrue trivial
  | (k, v) :: rest =>
      have := decideEachPart v
      have := decideEachEntryPart rest
      inferInstanceAs (Decidable (key k ∧ EachPart key scalar v ∧ EachEntryPart key scalar rest))

end

instance [DecidablePred key] [DecidablePred scalar] (v : Value) : Decidable (EachPart key scalar v) :=
  decideEachPart key scalar v

variable {key scalar} {key' : String → Prop} {scalar' : Value → Prop}

mutual

theorem EachPart.imp (hkey : ∀ k, key k → key' k) (hscalar : ∀ v, scalar v → scalar' v) :
    ∀ {v : Value}, EachPart key scalar v → EachPart key' scalar' v
  | .null, h => hscalar _ h
  | .bool _, h => hscalar _ h
  | .int _, h => hscalar _ h
  | .float _, h => hscalar _ h
  | .str _, h => hscalar _ h
  | .list _, h => EachItemPart.imp hkey hscalar h
  | .map _, h => EachEntryPart.imp hkey hscalar h

theorem EachItemPart.imp (hkey : ∀ k, key k → key' k) (hscalar : ∀ v, scalar v → scalar' v) :
    ∀ {items : List Value}, EachItemPart key scalar items → EachItemPart key' scalar' items
  | [], _ => trivial
  | _ :: _, h => ⟨EachPart.imp hkey hscalar h.1, EachItemPart.imp hkey hscalar h.2⟩

theorem EachEntryPart.imp (hkey : ∀ k, key k → key' k) (hscalar : ∀ v, scalar v → scalar' v) :
    ∀ {entries : List (String × Value)}, EachEntryPart key scalar entries →
      EachEntryPart key' scalar' entries
  | [], _ => trivial
  | _ :: _, h => ⟨hkey _ h.1, EachPart.imp hkey hscalar h.2.1, EachEntryPart.imp hkey hscalar h.2.2⟩

end

end EachPart

/-- The value is no text, or its text has the property. -/
def OnText (p : String → Prop) : Value → Prop
  | .str s => p s
  | _ => True

instance (p : String → Prop) [DecidablePred p] : DecidablePred (OnText p)
  | .str s => inferInstanceAs (Decidable (p s))
  | .null | .bool _ | .int _ | .float _ | .list _ | .map _ => .isTrue trivial

namespace Pen

variable {pen : Pen} {column : Nat} {below : Bool}

/-!
## The pen writes documents
-/

/-- The pen stands behind an indicator in a column, or, where lists and maps go on in the next line,
behind the colon of a key. -/
structure IsBehind (pen : Pen) (column : Nat) (below : Bool) : Prop where
  blank : pen.blank = false
  fresh : pen.fresh = !below
  column : below = false → pen.column = column + 1

theorem isBehind_colon (pen : Pen) (column : Nat) :
    (pen.indicator [':'] false false).IsBehind column true :=
  ⟨rfl, Bool.and_false _, nofun⟩

theorem isBehind_indicator (h : pen.IsReady column) (c : Char) (needsBlank : Bool) :
    (pen.indicator [c] needsBlank true).IsBehind column false := by
  refine ⟨rfl, ?_, fun _ => ?_⟩
  · simp [indicator, put, h.fresh]
  · simp [indicator, put, h.blank, h.column]

/-- Where a collection begins on the line of its indicator, one blank parts them. -/
theorem wrote_indent_of_isBehind (h : pen.IsBehind column false) :
    pen.Wrote (pen.indent (column + 2)) [' '] ∧ (pen.indent (column + 2)).IsReady (column + 2) := by
  have hlevel : pen.column < column + 2 := by
    rw [h.column rfl]
    omega
  have hindent : pen.indent (column + 2) =
      { pen.put (List.replicate (column + 2 - pen.column) ' ') with blank := true } := by
    simp [indent, h.fresh, hlevel, Nat.lt_asymm hlevel, Nat.ne_of_lt hlevel]
  rw [hindent, h.column rfl]
  refine ⟨?_, ?_, rfl, ?_⟩
  · rw [Nat.add_sub_add_left]
    exact wrote_put pen [' ']
  · simp only [put, h.column rfl, List.length_replicate]
    omega
  · simpa [put] using h.fresh

theorem isInside_of_below (h : pen.IsBehind column true) (level : Nat) : pen.IsInside level :=
  Or.inl h.fresh

theorem wrote_plain_word {cs : List Char} (hne : cs ≠ [])
    (hletters : ∀ ch ∈ cs, CharClass.of ch = .letter) (pen : Pen) (level : Nat) :
    pen.Wrote (pen.plain 0 false cs) ((if pen.blank then [] else [' ']) ++ cs) ∧
      (pen.plain 0 false cs).IsInside level := by
  rw [plain, if_neg (by simpa using hne), Stretch.stretches_of_letters hne hletters]
  simp only [stretchesFrom, List.flatMap_singleton']
  exact ⟨(wrote_lead pen).trans (wrote_put _ cs), Or.inl rfl⟩

theorem writeNode_word {v : Value} {cs : List Char} (hword : word? v = some cs) (level : Option Nat)
    (inMap : Bool) (pen : Pen) : writeNode level inMap pen v = pen.plain 0 false cs := by
  cases v with
  | null => cases hword; rw [writeNode]
  | bool b => cases hword; rw [writeNode]
  | int i => cases hword; rw [writeNode]
  | float d => cases hword; rw [writeNode]
  | str s => cases hword
  | list items => cases hword
  | map entries => cases hword

theorem written_word {v : Value} {cs : List Char} (hword : word? v = some cs) (hv : IsReadable v)
    (inMap : Bool) (h : pen.IsBehind column below) :
    ∃ text, NodeWritten false column below v text ∧
      pen.Wrote (writeNode (some column) inMap pen v) text ∧
      (writeNode (some column) inMap pen v).IsInside (column + 1) := by
  rcases word?_spec hword hv with ⟨hne, -, hletters⟩
  have hwrote := wrote_plain_word hne hletters pen (column + 1)
  rw [h.blank] at hwrote
  rw [writeNode_word hword]
  exact ⟨_, .scalar (.word hword hv), hwrote⟩

/-- The pen behind the colon of a key. -/
def key (pen : Pen) (level : Nat) (k : String) : Pen :=
  if isSimpleKey k.toList then (pen.scalar (level + 2) true k.toList).indicator [':'] false false
  else
    (((pen.indicator ['?'] true true).scalar (level + 2) false k.toList).indent level).indicator [':']
      true true

theorem writeEntries_cons (level : Nat) (pen : Pen) (k : String) (v : Value)
    (rest : List (String × Value)) : writeEntries level pen ((k, v) :: rest) =
      writeEntries level (writeNode (some level) true ((pen.indent level).key level k) v) rest := by
  rw [writeEntries]
  rfl

theorem written_key (h : pen.IsReady column) (hroom : column + 2 < width) (k : String) :
    ∃ below text, KeyWritten column below k text ∧ pen.Wrote (pen.key column k) text ∧
      (pen.key column k).IsBehind column below := by
  rw [key]
  cases hsimple : isSimpleKey k.toList with
  | true =>
      rcases written_scalar hroom true pen k.toList with ⟨text, hwritten, hwrote, -⟩
      have hcolon := wrote_indicator (pen.scalar (column + 2) true k.toList) [':'] false false
      rw [h.blank] at hwrote
      exact ⟨true, _, .simple hsimple hwritten, by simpa using hwrote.trans hcolon,
        isBehind_colon _ column⟩
  | false =>
      have hquestion := wrote_indicator pen ['?'] true true
      rcases written_scalar hroom false (pen.indicator ['?'] true true) k.toList with
        ⟨text, hwritten, hwrote, hinside⟩
      have hindent := wrote_indent_of_isInside (hinside.mono (Nat.le_succ (column + 1)))
      have hcolon := wrote_indicator (((pen.indicator ['?'] true true).scalar (column + 2) false
        k.toList).indent column) [':'] true true
      rw [h.blank] at hquestion
      rw [hindent.2.blank] at hcolon
      rw [(isBehind_indicator h '?' true).blank] at hwrote
      refine ⟨false, _, .long hsimple hwritten, ?_, isBehind_indicator hindent.2 ':' true⟩
      simpa using (hquestion.trans hwrote).trans (hindent.1.trans hcolon)

theorem wrote_brackets (h : pen.blank = false) (opening closing : Char) (level : Nat) :
    pen.Wrote ((pen.indicator [opening] true false).indicator [closing] false false)
        [' ', opening, closing] ∧
      ((pen.indicator [opening] true false).indicator [closing] false false).IsInside level := by
  have hopen := wrote_indicator pen [opening] true false
  have hclose := wrote_indicator (pen.indicator [opening] true false) [closing] false false
  rw [h] at hopen
  exact ⟨by simpa using hopen.trans hclose, Or.inl (fresh_indicator _ _ false)⟩

mutual

/-- A value is written behind its indicator, and what follows is on a new line. -/
theorem written_node : ∀ (v : Value) (inMap : Bool) {pen : Pen} {column : Nat} {below : Bool},
    pen.IsBehind column below → (below = true → inMap = true) →
    EachPart (fun _ => True) IsReadable v → column + 2 + 2 * nesting v < width →
    ∃ text, NodeWritten false column below v text ∧
      pen.Wrote (writeNode (some column) inMap pen v) text ∧
      (writeNode (some column) inMap pen v).IsInside (column + 1)
  | .null, inMap, _, _, _, h, _, hv, _ => written_word (v := .null) rfl hv inMap h
  | .bool b, inMap, _, _, _, h, _, hv, _ => written_word (v := .bool b) rfl hv inMap h
  | .int i, inMap, _, _, _, h, _, hv, _ => written_word (v := .int i) rfl hv inMap h
  | .float d, inMap, _, _, _, h, _, hv, _ => written_word (v := .float d) rfl hv inMap h
  | .str s, inMap, pen, column, below, h, _, _, hroom => by
      rcases written_scalar (Nat.lt_of_le_of_lt (Nat.le_add_right _ _) hroom) false pen s.toList with
        ⟨text, hwritten, hwrote, hinside⟩
      rw [h.blank] at hwrote
      rw [writeNode]
      exact ⟨_, .scalar (.text hwritten), hwrote, hinside.mono (Nat.le_succ _)⟩
  | .list [], _, pen, column, below, h, _, _, _ => by
      rw [writeNode]
      exact ⟨_, .noItems, wrote_brackets h.blank '[' ']' _⟩
  | .map [], _, pen, column, below, h, _, _, _ => by
      rw [writeNode]
      exact ⟨_, .noEntries, wrote_brackets h.blank '\x7b' '\x7d' _⟩
  -- A list behind a key goes on in the column of the key; any other collection goes on two columns
  -- further to the right.
  | .list (v :: rest), inMap, pen, column, true, h, hmap, hitems, hroom => by
      have hindent := wrote_indent_of_isInside (isInside_of_below h (column + 1))
      have heq : writeNode (some column) inMap pen (.list (v :: rest)) =
          writeItems column pen (v :: rest) := by simp [writeNode, h.fresh, hmap]
      rw [nesting] at hroom
      rcases written_items (v :: rest) (List.cons_ne_nil _ _) hindent.2 hitems (by omega) with
        ⟨text, hwritten, hwrote, hinside⟩
      rw [heq]
      exact ⟨_, .itemsBelow .none hwritten, hindent.1.trans hwrote, hinside⟩
  | .list (v :: rest), inMap, pen, column, false, h, _, hitems, hroom => by
      have hindent := wrote_indent_of_isBehind h
      have heq : writeNode (some column) inMap pen (.list (v :: rest)) =
          writeItems (column + 2) pen (v :: rest) := by simp [writeNode, h.fresh]
      rw [nesting] at hroom
      rcases written_items (v :: rest) (List.cons_ne_nil _ _) hindent.2 hitems (by omega) with
        ⟨text, hwritten, hwrote, hinside⟩
      rw [heq]
      exact ⟨_, .items hwritten, hindent.1.trans hwrote, hinside.mono (by omega)⟩
  | .map (entry :: rest), inMap, pen, column, true, h, _, hentries, hroom => by
      have hindent := wrote_indent_of_isInside (isInside_of_below h (column + 2 + 1))
      have heq : writeNode (some column) inMap pen (.map (entry :: rest)) =
          writeEntries (column + 2) pen (entry :: rest) := by simp [writeNode]
      rw [nesting] at hroom
      rcases written_entries (entry :: rest) (List.cons_ne_nil _ _) hindent.2 hentries (by omega) with
        ⟨text, hwritten, hwrote, hinside⟩
      rw [heq]
      exact ⟨_, .entriesBelow .none hwritten, hindent.1.trans hwrote, hinside.mono (by omega)⟩
  | .map (entry :: rest), inMap, pen, column, false, h, _, hentries, hroom => by
      have hindent := wrote_indent_of_isBehind h
      have heq : writeNode (some column) inMap pen (.map (entry :: rest)) =
          writeEntries (column + 2) pen (entry :: rest) := by simp [writeNode]
      rw [nesting] at hroom
      rcases written_entries (entry :: rest) (List.cons_ne_nil _ _) hindent.2 hentries (by omega) with
        ⟨text, hwritten, hwrote, hinside⟩
      rw [heq]
      exact ⟨_, .entries hwritten, hindent.1.trans hwrote, hinside.mono (by omega)⟩

theorem written_items : ∀ (items : List Value), items ≠ [] → ∀ {pen : Pen} {column : Nat},
    (pen.indent column).IsReady column → EachItemPart (fun _ => True) IsReadable items →
    column + 2 + 2 * itemNesting items < width →
    ∃ text, ItemsWritten false column items text ∧
      (pen.indent column).Wrote (writeItems column pen items) text ∧
      (writeItems column pen items).IsInside (column + 1)
  | [], hne, _, _, _, _, _ => absurd rfl hne
  | v :: rest, _, pen, column, h, hitems, hroom => by
      have hhyphen := wrote_indicator (pen.indent column) ['-'] true true
      rw [h.blank] at hhyphen
      rw [itemNesting] at hroom
      rcases written_node v false (isBehind_indicator h '-' true) nofun hitems.1 (by omega) with
        ⟨front, hnode, hwrote, hinside⟩
      rw [writeItems]
      by_cases hlast : rest = []
      · rw [hlast, writeItems]
        exact ⟨_, .last hnode, hhyphen.trans hwrote, hinside⟩
      · have hindent := wrote_indent_of_isInside hinside
        rcases written_items rest hlast hindent.2 hitems.2 (by omega) with
          ⟨back, hwritten, hwroteBack, hinside⟩
        refine ⟨_, .cons hnode hwritten, ?_, hinside⟩
        exact (hhyphen.trans hwrote).trans (hindent.1.trans hwroteBack)

theorem written_entries : ∀ (entries : List (String × Value)), entries ≠ [] →
    ∀ {pen : Pen} {column : Nat},
    (pen.indent column).IsReady column → EachEntryPart (fun _ => True) IsReadable entries →
    column + 2 + 2 * entryNesting entries < width →
    ∃ text, EntriesWritten false column entries text ∧
      (pen.indent column).Wrote (writeEntries column pen entries) text ∧
      (writeEntries column pen entries).IsInside (column + 1)
  | [], hne, _, _, _, _, _ => absurd rfl hne
  | (k, v) :: rest, _, pen, column, h, hentries, hroom => by
      rw [entryNesting] at hroom
      rcases written_key h (Nat.lt_of_le_of_lt (Nat.le_add_right _ _) hroom) k with
        ⟨below, front, hkey, hwroteKey, hbehind⟩
      rcases written_node v true hbehind (fun _ => rfl) hentries.2.1 (by omega) with
        ⟨text, hnode, hwrote, hinside⟩
      rw [writeEntries_cons]
      by_cases hlast : rest = []
      · rw [hlast, writeEntries]
        exact ⟨_, .last hkey hnode, hwroteKey.trans hwrote, hinside⟩
      · have hindent := wrote_indent_of_isInside hinside
        rcases written_entries rest hlast hindent.2 hentries.2.2 (by omega) with
          ⟨back, hwritten, hwroteBack, hinside⟩
        refine ⟨_, .cons hkey hnode hwritten, ?_, hinside⟩
        exact (hwroteKey.trans hwrote).trans (hindent.1.trans hwroteBack)

end

end Pen

/-- A document of entries is written from the first column on, up to the end of its last line. -/
theorem exists_written_render {entries : List (String × Value)} (hne : entries ≠ [])
    (hreadable : EachEntryPart (fun _ => True) IsReadable entries) (hroom : nesting (.map entries) < 40) :
    ∃ text, EntriesWritten false 0 entries text ∧
      render (.map entries) = String.ofList (text ++ ['\n']) := by
  have hstart : (({} : Pen).indent 0).IsReady 0 := ⟨rfl, rfl, rfl⟩
  have hwidth : 0 + 2 + 2 * entryNesting entries < Pen.width := by
    rw [nesting] at hroom
    rw [Pen.width]
    omega
  rcases Pen.written_entries entries hne hstart hreadable hwidth with ⟨text, hwritten, hwrote, hinside⟩
  have hreversed := (hwrote.trans (Pen.wrote_indent_of_isInside hinside).1)
  refine ⟨text, hwritten, ?_⟩
  have hroot : writeNode none false {} (.map entries) = writeEntries 0 {} entries := by
    rcases List.exists_cons_of_ne_nil hne with ⟨entry, rest, rfl⟩
    simp [writeNode]
  rw [render, hroot, Pen.text, hreversed]
  simp [Pen.indent, newLine]

end Yaml
end Roster
