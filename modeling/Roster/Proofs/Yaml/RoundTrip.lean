import Roster.Proofs.Value.Document
import Roster.Proofs.Yaml.Nodes

/-!
# Documents are read back

A document of a map is read as the same map, up to the line ends that the reader folds in texts.  A
key has to be short enough where it stands on one line with its colon.
-/

namespace Roster
namespace Yaml

section Acceptable

variable {noted below : Bool} {column : Nat} {v : Value} {text : List Char}

theorem isKept_of_scalarWritten (h : ScalarWritten column v text) : ∀ ch ∈ text, IsKept ch := by
  cases h with
  | text h => exact acceptable_of_written h
  | word hword hv =>
      rcases Style.allowsPlain_iff.mp (word?_spec hword hv).2.1 with ⟨-, -, -, -, hclear⟩
      exact fun ch hch => acceptable_of_isClear (hclear ch hch)

theorem isKept_newLine (column : Nat) : ∀ ch ∈ newLine column, IsKept ch := by
  refine List.forall_mem_cons.mpr ⟨by decide, fun ch hch => ?_⟩
  rw [List.eq_of_mem_replicate hch]
  decide

theorem isKept_of_remark (h : Remark noted text) : ∀ ch ∈ text, IsKept ch := by
  cases h with
  | none => exact nofun
  | some hnoted hcs =>
      simp only [List.forall_mem_cons]
      exact ⟨by decide, by decide, by decide, fun ch hch => (hcs ch hch).2⟩

theorem isKept_of_keyWritten {k : String} (h : KeyWritten column below k text) :
    ∀ ch ∈ text, IsKept ch := by
  cases h with
  | simple hsimple h =>
      exact List.forall_mem_append.mpr ⟨acceptable_of_written h, by decide⟩
  | long hsimple h =>
      simp only [List.forall_mem_append, List.forall_mem_cons, List.cons_append]
      exact ⟨by decide, by decide, acceptable_of_written h, isKept_newLine column, by decide, nofun⟩

mutual

theorem isKept_of_nodeWritten {noted : Bool} :
    ∀ {column : Nat} {below : Bool} {v : Value} {text : List Char},
    NodeWritten noted column below v text → ∀ ch ∈ text, IsKept ch
  | _, _, _, _, .scalar h => List.forall_mem_cons.mpr ⟨by decide, isKept_of_scalarWritten h⟩
  | _, _, _, _, .noItems => by decide
  | _, _, _, _, .noEntries => by decide
  | _, _, _, _, .items h => List.forall_mem_cons.mpr ⟨by decide, isKept_of_itemsWritten h⟩
  | _, _, _, _, .itemsBelow hremark h => List.forall_mem_append.mpr ⟨isKept_of_remark hremark,
      List.forall_mem_append.mpr ⟨isKept_newLine _, isKept_of_itemsWritten h⟩⟩
  | _, _, _, _, .entries h => List.forall_mem_cons.mpr ⟨by decide, isKept_of_entriesWritten h⟩
  | _, _, _, _, .entriesBelow hremark h => List.forall_mem_append.mpr ⟨isKept_of_remark hremark,
      List.forall_mem_append.mpr ⟨isKept_newLine _, isKept_of_entriesWritten h⟩⟩

theorem isKept_of_itemsWritten {noted : Bool} : ∀ {column : Nat} {items : List Value} {text : List Char},
    ItemsWritten noted column items text → ∀ ch ∈ text, IsKept ch
  | _, _, _, .last h => List.forall_mem_cons.mpr ⟨by decide, isKept_of_nodeWritten h⟩
  | _, _, _, .cons h hrest => List.forall_mem_append.mpr
      ⟨List.forall_mem_cons.mpr ⟨by decide, isKept_of_nodeWritten h⟩,
        List.forall_mem_append.mpr ⟨isKept_newLine _, isKept_of_itemsWritten hrest⟩⟩

theorem isKept_of_entriesWritten {noted : Bool} :
    ∀ {column : Nat} {entries : List (String × Value)} {text : List Char},
    EntriesWritten noted column entries text → ∀ ch ∈ text, IsKept ch
  | _, _, _, .last hkey h => List.forall_mem_append.mpr
      ⟨isKept_of_keyWritten hkey, isKept_of_nodeWritten h⟩
  | _, _, _, .cons hkey h hrest => List.forall_mem_append.mpr
      ⟨List.forall_mem_append.mpr ⟨isKept_of_keyWritten hkey, isKept_of_nodeWritten h⟩,
        List.forall_mem_append.mpr ⟨isKept_newLine _, isKept_of_entriesWritten hrest⟩⟩

end

end Acceptable

section Documents

variable {entries : List (String × Value)} {text : List Char}

/-- A line of a comment, or an empty one. -/
def IsCommentLine (line : List Char) : Prop :=
  (line = [] ∨ line.head? = some '#') ∧ ∀ ch ∈ line, IsRemarkable ch

instance (line : List Char) : Decidable (IsCommentLine line) := inferInstanceAs (Decidable (_ ∧ _))

theorem isSkipped_of_isCommentLine {line : List Char} (h : IsCommentLine line) :
    Lexer.IsSkipped line := by
  rcases h with ⟨rfl | hhead, hline⟩
  · exact .blanks 0
  · rcases List.head?_eq_some_iff.mp hhead with ⟨cs, rfl⟩
    exact .comment 0 cs fun ch hch => (hline ch (List.mem_cons_of_mem _ hch)).1

theorem isKept_heading {lines : List (List Char)} (h : ∀ line ∈ lines, IsCommentLine line) :
    ∀ ch ∈ Lexer.heading lines, IsKept ch := by
  intro ch hch
  rcases List.mem_flatMap.mp hch with ⟨line, hline, hmem⟩
  rcases List.mem_append.mp hmem with hmem | hmem
  · exact ((h line hline).2 ch hmem).2
  · rw [List.mem_singleton.mp hmem]
    decide

/-- What is written below lines of comments is read as the map of the entries. -/
theorem dataOf_written {noted : Bool} {lines : List (List Char)}
    (h : EntriesWritten noted 0 entries text) (hlines : ∀ line ∈ lines, IsCommentLine line)
    (hkeys : EachEntryPart KeyFits (fun _ => True) entries)
    (hreadable : EachEntryPart (fun _ => True) IsReadable entries) :
    dataOf (Lexer.heading lines ++ (text ++ ['\n'])) = .ok (some (datumOf (.map entries))) := by
  rcases tokens_written h (fun line hline => isSkipped_of_isCommentLine (hlines line hline)) hkeys with
    ⟨hfault, htokens⟩
  rcases Builder.onlyDocument_eq hreadable htokens with ⟨node, hmeans, hnode⟩
  have hchars : Node.ofChars (Lexer.heading lines ++ (text ++ ['\n'])) = .ok (some node) := by
    rw [Node.ofChars]
    simp only [hfault, hnode]
  have hdata : node.data = .ok (datumOf (.map entries)) := by
    rw [Node.data, hmeans (Nat.le_succ _)]
    rfl
  have hkept : ∀ ch ∈ Lexer.heading lines ++ (text ++ ['\n']), IsKept ch :=
    List.forall_mem_append.mpr ⟨isKept_heading hlines,
      List.forall_mem_append.mpr ⟨isKept_of_entriesWritten h, by decide⟩⟩
  have hclear : (Lexer.heading lines ++ (text ++ ['\n'])).takeWhile isAcceptable =
      Lexer.heading lines ++ (text ++ ['\n']) :=
    List.takeWhile_eq_self_iff.mpr fun ch hch => (hkept ch hch).1
  rw [dataOf]
  simp only [hclear, List.drop_length, hchars, bind, Except.bind, hdata]
  rfl

end Documents

/-!
## Documents that come back unchanged
-/

mutual

/-- A value as data: its maps with their entries in order. -/
def Datum.ofValue : Value → Datum
  | .list items => .list none (Datum.ofItems items)
  | .map entries => .map none (Datum.ofPairs entries)
  | v => .scalar v

def Datum.ofItems : List Value → List Datum
  | [] => []
  | v :: rest => Datum.ofValue v :: Datum.ofItems rest

def Datum.ofPairs : List (String × Value) → List (Datum × Datum)
  | [] => []
  | (k, v) :: rest => (.ofText k, Datum.ofValue v) :: Datum.ofPairs rest

end

theorem Datum.ofPairs_eq (entries : List (String × Value)) :
    Datum.ofPairs entries = entries.map (Datum.keyed Datum.ofValue) := by
  induction entries with
  | nil => rfl
  | cons entry rest ih =>
      rw [Datum.ofPairs, ih]
      rfl

mutual

theorem isReadable_of_isDocument : ∀ v : Value, v.IsDocument → EachPart (fun _ => True) IsReadable v
  | .null, _ => trivial
  | .bool _, _ => trivial
  | .int _, h => by
      cases h with
      | int h => exact h
  | .float _, h => by
      cases h with
      | float h => exact h
  | .str _, _ => trivial
  | .list items, h => by
      cases h with
      | list h => exact isReadable_of_isDocument_items items h
  | .map entries, h => by
      cases h with
      | map _ h => exact isReadable_of_isDocument_entries entries h

theorem isReadable_of_isDocument_items : ∀ items : List Value, (∀ v ∈ items, v.IsDocument) →
    EachItemPart (fun _ => True) IsReadable items
  | [], _ => trivial
  | v :: rest, h =>
      ⟨isReadable_of_isDocument v (h v List.mem_cons_self),
        isReadable_of_isDocument_items rest fun item hitem => h item (List.mem_cons_of_mem _ hitem)⟩

theorem isReadable_of_isDocument_entries : ∀ entries : List (String × Value),
    (∀ entry ∈ entries, entry.2.IsDocument) → EachEntryPart (fun _ => True) IsReadable entries
  | [], _ => trivial
  | (k, v) :: rest, h =>
      ⟨trivial, isReadable_of_isDocument v (h (k, v) List.mem_cons_self),
        isReadable_of_isDocument_entries rest fun entry hentry => h entry (List.mem_cons_of_mem _ hentry)⟩

end

mutual

/-- A value whose texts are faithful is read back as itself. -/
theorem datumOf_eq_ofValue : ∀ v : Value, v.IsDocument → EachPart IsFaithful (OnText IsFaithful) v →
    datumOf v = Datum.ofValue v
  | .null, _, _ => rfl
  | .bool _, _, _ => rfl
  | .int _, _, _ => rfl
  | .float _, _, _ => rfl
  | .str s, _, h => by
      have hself : rereadText s = s := rereadText_eq_self_iff.mpr h
      rw [datumOf, hself]
      rfl
  | .list items, hdocument, h => by
      have hitems : ∀ v ∈ items, v.IsDocument := by
        cases hdocument with
        | list hitems => exact hitems
      rw [datumOf, itemData_eq_ofItems items hitems h, Datum.ofValue]
  | .map entries, hdocument, h => by
      have hmap : (Entries.keys entries).Nodup ∧ ∀ entry ∈ entries, entry.2.IsDocument := by
        cases hdocument with
        | map hnodup hentries => exact ⟨hnodup, hentries⟩
      rw [datumOf, entryData_eq_ofPairs entries hmap.2 h, Datum.ofValue, Datum.ofPairs_eq,
        Datum.ofEntries_keyed, Entries.setAll_nil_of_nodup hmap.1]

theorem itemData_eq_ofItems : ∀ items : List Value, (∀ v ∈ items, v.IsDocument) →
    EachItemPart IsFaithful (OnText IsFaithful) items → itemData items = Datum.ofItems items
  | [], _, _ => rfl
  | v :: rest, hdocument, h => by
      rw [itemData, datumOf_eq_ofValue v (hdocument v List.mem_cons_self) h.1,
        itemData_eq_ofItems rest (fun item hitem => hdocument item (List.mem_cons_of_mem _ hitem)) h.2,
        Datum.ofItems]

theorem entryData_eq_ofPairs : ∀ entries : List (String × Value),
    (∀ entry ∈ entries, entry.2.IsDocument) →
    EachEntryPart IsFaithful (OnText IsFaithful) entries → entryData entries = Datum.ofPairs entries
  | [], _, _ => rfl
  | (k, v) :: rest, hdocument, h => by
      have hself : rereadText k = k := rereadText_eq_self_iff.mpr h.1
      rw [entryData, hself, datumOf_eq_ofValue v (hdocument (k, v) List.mem_cons_self) h.2.1,
        entryData_eq_ofPairs rest (fun entry hentry => hdocument entry (List.mem_cons_of_mem _ hentry))
          h.2.2, Datum.ofPairs]

end

section Texts

variable {entries : List (String × String)}

theorem eachEntryPart_texts {key : String → Prop} {scalar : Value → Prop}
    (hkey : ∀ entry ∈ entries, key entry.1) (hscalar : ∀ s, scalar (.str s)) :
    EachEntryPart key scalar (entries.map fun (k, v) => (k, .str v)) := by
  induction entries with
  | nil => trivial
  | cons entry rest ih =>
      rcases List.forall_mem_cons.mp hkey with ⟨hentry, hrest⟩
      exact ⟨hentry, hscalar entry.2, ih hrest⟩

theorem entryNesting_texts (entries : List (String × String)) :
    entryNesting (entries.map fun (k, v) => (k, .str v)) = 0 := by
  induction entries with
  | nil => rfl
  | cons entry rest ih =>
      rw [List.map_cons, entryNesting, ih]
      rfl

/-- A document of texts is read as the texts that its line ends stand for. -/
theorem readTexts_render (hne : entries ≠ []) (hfits : ∀ entry ∈ entries, KeyFits entry.1) :
    readTexts (render (.map (entries.map fun (k, v) => (k, .str v)))).toUTF8 =
      .ok (some (Entries.setAll [] (entries.map rereadEntry))) := by
  have hroom : nesting (.map (entries.map fun (k, v) => (k, .str v))) < 40 := by
    rw [nesting, entryNesting_texts]
    decide
  have hreadable : EachEntryPart (fun _ => True) IsReadable (entries.map fun (k, v) => (k, .str v)) :=
    eachEntryPart_texts (fun _ _ => trivial) fun _ => trivial
  rcases exists_written_render (by simpa using hne) hreadable hroom with ⟨text, hwritten, hrender⟩
  have hdata := dataOf_written hwritten (List.forall_mem_nil IsCommentLine)
    (eachEntryPart_texts hfits fun _ => trivial) hreadable
  have hreturn : '\r' ∉ text ++ ['\n'] := by
    rw [List.mem_append, not_or]
    exact ⟨fun hmem => (isKept_of_entriesWritten hwritten _ hmem).2 rfl, by decide⟩
  rw [datumOf, entryData_texts] at hdata
  rw [readTexts, hrender, Text.decodeUtf8_toUTF8]
  simp only [Except.mapError, bind, Except.bind, String.toList_ofList,
    Text.unifyLineEnds_eq_self hreturn]
  exact (congrArg (Except.bind · textsOf) hdata).trans (textsOf_texts _)

end Texts

end Yaml
end Roster
