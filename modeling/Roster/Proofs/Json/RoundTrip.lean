import Roster.Proofs.Json.Number
import Roster.Proofs.Json.Text
import Roster.Proofs.Steps
import Roster.Proofs.Value.Document

/-!
# Documents are read back as they were written

The reader goes through a written value and stops behind it, whatever follows.  The bound of the
reader is counted in characters: a value takes at most two steps for each of its own.
-/

namespace Roster
namespace Json

/-!
## Where values start
-/

/-- A character with which a value without parts starts. -/
def StartsAtom (c : Char) : Prop :=
  c ∈ ['-', 'n', 't', 'f', 'N', 'I'] ∨ c.isDigit = true

/-- A character with which a value starts. -/
def StartsValue (c : Char) : Prop :=
  c ∈ ['"', '[', '\x7b'] ∨ StartsAtom c

theorem StartsAtom.ne {c : Char} (h : StartsAtom c) : c ≠ '"' ∧ c ≠ '[' ∧ c ≠ '\x7b' := by
  have hnone : ¬StartsAtom '"' ∧ ¬StartsAtom '[' ∧ ¬StartsAtom '\x7b' := by
    simp only [StartsAtom]
    decide
  exact ⟨fun heq => hnone.1 (heq ▸ h), fun heq => hnone.2.1 (heq ▸ h),
    fun heq => hnone.2.2 (heq ▸ h)⟩

theorem StartsValue.ne {c : Char} (h : StartsValue c) :
    isSpace c = false ∧ c ≠ ']' ∧ c ≠ '\x7d' ∧ c ≠ '\uFEFF' := by
  have hblank : ¬StartsValue ' ' ∧ ¬StartsValue '\t' ∧ ¬StartsValue '\n' ∧ ¬StartsValue '\r' := by
    simp only [StartsValue, StartsAtom]
    decide
  have hnone : ¬StartsValue ']' ∧ ¬StartsValue '\x7d' ∧ ¬StartsValue '\uFEFF' := by
    simp only [StartsValue, StartsAtom]
    decide
  refine ⟨?_, fun heq => hnone.1 (heq ▸ h), fun heq => hnone.2.1 (heq ▸ h),
    fun heq => hnone.2.2 (heq ▸ h)⟩
  rw [isSpace, Bool.or_eq_false_iff, Bool.or_eq_false_iff, Bool.or_eq_false_iff]
  simp only [beq_eq_false_iff_ne]
  exact ⟨⟨⟨fun heq => hblank.1 (heq ▸ h), fun heq => hblank.2.1 (heq ▸ h)⟩,
    fun heq => hblank.2.2.1 (heq ▸ h)⟩, fun heq => hblank.2.2.2 (heq ▸ h)⟩

theorem startsAtom_of_readNumber {cs : List Char} {r : Value × List Char}
    (h : readNumber cs = .ok r) : ∃ c tail, cs = c :: tail ∧ StartsAtom c := by
  cases cs with
  | nil => cases h
  | cons c tail =>
      refine ⟨c, tail, rfl, ?_⟩
      by_cases hminus : c = '-'
      · subst hminus
        exact Or.inl (by decide)
      · right
        by_contra hdigit
        have hspan : spanDigits (c :: tail) = ([], c :: tail) := by
          simp [spanDigits, List.span_eq_takeWhile_dropWhile, hdigit]
        have hwhole : readWhole (c :: tail) = none := by
          unfold readWhole
          split
          · rename_i hzero
            rw [(List.cons.inj hzero).1] at hdigit
            exact absurd (by decide) hdigit
          · rw [hspan]
        have hstop : readNumber (c :: tail) = .error ⟨.value, c :: tail⟩ := by
          unfold readNumber
          split
          rename_i sign unsigned hsplit
          split at hsplit
          · rename_i hsign
            exact absurd (List.cons.inj hsign).1 hminus
          · rcases Prod.mk.inj hsplit with ⟨rfl, rfl⟩
            simp only [hwhole]
        rw [hstop] at h
        cases h

theorem startsAtom_of_readAtom {cs : List Char} {r : Value × List Char}
    (h : readAtom cs = .ok r) : ∃ c tail, cs = c :: tail ∧ StartsAtom c := by
  unfold readAtom at h
  split at h
  · rename_i name v hfound
    have hheads : ∀ name ∈ names, ∃ c tail, name.1 = c :: tail ∧
        c ∈ ['-', 'n', 't', 'f', 'N', 'I'] := by
      simp [names]
    obtain ⟨c, tail, hname, hc⟩ := hheads _ (List.mem_of_find?_eq_some hfound)
    have hwritten := List.find?_some hfound
    obtain ⟨rest, hrest⟩ := List.isPrefixOf_iff_prefix.mp hwritten
    refine ⟨c, tail ++ rest, ?_, Or.inl hc⟩
    rw [← hrest, hname]
    rfl
  · exact startsAtom_of_readNumber h

theorem startsValue_of_readValue {bound : Nat} {cs : List Char} {r : Value × List Char}
    (h : readValue bound cs = .ok r) : ∃ c tail, cs = c :: tail ∧ StartsValue c := by
  cases bound with
  | zero =>
      rw [readValue] at h
      cases h
  | succ bound =>
      unfold readValue at h
      split at h
      · exact ⟨_, _, rfl, Or.inl (by decide)⟩
      · exact ⟨_, _, rfl, Or.inl (by decide)⟩
      · exact ⟨_, _, rfl, Or.inl (by decide)⟩
      · rcases startsAtom_of_readAtom h with ⟨c, tail, rfl, hc⟩
        exact ⟨c, tail, rfl, Or.inr hc⟩

theorem startsValue_of_readItems {bound : Nat} {cs : List Char} {r : List Value × List Char}
    (h : readItems bound cs = .ok r) : ∃ c tail, cs = c :: tail ∧ StartsValue c := by
  cases bound with
  | zero =>
      unfold readItems at h
      cases h
  | succ bound =>
      unfold readItems at h
      rcases Steps.bind_eq_ok.mp h with ⟨first, hfirst, -⟩
      exact startsValue_of_readValue hfirst

theorem startsValue_of_readEntries {bound : Nat} {cs : List Char} {r : Entries × List Char}
    (h : readEntries bound cs = .ok r) : ∃ c tail, cs = c :: tail ∧ StartsValue c := by
  cases bound with
  | zero =>
      unfold readEntries at h
      cases h
  | succ bound =>
      unfold readEntries at h
      split at h
      · exact ⟨_, _, rfl, Or.inl (by decide)⟩
      · cases h

theorem skip_newLine (level : Nat) (cs : List Char) :
    skip ((newLine level).toList ++ cs) = skip cs := by
  have hspaces : ∀ c ∈ (newLine level).toList, isSpace c = true := by
    rw [newLine, String.toList_ofList, List.forall_mem_cons]
    refine ⟨by decide, fun c hc => ?_⟩
    rw [List.eq_of_mem_replicate hc]
    decide
  exact List.dropWhile_append_of_pos hspaces

theorem skip_of_not_isSpace {c : Char} (h : isSpace c = false) (tail : List Char) :
    skip (c :: tail) = c :: tail := by
  rw [skip, List.dropWhile_cons_of_neg]
  simp [h]

theorem skip_of_startsValue {c : Char} (h : StartsValue c) (tail : List Char) :
    skip (c :: tail) = c :: tail :=
  skip_of_not_isSpace h.ne.1 tail

/-!
## Parts
-/

/-- A value is read back from its text, whatever follows it. -/
def ReadsBack (v : Value) : Prop :=
  ∀ level bound rest, EndsNumber rest → 2 * (writeAt level v).toList.length ≤ bound →
    readValue bound ((writeAt level v).toList ++ rest) = .ok (v, rest)

def separator (level : Nat) : String := "," ++ newLine level

theorem toList_separator (level : Nat) :
    (separator level).toList = ',' :: (newLine level).toList :=
  String.toList_append

theorem toList_newLine (level : Nat) :
    (newLine level).toList = '\n' :: List.replicate (2 * level) ' ' :=
  String.toList_ofList

theorem endsNumber_newLine (level : Nat) (rest : List Char) :
    EndsNumber ((newLine level).toList ++ rest) := by
  rw [toList_newLine]
  rintro c ⟨⟩
  exact Or.inr rfl

theorem endsNumber_comma (rest : List Char) : EndsNumber (',' :: rest) := by
  rintro c ⟨⟩
  exact Or.inl rfl

theorem readItems_writeItems {items : List Value} (hne : items ≠ [])
    (hitems : ∀ v ∈ items, ReadsBack v) (level below bound : Nat) (rest : List Char)
    (hbound : 2 * (String.intercalate (separator level) (writeItems level items)).toList.length + 1
      ≤ bound) :
    readItems bound ((String.intercalate (separator level) (writeItems level items)).toList ++
      ((newLine below).toList ++ ']' :: rest)) = .ok (items, rest) := by
  induction items generalizing bound with
  | nil => exact absurd rfl hne
  | cons v more ih =>
      obtain ⟨less, rfl⟩ := Nat.exists_eq_add_one.mpr (Nat.zero_lt_of_lt hbound)
      have hv := hitems v List.mem_cons_self
      cases more with
      | nil =>
          rw [writeItems, writeItems, String.intercalate_singleton] at hbound ⊢
          rw [readItems, hv level less _ (endsNumber_newLine below _) (by omega)]
          simp only [bind, Except.bind, skip_newLine]
          rfl
      | cons w others =>
          have hrest := ih (List.cons_ne_nil w others)
            fun v hv => hitems v (List.mem_cons_of_mem _ hv)
          have hjoined : String.intercalate (separator level) (writeItems level (v :: w :: others)) =
              writeAt level v ++ separator level ++
                String.intercalate (separator level) (writeItems level (w :: others)) := by
            rw [writeItems, writeItems, String.intercalate_cons_cons]
          rw [hjoined, String.toList_append, String.toList_append, toList_separator] at hbound ⊢
          simp only [List.length_append, List.length_cons] at hbound
          have hmore := hrest less (by omega)
          obtain ⟨c, tail, hcs, hc⟩ := startsValue_of_readItems hmore
          rw [List.append_assoc, List.append_assoc, List.cons_append, readItems,
            hv level less _ (endsNumber_comma _) (by omega)]
          simp only [bind, Except.bind]
          rw [skip_of_not_isSpace (by decide)]
          simp only [skip_newLine, hcs, skip_of_startsValue hc]
          rw [← hcs, hmore]
          rfl

theorem toList_writeText (s : String) :
    (writeText s).toList = '"' :: (s.toList.flatMap escapeChar ++ ['"']) :=
  String.toList_ofList

theorem readText_writeText (start : List Char) (s : String) (rest : List Char) :
    readText start (s.toList.flatMap escapeChar ++ '"' :: rest).length
        (s.toList.flatMap escapeChar ++ '"' :: rest) = .ok (s.toList, rest) := by
  refine readText_flatMap start ?_ rest
  have hlength := length_le_flatMap_escapeChar s.toList
  rw [List.length_append, List.length_cons]
  omega

theorem readEntries_entry {key : String} {v : Value} (hv : ReadsBack v) (level bound : Nat)
    {rest : List Char} (hrest : EndsNumber rest)
    (hbound : 2 * (writeAt level v).toList.length ≤ bound) :
    readEntries (bound + 1) ((writeText key ++ ": " ++ writeAt level v).toList ++ rest) =
      match skip rest with
      | '\x7d' :: rest => .ok ([(key, v)], rest)
      | ',' :: rest =>
          (readEntries bound (skip rest)).map fun (entries, rest) => ((key, v) :: entries, rest)
      | rest => .error ⟨.comma, rest⟩ := by
  have hvalue := hv level bound rest hrest hbound
  obtain ⟨c, tail, hcs, hc⟩ := startsValue_of_readValue hvalue
  have htext : (writeText key ++ ": " ++ writeAt level v).toList ++ rest =
      '"' :: (key.toList.flatMap escapeChar ++
        '"' :: ':' :: ' ' :: ((writeAt level v).toList ++ rest)) := by
    rw [String.toList_append, String.toList_append, toList_writeText]
    simp
  have hskip : skip (' ' :: ((writeAt level v).toList ++ rest)) =
      (writeAt level v).toList ++ rest := by
    rw [hcs, skip, List.dropWhile_cons_of_pos (by decide)]
    exact skip_of_startsValue hc tail
  rw [htext, readEntries, readText_writeText]
  simp only [bind, Except.bind]
  rw [skip_of_not_isSpace (by decide)]
  simp only [hskip, hvalue, String.ofList_toList]
  -- What is left, if anything, are two matches on what stands behind the value.
  all_goals rfl

theorem readEntries_writeEntries {entries : Entries} (hne : entries ≠ [])
    (hentries : ∀ entry ∈ entries, ReadsBack entry.2) (level below bound : Nat)
    (rest : List Char)
    (hbound : 2 * (String.intercalate (separator level)
      (writeEntries level entries)).toList.length + 1 ≤ bound) :
    readEntries bound ((String.intercalate (separator level) (writeEntries level entries)).toList ++
      ((newLine below).toList ++ '\x7d' :: rest)) = .ok (entries, rest) := by
  -- Behind an entry stands a line end or a comma, and either ends a number.
  induction entries generalizing bound with
  | nil => exact absurd rfl hne
  | cons entry more ih =>
      rcases entry with ⟨key, v⟩
      obtain ⟨less, rfl⟩ := Nat.exists_eq_add_one.mpr (Nat.zero_lt_of_lt hbound)
      have hv : ReadsBack v := hentries (key, v) List.mem_cons_self
      have hlength : (writeAt level v).toList.length ≤
          (writeText key ++ ": " ++ writeAt level v).toList.length := by
        rw [String.toList_append, List.length_append]
        omega
      cases more with
      | nil =>
          rw [writeEntries, writeEntries, String.intercalate_singleton] at hbound ⊢
          rw [readEntries_entry hv level less (endsNumber_newLine below _) (by omega),
            skip_newLine]
          rfl
      | cons other others =>
          have hrest := ih (List.cons_ne_nil other others)
            fun entry hentry => hentries entry (List.mem_cons_of_mem _ hentry)
          have hjoined : String.intercalate (separator level)
              (writeEntries level ((key, v) :: other :: others)) =
              writeText key ++ ": " ++ writeAt level v ++ separator level ++
                String.intercalate (separator level) (writeEntries level (other :: others)) := by
            rcases other with ⟨otherKey, w⟩
            rw [writeEntries, writeEntries, String.intercalate_cons_cons]
          rw [hjoined, String.toList_append, String.toList_append, toList_separator] at hbound ⊢
          simp only [List.length_append, List.length_cons] at hbound
          have hmore := hrest less (by omega)
          obtain ⟨c, tail, hcs, hc⟩ := startsValue_of_readEntries hmore
          rw [List.append_assoc, List.append_assoc, List.cons_append,
            readEntries_entry hv level less (endsNumber_comma _) (by omega),
            skip_of_not_isSpace (by decide)]
          simp only [skip_newLine, hcs, skip_of_startsValue hc]
          rw [← hcs, hmore]
          rfl

/-!
## Whole values
-/

theorem readsBack_of_readAtom {v : Value} (h : ∀ level rest, EndsNumber rest →
    readAtom ((writeAt level v).toList ++ rest) = .ok (v, rest)) : ReadsBack v := by
  intro level bound rest hrest hbound
  have hnone : EndsNumber [] := fun c hc => nomatch hc
  obtain ⟨c, tail, hcs, hc⟩ := startsAtom_of_readAtom (h level [] hnone)
  rw [List.append_nil] at hcs
  have hread := h level rest hrest
  rw [hcs, List.length_cons] at hbound
  obtain ⟨less, rfl⟩ := Nat.exists_eq_add_one.mpr (show 0 < bound by omega)
  rcases hc.ne with ⟨hquote, hlist, hmap⟩
  rw [hcs, List.cons_append] at hread ⊢
  rw [readValue, hread]
  · exact fun _ heq => hquote (List.cons.inj heq).1
  · exact fun _ heq => hlist (List.cons.inj heq).1
  · exact fun _ heq => hmap (List.cons.inj heq).1

theorem readAtom_of_mem_names {name : List Char} {v : Value} (h : (name, v) ∈ names)
    (rest : List Char) : readAtom (name ++ rest) = .ok (v, rest) := by
  simp only [names, List.mem_cons, List.not_mem_nil, or_false, Prod.mk.injEq] at h
  rcases h with ⟨rfl, rfl⟩ | ⟨rfl, rfl⟩ | ⟨rfl, rfl⟩ | ⟨rfl, rfl⟩ | ⟨rfl, rfl⟩ | ⟨rfl, rfl⟩
  all_goals rfl

theorem readsBack_of_mem_names (name : String) {v : Value} (h : (name.toList, v) ∈ names)
    (htext : ∀ level, writeAt level v = name) : ReadsBack v := by
  refine readsBack_of_readAtom fun level rest _ => ?_
  rw [htext, readAtom_of_mem_names h]

theorem readsBack_str (s : String) : ReadsBack (.str s) := by
  intro level bound rest hrest hbound
  have hcs : (writeAt level (.str s)).toList ++ rest =
      '"' :: (s.toList.flatMap escapeChar ++ '"' :: rest) := by
    rw [writeAt, toList_writeText]
    simp
  rw [writeAt, toList_writeText, List.length_cons] at hbound
  obtain ⟨less, rfl⟩ := Nat.exists_eq_add_one.mpr (show 0 < bound by omega)
  rw [hcs, readValue, readText_writeText, Except.map]
  simp only [String.ofList_toList]

theorem readsBack_list {items : List Value} (h : ∀ v ∈ items, ReadsBack v) :
    ReadsBack (.list items) := by
  intro level bound rest hrest hbound
  cases items with
  | nil =>
      rw [writeAt] at hbound ⊢
      obtain ⟨less, rfl⟩ := Nat.exists_eq_add_one.mpr
        (show 0 < bound from Nat.lt_of_lt_of_le (by decide) hbound)
      rfl
  | cons v more =>
      have hcs : (writeAt level (.list (v :: more))).toList =
          '[' :: ((newLine (level + 1)).toList ++
            ((String.intercalate (separator (level + 1))
              (writeItems (level + 1) (v :: more))).toList ++ ((newLine level).toList ++ [']']))) := by
        rw [writeAt]
        · simp [separator]
        · exact List.cons_ne_nil v more
      rw [hcs] at hbound ⊢
      simp only [List.length_cons, List.length_append] at hbound
      obtain ⟨less, rfl⟩ := Nat.exists_eq_add_one.mpr (show 0 < bound by omega)
      have hitems := readItems_writeItems (List.cons_ne_nil v more) h (level + 1) level less rest
        (by omega)
      obtain ⟨c, tail, hstart, hc⟩ := startsValue_of_readItems hitems
      have hskip : skip ((newLine (level + 1)).toList ++
          ((String.intercalate (separator (level + 1)) (writeItems (level + 1) (v :: more))).toList ++
            ((newLine level).toList ++ ']' :: rest))) = c :: tail := by
        rw [skip_newLine, hstart, skip_of_startsValue hc]
      rw [hstart] at hitems
      rw [List.cons_append, List.append_assoc, List.append_assoc, List.append_assoc,
        List.singleton_append, readValue, hskip]
      split
      · rename_i heq
        exact absurd (List.cons.inj heq).1 hc.ne.2.1
      · rw [hitems]
        rfl

theorem readsBack_map {entries : Entries} (hnodup : (Entries.keys entries).Nodup)
    (h : ∀ entry ∈ entries, ReadsBack entry.2) : ReadsBack (.map entries) := by
  intro level bound rest hrest hbound
  cases entries with
  | nil =>
      rw [writeAt] at hbound ⊢
      obtain ⟨less, rfl⟩ := Nat.exists_eq_add_one.mpr
        (show 0 < bound from Nat.lt_of_lt_of_le (by decide) hbound)
      rfl
  | cons entry more =>
      have hcs : (writeAt level (.map (entry :: more))).toList =
          '\x7b' :: ((newLine (level + 1)).toList ++
            ((String.intercalate (separator (level + 1))
              (writeEntries (level + 1) (entry :: more))).toList ++
                ((newLine level).toList ++ ['\x7d']))) := by
        rw [writeAt]
        · simp [separator]
        · exact List.cons_ne_nil entry more
      rw [hcs] at hbound ⊢
      simp only [List.length_cons, List.length_append] at hbound
      obtain ⟨less, rfl⟩ := Nat.exists_eq_add_one.mpr (show 0 < bound by omega)
      have hentries := readEntries_writeEntries (List.cons_ne_nil entry more) h (level + 1) level
        less rest (by omega)
      obtain ⟨c, tail, hstart, hc⟩ := startsValue_of_readEntries hentries
      have hskip : skip ((newLine (level + 1)).toList ++
          ((String.intercalate (separator (level + 1))
            (writeEntries (level + 1) (entry :: more))).toList ++
              ((newLine level).toList ++ '\x7d' :: rest))) = c :: tail := by
        rw [skip_newLine, hstart, skip_of_startsValue hc]
      rw [hstart] at hentries
      rw [List.cons_append, List.append_assoc, List.append_assoc, List.append_assoc,
        List.singleton_append, readValue, hskip]
      split
      · rename_i heq
        exact absurd (List.cons.inj heq).1 hc.ne.2.2.1
      · rw [hentries]
        simp only [Except.map, Entries.setAll_nil_of_nodup hnodup]

/-- Every value of a document is read back. -/
theorem readsBack {v : Value} (h : v.IsDocument) : ReadsBack v := by
  induction h with
  | null => exact readsBack_of_mem_names "null" (by decide) fun level => by rw [writeAt]
  | bool b =>
      cases b with
      | true => exact readsBack_of_mem_names "true" (by decide) fun level => by rw [writeAt]; rfl
      | false => exact readsBack_of_mem_names "false" (by decide) fun level => by rw [writeAt]; rfl
  | int h =>
      refine readsBack_of_readAtom fun level rest hrest => ?_
      rw [writeAt, readAtom_toString h hrest]
  | @float d h =>
      cases d with
      | finite negative mantissa exponent =>
          refine readsBack_of_readAtom fun level rest hrest => ?_
          rw [writeAt, writeDouble, readAtom_render negative h hrest]
          · exact fun heq => nomatch heq
          · exact fun _ heq => nomatch heq
      | infinite negative =>
          cases negative with
          | true =>
              exact readsBack_of_mem_names "-Infinity" (by decide) fun level => by rw [writeAt]; rfl
          | false =>
              exact readsBack_of_mem_names "Infinity" (by decide) fun level => by rw [writeAt]; rfl
      | nan => exact readsBack_of_mem_names "NaN" (by decide) fun level => by rw [writeAt]; rfl
  | str s => exact readsBack_str s
  | list h ih => exact readsBack_list ih
  | map hnodup h ih => exact readsBack_map hnodup ih

/-- A document is read back from its text with a line end behind it. -/
theorem read_write {v : Value} (h : v.IsDocument) : read (write v ++ "\n") = .ok v := by
  have hread := readsBack h 0 (2 * (write v ++ "\n").toList.length + 2) ['\n']
    (fun c hc => Or.inr (Option.some.inj hc).symm)
    (by rw [String.toList_append, List.length_append, write]; omega)
  have htext : (write v ++ "\n").toList = (writeAt 0 v).toList ++ ['\n'] := String.toList_append
  obtain ⟨c, tail, hcs, hc⟩ := startsValue_of_readValue hread
  have hdocument : readDocument (write v ++ "\n").toList = .ok v := by
    rw [htext, hcs] at hread ⊢
    unfold readDocument
    split
    · rename_i heq
      exact absurd (List.cons.inj heq).1 hc.ne.2.2.2
    · rw [skip_of_startsValue hc, hread]
      rfl
  unfold read
  simp only [hdocument]

end Json
end Roster
