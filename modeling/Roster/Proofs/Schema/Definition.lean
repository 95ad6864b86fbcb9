import Roster.Field.Definition
import Roster.Proofs.Steps
import Roster.Proofs.Value.Document

/-!
# Definitions are read back

A definition that was written as a map is read back with all its attributes, and with all its
extras but one: a key that stands for further attributes is not read as one.
-/

namespace Roster
namespace Definition

/-- The parts of the definition can be written to a document, and no extra has the name of an
attribute. -/
structure IsStorable (d : Definition) : Prop where
  fieldName : d.fieldName.IsDocument
  category : d.category.IsDocument
  kind : d.kind.IsDocument
  validateAs : d.validateAs.IsDocument
  maxLength : ∀ n ∈ d.maxLength, (Nat.toDigits 10 n.natAbs).length ≤ Numeral.maxDigits
  extras_nodup : (Entries.keys d.extras).Nodup
  extras_unknown : ∀ key ∈ Entries.keys d.extras, Attribute.ofName? key = none
  extras : ∀ extra ∈ d.extras, extra.2.IsDocument

/-- The definition as it is read again. -/
def reread (d : Definition) : Definition :=
  { d with extras := Entries.erase d.extras Attribute.extrasName }

theorem reread_eq_self_iff {d : Definition} :
    d.reread = d ↔ Attribute.extrasName ∉ Entries.keys d.extras := by
  rw [reread, Entries.erase]
  constructor
  · intro heq hmem
    have hextras := congrArg Definition.extras heq
    rcases List.mem_map.mp hmem with ⟨extra, hextra, hkey⟩
    have hkept := List.filter_eq_self.mp hextras extra hextra
    rw [hkey] at hkept
    simp at hkept
  · intro hnone
    have hextras : (d.extras.filter fun entry => entry.1 != Attribute.extrasName) = d.extras := by
      rw [List.filter_eq_self]
      intro extra hextra
      rw [bne_iff_ne]
      rintro heq
      exact hnone (List.mem_map.mpr ⟨extra, hextra, heq⟩)
    rw [hextras]

theorem keys_attributes (d : Definition) :
    Entries.keys d.attributes = Attribute.names.map Prod.snd := rfl

theorem ofName?_eq_none_iff {name : String} :
    Attribute.ofName? name = none ↔ name ∉ Attribute.names.map Prod.snd := by
  rw [Attribute.ofName?, Option.map_eq_none_iff, List.find?_eq_none, List.mem_map]
  simp only [beq_iff_eq, not_exists, not_and]

/-!
## The map of a definition
-/

/-- No extra is hidden by an attribute. -/
theorem IsStorable.toEntries_eq {d : Definition} (h : d.IsStorable) :
    d.toEntries = d.attributes ++ d.extras := by
  rw [toEntries]
  congr 1
  rw [List.filter_eq_self]
  intro extra hextra
  have hunknown := h.extras_unknown extra.1 (List.mem_map_of_mem hextra)
  rw [ofName?_eq_none_iff, ← keys_attributes d, Entries.keys, List.mem_map] at hunknown
  rw [Entries.has, Bool.not_eq_true', List.any_eq_false]
  intro written hwritten hkey
  exact hunknown ⟨written, hwritten, eq_of_beq hkey⟩

theorem isDocument_options (options : List String) : (Attribute.ofOptions options).IsDocument := by
  refine .list fun v hv => ?_
  rcases List.mem_map.mp hv with ⟨s, -, rfl⟩
  exact .str s

theorem isDocument_optionalText (text : Option String) :
    (Attribute.ofOptionalText text).IsDocument := by
  cases text with
  | none => exact .null
  | some s => exact .str s

theorem isDocument_length {length : Option Int}
    (h : ∀ n ∈ length, (Nat.toDigits 10 n.natAbs).length ≤ Numeral.maxDigits) :
    (Attribute.ofLength length).IsDocument := by
  cases length with
  | none => exact .null
  | some n => exact .int (h n rfl)

theorem IsStorable.isDocument {d : Definition} (h : d.IsStorable) : d.toValue.IsDocument := by
  have hattributes : ∀ entry ∈ d.attributes, entry.2.IsDocument := by
    simp only [attributes, List.forall_mem_cons]
    exact ⟨h.fieldName, h.category, h.kind, h.validateAs, .str _, .str _, .bool _, .bool _,
      isDocument_options _, isDocument_options _, isDocument_optionalText _, .str _,
      isDocument_length h.maxLength, fun entry hentry => nomatch hentry⟩
  rw [toValue, h.toEntries_eq]
  refine .map ?_ ?_
  · rw [Entries.keys, List.map_append]
    refine List.Nodup.append ?_ h.extras_nodup ?_
    · exact (keys_attributes d).symm ▸ (by decide : (Attribute.names.map Prod.snd).Nodup)
    · intro key hattribute hextra
      exact ofName?_eq_none_iff.mp (h.extras_unknown key hextra) hattribute
  · rw [List.forall_mem_append]
    exact ⟨hattributes, h.extras⟩

/-!
## Reading it
-/

theorem optionList_ofOptions (options : List String) :
    Attribute.optionList (Attribute.ofOptions options) = .ok options := by
  rw [Attribute.ofOptions, Attribute.optionList, Value.items]
  · have hstored : Value.stored ∘ Value.str = id := rfl
    simp [Except.map, hstored]
  · exact fun heq => nomatch heq
  · exact fun _ heq => nomatch heq

theorem optionalText_ofOptionalText (text : Option String) :
    Attribute.optionalText (Attribute.ofOptionalText text) = text := by
  cases text with
  | none => rfl
  | some s => rfl

theorem length_ofLength (length : Option Int) :
    Attribute.length (Attribute.ofLength length) = .ok length := by
  cases length with
  | none => rfl
  | some n => rfl

theorem foldlM_attributes (d start : Definition) :
    d.attributes.foldlM addEntry start = .ok { d with extras := start.extras } := by
  have hnames : ∀ entry ∈ Attribute.names, Attribute.ofName? entry.2 = some entry.1 := by decide
  simp only [Attribute.names, List.forall_mem_cons] at hnames
  simp only [attributes, List.foldlM_cons, List.foldlM_nil, addEntry, hnames, assign, bind,
    Except.bind, pure, Except.pure, Except.map, optionList_ofOptions, optionalText_ofOptionalText,
    length_ofLength, Attribute.flag, Value.isGiven, Value.stored, Value.text]

theorem foldlM_extras {extras : Entries}
    (hunknown : ∀ key ∈ Entries.keys extras, Attribute.ofName? key = none) (start : Definition) :
    extras.foldlM addEntry start =
      .ok { start with
        extras := Entries.setAll start.extras (Entries.erase extras Attribute.extrasName) } := by
  induction extras generalizing start with
  | nil => rfl
  | cons extra rest ih =>
      rw [Entries.keys, List.map_cons, List.forall_mem_cons] at hunknown
      rw [List.foldlM_cons, addEntry, hunknown.1]
      by_cases hname : extra.1 = Attribute.extrasName
      · have hrest : Entries.erase (extra :: rest) Attribute.extrasName =
            Entries.erase rest Attribute.extrasName := by
          simp [Entries.erase, hname]
        simp only [hname, beq_self_eq_true, if_true, hrest]
        exact ih hunknown.2 start
      · have hbeq : (extra.1 == Attribute.extrasName) = false := by simpa using hname
        have hrest : Entries.erase (extra :: rest) Attribute.extrasName =
            extra :: Entries.erase rest Attribute.extrasName := by
          simp [Entries.erase, hname]
        simp only [hbeq, Bool.false_eq_true, if_false, hrest]
        exact ih hunknown.2 _

/-- A definition is read back from the map that it was written as. -/
theorem IsStorable.ofEntries_toEntries {d : Definition} (h : d.IsStorable) :
    ofEntries d.toEntries = .ok d.reread := by
  have hnodup : (Entries.keys (Entries.erase d.extras Attribute.extrasName)).Nodup :=
    h.extras_nodup.sublist (List.filter_sublist.map Prod.fst)
  rw [ofEntries, h.toEntries_eq, List.foldlM_append, foldlM_attributes]
  simp only [bind, Except.bind]
  rw [foldlM_extras h.extras_unknown]
  simp only [Entries.setAll_nil_of_nodup hnodup]
  rfl

end Definition
end Roster
