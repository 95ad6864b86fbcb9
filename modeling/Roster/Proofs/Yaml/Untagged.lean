import Roster.Proofs.Yaml.Implicit

/-!
# Trees without tags

Without tags every scalar is taken for what it looks like, and every collection for what it is.
Whatever goes wrong with the data of such a tree is a fault that belongs to its document.
-/

namespace Roster
namespace Yaml

open Steps

/-!
## Nodes
-/

namespace Node

/-- Nodes below which nothing has a tag.  A scalar between quotes is a text, and so is a default key
where it counts as one. -/
inductive IsUntagged : Node → Prop where
  | text (text : String) (start : Mark) : IsUntagged (.scalar (standardTag "str") text start)
  | plain (text : String) (start : Mark) :
      IsUntagged (.scalar (tagOfSort (Implicit.sortOf text.toList)) text start)
  | sequence (anchor : Option String) {items : List Node} (start : Mark)
      (hitems : ∀ item ∈ items, IsUntagged item) :
      IsUntagged (.sequence (standardTag "seq") anchor items start)
  | mapping (anchor : Option String) {entries : List (Node × Node)} (start : Mark)
      (hkeys : ∀ entry ∈ entries, IsUntagged entry.1)
      (hvalues : ∀ entry ∈ entries, IsUntagged entry.2) :
      IsUntagged (.mapping (standardTag "map") anchor entries start)
  | loop (anchor : String) (isMapping : Bool) (start : Mark) :
      IsUntagged (.loop anchor isMapping start)

/-- A key and a value below which nothing has a tag. -/
def PairUntagged (entry : Node × Node) : Prop :=
  entry.1.IsUntagged ∧ entry.2.IsUntagged

end Node

/-- A text is taken for no more than it looks like. -/
theorem Implicit.sortOf_spec (cs : List Char) :
    match sortOf cs with
    | .bool => boolWords.contains cs = true
    | .float => isFloat cs = true
    | .int => isInt cs = true
    | .timestamp => isTimestamp cs = true
    | _ => True := by
  unfold sortOf
  split_ifs with hbool hfloat hint hmerge hnull htimestamp hvalue hindicator
  · exact hbool
  · exact hfloat
  · exact hint
  · exact trivial
  · exact trivial
  · exact htimestamp
  · exact trivial
  · exact trivial
  · exact trivial

namespace Meaning

variable {α β : Type}

/-- The result is of a kind, and whatever goes wrong at any level belongs to the document. -/
abbrev ReadsAt (Q : α → Prop) (x : Outcome α) : Prop :=
  Meets (fun fault => fault.2.isReported = true) Q x

theorem readsAt_both {a : Outcome α} {b : Outcome β} (ha : ReadsAt (fun _ => True) a)
    (hb : ReadsAt (fun _ => True) b) : ReadsAt (fun _ => True) (both a b) := by
  cases a with
  | ok x =>
      cases b with
      | ok y => exact trivial
      | error fault => exact hb
  | error fault =>
      cases b with
      | ok y => exact ha
      | error other =>
          change (if other.1 < fault.1 then other else fault).2.isReported = true
          split
          · exact hb
          · exact ha

theorem readsAt_all {results : List (Outcome α)}
    (h : ∀ result ∈ results, ReadsAt (fun _ => True) result) :
    ReadsAt (fun _ => True) (all results) := by
  induction results with
  | nil => exact trivial
  | cons result rest ih =>
      rw [List.forall_mem_cons] at h
      exact (readsAt_both h.1 (ih h.2)).map fun _ _ => trivial

theorem readsAt_keyOf (start : Mark) (node : Node) (level : Nat) {key : Outcome Datum}
    (h : ReadsAt (fun _ => True) key) : ReadsAt (fun _ => True) (keyOf start node level key) := by
  unfold keyOf
  cases key with
  | ok d =>
      dsimp only
      split
      · exact trivial
      · exact rfl
  | error fault =>
      dsimp only
      split
      · exact rfl
      · exact h

theorem isUntagged_plainKey {node : Node} (h : node.IsUntagged) : (plainKey node).IsUntagged := by
  cases h with
  | text text start => exact .text text start
  | plain text start =>
      rw [plainKey]
      split
      · exact .text text start
      · exact .plain text start
  | sequence anchor start hitems => exact .sequence anchor start hitems
  | mapping anchor start hkeys hvalues => exact .mapping anchor start hkeys hvalues
  | loop anchor isMapping start => exact .loop anchor isMapping start

theorem reads_entriesOf (bound : Nat) (start : Mark) {entries : List (Node × Node)}
    (h : ∀ entry ∈ entries, Node.PairUntagged entry) :
    Reads (fun merged => ∀ entry ∈ merged, Node.PairUntagged entry)
      (entriesOf bound start entries) := by
  induction bound generalizing start entries with
  | zero => exact h
  | succ bound ih =>
      -- What is merged stands one level further down, where the bound is smaller.
      have hinner : ∀ {items : List (Node × Node)} (start : Mark),
          (∀ entry ∈ items, entry.1.IsUntagged) → (∀ entry ∈ items, entry.2.IsUntagged) →
          Reads (fun merged => ∀ entry ∈ merged, Node.PairUntagged entry)
            (entriesOf bound start items) :=
        fun start hkeys hvalues => ih start fun entry hentry =>
          ⟨hkeys entry hentry, hvalues entry hentry⟩
      rw [entriesOf]
      refine Meets.bind (Q := fun merged => ∀ part ∈ merged, ∀ entry ∈ part, Node.PairUntagged entry)
        (Meets.mapM fun entry hentry => ?_) fun merged hmerged => ?_
      · rcases entry with ⟨key, value⟩
        have hvalue := (h _ (List.mem_of_mem_filter hentry)).2
        dsimp only at hvalue ⊢
        cases hvalue with
        | text text start => exact rfl
        | plain text start => exact rfl
        | loop anchor isMapping start =>
            cases isMapping with
            | true => exact List.forall_mem_nil _
            | false => exact rfl
        | mapping anchor start hkeys hvalues => exact hinner start hkeys hvalues
        | @sequence anchor items start hitems =>
            refine Meets.bind
              (Q := fun parts => ∀ part ∈ parts, ∀ entry ∈ part, Node.PairUntagged entry)
              (Meets.mapM fun item hitem => ?_) fun parts hparts => ?_
            · cases hitems item hitem with
              | text text start => exact rfl
              | plain text start => exact rfl
              | loop anchor isMapping start =>
                  cases isMapping with
                  | true => exact List.forall_mem_nil _
                  | false => exact rfl
              | mapping anchor start hkeys hvalues => exact hinner start hkeys hvalues
              | sequence anchor start hitems => exact rfl
            · intro entry hentry
              rcases List.mem_flatten.mp hentry with ⟨part, hpart, hentry⟩
              exact hparts part (List.mem_reverse.mp hpart) entry hentry
      · refine List.forall_mem_append.mpr ⟨fun entry hentry => ?_, fun entry hentry => ?_⟩
        · rcases List.mem_flatten.mp hentry with ⟨part, hpart, hentry⟩
          exact hmerged part hpart entry hentry
        · rcases List.mem_map.mp hentry with ⟨⟨key, value⟩, hmem, rfl⟩
          have hpair := h _ (List.mem_of_mem_filter hmem)
          exact ⟨isUntagged_plainKey hpair.1, hpair.2⟩

/-- What a plain scalar is taken for it is. -/
theorem readsAt_construct_plain (bound level : Nat) (text : String) (start : Mark) :
    ReadsAt (fun _ => True) (construct (bound + 1) level
      (.scalar (Node.tagOfSort (Implicit.sortOf text.toList)) text start)) := by
  have hspec := Implicit.sortOf_spec text.toList
  have hhere : ∀ {x : Except Fault Datum}, Reads (fun _ => True) x →
      ReadsAt (fun _ => True) (x.mapError fun fault => (level, fault)) :=
    fun h => h.mapError fun _ hfault => hfault
  cases hsort : Implicit.sortOf text.toList with
  | bool =>
      rw [hsort] at hspec
      have hkind : Kind.ofTag? (Node.tagOfSort .bool) = some .bool := by decide
      simp only [construct, Node.tag, hkind, textOf]
      exact hhere (reads_boolOf hspec)
  | float =>
      rw [hsort] at hspec
      have hkind : Kind.ofTag? (Node.tagOfSort .float) = some .float := by decide
      simp only [construct, Node.tag, hkind, textOf]
      exact hhere (reads_floatOf hspec)
  | int =>
      rw [hsort] at hspec
      have hkind : Kind.ofTag? (Node.tagOfSort .int) = some .int := by decide
      simp only [construct, Node.tag, hkind, textOf]
      exact hhere (reads_intOf hspec)
  | timestamp =>
      rw [hsort] at hspec
      have hkind : Kind.ofTag? (Node.tagOfSort .timestamp) = some .timestamp := by decide
      simp only [construct, Node.tag, hkind, textOf]
      exact hhere (reads_momentOf hspec)
  | str =>
      have hkind : Kind.ofTag? (Node.tagOfSort .str) = some .str := by decide
      simp only [construct, Node.tag, hkind, textOf]
      exact trivial
  | null =>
      have hkind : Kind.ofTag? (Node.tagOfSort .null) = some .null := by decide
      simp only [construct, Node.tag, hkind, textOf]
      exact trivial
  | merge =>
      have hkind : Kind.ofTag? (Node.tagOfSort .merge) = none := by decide
      simp only [construct, Node.tag, hkind]
      exact rfl
  | value =>
      have hkind : Kind.ofTag? (Node.tagOfSort .value) = none := by decide
      simp only [construct, Node.tag, hkind]
      exact rfl
  | indicator =>
      have hkind : Kind.ofTag? (Node.tagOfSort .indicator) = none := by decide
      simp only [construct, Node.tag, hkind]
      exact rfl

/-- Whatever goes wrong with the data of a tree without tags belongs to the document. -/
theorem readsAt_construct (bound level : Nat) {node : Node} (h : node.IsUntagged) :
    ReadsAt (fun _ => True) (construct bound level node) := by
  induction bound generalizing level node with
  | zero =>
      rw [construct]
      exact rfl
  | succ bound ih =>
      cases h with
      | text text start =>
          have hkind : Kind.ofTag? (Node.standardTag "str") = some .str := by decide
          simp only [construct, Node.tag, hkind, textOf]
          exact trivial
      | plain text start => exact readsAt_construct_plain bound level text start
      | sequence anchor start hitems =>
          have hkind : Kind.ofTag? (Node.standardTag "seq") = some .seq := by decide
          simp only [construct, Node.tag, hkind]
          refine (readsAt_all fun result hresult => ?_).map fun _ _ => trivial
          rcases List.mem_map.mp hresult with ⟨item, hitem, rfl⟩
          exact ih (level + 1) (hitems item hitem)
      | @mapping anchor entries start hkeys hvalues =>
          have hkind : Kind.ofTag? (Node.standardTag "map") = some .map := by decide
          have hentries : ReadsAt (fun merged => ∀ entry ∈ merged, Node.PairUntagged entry)
              ((entriesOf (bound + 1) start entries).mapError fun fault => (level + 1, fault)) :=
            (reads_entriesOf (bound + 1) start fun entry hentry =>
              ⟨hkeys entry hentry, hvalues entry hentry⟩).mapError fun _ hfault => hfault
          simp only [construct, Node.tag, hkind]
          refine Meets.map (Q := fun _ => True) (hentries.bind fun merged hmerged => ?_)
            fun _ _ => trivial
          refine readsAt_all fun result hresult => ?_
          rcases List.mem_map.mp hresult with ⟨entry, hentry, rfl⟩
          exact readsAt_both (readsAt_keyOf start entry.1 (level + 1)
            (ih (level + 1) (hmerged entry hentry).1)) (ih (level + 1) (hmerged entry hentry).2)
      | loop anchor isMapping start => exact trivial

end Meaning

theorem Node.IsUntagged.reads_data {node : Node} (h : node.IsUntagged) :
    Reads (fun _ => True) node.data :=
  (Meaning.readsAt_construct _ 0 h).mapError fun _ hfault => hfault

end Yaml
end Roster
