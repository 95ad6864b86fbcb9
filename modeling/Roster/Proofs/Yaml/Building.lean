import Roster.Proofs.Yaml.Untagged

/-!
# Trees of tokens without tags

Where no token is a tag, no node has one: each step of building takes an untagged token and leaves
untagged nodes behind its anchors.
-/

namespace Roster
namespace Yaml

open Steps

def TokenKind.isTag : TokenKind → Bool
  | .tag _ => true
  | _ => false

namespace Builder

/-- Neither the tokens to come nor the nodes so far have tags, and a fault behind them belongs to
the document. -/
structure IsUntagged (b : Builder) : Prop where
  tokens : ∀ token ∈ b.tokens, ¬token.kind.isTag
  fault : ∀ fault, b.fault = some fault → fault.isReported = true
  anchors : ∀ entry ∈ b.anchors, entry.2.IsUntagged

variable {α β : Type} {Q : α → Prop} {R : β → Prop} {x : Build α} {f : α → Build β}

/-!
## Steps
-/

/-- A step from a state without tags leads to one, or to a fault that belongs to the document. -/
def Keeps (Q : α → Prop) (x : Build α) : Prop :=
  ∀ b : Builder, b.IsUntagged → Reads (fun result => result.2.IsUntagged ∧ Q result.1) (x.run b)

theorem Keeps.bind (hx : Keeps Q x) (hf : ∀ a, Q a → Keeps R (f a)) : Keeps R (x >>= f) := by
  intro b hb
  change Reads _ (x.run b >>= fun result => (f result.1).run result.2)
  exact Meets.bind (hx b hb) fun result hresult => hf result.1 hresult.2 result.2 hresult.1

theorem Keeps.mono {Q' : α → Prop} (hx : Keeps Q x) (h : ∀ a, Q a → Q' a) : Keeps Q' x :=
  fun b hb => (hx b hb).mono fun result hresult => ⟨hresult.1, h result.1 hresult.2⟩

theorem keeps_pure {a : α} (h : Q a) : Keeps Q (pure a) :=
  fun _ hb => ⟨hb, h⟩

theorem keeps_refuse (context : Option (Context × Mark)) (problem : Problem) (mark : Mark) :
    Keeps Q (refuse context problem mark) :=
  fun _ _ => rfl

theorem keeps_get : Keeps IsUntagged get :=
  fun _ hb => ⟨hb, hb⟩

theorem keeps_peek : Keeps (fun token => ¬token.kind.isTag) peek := by
  refine keeps_get.bind fun b hb => ?_
  split
  · rename_i token rest htokens
    exact keeps_pure (hb.tokens token (htokens ▸ List.mem_cons_self))
  · rename_i fault _ hfault
    exact fun _ _ => hb.fault fault hfault
  · exact keeps_pure Bool.false_ne_true

theorem keeps_next : Keeps (fun token => ¬token.kind.isTag) next := by
  refine keeps_peek.bind fun token htoken => ?_
  refine Keeps.bind (Q := fun _ => True) (fun b hb => ⟨?_, trivial⟩) fun _ _ => keeps_pure htoken
  exact ⟨fun token htoken => hb.tokens token (List.mem_of_mem_drop htoken), hb.fault, hb.anchors⟩

theorem keeps_sees (test : TokenKind → Bool) : Keeps (fun _ => True) (sees test) :=
  keeps_peek.bind fun _ _ => keeps_pure trivial

theorem keeps_unexpected (context : Option (Context × Mark)) (what joint : String) :
    Keeps Q (unexpected context what joint) :=
  keeps_peek.bind fun _ _ => keeps_refuse _ _ _

theorem keeps_remember (anchor : Option String) {node : Node} (h : node.IsUntagged) :
    Keeps (fun _ => True) (remember anchor node) := by
  unfold remember
  cases anchor with
  | none => exact keeps_pure trivial
  | some name =>
      intro b hb
      exact ⟨⟨hb.tokens, hb.fault, List.forall_mem_cons.mpr ⟨h, hb.anchors⟩⟩, trivial⟩

theorem keeps_checkAnchor (anchor : Option String) (start : Mark) :
    Keeps (fun _ => True) (checkAnchor anchor start) := by
  unfold checkAnchor
  cases anchor with
  | none => exact keeps_pure trivial
  | some name =>
      refine keeps_get.bind fun b _ => ?_
      split
      · exact keeps_refuse _ _ _
      · exact keeps_pure trivial

/-!
## In front of a node
-/

theorem keeps_takeAnchor (p : Properties) : Keeps (fun q => q.tag = p.tag) (takeAnchor p) := by
  refine keeps_peek.bind fun token _ => ?_
  split
  · exact keeps_next.bind fun _ _ => keeps_pure rfl
  · exact keeps_pure rfl

theorem keeps_takeTag (p : Properties) : Keeps (fun q => q.tag = p.tag) (takeTag p) := by
  refine keeps_peek.bind fun token htoken => ?_
  split
  · rename_i written hkind
    exact absurd (congrArg TokenKind.isTag hkind) htoken
  · exact keeps_pure rfl

theorem keeps_takeProperties : Keeps (fun p => p.tag = none) takeProperties := by
  refine (keeps_takeAnchor {}).bind fun p hp => ?_
  refine (keeps_takeTag p).bind fun q hq => ?_
  have hnone : q.tag = none := hq.trans hp
  split
  · exact (keeps_takeAnchor q).mono fun r hr => hr.trans hnone
  · exact keeps_pure hnone

theorem keeps_meaning {p : Properties} (h : p.tag = none) : Keeps (· = none) (meaning p) := by
  rw [meaning, h]
  exact keeps_pure rfl

theorem keeps_scalarNode (p : Properties) (plain : Bool) (text : String) (start : Mark) :
    Keeps Node.IsUntagged (scalarNode p none plain text start) := by
  refine (keeps_checkAnchor p.anchor start).bind fun _ _ => ?_
  have hnode : (Node.scalar (tagOr none (Node.tagOfSort
      (if (plain && (none : Option String).isNone || (none : Option String) == some "!") = true
        then Implicit.sortOf text.toList else .str))) text start).IsUntagged := by
    cases plain with
    | true => exact .plain text start
    | false => exact .text text start
  exact (keeps_remember p.anchor hnode).bind fun _ _ => keeps_pure hnode

theorem keeps_emptyNode (mark : Mark) : Keeps Node.IsUntagged (emptyNode mark) :=
  keeps_scalarNode {} true "" mark

theorem keeps_openNode (p : Properties) (isMapping : Bool) (start : Mark) :
    Keeps (fun _ => True) (openNode p isMapping start) := by
  refine (keeps_checkAnchor p.anchor start).bind fun _ _ => ?_
  split
  · exact keeps_remember p.anchor (.loop _ isMapping start)
  · exact keeps_pure trivial

theorem keeps_comma (context : Context) (start : Mark) (what : String) (first : Bool) :
    Keeps (fun _ => True) (comma context start what first) := by
  unfold comma
  split
  · exact keeps_pure trivial
  · refine (keeps_sees _).bind fun seen _ => ?_
    split
    · exact keeps_next.bind fun _ _ => keeps_pure trivial
    · exact keeps_unexpected _ _ _

/-!
## Nodes and collections
-/

def ItemsUntagged (items : List Node) : Prop :=
  ∀ item ∈ items, item.IsUntagged

def EntriesUntagged (entries : List (Node × Node)) : Prop :=
  ∀ entry ∈ entries, Node.PairUntagged entry

/-- Within a bound, what is built of untagged tokens has no tags. -/
structure BuildsUntagged (bound : Nat) : Prop where
  node : ∀ place, Keeps Node.IsUntagged (node bound place)
  content : ∀ place p start token, Keeps Node.IsUntagged (content bound place p none start token)
  nodeOrEmpty : ∀ place ends mark, Keeps Node.IsUntagged (nodeOrEmpty bound place ends mark)
  blockItems : ∀ start, Keeps ItemsUntagged (blockItems bound start)
  indentlessItems : Keeps ItemsUntagged (indentlessItems bound)
  blockEntries : ∀ start, Keeps EntriesUntagged (blockEntries bound start)
  blockValue : Keeps Node.IsUntagged (blockValue bound)
  flowItems : ∀ start first, Keeps ItemsUntagged (flowItems bound start first)
  flowPair : ∀ token, Keeps Node.IsUntagged (flowPair bound token)
  flowValue : ∀ ends, Keeps Node.IsUntagged (flowValue bound ends)
  flowEntries : ∀ start first, Keeps EntriesUntagged (flowEntries bound start first)

theorem keeps_nil : Keeps ItemsUntagged (pure []) :=
  keeps_pure (List.forall_mem_nil _)

theorem keeps_noEntries : Keeps EntriesUntagged (pure []) :=
  keeps_pure (List.forall_mem_nil _)

theorem keeps_cons {item : Node} (hitem : item.IsUntagged) {rest : Build (List Node)}
    (hrest : Keeps ItemsUntagged rest) :
    Keeps ItemsUntagged (do return item :: (← rest)) :=
  hrest.bind fun _ hitems => keeps_pure (List.forall_mem_cons.mpr ⟨hitem, hitems⟩)

theorem keeps_entry {key value : Node} (hkey : key.IsUntagged) (hvalue : value.IsUntagged)
    {rest : Build (List (Node × Node))} (hrest : Keeps EntriesUntagged rest) :
    Keeps EntriesUntagged (do return (key, value) :: (← rest)) :=
  hrest.bind fun _ hentries =>
    keeps_pure (List.forall_mem_cons.mpr ⟨⟨hkey, hvalue⟩, hentries⟩)

theorem buildsUntagged_zero : BuildsUntagged 0 where
  node := fun _ => keeps_emptyNode _
  content := fun _ _ start _ => keeps_emptyNode start
  nodeOrEmpty := fun _ _ mark => keeps_emptyNode mark
  blockItems := fun _ => keeps_nil
  indentlessItems := keeps_nil
  blockEntries := fun _ => keeps_noEntries
  blockValue := keeps_emptyNode _
  flowItems := fun _ _ => keeps_nil
  flowPair := fun token => keeps_emptyNode token.start
  flowValue := fun _ => keeps_emptyNode _
  flowEntries := fun _ _ => keeps_noEntries

section Step

variable {bound : Nat} (h : BuildsUntagged bound)

include h

theorem BuildsUntagged.node_succ (place : Place) :
    Keeps Node.IsUntagged (Builder.node (bound + 1) place) := by
  rw [Builder.node]
  refine keeps_peek.bind fun first _ => ?_
  split
  · refine keeps_next.bind fun _ _ => keeps_get.bind fun b hb => ?_
    split
    · rename_i node hnode
      refine keeps_pure (hb.anchors _ (Entries.mem_of_lookup hnode))
    · exact keeps_refuse _ _ _
  · refine keeps_takeProperties.bind fun p hp => (keeps_meaning hp).bind fun tag htag => ?_
    subst htag
    exact keeps_peek.bind fun token _ => h.content place p _ token

theorem BuildsUntagged.content_succ (place : Place) (p : Properties) (start : Mark) (token : Token) :
    Keeps Node.IsUntagged (Builder.content (bound + 1) place p none start token) := by
  have hsequence : ∀ {items : Build (List Node)}, Keeps ItemsUntagged items →
      Keeps Node.IsUntagged (do
        openNode p false start
        let items ← items
        let node := Node.sequence (tagOr none (Node.standardTag "seq")) p.anchor items start
        remember p.anchor node
        return node) := by
    intro items hitems
    refine (keeps_openNode p false start).bind fun _ _ => hitems.bind fun items hitems => ?_
    have hnode := Node.IsUntagged.sequence p.anchor start hitems
    exact (keeps_remember p.anchor hnode).bind fun _ _ => keeps_pure hnode
  have hmapping : ∀ {entries : Build (List (Node × Node))}, Keeps EntriesUntagged entries →
      Keeps Node.IsUntagged (do
        openNode p true start
        let entries ← entries
        let node := Node.mapping (tagOr none (Node.standardTag "map")) p.anchor entries start
        remember p.anchor node
        return node) := by
    intro entries hentries
    refine (keeps_openNode p true start).bind fun _ _ => hentries.bind fun entries hentries => ?_
    have hnode := Node.IsUntagged.mapping p.anchor start (fun entry hentry => (hentries entry hentry).1)
      fun entry hentry => (hentries entry hentry).2
    exact (keeps_remember p.anchor hnode).bind fun _ _ => keeps_pure hnode
  rw [Builder.content]
  split
  · exact hsequence h.indentlessItems
  · exact keeps_next.bind fun _ _ => keeps_scalarNode p _ _ start
  · exact hsequence (keeps_next.bind fun _ _ => h.flowItems _ true)
  · exact hmapping (keeps_next.bind fun _ _ => h.flowEntries _ true)
  · exact hsequence (keeps_next.bind fun _ _ => h.blockItems _)
  · exact hmapping (keeps_next.bind fun _ _ => h.blockEntries _)
  · split
    · exact keeps_scalarNode p true "" start
    · exact keeps_unexpected _ _ _

theorem BuildsUntagged.nodeOrEmpty_succ (place : Place) (ends : TokenKind → Bool) (mark : Mark) :
    Keeps Node.IsUntagged (Builder.nodeOrEmpty (bound + 1) place ends mark) := by
  rw [Builder.nodeOrEmpty]
  refine (keeps_sees ends).bind fun seen _ => ?_
  split
  · exact keeps_emptyNode mark
  · exact h.node place

theorem BuildsUntagged.blockItems_succ (start : Mark) :
    Keeps ItemsUntagged (Builder.blockItems (bound + 1) start) := by
  rw [Builder.blockItems]
  refine keeps_peek.bind fun token _ => ?_
  split
  · refine keeps_next.bind fun _ _ => (h.nodeOrEmpty _ _ _).bind fun item hitem => ?_
    exact keeps_cons hitem (h.blockItems start)
  · exact keeps_next.bind fun _ _ => keeps_nil
  · exact keeps_unexpected _ _ _

theorem BuildsUntagged.indentlessItems_succ :
    Keeps ItemsUntagged (Builder.indentlessItems (bound + 1)) := by
  rw [Builder.indentlessItems]
  refine keeps_peek.bind fun token _ => ?_
  split
  · refine keeps_next.bind fun _ _ => (h.nodeOrEmpty _ _ _).bind fun item hitem => ?_
    exact keeps_cons hitem h.indentlessItems
  · exact keeps_nil

theorem BuildsUntagged.blockEntries_succ (start : Mark) :
    Keeps EntriesUntagged (Builder.blockEntries (bound + 1) start) := by
  rw [Builder.blockEntries]
  refine keeps_peek.bind fun token _ => ?_
  split
  · exact keeps_next.bind fun _ _ => keeps_noEntries
  · refine keeps_next.bind fun _ _ => (h.nodeOrEmpty _ _ _).bind fun key hkey => ?_
    exact h.blockValue.bind fun value hvalue => keeps_entry hkey hvalue (h.blockEntries start)
  · exact keeps_unexpected _ _ _

theorem BuildsUntagged.blockValue_succ :
    Keeps Node.IsUntagged (Builder.blockValue (bound + 1)) := by
  rw [Builder.blockValue]
  refine keeps_peek.bind fun token _ => ?_
  split
  · exact keeps_next.bind fun _ _ => h.nodeOrEmpty _ _ _
  · exact keeps_emptyNode _

theorem BuildsUntagged.flowItems_succ (start : Mark) (first : Bool) :
    Keeps ItemsUntagged (Builder.flowItems (bound + 1) start first) := by
  rw [Builder.flowItems]
  refine (keeps_sees _).bind fun seen _ => ?_
  split
  · exact keeps_next.bind fun _ _ => keeps_nil
  · refine (keeps_comma _ _ _ _).bind fun _ _ => keeps_peek.bind fun token _ => ?_
    split
    · refine keeps_next.bind fun _ _ => (h.flowPair token).bind fun pair hpair => ?_
      exact keeps_cons hpair (h.flowItems start false)
    · exact keeps_next.bind fun _ _ => keeps_nil
    · exact (h.node _).bind fun item hitem => keeps_cons hitem (h.flowItems start false)

theorem BuildsUntagged.flowPair_succ (token : Token) :
    Keeps Node.IsUntagged (Builder.flowPair (bound + 1) token) := by
  rw [Builder.flowPair]
  refine (h.nodeOrEmpty _ _ _).bind fun key hkey => (h.flowValue _).bind fun value hvalue => ?_
  exact keeps_pure (.mapping none token.start (List.forall_mem_singleton.mpr hkey)
    (List.forall_mem_singleton.mpr hvalue))

theorem BuildsUntagged.flowValue_succ (ends : TokenKind → Bool) :
    Keeps Node.IsUntagged (Builder.flowValue (bound + 1) ends) := by
  rw [Builder.flowValue]
  refine keeps_peek.bind fun token _ => ?_
  split
  · exact keeps_next.bind fun _ _ => h.nodeOrEmpty _ _ _
  · exact keeps_emptyNode _

theorem BuildsUntagged.flowEntries_succ (start : Mark) (first : Bool) :
    Keeps EntriesUntagged (Builder.flowEntries (bound + 1) start first) := by
  rw [Builder.flowEntries]
  refine (keeps_sees _).bind fun seen _ => ?_
  split
  · exact keeps_next.bind fun _ _ => keeps_noEntries
  · refine (keeps_comma _ _ _ _).bind fun _ _ => keeps_peek.bind fun token _ => ?_
    split
    · refine keeps_next.bind fun _ _ => (h.nodeOrEmpty _ _ _).bind fun key hkey => ?_
      exact (h.flowValue _).bind fun value hvalue =>
        keeps_entry hkey hvalue (h.flowEntries start false)
    · exact keeps_next.bind fun _ _ => keeps_noEntries
    · refine (h.node _).bind fun key hkey => keeps_peek.bind fun token _ => ?_
      exact (keeps_emptyNode _).bind fun value hvalue =>
        keeps_entry hkey hvalue (h.flowEntries start false)

end Step

theorem buildsUntagged (bound : Nat) : BuildsUntagged bound := by
  induction bound with
  | zero => exact buildsUntagged_zero
  | succ bound ih =>
      exact {
        node := ih.node_succ
        content := ih.content_succ
        nodeOrEmpty := ih.nodeOrEmpty_succ
        blockItems := ih.blockItems_succ
        indentlessItems := ih.indentlessItems_succ
        blockEntries := ih.blockEntries_succ
        blockValue := ih.blockValue_succ
        flowItems := ih.flowItems_succ
        flowPair := ih.flowPair_succ
        flowValue := ih.flowValue_succ
        flowEntries := ih.flowEntries_succ }

/-!
## Documents
-/

theorem keeps_skipDocumentEnds (bound : Nat) :
    Keeps (fun _ => True) (skipDocumentEnds bound) := by
  induction bound with
  | zero => exact keeps_pure trivial
  | succ bound ih =>
      rw [skipDocumentEnds]
      refine (keeps_sees _).bind fun seen _ => ?_
      split
      · exact keeps_next.bind fun _ _ => ih
      · exact keeps_pure trivial

theorem keeps_directives (bound : Nat) (versioned : Bool) (handles : List (String × String)) :
    Keeps (fun _ => True) (directives bound versioned handles) := by
  induction bound generalizing versioned handles with
  | zero => exact keeps_pure trivial
  | succ bound ih =>
      rw [directives]
      refine keeps_peek.bind fun token _ => ?_
      split
      · refine keeps_next.bind fun _ _ => ?_
        split
        · exact keeps_refuse _ _ _
        · split
          · exact keeps_refuse _ _ _
          · exact ih true handles
      · refine keeps_next.bind fun _ _ => ?_
        split
        · exact keeps_refuse _ _ _
        · exact ih versioned _
      · exact keeps_next.bind fun _ _ => ih versioned handles
      · exact keeps_pure trivial

theorem keeps_handles (handles : List (String × String)) :
    Keeps (fun _ => True) (modify fun b => { b with handles }) :=
  fun _ hb => ⟨⟨hb.tokens, hb.fault, hb.anchors⟩, trivial⟩

theorem keeps_documentStart : Keeps (fun _ => True) documentStart := by
  refine keeps_get.bind fun b _ => (keeps_skipDocumentEnds _).bind fun _ _ => ?_
  refine (keeps_sees _).bind fun ended _ => ?_
  split
  · exact keeps_pure trivial
  · refine keeps_peek.bind fun first _ => (keeps_directives _ _ _).bind fun handles _ => ?_
    refine (keeps_handles _).bind fun _ _ => (keeps_sees _).bind fun started _ => ?_
    split
    · exact keeps_next.bind fun _ _ => keeps_pure trivial
    · exact keeps_unexpected _ _ _

/-- The only document of untagged tokens has no tags. -/
theorem keeps_onlyDocument :
    Keeps (fun root : Option Node => ∀ node ∈ root, node.IsUntagged) onlyDocument := by
  refine keeps_next.bind fun _ _ => keeps_get.bind fun b _ => (keeps_sees _).bind fun explicit _ => ?_
  -- What follows the root is the same whether the document has a mark of its own or not.
  extract_lets +lift finish
  have hfinish : ∀ root : Node, root.IsUntagged →
      Keeps (fun root : Option Node => ∀ node ∈ root, node.IsUntagged) (finish root) := by
    intro root hroot
    unfold finish
    extract_lets +lift last
    have hlast : ∀ u, Keeps (fun root : Option Node => ∀ node ∈ root, node.IsUntagged) (last u) := by
      intro u
      refine keeps_documentStart.bind fun second _ => ?_
      cases second with
      | none =>
          refine keeps_pure fun node hnode => ?_
          cases hnode
          exact hroot
      | some mark => exact keeps_refuse _ _ _
    refine (keeps_sees _).bind fun ended _ => ?_
    split
    · exact keeps_next.bind fun _ _ => hlast ()
    · exact hlast ()
  split
  · refine keeps_documentStart.bind fun first _ => ?_
    cases first with
    | none =>
        refine keeps_pure fun node hnode => ?_
        cases hnode
    | some mark =>
        refine keeps_peek.bind fun token _ => ?_
        exact ((buildsUntagged _).nodeOrEmpty _ _ _).bind fun root hroot => hfinish root hroot
  · refine (keeps_handles _).bind fun _ _ => ?_
    exact ((buildsUntagged _).node _).bind fun root hroot => hfinish root hroot

end Builder
end Yaml
end Roster
