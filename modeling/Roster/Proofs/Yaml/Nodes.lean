import Roster.Proofs.Value.Entries
import Roster.Proofs.Yaml.Tokens
import Roster.Yaml.Document

/-!
# The tree of written values

The tokens of a value become a node, and the node stands for the value with its texts as they are
read back.  Whatever is built, the bound leaves four steps for each token.
-/

namespace Roster
namespace Yaml

/-!
## What is read back
-/

/-- A text as a datum. -/
def Datum.ofText (s : String) : Datum := .scalar (.str s)

mutual

/-- What a value is read back as: its texts as they are read back, and of a key that comes several
times the last value. -/
def datumOf : Value → Datum
  | .str s => .ofText (rereadText s)
  | .list items => .list none (itemData items)
  | .map entries => .map none (Datum.ofEntries (entryData entries))
  | v => .scalar v

def itemData : List Value → List Datum
  | [] => []
  | v :: rest => datumOf v :: itemData rest

def entryData : List (String × Value) → List (Datum × Datum)
  | [] => []
  | (k, v) :: rest => (.ofText (rereadText k), datumOf v) :: entryData rest

end

/-- A scalar that stands for a text. -/
def Node.IsText (s : String) (node : Node) : Prop :=
  ∃ start, node = .scalar (Node.standardTag "str") s start

/-- With a bound that its height leaves, a node stands for a datum at every level. -/
def Node.Means (d : Datum) (node : Node) : Prop :=
  ∀ ⦃bound level : Nat⦄, Meaning.height node ≤ bound → Meaning.construct bound level node = .ok d

/-- A pair of nodes for the key and the value of an entry. -/
def IsPair (entry : String × Value) (pair : Node × Node) : Prop :=
  pair.1.IsText (rereadText entry.1) ∧ pair.2.Means (datumOf entry.2)

namespace Meaning

variable {node : Node} {s : String}

theorem means_of_isText (h : node.IsText s) : node.Means (.ofText s) := by
  rcases h with ⟨start, rfl⟩
  intro bound level hbound
  rcases Nat.exists_eq_add_of_le' hbound with ⟨bound, rfl⟩
  have hkind : Kind.ofTag? (Node.standardTag "str") = some .str := by decide
  simp only [height, construct, Node.tag, hkind, textOf]
  rfl

theorem means_word {v : Value} {cs : List Char} (h : word? v = some cs) (hv : IsReadable v)
    (start : Mark) : Node.Means (.scalar v)
      (.scalar (Node.tagOfSort (Implicit.sortOf cs)) (String.ofList cs) start) := by
  intro bound level hbound
  rcases Nat.exists_eq_add_of_le' hbound with ⟨bound, rfl⟩
  exact construct_word h hv bound level start

theorem all_of_means {items : List Value} {nodes : List Node}
    (h : List.Forall₂ (fun v node => node.Means (datumOf v)) items nodes) {bound : Nat}
    (hbound : height.heights nodes ≤ bound) (level : Nat) :
    all (nodes.map (construct bound level)) = .ok (itemData items) := by
  induction h with
  | nil => rfl
  | cons hnode hrest ih =>
      rw [height.heights] at hbound
      rw [List.map_cons, all, hnode (Nat.le_trans (Nat.le_max_left _ _) hbound),
        ih (Nat.le_trans (Nat.le_max_right _ _) hbound), itemData]
      rfl

theorem means_sequence {items : List Value} {nodes : List Node}
    (h : List.Forall₂ (fun v node => node.Means (datumOf v)) items nodes) (start : Mark) :
    Node.Means (datumOf (.list items)) (.sequence (Node.standardTag "seq") none nodes start) := by
  intro bound level hbound
  have hkind : Kind.ofTag? (Node.standardTag "seq") = some .seq := by decide
  rcases Nat.exists_eq_add_of_le' (Nat.le_trans (Nat.le_add_left 1 _) hbound) with ⟨bound, rfl⟩
  have hitems := all_of_means h (Nat.le_of_succ_le_succ hbound) (level + 1)
  rw [construct]
  simp only [Node.tag, hkind, hitems, datumOf]
  rfl

theorem entriesOf_of_isPairs {entries : List (String × Value)} {pairs : List (Node × Node)}
    (bound : Nat) (start : Mark) (h : List.Forall₂ IsPair entries pairs) :
    entriesOf (bound + 1) start pairs = .ok pairs := by
  have hkeys : ∀ pair ∈ pairs, isMergeKey pair.1 = false ∧ plainKey pair.1 = pair.1 := by
    induction h with
    | nil => exact nofun
    | cons hpair hrest ih =>
        refine List.forall_mem_cons.mpr ⟨?_, ih⟩
        rcases hpair.1 with ⟨start, hkey⟩
        have hmerge : (Node.standardTag "str" == Node.standardTag "merge") = false := by decide
        have hvalue : (Node.standardTag "str" == Node.standardTag "value") = false := by decide
        rw [hkey]
        exact ⟨hmerge, by simp [plainKey, hvalue]⟩
  have hmerged : pairs.filter (fun pair => isMergeKey pair.1) = [] :=
    List.filter_eq_nil_iff.mpr fun pair hpair => by simp [(hkeys pair hpair).1]
  have hothers : pairs.filter (fun pair => !isMergeKey pair.1) = pairs :=
    List.filter_eq_self.mpr fun pair hpair => by simp [(hkeys pair hpair).1]
  have hplain : pairs.map (fun pair => (plainKey pair.1, pair.2)) = pairs := by
    refine Eq.trans (List.map_congr_left fun pair hpair => ?_) (List.map_id pairs)
    rw [(hkeys pair hpair).2]
    rfl
  rw [entriesOf]
  simp only [hmerged, hothers, List.mapM_nil, pure_bind, List.flatten_nil, List.nil_append, hplain]

theorem means_mapping {entries : List (String × Value)} {pairs : List (Node × Node)}
    (h : List.Forall₂ IsPair entries pairs) (start : Mark) :
    Node.Means (datumOf (.map entries)) (.mapping (Node.standardTag "map") none pairs start) := by
  intro bound level hbound
  have hkind : Kind.ofTag? (Node.standardTag "map") = some .map := by decide
  rcases Nat.exists_eq_add_of_le' (Nat.le_trans (Nat.le_add_left 1 _) hbound) with ⟨bound, rfl⟩
  have hheight : height.entryHeights pairs ≤ bound := Nat.le_of_succ_le_succ hbound
  rw [construct]
  simp only [Node.tag, hkind, entriesOf_of_isPairs _ start h]
  have hall : all (pairs.map fun pair =>
      both (keyOf start pair.1 (level + 1) (construct bound (level + 1) pair.1))
        (construct bound (level + 1) pair.2)) = .ok (entryData entries) := by
    clear hbound
    induction h with
    | nil => rfl
    | cons hpair hrest ih =>
        simp only [height.entryHeights, Nat.max_le] at hheight
        rw [List.map_cons, all, ih hheight.2, means_of_isText hpair.1 hheight.1.1,
          hpair.2 hheight.1.2, entryData]
        rfl
  rw [datumOf]
  exact congrArg (Except.map _) hall

end Meaning

namespace Builder

variable {α β : Type} {x : Build α} {f : α → Build β} {a : α} {b : β}
  {token : Token} {tokens middle rest : List Token}

/-!
## Steps
-/

/-- In front of some tokens a step gives a result, and others are left; there are no anchors. -/
def Gives (x : Build α) (tokens : List Token) (a : α) (rest : List Token) : Prop :=
  ∀ handles, x.run ⟨tokens, none, handles, []⟩ = .ok (a, ⟨rest, none, handles, []⟩)

theorem Gives.bind (h : Gives x tokens a middle) (h' : Gives (f a) middle b rest) :
    Gives (x >>= f) tokens b rest := by
  intro handles
  rw [StateT.run_bind, h handles]
  exact h' handles

theorem gives_pure (a : α) (tokens : List Token) : Gives (pure a) tokens a tokens := fun _ => rfl

theorem gives_peek (token : Token) (rest : List Token) :
    Gives peek (token :: rest) token (token :: rest) := fun _ => rfl

theorem gives_next (token : Token) (rest : List Token) : Gives next (token :: rest) token rest :=
  fun _ => rfl

theorem gives_sees (test : TokenKind → Bool) (token : Token) (rest : List Token) :
    Gives (sees test) (token :: rest) (test token.kind) (token :: rest) := fun _ => rfl

/-!
## What a node starts with
-/

/-- The kinds of tokens with which a value can start; a hyphen can where a list is not opened. -/
inductive StartsNode (indentless : Bool) : TokenKind → Prop where
  | scalar (plain : Bool) (text : String) : StartsNode indentless (.scalar plain text)
  | flowSequence : StartsNode indentless .flowSequenceStart
  | flowMapping : StartsNode indentless .flowMappingStart
  | sequence : StartsNode indentless .blockSequenceStart
  | mapping : StartsNode indentless .blockMappingStart
  | item (h : indentless = true) : StartsNode indentless .blockEntry

variable {indentless : Bool} {place : Place} {bound : Nat} {node : Node}

theorem exists_scalarKind (v : Value) : ∃ plain text, scalarKind v = .scalar plain text := by
  cases v with
  | str s => exact ⟨_, _, rfl⟩
  | null | bool b | int i | float d | list items | map entries => exact ⟨true, _, rfl⟩

theorem exists_nodeKinds (indentless : Bool) (v : Value) :
    ∃ first more, nodeKinds indentless v = first :: more ∧ StartsNode indentless first := by
  have hscalar : v.isScalar = true →
      ∃ first more, nodeKinds indentless v = first :: more ∧ StartsNode indentless first := by
    intro hv
    rcases exists_scalarKind v with ⟨plain, text, hkind⟩
    rw [nodeKinds_of_isScalar hv, hkind]
    exact ⟨_, [], rfl, .scalar plain text⟩
  match v with
  | .null | .bool _ | .int _ | .float _ | .str _ => exact hscalar rfl
  | .list [] => exact ⟨_, _, by rw [nodeKinds], .flowSequence⟩
  | .map [] => exact ⟨_, _, by rw [nodeKinds], .flowMapping⟩
  | .list (v :: rest) =>
      rw [nodeKinds_list (List.cons_ne_nil v rest)]
      cases indentless with
      | false => exact ⟨_, _, rfl, .sequence⟩
      | true => exact ⟨_, _, by rw [if_pos rfl, itemKinds], .item rfl⟩
  | .map (entry :: rest) =>
      rw [nodeKinds_map (List.cons_ne_nil entry rest)]
      exact ⟨_, _, rfl, .mapping⟩

theorem gives_node (hstart : StartsNode indentless token.kind)
    (h : Gives (content bound place {} none token.start token) (token :: tokens) node rest) :
    Gives (Builder.node (bound + 1) place) (token :: tokens) node rest := by
  rcases token with ⟨kind, start, stop⟩
  intro handles
  rw [← h handles, Builder.node]
  cases hstart <;> rfl

theorem gives_nodeOrEmpty {ends : TokenKind → Bool} (mark : Mark) (hends : ends token.kind = false)
    (h : Gives (Builder.node bound place) (token :: tokens) node rest) :
    Gives (nodeOrEmpty (bound + 1) place ends mark) (token :: tokens) node rest := by
  rw [nodeOrEmpty]
  refine (gives_sees _ _ _).bind ?_
  rw [hends]
  exact h

theorem endsEntry_eq_false {kind : TokenKind} (h : StartsNode indentless kind) :
    endsEntry kind = false := by
  cases h <;> rfl

theorem endsItem_eq_false {kind : TokenKind} (h : StartsNode false kind) :
    (kind == .blockEntry || kind == .blockEnd) = false ∧
      (kind == .blockEntry || endsEntry kind) = false := by
  cases h with
  | scalar | flowSequence | flowMapping | sequence | mapping => exact ⟨rfl, rfl⟩
  | item h => cases h

/-!
## From tokens to nodes
-/

/-- The tokens of a value become a node that stands for it, whatever follows; behind a list that is
not opened comes no further hyphen. -/
def GivesNode (v : Value) : Prop :=
  ∀ ⦃indentless : Bool⦄ ⦃place : Place⦄ ⦃bound : Nat⦄ ⦃tokens rest : List Token⦄ ⦃next : Token⦄,
    tokens.map Token.kind = nodeKinds indentless v → place.block = true →
    (indentless = true → place.indentless = true ∧ next.kind ≠ .blockEntry) →
    4 * tokens.length + 3 ≤ bound →
    ∃ node, node.Means (datumOf v) ∧
      Gives (Builder.node bound place) (tokens ++ next :: rest) node (next :: rest)

/-- The tokens of items become nodes that stand for them, up to the end of the list or to what is no
hyphen. -/
def GivesItems (items : List Value) : Prop :=
  ∀ ⦃bound : Nat⦄ ⦃tokens rest : List Token⦄ ⦃next : Token⦄,
    tokens.map Token.kind = itemKinds items → 4 * tokens.length + 1 ≤ bound →
    ∃ nodes, List.Forall₂ (fun v node => node.Means (datumOf v)) items nodes ∧
      (next.kind = .blockEnd →
        ∀ start, Gives (blockItems bound start) (tokens ++ next :: rest) nodes rest) ∧
      (next.kind ≠ .blockEntry →
        Gives (indentlessItems bound) (tokens ++ next :: rest) nodes (next :: rest))

/-- The tokens of entries become pairs of nodes that stand for them, up to the end of the map. -/
def GivesEntries (entries : List (String × Value)) : Prop :=
  ∀ ⦃bound : Nat⦄ ⦃tokens rest : List Token⦄ ⦃close : Token⦄,
    tokens.map Token.kind = entryKinds entries → close.kind = .blockEnd →
    4 * tokens.length + 1 ≤ bound →
    ∃ pairs, List.Forall₂ IsPair entries pairs ∧
      ∀ start, Gives (blockEntries bound start) (tokens ++ close :: rest) pairs rest

section Collections

variable {v : Value} {items : List Value} {entries : List (String × Value)} {next : Token}

theorem exists_token (htokens : tokens.map Token.kind = nodeKinds indentless v) :
    ∃ token more, tokens = token :: more ∧ StartsNode indentless token.kind := by
  rcases exists_nodeKinds indentless v with ⟨first, more, hkinds, hstart⟩
  rw [hkinds] at htokens
  rcases List.map_eq_cons_iff.mp htokens with ⟨token, tokens, rfl, rfl, -⟩
  exact ⟨token, tokens, rfl, hstart⟩

theorem exists_append_cons (tokens : List Token) (next : Token) (rest : List Token) :
    ∃ first more, tokens ++ next :: rest = first :: more := by
  cases tokens with
  | nil => exact ⟨next, rest, rfl⟩
  | cons token tokens => exact ⟨token, _, rfl⟩

theorem givesItems_nil : GivesItems [] := by
  intro bound tokens rest next htokens hbound
  rcases Nat.exists_eq_add_of_le' hbound with ⟨bound, rfl⟩
  rw [List.map_eq_nil_iff.mp htokens]
  refine ⟨[], .nil, fun hclose start => ?_, fun hother => ?_⟩
  · rw [List.length_nil, Nat.mul_zero, Nat.zero_add, blockItems]
    refine (gives_peek _ _).bind ?_
    rw [hclose]
    exact (gives_next _ _).bind (gives_pure _ _)
  · rw [List.length_nil, Nat.mul_zero, Nat.zero_add, indentlessItems]
    refine (gives_peek _ _).bind ?_
    split
    · contradiction
    · exact gives_pure _ _

theorem givesItems_cons (hv : GivesNode v) (hrest : GivesItems items) : GivesItems (v :: items) := by
  intro bound tokens rest next htokens hbound
  rw [itemKinds, List.map_eq_cons_iff] at htokens
  rcases htokens with ⟨hyphen, _, rfl, hhyphen, htokens⟩
  rcases List.map_eq_append_iff.mp htokens with ⟨front, back, rfl, hfront, hback⟩
  rw [List.length_cons, List.length_append] at hbound
  obtain ⟨more, rfl⟩ : ∃ more, bound = more + 2 := ⟨bound - 2, by omega⟩
  rcases exists_append_cons back next rest with ⟨following, others, hfollowing⟩
  rcases @hv false ⟨true, false⟩ more front others following hfront rfl
    (absurd · Bool.false_ne_true) (by omega) with ⟨node, hnode, hgives⟩
  rcases hrest hback (by omega : 4 * back.length + 1 ≤ more + 1) with
    ⟨nodes, hnodes, hblock, hindentless⟩
  rcases exists_token hfront with ⟨token, behind, rfl, hstart⟩
  rcases endsItem_eq_false hstart with ⟨hends, hendsIndentless⟩
  rw [← hfollowing] at hgives
  refine ⟨node :: nodes, .cons hnode hnodes, fun hclose start => ?_, fun hother => ?_⟩
  · rw [blockItems, List.cons_append, List.append_assoc]
    refine (gives_peek _ _).bind ?_
    rw [hhyphen]
    refine (gives_next _ _).bind ((gives_nodeOrEmpty _ hends hgives).bind ?_)
    exact (hblock hclose start).bind (gives_pure _ _)
  · rw [indentlessItems, List.cons_append, List.append_assoc]
    refine (gives_peek _ _).bind ?_
    rw [hhyphen]
    refine (gives_next _ _).bind ((gives_nodeOrEmpty _ hendsIndentless hgives).bind ?_)
    exact (hindentless hother).bind (gives_pure _ _)

theorem givesEntries_nil : GivesEntries [] := by
  intro bound tokens rest close htokens hclose hbound
  rcases Nat.exists_eq_add_of_le' hbound with ⟨bound, rfl⟩
  rw [List.map_eq_nil_iff.mp htokens]
  refine ⟨[], .nil, fun start => ?_⟩
  rw [List.length_nil, Nat.mul_zero, Nat.zero_add, blockEntries]
  refine (gives_peek _ _).bind ?_
  rw [hclose]
  exact (gives_next _ _).bind (gives_pure _ _)

theorem gives_scalar (plain : Bool) (text : String) (place : Place) (bound : Nat)
    (h : token.kind = .scalar plain text) (rest : List Token) :
    Gives (Builder.node (bound + 2) place) (token :: rest)
      (.scalar (Node.tagOfSort (if plain then Implicit.sortOf text.toList else .str)) text
        token.start) rest := by
  rcases token with ⟨kind, start, stop⟩
  cases h
  have hstart : StartsNode false (.scalar plain text) := .scalar plain text
  cases plain with
  | true | false => exact gives_node hstart fun handles => rfl

theorem gives_text {isKey : Bool} {s : String} (place : Place) (bound : Nat)
    (h : token.kind = textKind isKey s) (rest : List Token) :
    ∃ node, Node.IsText (rereadText s) node ∧
      Gives (Builder.node (bound + 2) place) (token :: rest) node rest := by
  have hgives := gives_scalar _ _ place bound h rest
  have hsort : (if Style.ofText isKey s.toList == .plain then
      Implicit.sortOf (rereadText s).toList else .str) = .str := by
    split
    · rename_i hstyle
      rcases Style.of_eq_plain (beq_iff_eq.mp hstyle) with ⟨hsort, hplain, -⟩
      rw [rereadText, String.toList_ofList, reread_of_inLine (Style.allowsPlain_iff.mp hplain).2.2.1]
      exact hsort
    · rfl
  rw [hsort] at hgives
  exact ⟨_, ⟨token.start, rfl⟩, hgives⟩

theorem givesEntries_cons {k : String} (hv : GivesNode v) (hrest : GivesEntries entries) :
    GivesEntries ((k, v) :: entries) := by
  intro bound tokens rest close htokens hclose hbound
  simp only [entryKinds, List.map_eq_cons_iff] at htokens
  rcases htokens with ⟨question, _, rfl, hquestion, key, _, rfl, hkey, colon, _, rfl, hcolon, htokens⟩
  rcases List.map_eq_append_iff.mp htokens with ⟨front, back, rfl, hfront, hback⟩
  simp only [List.length_cons, List.length_append] at hbound
  obtain ⟨more, rfl⟩ : ∃ more, bound = more + 4 := ⟨bound - 4, by omega⟩
  rcases exists_append_cons back close rest with ⟨following, others, hfollowing⟩
  -- Behind the value comes a key or the end of the map.
  have hother : following.kind ≠ .blockEntry := by
    cases back with
    | nil =>
        rw [← (List.cons.inj hfollowing).1, hclose]
        decide
    | cons token back =>
        rw [← (List.cons.inj hfollowing).1]
        cases entries with
        | nil => cases hback
        | cons entry entries =>
            rw [entryKinds, List.map_cons] at hback
            rw [(List.cons.inj hback).1]
            decide
  rcases gives_text ⟨true, true⟩ more hkey (colon :: (front ++ (back ++ close :: rest))) with
    ⟨keyNode, hkeyNode, hgivesKey⟩
  rcases @hv _ ⟨true, true⟩ (more + 1) front others following hfront rfl (fun _ => ⟨rfl, hother⟩)
    (by omega) with ⟨node, hnode, hgives⟩
  rcases hrest hback hclose (by omega : 4 * back.length + 1 ≤ more + 3) with
    ⟨pairs, hpairs, hgivesRest⟩
  rcases exists_token hfront with ⟨token, behind, rfl, hstart⟩
  rw [← hfollowing] at hgives
  have hkeyEnds : endsEntry key.kind = false := by
    rw [hkey]
    rfl
  refine ⟨(keyNode, node) :: pairs, .cons ⟨hkeyNode, hnode⟩ hpairs, fun start => ?_⟩
  rw [blockEntries]
  simp only [List.cons_append, List.append_assoc]
  refine (gives_peek _ _).bind ?_
  rw [hquestion]
  refine (gives_next _ _).bind ((gives_nodeOrEmpty _ hkeyEnds hgivesKey).bind ?_)
  have hvalue : Gives (blockValue (more + 3))
      (colon :: token :: (behind ++ (back ++ close :: rest))) node (back ++ close :: rest) := by
    rw [blockValue]
    refine (gives_peek _ _).bind ?_
    rw [hcolon]
    exact (gives_next _ _).bind (gives_nodeOrEmpty _ (endsEntry_eq_false hstart) hgives)
  exact hvalue.bind ((hgivesRest start).bind (gives_pure _ _))

theorem givesNode_of_isScalar (hscalar : v.isScalar = true) (hv : IsReadable v) : GivesNode v := by
  intro indentless place bound tokens rest next htokens hplace hindentless hbound
  obtain ⟨more, rfl⟩ : ∃ more, bound = more + 2 := ⟨bound - 2, by omega⟩
  rw [nodeKinds_of_isScalar hscalar, List.map_eq_singleton_iff] at htokens
  rcases htokens with ⟨token, rfl, hkind⟩
  cases hword : word? v with
  | none =>
      cases v with
      | str s =>
          rcases gives_text place more hkind (next :: rest) with ⟨node, hnode, hgives⟩
          exact ⟨node, Meaning.means_of_isText hnode, hgives⟩
      | list items => cases hscalar
      | map entries => cases hscalar
      | null | bool b | int i | float d => cases hword
  | some cs =>
      have hplain : scalarKind v = .scalar true (String.ofList cs) ∧ datumOf v = .scalar v := by
        cases v with
        | str s => cases hword
        | list items => cases hword
        | map entries => cases hword
        | null | bool b | int i | float d =>
            cases hword
            exact ⟨rfl, by simp [datumOf]⟩
      have hgives := gives_scalar _ _ place more (hkind.trans hplain.1) (next :: rest)
      rw [String.toList_ofList, if_pos rfl] at hgives
      exact ⟨_, hplain.2 ▸ Meaning.means_word hword hv token.start, hgives⟩

theorem gives_sequence {opening : Token} {nodes : List Node} (place : Place) (hplace : place.block = true)
    (hopening : opening.kind = .blockSequenceStart)
    (h : Gives (blockItems bound opening.start) tokens nodes rest) :
    Gives (Builder.node (bound + 2) place) (opening :: tokens)
      (.sequence (Node.standardTag "seq") none nodes opening.start) rest := by
  rcases opening with ⟨kind, start, stop⟩
  rcases place with ⟨block, indentless⟩
  cases hopening
  cases hplace
  have hstart : StartsNode false .blockSequenceStart := .sequence
  have hitems : Gives (blockItems bound start >>= fun items =>
      pure (Node.sequence (Node.standardTag "seq") none items start)) tokens
      (.sequence (Node.standardTag "seq") none nodes start) rest := h.bind (gives_pure _ _)
  refine gives_node hstart fun handles => ?_
  rw [← hitems handles]
  cases indentless <;> rfl

theorem gives_indentless {hyphen : Token} {nodes : List Node} (place : Place)
    (hindentless : place.indentless = true) (hhyphen : hyphen.kind = .blockEntry)
    (h : Gives (indentlessItems bound) (hyphen :: tokens) nodes rest) :
    Gives (Builder.node (bound + 2) place) (hyphen :: tokens)
      (.sequence (Node.standardTag "seq") none nodes hyphen.start) rest := by
  rcases hyphen with ⟨kind, start, stop⟩
  rcases place with ⟨block, indentless⟩
  cases hhyphen
  cases hindentless
  have hstart : StartsNode true .blockEntry := .item rfl
  have hitems : Gives (indentlessItems bound >>= fun items =>
      pure (Node.sequence (Node.standardTag "seq") none items start)) (_ :: tokens)
      (.sequence (Node.standardTag "seq") none nodes start) rest := h.bind (gives_pure _ _)
  refine gives_node hstart fun handles => ?_
  rw [← hitems handles]
  rfl

theorem gives_mapping {opening : Token} {pairs : List (Node × Node)} (place : Place)
    (hplace : place.block = true) (hopening : opening.kind = .blockMappingStart)
    (h : Gives (blockEntries bound opening.start) tokens pairs rest) :
    Gives (Builder.node (bound + 2) place) (opening :: tokens)
      (.mapping (Node.standardTag "map") none pairs opening.start) rest := by
  rcases opening with ⟨kind, start, stop⟩
  rcases place with ⟨block, indentless⟩
  cases hopening
  cases hplace
  have hstart : StartsNode false .blockMappingStart := .mapping
  have hentries : Gives (blockEntries bound start >>= fun pairs =>
      pure (Node.mapping (Node.standardTag "map") none pairs start)) tokens
      (.mapping (Node.standardTag "map") none pairs start) rest := h.bind (gives_pure _ _)
  refine gives_node hstart fun handles => ?_
  rw [← hentries handles]
  cases indentless <;> rfl

theorem gives_brackets {opening closing : Token} (place : Place) (bound : Nat)
    (rest : List Token) :
    (opening.kind = .flowSequenceStart → closing.kind = .flowSequenceEnd →
      Gives (Builder.node (bound + 3) place) (opening :: closing :: rest)
        (.sequence (Node.standardTag "seq") none [] opening.start) rest) ∧
    (opening.kind = .flowMappingStart → closing.kind = .flowMappingEnd →
      Gives (Builder.node (bound + 3) place) (opening :: closing :: rest)
        (.mapping (Node.standardTag "map") none [] opening.start) rest) := by
  rcases opening with ⟨kind, start, stop⟩
  rcases closing with ⟨last, lastStart, lastStop⟩
  rcases place with ⟨block, indentless⟩
  have hsequence : StartsNode false .flowSequenceStart := .flowSequence
  have hmapping : StartsNode false .flowMappingStart := .flowMapping
  refine ⟨fun hopening hclosing => ?_, fun hopening hclosing => ?_⟩
  · cases hopening
    cases hclosing
    exact gives_node hsequence fun handles => rfl
  · cases hopening
    cases hclosing
    exact gives_node hmapping fun handles => rfl

/-- A list is a pair of brackets, or its items with or without a token that opens it. -/
theorem givesNode_list (hitems : GivesItems items) : GivesNode (.list items) := by
  intro indentless place bound tokens rest next htokens hplace hindentless hbound
  by_cases hne : items = []
  · subst hne
    obtain ⟨more, rfl⟩ : ∃ more, bound = more + 3 := ⟨bound - 3, by omega⟩
    simp only [nodeKinds, List.map_eq_cons_iff, List.map_eq_nil_iff] at htokens
    rcases htokens with ⟨opening, _, rfl, hopening, closing, _, rfl, hclosing, rfl⟩
    exact ⟨_, Meaning.means_sequence .nil opening.start,
      (gives_brackets place more (next :: rest)).1 hopening hclosing⟩
  obtain ⟨more, rfl⟩ : ∃ more, bound = more + 2 := ⟨bound - 2, by omega⟩
  rw [nodeKinds_list hne] at htokens
  cases indentless with
  | true =>
      rw [if_pos rfl] at htokens
      rcases hindentless rfl with ⟨hindentless, hother⟩
      rcases @hitems more tokens rest next htokens (by omega) with ⟨nodes, hnodes, -, hgives⟩
      rcases List.exists_cons_of_ne_nil hne with ⟨v, others, rfl⟩
      rw [itemKinds, List.map_eq_cons_iff] at htokens
      rcases htokens with ⟨hyphen, tokens, rfl, hhyphen, -⟩
      exact ⟨_, Meaning.means_sequence hnodes hyphen.start,
        gives_indentless place hindentless hhyphen (hgives hother)⟩
  | false =>
      rw [if_neg Bool.false_ne_true] at htokens
      simp only [List.map_eq_cons_iff, List.map_eq_append_iff, List.map_eq_nil_iff] at htokens
      rcases htokens with ⟨opening, _, rfl, hopening, tokens, _, rfl, htokens, close, _, rfl, hclose,
        rfl⟩
      simp only [List.length_cons, List.length_append, List.length_nil] at hbound
      rcases hitems htokens (by omega : 4 * tokens.length + 1 ≤ more) with ⟨nodes, hnodes, hgives, -⟩
      refine ⟨_, Meaning.means_sequence hnodes opening.start, ?_⟩
      rw [List.cons_append, List.append_assoc]
      exact gives_sequence place hplace hopening (hgives hclose _)

theorem givesNode_map (hentries : GivesEntries entries) : GivesNode (.map entries) := by
  intro indentless place bound tokens rest next htokens hplace hindentless hbound
  by_cases hne : entries = []
  · subst hne
    obtain ⟨more, rfl⟩ : ∃ more, bound = more + 3 := ⟨bound - 3, by omega⟩
    simp only [nodeKinds, List.map_eq_cons_iff, List.map_eq_nil_iff] at htokens
    rcases htokens with ⟨opening, _, rfl, hopening, closing, _, rfl, hclosing, rfl⟩
    exact ⟨_, Meaning.means_mapping .nil opening.start,
      (gives_brackets place more (next :: rest)).2 hopening hclosing⟩
  obtain ⟨more, rfl⟩ : ∃ more, bound = more + 2 := ⟨bound - 2, by omega⟩
  rw [nodeKinds_map hne] at htokens
  simp only [List.map_eq_cons_iff, List.map_eq_append_iff, List.map_eq_nil_iff] at htokens
  rcases htokens with ⟨opening, _, rfl, hopening, tokens, _, rfl, htokens, close, _, rfl, hclose, rfl⟩
  simp only [List.length_cons, List.length_append, List.length_nil] at hbound
  rcases hentries htokens hclose (by omega : 4 * tokens.length + 1 ≤ more) with
    ⟨pairs, hpairs, hgives⟩
  refine ⟨_, Meaning.means_mapping hpairs opening.start, ?_⟩
  rw [List.cons_append, List.append_assoc]
  exact gives_mapping place hplace hopening (hgives _)

mutual

/-- Whatever the value, its tokens become a node that stands for it. -/
theorem givesNode : ∀ v, EachPart (fun _ => True) IsReadable v → GivesNode v
  | .null, h => givesNode_of_isScalar rfl h
  | .bool _, h => givesNode_of_isScalar rfl h
  | .int _, h => givesNode_of_isScalar rfl h
  | .float _, h => givesNode_of_isScalar rfl h
  | .str _, h => givesNode_of_isScalar rfl h
  | .list items, h => givesNode_list (givesItems items h)
  | .map entries, h => givesNode_map (givesEntries entries h)

theorem givesItems : ∀ items, EachItemPart (fun _ => True) IsReadable items → GivesItems items
  | [], _ => givesItems_nil
  | v :: rest, h => givesItems_cons (givesNode v h.1) (givesItems rest h.2)

theorem givesEntries :
    ∀ entries, EachEntryPart (fun _ => True) IsReadable entries → GivesEntries entries
  | [], _ => givesEntries_nil
  | (_, v) :: rest, h => givesEntries_cons (givesNode v h.2.1) (givesEntries rest h.2.2)

end

/-- The tokens of a document of entries become the mapping that stands for them. -/
theorem onlyDocument_eq (hreadable : EachEntryPart (fun _ => True) IsReadable entries)
    (htokens : tokens.map Token.kind =
      .streamStart :: .blockMappingStart :: (entryKinds entries ++ [.blockEnd, .streamEnd])) :
    ∃ node, node.Means (datumOf (.map entries)) ∧
      onlyDocument.run' ⟨tokens, none, [], []⟩ = .ok (some node) := by
  simp only [List.map_eq_cons_iff, List.map_eq_append_iff, List.map_eq_nil_iff] at htokens
  rcases htokens with ⟨first, _, rfl, hfirst, opening, _, rfl, hopening, tokens, _, rfl, htokens,
    close, _, rfl, hclose, last, _, rfl, hlast, rfl⟩
  have hbound : 4 * tokens.length + 1 ≤ 4 * (opening :: (tokens ++ [close, last])).length + 6 := by
    simp only [List.length_cons, List.length_append]
    omega
  rcases @givesEntries entries hreadable _ tokens [last] close htokens hclose hbound with
    ⟨pairs, hpairs, hgives⟩
  refine ⟨_, Meaning.means_mapping hpairs opening.start, ?_⟩
  have hnode := gives_mapping ⟨true, false⟩ rfl hopening (hgives _) standardHandles
  rcases last with ⟨_, lastStart, lastStop⟩
  cases hlast
  have hend : StateT.run documentStart
      ⟨[⟨.streamEnd, lastStart, lastStop⟩], none, standardHandles, []⟩ =
      .ok (none, ⟨[⟨.streamEnd, lastStart, lastStop⟩], none, standardHandles, []⟩) := rfl
  have hok : ∀ {α β : Type} (a : α) (f : α → Except Fault β), (Except.ok a >>= f) = f a :=
    fun _ _ => rfl
  have hnext := gives_next first (opening :: (tokens ++ [close, ⟨.streamEnd, lastStart, lastStop⟩])) []
  have hsees := fun test handles =>
    gives_sees test opening (tokens ++ [close, ⟨.streamEnd, lastStart, lastStop⟩]) handles
  have hseesLast := fun test => gives_sees test ⟨.streamEnd, lastStart, lastStop⟩ [] standardHandles
  simp only [onlyDocument, StateT.run'_eq, StateT.run_bind, StateT.run_get, hnext, hok, pure_bind,
    hsees, hopening, isDirective]
  rw [if_neg (by decide)]
  simp only [StateT.run_bind, StateT.run_modify, hok, pure_bind, hnode, hseesLast]
  rw [if_neg (by decide), StateT.run_bind, hend]
  rfl

end Collections

end Builder

/-!
## Maps with texts as keys
-/

/-- An entry whose key is a text as data. -/
def Datum.keyed {α : Type} (f : α → Datum) (entry : String × α) : Datum × Datum :=
  (.ofText entry.1, f entry.2)

/-- An entry as it is read back. -/
def rereadEntry (entry : String × String) : String × String :=
  (rereadText entry.1, rereadText entry.2)

theorem entryData_texts (entries : List (String × String)) :
    entryData (entries.map fun (k, v) => (k, .str v)) =
      (entries.map rereadEntry).map (Datum.keyed Datum.ofText) := by
  induction entries with
  | nil => rfl
  | cons entry rest ih =>
      rw [List.map_cons, List.map_cons, List.map_cons, entryData, ih, datumOf]
      rfl

namespace Datum

variable {α : Type} (f : α → Datum)

theorem setKey_keyed (entries : List (String × α)) (k : String) (v : α) :
    setKey (entries.map (keyed f)) (ofText k) (f v) = (Entries.set entries k v).map (keyed f) := by
  induction entries with
  | nil => rfl
  | cons entry rest ih =>
      have hsame : (keyed f entry).1.sameKey (ofText k) = (entry.1 == k) := rfl
      rw [List.map_cons, setKey, hsame, Entries.set]
      split
      · rename_i heq
        rw [List.map_cons, ← beq_iff_eq.mp heq]
        rfl
      · rw [ih]
        rfl

theorem ofEntries_keyed (entries : List (String × α)) :
    ofEntries (entries.map (keyed f)) = (Entries.setAll [] entries).map (keyed f) := by
  have hfold : ∀ earlier : List (String × α),
      (entries.map (keyed f)).foldl (fun acc entry => setKey acc entry.1 entry.2)
        (earlier.map (keyed f)) = (Entries.setAll earlier entries).map (keyed f) := by
    induction entries with
    | nil => exact fun earlier => rfl
    | cons entry rest ih =>
        intro earlier
        have hset : setKey (earlier.map (keyed f)) (keyed f entry).1 (keyed f entry).2 =
            (Entries.set earlier entry.1 entry.2).map (keyed f) := setKey_keyed f earlier _ _
        rw [List.map_cons, List.foldl_cons, hset, ih, Entries.setAll_cons]
  exact hfold []

theorem isWritable_texts (anchor : Option String) (entries : List (String × String)) :
    (map anchor (entries.map (keyed ofText))).isWritable = true := by
  change entriesAreWritable (entries.map (keyed ofText)) = true
  induction entries with
  | nil => rfl
  | cons entry rest ih =>
      rw [List.map_cons, entriesAreWritable, ih]
      rfl

end Datum

theorem textsOf_texts (entries : List (String × String)) :
    textsOf (some (.map none (Datum.ofEntries (entries.map (Datum.keyed Datum.ofText))))) =
      .ok (some (Entries.setAll [] entries)) := by
  have hnodup : (Entries.keys (Entries.setAll [] entries)).Nodup := Entries.nodup_keys_setAll List.nodup_nil
  rw [textsOf, Datum.ofEntries_keyed]
  simp only [Datum.isWritable_texts, if_true, List.map_map]
  refine congrArg (Except.ok ∘ some) (Eq.trans ?_ (Entries.setAll_nil_of_nodup hnodup))
  exact congrArg (Entries.setAll []) (List.map_id (Entries.setAll [] entries))

end Yaml
end Roster
