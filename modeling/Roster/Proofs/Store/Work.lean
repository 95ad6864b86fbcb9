import Mathlib.Data.List.Nodup
import Roster.Proofs.Store.Documents
import Roster.Proofs.Store.Sheet
import Roster.Proofs.Storage.Query
import Roster.Store.Work

/-!
# Work that fails leaves nothing behind

A store that changes its storage step by step comes to the same as one that changes it as a whole:
when a step fails, the tree is what it was before the first one.
-/

namespace Roster

/-!
## Trees
-/

/-- What every tree is: a key leads to one entry, and an entry is inside a directory.  A database
has one table of a name. -/
structure Tree.IsOrderly (t : Tree) : Prop where
  keys : (t.entries.map Prod.fst).Nodup
  rooted : ∀ key name, name ≠ "/" → t.find? (key ++ [name]) ≠ none → t.find? key = some .directory
  tables : ∀ key serial db, t.find? key = some (.database serial db) →
    (db.tableNames.map Text.foldAscii).Nodup

namespace Tree

variable {t : Tree}

theorem mem_entries_of_find? {key : Key} {entry : Entry} (hkey : IsEntryKey key)
    (h : t.find? key = some entry) : (key, entry) ∈ t.entries := by
  rw [find?_eq_lookup hkey] at h
  rcases List.lookup_eq_some_iff.mp h with ⟨front, behind, hentries, -⟩
  rw [hentries]
  exact List.mem_append_right _ List.mem_cons_self

theorem isOrderly_of_entries (hkeys : (t.entries.map Prod.fst).Nodup)
    (hrooted : ∀ e ∈ t.entries, t.find? e.1.dropLast = some .directory)
    (htables : ∀ e ∈ t.entries, ∀ serial db, e.2 = .database serial db →
      (db.tableNames.map Text.foldAscii).Nodup) : t.IsOrderly := by
  refine ⟨hkeys, fun key name hname hfind => ?_, fun key serial db hfind => ?_⟩
  · rcases Option.ne_none_iff_exists'.mp hfind with ⟨entry, hentry⟩
    have hparent := hrooted _ (mem_entries_of_find? (isEntryKey_append hname) hentry)
    rwa [List.dropLast_concat] at hparent
  · have hkey := isEntryKey_of_find? hfind fun heq => nomatch heq
    exact htables _ (mem_entries_of_find? hkey hfind) serial db rfl

theorem erase_put {key : Key} (hnone : t.find? key = none) (octets : ByteArray) :
    (t.put key (.file octets)).erase key = t := by
  have hkey := isEntryKey_of_find?_eq_none hnone
  have hany : ¬t.entries.any (·.1 == key) = true := by
    rw [any_key_iff, not_not, ← find?_eq_lookup hkey]
    exact hnone
  have hkept : t.entries.filter (fun e => e.1 != key) = t.entries := by
    rw [List.filter_eq_self]
    intro e he
    rw [bne_iff_ne]
    exact fun heq => hany (List.any_eq_true.mpr ⟨e, he, beq_iff_eq.mpr heq⟩)
  rw [erase, find?_put_self hkey]
  simp only [put, if_neg hany, List.filter_append, hkept]
  simp

/-- A draft that was moved to the place of a file has become the file. -/
theorem erase_put_put {draft key : Key} (hnone : t.find? draft = none) (hne : draft ≠ key)
    {entry : Entry} (hthere : t.find? key = some entry) (hkey : IsEntryKey key)
    (octets : ByteArray) :
    ((t.put draft (.file octets)).put key (.file octets)).erase draft =
      t.put key (.file octets) := by
  have hdraft := isEntryKey_of_find?_eq_none hnone
  have hany : t.entries.any (·.1 == key) = true := by
    rw [any_key_iff, ← find?_eq_lookup hkey, hthere]
    exact fun heq => nomatch heq
  have hfree : ¬t.entries.any (·.1 == draft) = true := by
    rw [any_key_iff, not_not, ← find?_eq_lookup hdraft]
    exact hnone
  have hkept : ((t.put key (.file octets)).put draft (.file octets)).erase draft =
      t.put key (.file octets) := by
    refine erase_put ?_ octets
    rw [find?_put_of_ne hkey _ hne, hnone]
  have hswap : (t.put draft (.file octets)).put key (.file octets) =
      (t.put key (.file octets)).put draft (.file octets) := by
    have hfirst : (t.entries ++ [(draft, Entry.file octets)]).any (·.1 == key) = true := by
      rw [List.any_append, hany, Bool.true_or]
    have hsecond : ¬(t.entries.map fun e => if e.1 == key then (key, Entry.file octets) else e).any
        (·.1 == draft) = true := by
      rw [List.any_map, List.any_eq_true]
      rintro ⟨e, he, hsame⟩
      rw [Function.comp_apply, beq_iff_eq] at hsame
      split at hsame
      · exact hne hsame.symm
      · exact hfree (List.any_eq_true.mpr ⟨e, he, beq_iff_eq.mpr hsame⟩)
    simp only [put, if_pos hany, if_neg hfree, if_pos hfirst, if_neg hsecond, List.map_append,
      List.map_singleton]
    simp [hne]
  rw [hswap, hkept]

theorem IsOrderly.put_self (h : t.IsOrderly) {key : Key} {entry : Entry}
    (hfind : t.find? key = some entry) (hne : entry ≠ .directory) : t.put key entry = t := by
  have hkey := isEntryKey_of_find? hfind hne
  have hlookup := hfind
  rw [find?_eq_lookup hkey] at hlookup
  have hany : t.entries.any (·.1 == key) = true := by
    rw [any_key_iff, hlookup]
    exact fun heq => nomatch heq
  have hmem := mem_entries_of_find? hkey hfind
  have hsame : (t.entries.map fun e => if e.1 == key then (key, entry) else e) = t.entries := by
    refine (List.map_congr_left fun e he => ?_).trans (List.map_id t.entries)
    split
    · rename_i heq
      exact (List.inj_on_of_nodup_map h.keys he hmem (eq_of_beq heq)).symm
    · rfl
  rw [put, if_pos hany, hsame]

theorem replace_of_find? {source target : Path} {octets : ByteArray} {entry : Entry}
    (hsource : t.find? source.key = some (.file octets))
    (htarget : t.find? target.key = some entry) (hne : entry ≠ .directory) :
    t.replace source target = .ok ((t.put target.key (.file octets)).erase source.key) := by
  rw [replace, hsource, htarget]
  cases entry with
  | directory => exact absurd rfl hne
  | file before => rfl
  | database serial db => rfl

theorem exists_of_isFile {p : Path} (h : t.isFile p = true) :
    ∃ entry, t.find? p.key = some entry ∧ entry ≠ .directory := by
  unfold isFile at h
  split at h
  · cases h
  · cases h
  · rename_i hdirectory hnone
    cases hfind : t.find? p.key with
    | none => exact absurd hfind hnone
    | some entry => exact ⟨entry, rfl, fun heq => hdirectory (heq ▸ hfind)⟩

theorem IsOrderly.isDirectory_of_child (h : t.IsOrderly) {p : Path} {name : String}
    (hdots : name ≠ "..") (hslash : name ≠ "/") (hfile : t.isFile (p.child name) = true) :
    t.isDirectory p = true := by
  rw [isDirectory_iff]
  refine h.rooted p.key name hslash ?_
  rw [← Path.key_child hdots]
  intro hnone
  rw [isFile_of_none hnone] at hfile
  cases hfile

end Tree

/-!
## Steps
-/

namespace Work

variable {t : Tree} {α : Type}

theorem run_step (change : Tree → Except Failure Tree) (t : Tree) :
    (step change).run t =
      match change t with
      | .ok t' => (.ok (), t')
      | .error failure => (.error failure, t) := by
  rw [step, Steps.run_bind, Steps.run_get]
  dsimp only
  rw [Steps.run_bind, Steps.run_liftM]
  cases change t with
  | ok t' => rfl
  | error failure => rfl

/-- The work comes to the same as a change that is made as a whole: when it fails, the tree is what
it was. -/
def IsChange (work : Work Unit) (t : Tree) (change : Except Failure Tree) : Prop :=
  work.run t = match change with
    | .ok t' => (.ok (), t')
    | .error failure => (.error failure, t)

theorem isChange_step (change : Tree → Except Failure Tree) : IsChange (step change) t (change t) :=
  run_step change t

/-!
## Drafts
-/

/-- The octets of pieces one behind the other, or why one of the pieces has none. -/
def gather (before : ByteArray) : List (Except Fault ByteArray) → Except Fault ByteArray
  | [] => .ok before
  | piece :: rest => do
      let octets ← piece
      gather (before ++ octets) rest

/-- However far it comes, filling a draft changes nothing but the draft. -/
theorem run_fill {draft : Path} (hnone : t.find? draft.key = none) (refusal : FileFault → Failure)
    (pieces : List (Except Fault ByteArray)) (before : ByteArray) :
    ∃ written, (fill draft refusal pieces).run (t.put draft.key (.file before)) =
        (((gather before pieces).mapError Failure.broken).map fun _ => (),
          t.put draft.key (.file written)) ∧
      ∀ octets, gather before pieces = .ok octets → written = octets := by
  induction pieces generalizing before with
  | nil =>
      refine ⟨before, rfl, fun octets hgather => ?_⟩
      exact Except.ok.inj hgather
  | cons piece rest ih =>
      cases piece with
      | error fault =>
          refine ⟨before, ?_, fun octets hgather => nomatch hgather⟩
          rw [fill, Steps.run_bind, Steps.run_liftM]
          rfl
      | ok octets =>
          rcases ih (before ++ octets) with ⟨written, hrun, hwritten⟩
          refine ⟨written, ?_, hwritten⟩
          have hdraft := Tree.isEntryKey_of_find?_eq_none hnone
          have happend := Tree.append_of_find? (Tree.find?_put_self (t := t) hdraft (.file before))
            octets
          rw [fill, Steps.run_bind, Steps.run_liftM]
          dsimp only [Except.mapError]
          rw [Steps.run_bind, run_step, happend]
          dsimp only [Except.mapError]
          rw [Tree.put_put, hrun]
          rfl

theorem run_discard {draft : Path} {octets : ByteArray} (hnone : t.find? draft.key = none) :
    (discard draft).run (t.put draft.key (.file octets)) = (.ok (), t) := by
  have hdraft := Tree.isEntryKey_of_find?_eq_none hnone
  have hfile := Tree.isFile_of_find? (Tree.find?_put_self (t := t) hdraft (.file octets))
    fun heq => nomatch heq
  rw [discard, Steps.run_modify, if_pos hfile, Tree.erase_put hnone]

theorem choose_ne {front behind : String} (names : DraftNames front behind)
    (h : 2 < front.toList.length + behind.toList.length) (taken : List String) :
    names.choose taken ≠ ".." ∧ names.choose taken ≠ "/" := by
  rcases names.isDraft taken with ⟨middle, hname⟩
  have hlength := congrArg (fun name => name.toList.length) hname
  simp only [String.toList_append, List.length_append] at hlength
  constructor
  · intro heq
    rw [heq] at hlength
    have hdots : "..".toList.length = 2 := rfl
    omega
  · intro heq
    rw [heq] at hlength
    have hslash : "/".toList.length = 1 := rfl
    omega

/-- A file is written anew as a whole or not at all. -/
theorem isChange_rewrite {front behind : String} (names : DraftNames front behind)
    (hmarks : 2 < front.toList.length + behind.toList.length) {directory path : Path}
    (hdirectory : t.isDirectory directory = true) {entry : Entry}
    (hfind : t.find? path.key = some entry) (hne : entry ≠ .directory)
    (pieces : List (Except Fault ByteArray)) (refusal : FileFault → Failure) :
    IsChange (rewrite names directory path pieces refusal) t
      (((gather ByteArray.empty pieces).mapError Failure.broken).map fun octets =>
        t.put path.key (.file octets)) := by
  rcases choose_ne names hmarks (t.names directory) with ⟨hdots, hslash⟩
  have hfree := names.isFree (t.names directory)
  rw [Tree.mem_names_iff hslash, not_not, ← Path.key_child hdots] at hfree
  have hcreate := Tree.create_child hdots hdirectory hfree ByteArray.empty
  have hkey := Tree.isEntryKey_of_find? hfind hne
  have hapart : (directory.child (names.choose (t.names directory))).key ≠ path.key := by
    intro heq
    rw [heq, hfind] at hfree
    cases hfree
  -- However far the draft is filled, everything else is as it was; it is moved to its place only
  -- when it is complete, and taken away otherwise.
  rcases run_fill hfree refusal pieces ByteArray.empty with ⟨written, hfill, hwritten⟩
  unfold IsChange
  rw [rewrite, Steps.run_bind, Steps.run_get]
  dsimp only
  rw [Steps.run_bind, run_step, hcreate]
  dsimp only [Except.mapError]
  rw [Steps.run_tryCatch, Steps.run_bind, hfill]
  cases hgather : gather ByteArray.empty pieces with
  | error fault =>
      dsimp only [Except.mapError, Except.map]
      rw [Steps.run_bind, run_discard hfree]
      rfl
  | ok octets =>
      obtain rfl := hwritten octets hgather
      have hdraft := Tree.isEntryKey_of_find?_eq_none hfree
      have hreplace := Tree.replace_of_find?
        (Tree.find?_put_self (t := t) hdraft (.file written))
        ((Tree.find?_put_of_ne hdraft _ hapart.symm).trans hfind) hne
      dsimp only [Except.mapError, Except.map]
      rw [run_step, hreplace, Tree.erase_put_put hfree hapart hfind hkey]

/-!
## Work that settles
-/

def EncodesAll (tools : Equipment) : Prop :=
  ∀ s, tools.encode s = .ok s.toUTF8

/-- The work comes to the same as some change that is made as a whole, and to the same as the given
one if every text has an encoding. -/
def Settles (tools : Equipment) (work : Work Unit) (t : Tree) (change : Except Failure Tree) :
    Prop :=
  ∃ result, IsChange work t result ∧ (EncodesAll tools → result = change)

variable {tools : Equipment}

theorem IsChange.settles {work : Work Unit} {change : Except Failure Tree}
    (h : IsChange work t change) : Settles tools work t change :=
  ⟨change, h, fun _ => rfl⟩

theorem settles_step (change : Tree → Except Failure Tree) :
    Settles tools (step change) t (change t) :=
  (isChange_step change).settles

theorem settles_throw (failure : Failure) : Settles tools (throw failure) t (.error failure) :=
  IsChange.settles (t := t) rfl

theorem Settles.bind_get {work : Tree → Work Unit} {change : Except Failure Tree}
    (h : Settles tools (work t) t change) : Settles tools (get >>= work) t change := by
  rcases h with ⟨result, hresult, hsame⟩
  refine ⟨result, ?_, hsame⟩
  unfold IsChange
  rw [Steps.run_bind, Steps.run_get]
  exact hresult

theorem Settles.bind_lift {x : Except Failure α} {work : α → Work Unit}
    {change : α → Except Failure Tree}
    (h : ∀ a, x = .ok a → Settles tools (work a) t (change a)) :
    Settles tools (liftM x >>= work) t (x >>= change) := by
  cases x with
  | error failure =>
      refine IsChange.settles ?_
      unfold IsChange
      rw [Steps.run_bind, Steps.run_liftM]
      rfl
  | ok a =>
      rcases h a rfl with ⟨result, hresult, hsame⟩
      refine ⟨result, ?_, hsame⟩
      unfold IsChange
      rw [Steps.run_bind, Steps.run_liftM]
      exact hresult

/-- What is encoded fails the work unless every text has an encoding. -/
theorem Settles.bind_encoded {x : Except Failure α} {b : α} (hx : EncodesAll tools → x = .ok b)
    {work : α → Work Unit} {change : α → Except Failure Tree}
    (h : ∀ a, Settles tools (work a) t (change a)) :
    Settles tools (liftM x >>= work) t (change b) := by
  rcases Settles.bind_lift (x := x) fun a _ => h a with ⟨result, hresult, hsame⟩
  refine ⟨result, hresult, fun hall => ?_⟩
  rw [hsame hall, hx hall]
  rfl

theorem Settles.bind_step {idle : Tree → Except Failure Tree} (hidle : idle t = .ok t)
    {work : Work Unit} {change : Except Failure Tree} (h : Settles tools work t change) :
    Settles tools (step idle >>= fun _ => work) t change := by
  rcases h with ⟨result, hresult, hsame⟩
  refine ⟨result, ?_, hsame⟩
  unfold IsChange
  rw [Steps.run_bind, run_step, hidle]
  exact hresult

theorem Settles.ite {c : Prop} [Decidable c] {first second : Work Unit}
    {change other : Except Failure Tree} (hfirst : c → Settles tools first t change)
    (hsecond : ¬c → Settles tools second t other) :
    Settles tools (if c then first else second) t (if c then change else other) := by
  split
  · rename_i hc
    exact hfirst hc
  · rename_i hc
    exact hsecond hc

end Work

/-!
## One file
-/

namespace Sheet

open Work

variable {t : Tree} {tools : Equipment} {s : Sheet}

theorem exists_of_readOr {refusal : Cause → Refusal} {content : SheetContent}
    (h : s.readOr t refusal = .ok content) :
    ∃ entry, t.find? s.path.key = some entry ∧ entry ≠ .directory := by
  rcases Steps.bind_eq_ok.mp (Steps.mapError_eq_ok.mp h) with ⟨octets, hread, -⟩
  have hread := Steps.mapError_eq_ok.mp hread
  unfold Tree.read at hread
  split at hread
  · rename_i hfind
    exact ⟨_, hfind, fun heq => nomatch heq⟩
  · rename_i hfind
    exact ⟨_, hfind, fun heq => nomatch heq⟩
  · cases hread
  · cases hread

theorem piece_eq (h : EncodesAll tools) (s : Sheet) (cells : List String) :
    s.piece tools cells =
      .ok (String.ofList (Delimited.writeRow s.format.delimiter cells)).toUTF8 :=
  h _

theorem gather_pieces (h : EncodesAll tools) (s : Sheet) (before : ByteArray)
    (rows : List (List String)) :
    gather before (rows.map (s.piece tools)) =
      .ok (before ++ (String.ofList (Delimited.writeRows s.format.delimiter rows)).toUTF8) := by
  induction rows generalizing before with
  | nil =>
      have hnone : (String.ofList (Delimited.writeRows s.format.delimiter [])).toUTF8 =
          ByteArray.empty := rfl
      rw [List.map_nil, gather, hnone, ByteArray.append_empty]
  | cons cells rest ih =>
      have hrows : Delimited.writeRows s.format.delimiter (cells :: rest) =
          Delimited.writeRow s.format.delimiter cells ++
            Delimited.writeRows s.format.delimiter rest := List.flatMap_cons
      rw [List.map_cons, gather, piece_eq h]
      dsimp only [bind, Except.bind]
      rw [ih, ByteArray.append_assoc, hrows, String.ofList_append]
      rfl

theorem settles_rewriting (ht : t.IsOrderly) {refusal refusal' : Cause → Refusal}
    {found : SheetContent} (hread : s.readOr t refusal = .ok found) (content : SheetContent) :
    Settles tools (s.rewriting tools content refusal') t (s.writeOr t content refusal') := by
  rcases exists_of_readOr hread with ⟨entry, hfind, hne⟩
  have hfile := Tree.isFile_of_find? hfind hne
  have hdirectory := ht.isDirectory_of_child (fileName_ne s.format).1 (fileName_ne s.format).2 hfile
  have hmake := Tree.makeAll_of_isDirectory hdirectory
  rw [rewriting]
  refine Settles.bind_step (by rw [hmake]; rfl) ?_
  refine ⟨_, isChange_rewrite tools.sheetDrafts (by decide) hdirectory hfind hne _ _, fun hall => ?_⟩
  have hnot : t.isDirectory s.path = false := by
    rw [Bool.eq_false_iff, Ne, Tree.isDirectory_iff, hfind]
    exact fun heq => hne (Option.some.inj heq)
  rw [gather_pieces hall, ByteArray.empty_append, writeOr, write, hmake]
  simp only [bind, Except.bind, hnot, Bool.false_eq_true, if_false,
    Tree.write_of_find? hfind hne]
  rfl

theorem settles_inserting (now : Moment) (id : String) (record : Record) :
    Settles tools (s.inserting tools now id record) t (s.insert t now id record) := by
  rw [inserting, insert]
  refine .bind_lift fun _ _ => .bind_get (.bind_lift fun content _ => ?_)
  refine Settles.ite (fun _ => settles_throw _) fun _ => ?_
  have hpiece : EncodesAll tools → (s.piece tools (SheetContent.cellsOf content.header
      (record.stampNew content.header now id))).mapError Failure.broken =
        .ok (String.ofList (Delimited.writeRow s.format.delimiter (SheetContent.cellsOf
          content.header (record.stampNew content.header now id)))).toUTF8 := by
    intro hall
    rw [piece_eq hall]
    rfl
  exact Settles.bind_encoded hpiece fun octets => settles_step _

theorem settles_updating (ht : t.IsOrderly) (now : Moment) (id : String) (changes : Record) :
    Settles tools (s.updating tools now id changes) t (s.update t now id changes) := by
  rw [updating, update]
  refine .bind_get (.bind_lift fun content hcontent => ?_)
  dsimp only
  cases changeFirst id (changes.stampChanges content.header now) content.rows with
  | none => exact settles_throw _
  | some rows => exact Settles.ite (fun _ => settles_throw _) fun _ => settles_rewriting ht hcontent _

theorem settles_removing (ht : t.IsOrderly) (id : String) :
    Settles tools (s.removing tools id) t (s.remove t id) := by
  rw [removing, remove]
  refine .bind_get (.bind_lift fun content hcontent => ?_)
  exact Settles.ite (fun _ => settles_throw _) fun _ => settles_rewriting ht hcontent _

end Sheet

/-!
## Documents
-/

namespace Documents

open Work

variable {t : Tree} {tools : Equipment} {s : Documents}

/-- A file that is made empty and then filled is made with its content. -/
theorem isChange_create {path : Path} (octets : ByteArray) (refusal : FileFault → Failure)
    (other : FileFault → Failure) :
    IsChange (do
        step fun t => (t.create path ByteArray.empty).mapError refusal
        step fun t => (t.append path octets).mapError other) t
      ((t.create path octets).mapError refusal) := by
  unfold IsChange
  rw [Steps.run_bind, run_step]
  unfold Tree.create
  cases hfind : t.find? path.key with
  | some entry => rfl
  | none =>
      have hkey := Tree.isEntryKey_of_find?_eq_none hfind
      have happend := Tree.append_of_find?
        (Tree.find?_put_self (t := t) hkey (.file ByteArray.empty)) octets
      dsimp only
      cases t.wayFault path.key with
      | some reason => rfl
      | none =>
          dsimp only [Except.mapError]
          rw [run_step, happend, Tree.put_put, ByteArray.empty_append]

theorem settles_inserting (now : Moment) (id : String) (record : Record) :
    Settles tools (s.inserting now id record) t (s.insert t now id record) := by
  rw [inserting, insert]
  refine .bind_lift fun _ _ => ?_
  cases s.path? id with
  | none => exact settles_throw _
  | some path => exact (isChange_create _ _ _).settles

theorem exists_of_loadOr {id : String} {refusal : Cause → Refusal} {path : Path} {record : Record}
    (ht : t.IsOrderly) (h : s.loadOr t id refusal = .ok (path, record)) :
    t.isDirectory s.directory = true ∧
      ∃ entry, t.find? path.key = some entry ∧ entry ≠ .directory := by
  unfold loadOr at h
  split at h
  · cases h
  · rename_i named hnamed
    unfold path? at hnamed
    split at hnamed
    · cases hnamed
      split at h
      · rename_i hfile
        refine ⟨ht.isDirectory_of_child (nameOf_ne id).1 (nameOf_ne id).2 hfile, ?_⟩
        split at h
        · cases h
          exact Tree.exists_of_isFile hfile
        · cases h
        · cases h
      · cases h
    · cases hnamed

theorem settles_updating (ht : t.IsOrderly) (now : Moment) (id : String) (changes : Record) :
    Settles tools (s.updating tools now id changes) t (s.update t now id changes) := by
  rw [updating, update]
  refine .bind_get (.bind_lift fun found hfound => ?_)
  rcases found with ⟨path, record⟩
  rcases exists_of_loadOr ht hfound with ⟨hdirectory, entry, hfind, hne⟩
  dsimp only
  refine IsChange.settles ?_
  have hchange := isChange_rewrite tools.documentDrafts (by decide) hdirectory hfind hne
    [.ok (documentText (Entries.setAll record (changes.stampChanges s.fields now))).toUTF8]
    fun fault => .refused (.cannotUpdate id (.file fault))
  rw [Tree.write_of_find? hfind hne]
  simpa only [gather, bind, Except.bind, Except.mapError, Except.map, ByteArray.empty_append] using
    hchange

theorem settles_removing (id : String) :
    Settles tools (s.removing id) t (s.remove t id) := by
  rw [removing, remove]
  cases s.path? id with
  | none => exact settles_throw _
  | some path =>
      exact .bind_get (Settles.ite (fun _ => settles_step _) fun _ => settles_throw _)

end Documents

/-!
## A table
-/

namespace Database

theorem update_eq_self {db : Database} {name : String} {table : Table} {f : Table → Table}
    (hnodup : (db.tableNames.map Text.foldAscii).Nodup) (htable : db.table? name = some table)
    (hf : f table = table) : db.update name f = db := by
  rw [table?, Option.map_eq_some_iff] at htable
  rcases htable with ⟨found, hfound, rfl⟩
  have hmem := List.mem_of_find?_eq_some hfound
  have hsame : sameName found.1 name = true := by simpa using List.find?_some hfound
  have hname := sameName_iff.mp hsame
  rw [tableNames, List.map_map] at hnodup
  have htables : (db.tables.map fun t => if sameName t.1 name then (t.1, f t.2) else t) =
      db.tables := by
    refine (List.map_congr_left fun other hother => ?_).trans (List.map_id db.tables)
    split
    · rename_i hother'
      have heq := List.inj_on_of_nodup_map hnodup hother hmem
        ((sameName_iff.mp hother').trans hname.symm)
      rw [heq, hf]
      rfl
    · rfl
  rw [update, htables]

theorem table?_of_table {db : Database} {name : String} {t : Table} (h : db.table name = .ok t) :
    db.table? name = some t := by
  rw [table] at h
  cases htable : db.table? name with
  | none =>
      rw [htable] at h
      cases h
  | some found =>
      rw [htable] at h
      rw [Except.ok.inj h]

theorem updateById_zero {db db' : Database} {name id : String} {cells : List (String × String)}
    (hnodup : (db.tableNames.map Text.foldAscii).Nodup)
    (h : db.updateById name id cells = .ok (0, db')) : db' = db := by
  rcases Steps.bind_eq_ok.mp h with ⟨_, -, h⟩
  rcases Steps.bind_eq_ok.mp h with ⟨t, htable, h⟩
  split at h
  · cases h
  · rcases Steps.bind_eq_ok.mp h with ⟨_, -, h⟩
    rcases Prod.mk.inj (Except.ok.inj h) with ⟨hcount, rfl⟩
    refine update_eq_self hnodup (table?_of_table htable) ?_
    rw [List.countP_eq_zero] at hcount
    have hrows : (t.rows.map fun row => if hasId t id row then changeRow t cells row else row) =
        t.rows :=
      (List.map_congr_left fun row hrow => if_neg (hcount row hrow)).trans (List.map_id t.rows)
    rw [hrows]

theorem deleteById_zero {db db' : Database} {name id : String}
    (hnodup : (db.tableNames.map Text.foldAscii).Nodup)
    (h : db.deleteById name id = .ok (0, db')) : db' = db := by
  rcases Steps.bind_eq_ok.mp h with ⟨t, htable, h⟩
  rcases Steps.bind_eq_ok.mp h with ⟨_, -, h⟩
  rcases Prod.mk.inj (Except.ok.inj h) with ⟨hcount, rfl⟩
  refine update_eq_self hnodup (table?_of_table htable) ?_
  rw [List.countP_eq_zero] at hcount
  have hrows : (t.rows.filter fun row => !hasId t id row) = t.rows := by
    rw [List.filter_eq_self]
    intro row hrow
    rw [Bool.not_eq_true', Bool.eq_false_iff]
    exact hcount row hrow
  rw [hrows]

end Database

namespace TableStore

open Work

variable {t : Tree} {tools : Equipment} {s : TableStore}

theorem run_commit {α : Type} (ask : Database → Except QueryFault (α × Database))
    (refusal : QueryFault → Refusal) (t : Tree) :
    (s.commit ask refusal).run t =
      match s.change t ask refusal with
      | .ok (a, t') => (.ok a, t')
      | .error failure => (.error failure, t) := by
  rw [commit, Steps.run_bind, Steps.run_get]
  dsimp only
  rw [Steps.run_bind, Steps.run_liftM]
  cases s.change t ask refusal with
  | error failure => rfl
  | ok result => rfl

theorem change_eq_self {α : Type} (ht : t.IsOrderly) {t' : Tree} {a : α}
    {ask : Database → Except QueryFault (α × Database)} {refusal : QueryFault → Refusal}
    (hempty : ∀ result, ask {} ≠ .ok result)
    (hsame : ∀ db db' : Database, (db.tableNames.map Text.foldAscii).Nodup →
      ask db = .ok (a, db') → db' = db)
    (h : s.change t ask refusal = .ok (a, t')) : t' = t := by
  unfold change at h
  split at h
  · cases h
  · have h := Steps.mapError_eq_ok.mp h
    unfold access at h
    split at h
    · rename_i serial db haccess
      rcases Steps.bind_eq_ok.mp h with ⟨⟨b, db'⟩, hask, h⟩
      cases h
      split at haccess
      · cases haccess
      · split at haccess
        · rename_i hfind
          cases haccess
          rw [hsame db db' (ht.tables _ _ _ hfind) hask]
          exact ht.put_self hfind fun heq => nomatch heq
        · split at haccess
          · cases haccess
            exact absurd hask (hempty _)
          · cases haccess
        · cases haccess
    · split at h
      · cases h
      · cases h
    · cases h

theorem settles_inserting (now : Moment) (id : String) (record : Record) :
    Settles tools (s.inserting now id record) t (s.insert t now id record) := by
  rw [inserting, insert]
  refine .bind_lift fun _ _ => IsChange.settles ?_
  unfold IsChange
  rw [run_commit]
  dsimp only
  cases s.change t (fun db => (db.insert s.table (record.stampNew s.columns now id)).map
      fun db => ((), db)) (insertRefusal id) with
  | error failure => rfl
  | ok result => rfl

/-- How many rows a statement changed can be looked at when the change is kept already. -/
theorem isChange_commit (ht : t.IsOrderly) {ask : Database → Except QueryFault (Nat × Database)}
    {refusal : QueryFault → Refusal} (failure : Failure) (hempty : ∀ result, ask {} ≠ .ok result)
    (hsame : ∀ db db' : Database, (db.tableNames.map Text.foldAscii).Nodup →
      ask db = .ok (0, db') → db' = db) :
    IsChange (do
        let count ← s.commit ask refusal
        if count == 0 then throw failure else return) t
      (do
        let (count, tree) ← s.change t ask refusal
        if count == 0 then .error failure else .ok tree) := by
  unfold IsChange
  rw [Steps.run_bind, run_commit]
  cases hchange : s.change t ask refusal with
  | error fault => rfl
  | ok result =>
      rcases result with ⟨count, t'⟩
      cases count with
      | zero =>
          rw [change_eq_self ht hempty hsame hchange]
          rfl
      | succ n => rfl

theorem settles_updating (ht : t.IsOrderly) (now : Moment) (id : String) (changes : Record) :
    Settles tools (s.updating now id changes) t (s.update t now id changes) := by
  refine (isChange_commit ht (.refused (.notFound id)) (fun result h => ?_) fun db db' hnodup h =>
    Database.updateById_zero hnodup h).settles
  rcases Steps.bind_eq_ok.mp h with ⟨_, -, h⟩
  cases h

theorem settles_removing (ht : t.IsOrderly) (id : String) :
    Settles tools (s.removing id) t (s.remove t id) := by
  refine (isChange_commit ht (.refused (.notFound id)) (fun result h => ?_) fun db db' hnodup h =>
    Database.deleteById_zero hnodup h).settles
  rcases Steps.bind_eq_ok.mp h with ⟨_, hnone, -⟩
  cases hnone

end TableStore

/-!
## Any store
-/

/-- Whatever a store is asked to change, it changes its storage as a whole or leaves it as it is. -/
theorem Store.settles {t : Tree} (ht : t.IsOrderly) (store : Store) (tools : Equipment)
    (write : Write) : Work.Settles tools (store.applying tools write) t (store.apply t write) := by
  cases write with
  | insert now id record =>
      cases store with
      | sheet s => exact s.settles_inserting now id record
      | documents s => exact s.settles_inserting now id record
      | table s => exact s.settles_inserting now id record
  | update now id changes =>
      cases store with
      | sheet s => exact s.settles_updating ht now id changes
      | documents s => exact s.settles_updating ht now id changes
      | table s => exact s.settles_updating ht now id changes
  | remove id =>
      cases store with
      | sheet s => exact s.settles_removing ht id
      | documents s => exact s.settles_removing id
      | table s => exact s.settles_removing ht id

end Roster
