import Roster.Proofs.Store.Preparation
import Roster.Proofs.Store.Work

/-!
# Stores answer

Whatever has become of its storage, a store that is open answers what it is asked for: it does it, or
it says why not.  All that it needs is to make out what is there, a text in a file, and in each
document a record or a fault that a reader of documents reports.  When a store is closed, a table
breaks off whatever would need its database; a file and documents go on as before.
-/

namespace Roster

variable {α β ε : Type}

/-!
## Attempts
-/

/-- An attempt comes to an answer: it is carried out or refused, but not broken off. -/
def Answered (attempt : Except Failure α) : Prop :=
  ∃ answer, Failure.settle attempt = .ok answer

theorem answered_ok (a : α) : Answered (.ok a) :=
  ⟨.ok a, rfl⟩

theorem answered_refused (refusal : Refusal) : Answered (α := α) (.error (.refused refusal)) :=
  ⟨.error refusal, rfl⟩

theorem not_answered_broken (fault : Fault) : ¬Answered (α := α) (.error (.broken fault)) := by
  rintro ⟨answer, hanswer⟩
  cases hanswer

theorem Answered.bind {x : Except Failure α} {f : α → Except Failure β} (h : Answered x)
    (hf : ∀ a, Answered (f a)) : Answered (x >>= f) := by
  cases x with
  | ok a => exact hf a
  | error failure =>
      cases failure with
      | refused refusal => exact answered_refused refusal
      | broken fault => exact absurd h (not_answered_broken fault)

theorem Answered.map {x : Except Failure α} (h : Answered x) (f : α → β) : Answered (x.map f) := by
  cases x with
  | ok a => exact answered_ok (f a)
  | error failure =>
      cases failure with
      | refused refusal => exact answered_refused refusal
      | broken fault => exact absurd h (not_answered_broken fault)

theorem answered_mapError (x : Except ε α) (refusal : ε → Refusal) :
    Answered (x.mapError fun fault => .refused (refusal fault)) := by
  cases x with
  | ok a => exact answered_ok a
  | error fault => exact answered_refused (refusal fault)

theorem answered_checkNew (id : String) (record : Record) :
    Answered (RecordStore.checkNew id record) := by
  unfold RecordStore.checkNew
  split
  · exact answered_refused .missingId
  · split
    · exact answered_refused .missingRecord
    · exact answered_ok ()

/-!
## One file
-/

namespace Sheet

variable {s : Sheet} {t : Tree}

/-- Whatever is in the place of the file, the file holds a text. -/
def IsLegible (s : Sheet) (t : Tree) : Prop :=
  ∀ octets, t.read s.path = .ok octets → (Text.decodeUtf8 octets).isOk = true

theorem answered_readOr (h : s.IsLegible t) (refusal : Cause → Refusal) :
    Answered (s.readOr t refusal) := by
  rw [readOr, read]
  cases hread : t.read s.path with
  | error fault => exact answered_refused _
  | ok octets =>
      have htext := h octets hread
      cases hdecode : Text.decodeUtf8 octets with
      | error fault =>
          rw [hdecode] at htext
          cases htext
      | ok text =>
          simp only [Except.mapError, bind, Except.bind, hdecode]
          cases Delimited.read s.format.delimiter text.toList with
          | error fault => exact answered_refused _
          | ok cells => exact answered_ok _

theorem answered_insert (h : s.IsLegible t) (now : Moment) (id : String) (record : Record) :
    Answered (s.insert t now id record) := by
  apply (answered_checkNew id record).bind
  intro _
  apply (answered_readOr h _).bind
  intro content
  dsimp only
  split
  · exact answered_refused (.alreadyExists id)
  · exact answered_mapError _ _

theorem answered_fetch (h : s.IsLegible t) (id : String) : Answered (s.fetch t id) := by
  rw [fetch]
  split
  · exact answered_refused (.notFound id)
  · apply (answered_readOr h _).bind
    intro content
    split
    · exact answered_ok _
    · exact answered_refused (.notFound id)

theorem answered_update (h : s.IsLegible t) (now : Moment) (id : String) (changes : Record) :
    Answered (s.update t now id changes) := by
  apply (answered_readOr h _).bind
  intro content
  dsimp only
  split
  · split
    · exact answered_refused (.notFound id)
    · exact answered_mapError _ _
  · exact answered_refused (.notFound id)

theorem answered_remove (h : s.IsLegible t) (id : String) : Answered (s.remove t id) := by
  apply (answered_readOr h _).bind
  intro content
  dsimp only
  split
  · exact answered_refused (.notFound id)
  · exact answered_mapError _ _

theorem answered_list (h : s.IsLegible t) (filter : Filter) : Answered (s.list t filter) := by
  apply (answered_readOr h _).bind
  intro content
  exact answered_ok _

end Sheet

/-!
## Documents
-/

namespace Documents

variable {s : Documents} {t : Tree}

/-- A reader of documents finds texts in the octets, or a fault that it reports. -/
def isSpeaking (octets : ByteArray) : Bool :=
  match Yaml.readTexts octets with
  | .ok _ => true
  | .error fault => fault.isReported

/-- Whatever is in the directory, a reader of documents can say what it is. -/
def IsLegible (s : Documents) (t : Tree) : Prop :=
  ∀ name, isDocumentName name = true → ∀ octets, t.read (s.directory.child name) = .ok octets →
    isSpeaking octets = true

/-- What an entry holds can be made out. -/
def speaks : Entry → Bool
  | .directory => true
  | .file octets => isSpeaking octets
  | .database _ _ => true

theorem isLegible_of_speaks (h : ∀ e ∈ t.entries, speaks e.2 = true) : s.IsLegible t := by
  intro name _ octets hread
  rw [Tree.read] at hread
  split at hread
  · rename_i found hfind
    cases hread
    have hkey := Tree.isEntryKey_of_find? hfind Entry.noConfusion
    exact h _ (Tree.mem_entries_of_find? hkey hfind)
  · cases hread
    have hempty : isSpeaking ByteArray.empty = true := by
      decide +kernel
    exact hempty
  · cases hread
  · cases hread

theorem load_ne_broken {path : Path}
    (h : ∀ octets, t.read path = .ok octets → isSpeaking octets = true) (fault : Fault) :
    load t path ≠ .error (.error fault) := by
  intro hload
  rw [load] at hload
  cases hread : t.read path with
  | error other =>
      rw [hread] at hload
      cases hload
  | ok octets =>
      have hspeaking := h octets hread
      rw [isSpeaking] at hspeaking
      rw [hread] at hload
      simp only [Except.mapError, bind, Except.bind] at hload
      cases htexts : Yaml.readTexts octets with
      | error problem =>
          rw [htexts] at hload hspeaking
          simp only [if_pos hspeaking] at hload
          cases hload
      | ok texts =>
          rw [htexts] at hload
          cases texts with
          | none => cases hload
          | some record => cases hload

theorem isDocumentName_of_path? {id : String} {path : Path} (h : s.path? id = some path) :
    ∃ name, isDocumentName name = true ∧ path = s.directory.child name := by
  rw [path?] at h
  split at h
  · exact ⟨id ++ ending, isDocumentName_nameOf id, (Option.some.inj h).symm⟩
  · cases h

theorem answered_loadOr (h : s.IsLegible t) (id : String) (refusal : Cause → Refusal) :
    Answered (s.loadOr t id refusal) := by
  unfold loadOr
  split
  · exact answered_refused (.notFound id)
  · rename_i path hpath
    rcases isDocumentName_of_path? hpath with ⟨name, hname, rfl⟩
    split
    · split
      · exact answered_ok _
      · exact answered_refused _
      · rename_i fault hload
        exact absurd hload (load_ne_broken (h name hname) fault)
    · exact answered_refused (.notFound id)

theorem answered_insert (now : Moment) (id : String) (record : Record) :
    Answered (s.insert t now id record) := by
  apply (answered_checkNew id record).bind
  intro _
  cases s.path? id with
  | none => exact answered_refused (.invalidId id)
  | some path =>
      dsimp only
      cases t.create path (documentText (record.stampNew s.fields now id)).toUTF8 with
      | ok t' => exact answered_ok t'
      | error fault =>
          simp only [Except.mapError]
          split
          · exact answered_refused (.alreadyExists id)
          · exact answered_refused _

theorem answered_fetch (h : s.IsLegible t) (id : String) : Answered (s.fetch t id) :=
  (answered_loadOr h id .cannotLoad).map Prod.snd

theorem answered_update (h : s.IsLegible t) (now : Moment) (id : String) (changes : Record) :
    Answered (s.update t now id changes) := by
  apply (answered_loadOr h id _).bind
  intro found
  exact answered_mapError _ _

theorem answered_remove (id : String) : Answered (s.remove t id) := by
  unfold remove
  split
  · exact answered_refused (.notFound id)
  · split
    · exact answered_mapError _ _
    · exact answered_refused (.notFound id)

theorem answered_readable (h : s.IsLegible t) {names : List String}
    (hnames : ∀ name ∈ names, isDocumentName name = true) :
    Answered (readable s.directory t names) := by
  induction names with
  | nil => exact answered_ok []
  | cons name rest ih =>
      have hrest := ih fun other hother => hnames other (List.mem_cons_of_mem _ hother)
      unfold readable
      split
      · exact hrest.map _
      · exact hrest
      · rename_i fault hload
        exact absurd hload (load_ne_broken (h name (hnames name List.mem_cons_self)) fault)

theorem answered_list (h : s.IsLegible t) (filter : Filter) : Answered (s.list t filter) := by
  have hnames : ∀ name ∈ documentNames s.directory t, isDocumentName name = true := by
    intro name hname
    exact (List.mem_filter.mp (List.mem_mergeSort.mp hname)).2
  apply (answered_readable h hnames).bind
  intro records
  exact answered_ok _

end Documents

/-!
## A table
-/

namespace TableStore

variable {s : TableStore} {t : Tree}

theorem closed_of_attach {state : Entries} (h : attach state t = .ok s) : s.closed = false := by
  rcases Steps.bind_eq_ok.mp h with ⟨path, -, hopened⟩
  dsimp only at hopened
  split at hopened
  · cases hopened
  · cases hreach : reach path t with
    | error fault =>
        rw [hreach] at hopened
        cases hopened
    | ok found =>
        rw [hreach] at hopened
        dsimp only at hopened
        split at hopened
        · cases hopened
          rfl
        · cases hopened

theorem answered_query (h : s.closed = false) (ask : Database → Except QueryFault α)
    (refusal : QueryFault → Refusal) : Answered (s.query t ask refusal) := by
  unfold query
  rw [if_neg (by rw [h]; exact Bool.false_ne_true)]
  exact answered_mapError _ _

theorem answered_change (h : s.closed = false)
    (ask : Database → Except QueryFault (α × Database)) (refusal : QueryFault → Refusal) :
    Answered (s.change t ask refusal) := by
  unfold change
  rw [if_neg (by rw [h]; exact Bool.false_ne_true)]
  exact answered_mapError _ _

theorem answered_insert (h : s.closed = false) (now : Moment) (id : String) (record : Record) :
    Answered (s.insert t now id record) := by
  apply (answered_checkNew id record).bind
  intro _
  apply (answered_change h _ _).bind
  intro changed
  exact answered_ok _

theorem answered_fetch (h : s.closed = false) (id : String) : Answered (s.fetch t id) := by
  apply (answered_query h _ _).bind
  intro row?
  cases row? with
  | none => exact answered_refused (.notFound id)
  | some row => exact answered_ok _

theorem answered_update (h : s.closed = false) (now : Moment) (id : String) (changes : Record) :
    Answered (s.update t now id changes) := by
  apply (answered_change h _ _).bind
  intro changed
  dsimp only
  split
  · exact answered_refused (.notFound id)
  · exact answered_ok _

theorem answered_remove (h : s.closed = false) (id : String) : Answered (s.remove t id) := by
  apply (answered_change h _ _).bind
  intro changed
  dsimp only
  split
  · exact answered_refused (.notFound id)
  · exact answered_ok _

theorem answered_list (h : s.closed = false) (filter : Filter) : Answered (s.list t filter) := by
  apply (answered_query h _ _).bind
  intro rows
  exact answered_ok _

/-- A table that is closed breaks off whatever needs its database. -/
structure BreaksOff (s : TableStore) (t : Tree) : Prop where
  insert : ∀ now id record, RecordStore.checkNew id record = .ok () →
    s.insert t now id record = .error (.broken .closed)
  incomplete : ∀ now id record refusal, RecordStore.checkNew id record = .error (.refused refusal) →
    s.insert t now id record = .error (.refused refusal)
  fetch : ∀ id, s.fetch t id = .error (.broken .closed)
  update : ∀ now id changes, s.update t now id changes = .error (.broken .closed)
  remove : ∀ id, s.remove t id = .error (.broken .closed)
  list : ∀ filter, s.list t filter = .error (.broken .closed)

theorem breaksOff_of_closed (h : s.closed = true) : s.BreaksOff t where
  insert := by
    intro now id record hnew
    rw [TableStore.insert, hnew]
    simp only [bind, Except.bind, change, if_pos h]
  incomplete := by
    intro now id record refusal hnew
    rw [TableStore.insert, hnew]
    rfl
  fetch := by
    intro id
    rw [TableStore.fetch, query, if_pos h]
    rfl
  update := by
    intro now id changes
    simp only [TableStore.update, bind, Except.bind, change, if_pos h]
  remove := by
    intro id
    simp only [TableStore.remove, bind, Except.bind, change, if_pos h]
  list := by
    intro filter
    rw [TableStore.list, query, if_pos h]
    rfl

end TableStore

/-!
## Any store
-/

namespace Store

/-- The store can make out what is on its storage. -/
def IsLegible : Store → Tree → Prop
  | .sheet s, t => s.IsLegible t
  | .documents s, t => s.IsLegible t
  | .table _, _ => True

/-- Whatever a store is asked for comes to an answer. -/
structure Answers (store : Store) (t : Tree) : Prop where
  insert : ∀ now id record, Answered (store.insert t now id record)
  fetch : ∀ id, Answered (store.fetch t id)
  update : ∀ now id changes, Answered (store.update t now id changes)
  remove : ∀ id, Answered (store.remove t id)
  list : ∀ filter, Answered (store.list t filter)

theorem sheet_answers {s : Sheet} {t : Tree} (h : s.IsLegible t) : (Store.sheet s).Answers t where
  insert := Sheet.answered_insert h
  fetch := Sheet.answered_fetch h
  update := Sheet.answered_update h
  remove := Sheet.answered_remove h
  list := Sheet.answered_list h

theorem documents_answers {s : Documents} {t : Tree} (h : s.IsLegible t) :
    (Store.documents s).Answers t where
  insert := Documents.answered_insert
  fetch := Documents.answered_fetch h
  update := Documents.answered_update h
  remove := Documents.answered_remove
  list := Documents.answered_list h

theorem table_answers {s : TableStore} (h : s.closed = false) (t : Tree) :
    (Store.table s).Answers t where
  insert := TableStore.answered_insert h
  fetch := TableStore.answered_fetch h
  update := TableStore.answered_update h
  remove := TableStore.answered_remove h
  list := TableStore.answered_list h

/-- A store that was opened answers everything, whatever has become of its storage since then, as
long as it can make out what is there.  When it is closed, so does a file or a directory of
documents; a table breaks off whatever needs its database. -/
theorem answers_of_legible {backend : Backend} {state : Entries} {earlier t : Tree} {store : Store}
    (hopened : attach backend state earlier = .ok store) (hlegible : store.IsLegible t) :
    store.Answers t ∧
      (backend ≠ .database → store.close.Answers t) ∧
      (backend = .database → ∃ s : TableStore, store.close = .table s ∧ s.BreaksOff t) := by
  cases backend with
  | database =>
      rcases Steps.map_eq_ok.mp hopened with ⟨s, hattach, rfl⟩
      constructor
      · exact table_answers (TableStore.closed_of_attach hattach) t
      · constructor
        · intro hother
          exact absurd rfl hother
        · intro _
          exact ⟨{ s with closed := true }, rfl, TableStore.breaksOff_of_closed rfl⟩
  | file =>
      rcases Steps.map_eq_ok.mp hopened with ⟨s, -, rfl⟩
      have hanswers := sheet_answers hlegible
      constructor
      · exact hanswers
      · constructor
        · intro _
          exact hanswers
        · intro hdatabase
          cases hdatabase
  | yaml =>
      rcases Steps.map_eq_ok.mp hopened with ⟨s, -, rfl⟩
      have hanswers := documents_answers hlegible
      constructor
      · exact hanswers
      · constructor
        · intro _
          exact hanswers
        · intro hdatabase
          cases hdatabase

/-- A directory of documents: one is no text, one is no record, and one ends inside a quoted text. -/
def litteredTree : Tree :=
  { entries := [(["users"], .directory),
      (["users", "ada.yaml"], .file (ByteArray.mk #[0xff])),
      (["users", "bob.yaml"], .file "- just\n- a list\n".toUTF8),
      (["users", "cay.yaml"], .file "user_id: \"cay".toUTF8)] }

def litteredDocuments : Documents :=
  ⟨.ofText "users", ["user_id"]⟩

theorem isLegible_litteredDocuments : litteredDocuments.IsLegible litteredTree := by
  have hspeaks : ∀ e ∈ litteredTree.entries, Documents.speaks e.2 = true := by
    decide +kernel
  exact Documents.isLegible_of_speaks hspeaks

theorem answers_of_legible_of_littered :
    attach .yaml [("records_dir", .str "users"), ("fields", .list [.str "user_id"])] litteredTree =
        .ok (.documents litteredDocuments) ∧
      (Store.documents litteredDocuments).Answers litteredTree ∧
      (Store.documents litteredDocuments).close.Answers litteredTree := by
  have hopened : attach .yaml [("records_dir", .str "users"), ("fields", .list [.str "user_id"])]
      litteredTree = .ok (.documents litteredDocuments) := by
    rfl
  have hanswers := answers_of_legible hopened isLegible_litteredDocuments
  exact ⟨hopened, hanswers.1, hanswers.2.1 Backend.noConfusion⟩

/-- A table without rows in a database of its own. -/
def bareTree : Tree :=
  { entries := [(["users.db"], .database 0 ⟨[("users", ⟨[⟨"user_id", true, true⟩], []⟩)]⟩)] }

/-- Not every store that was opened answers: a table does not when it has been closed. -/
theorem not_answers_of_close :
    ¬∀ (backend : Backend) (state : Entries) (earlier t : Tree) (store handle : Store),
      attach backend state earlier = .ok store → handle = store ∨ handle = store.close →
        handle.Answers t := by
  intro hclaim
  have hopened : attach .database [] bareTree =
      .ok (.table ⟨.ofText "./users.db", 0, "users", ["user_id"], false⟩) := by
    rfl
  have hanswers := hclaim .database [] bareTree bareTree _ _ hopened (.inr rfl)
  have hbroken : TableStore.fetch ⟨.ofText "./users.db", 0, "users", ["user_id"], true⟩ bareTree
      "ada" = .error (.broken .closed) :=
    (TableStore.breaksOff_of_closed rfl).fetch "ada"
  have hfetch : Answered (TableStore.fetch ⟨.ofText "./users.db", 0, "users", ["user_id"], true⟩
      bareTree "ada") :=
    hanswers.fetch "ada"
  rw [hbroken] at hfetch
  exact not_answered_broken _ hfetch

end Store
end Roster
