import Roster.Proofs.Registry.Reloading
import Roster.Proofs.Storage.Tables
import Roster.Proofs.Storage.Tidy

/-!
# The home of records

A home is a directory in which setups prepare storage.  A few names in it are in use; whatever has
another name is an archive, or belongs to somebody else, and stays as it is.  So do the tables of
the database at home, apart from the one with the records.
-/

namespace Roster

/-- Names in a home that are in use. -/
def Store.liveNames : List String :=
  Store.placeNames ++ [Manifest.fileName, Reference.fileName]

theorem Store.ne_slash {name : String} (h : name ∈ Store.liveNames) : name ≠ "/" := by
  rintro rfl
  revert h
  decide

theorem Store.mem_liveNames {name : String} (h : name ∈ Store.placeNames) :
    name ∈ Store.liveNames :=
  List.mem_append_left _ h

namespace Tree

variable {home : Key} {t t' t'' : Tree}

/-- The database at home has a table under a name. -/
def HasTable (home : Key) (t : Tree) (name : String) (table : Table) : Prop :=
  ∃ serial db, t.find? (home ++ [TableStore.fileName]) = some (.database serial db) ∧
    (name, table) ∈ db.tables

/-- What is not in use at home is kept as it is. -/
structure Keeps (home : Key) (t t' : Tree) : Prop where
  entries : ∀ name ∉ Store.liveNames, t.find? (home ++ [name]) ≠ none →
    ∀ rest, t'.find? (home ++ name :: rest) = t.find? (home ++ name :: rest)
  tables : ∀ name ≠ TableStore.tableName, ∀ table, HasTable home t name table →
    HasTable home t' name table

theorem Keeps.refl (home : Key) (t : Tree) : Keeps home t t :=
  ⟨fun _ _ _ _ => rfl, fun _ _ _ h => h⟩

theorem Keeps.trans (h : Keeps home t t') (h' : Keeps home t' t'') : Keeps home t t'' where
  entries := by
    intro name hname hthere rest
    have hsame := h.entries name hname hthere
    rw [h'.entries name hname (by rwa [hsame []]), hsame rest]
  tables := fun name hname table htable => h'.tables name hname table (h.tables name hname table htable)

/-- A tidy tree in which the database at home, if there is one, tells its tables apart, and in
which no document is a database. -/
structure IsHome (home : Key) (t : Tree) : Prop extends IsTidy t where
  plain : ∀ serial db, t.find? (home ++ [TableStore.fileName]) = some (.database serial db) →
    db.IsPlain
  documents : ∀ name serial db, t.find? (home ++ [Documents.directoryName, name]) ≠
    some (.database serial db)

theorem IsTidy.isHome (h : t.IsTidy)
    (hfree : ∀ name ∈ Store.placeNames, t.find? (home ++ [name]) = none) : t.IsHome home where
  toIsTidy := h
  plain := by
    intro serial db hfind
    rw [hfree _ (by decide)] at hfind
    cases hfind
  documents := by
    intro name serial db hfind
    have hnone : t.find? (home ++ [Documents.directoryName]) = none := hfree _ (by decide)
    have hbelow := h.find?_below (by rw [hnone]; exact fun heq => nomatch heq)
      (List.cons_ne_nil name [])
    rw [List.append_cons, hbelow] at hfind
    cases hfind

theorem isHome_empty (home : Key) : IsHome home {} :=
  isTidy_empty.isHome fun _ hname =>
    find?_empty (isEntryKey_append (Store.ne_slash (Store.mem_liveNames hname)))

/-- A step from one tree with a home to another. -/
structure Stays (home : Key) (t t' : Tree) : Prop where
  isHome : t'.IsHome home
  directory : t.find? home = some .directory → t'.find? home = some .directory
  keeps : Keeps home t t'

theorem IsHome.refl (h : t.IsHome home) : Stays home t t :=
  ⟨h, id, Keeps.refl home t⟩

theorem Stays.trans (h : Stays home t t') (h' : Stays home t' t'') : Stays home t t'' :=
  ⟨h'.isHome, h'.directory ∘ h.directory, h.keeps.trans h'.keeps⟩

/-!
## One name is concerned
-/

/-- Trees differ at home at most in what is under one name. -/
def Only (home : Key) (name : String) (t t' : Tree) : Prop :=
  ∀ other ≠ name, ∀ rest, t'.find? (home ++ other :: rest) = t.find? (home ++ other :: rest)

theorem isEntryKey_child {name : String} (hname : name ≠ "/") (home rest : Key) :
    IsEntryKey (home ++ name :: rest) := by
  have hchild : IsEntryKey (home ++ [name]) := isEntryKey_append hname
  have hkey := isEntryKey_append_of hchild rest
  rwa [List.append_assoc] at hkey

theorem ne_child (home : Key) (name : String) (rest : Key) : home ≠ home ++ name :: rest :=
  fun heq => List.cons_ne_nil name rest (List.self_eq_append_right.mp heq)

theorem find?_home_put {name : String} (hname : name ≠ "/") (rest : Key) (entry : Entry) :
    (t.put (home ++ name :: rest) entry).find? home = t.find? home :=
  find?_put_of_ne (isEntryKey_child hname home rest) entry (ne_child home name rest)

theorem only_put {name : String} (hname : name ≠ "/") (rest : Key) (entry : Entry) :
    Only home name t (t.put (home ++ name :: rest) entry) := by
  intro other hne below
  refine find?_put_of_ne (isEntryKey_child hname home rest) entry fun heq => ?_
  exact hne (List.cons.inj (List.append_cancel_left heq)).1

theorem only_erase {name : String} (hname : name ≠ "/") (rest : Key) :
    Only home name t (t.erase (home ++ name :: rest)) := by
  intro other hne below
  rw [find?_erase (isEntryKey_child hname home rest), if_neg]
  exact fun heq => hne (List.cons.inj (List.append_cancel_left heq)).1

/-- A step that concerns a name in use, but not the database. -/
theorem IsHome.stays (h : t.IsHome home) (htidy : t'.IsTidy) {name : String}
    (hdirectory : t.find? home = some .directory → t'.find? home = some .directory)
    (honly : Only home name t t') (hname : name ∈ Store.liveNames)
    (hbase : name ≠ TableStore.fileName)
    (hdocuments : ∀ other serial db,
      t'.find? (home ++ [Documents.directoryName, other]) = some (.database serial db) →
        t.find? (home ++ [Documents.directoryName, other]) = some (.database serial db)) :
    Stays home t t' where
  isHome := {
    toIsTidy := htidy
    plain := by
      intro serial db hfind
      rw [honly _ hbase.symm] at hfind
      exact h.plain serial db hfind
    documents := fun other serial db hfind => h.documents other serial db
      (hdocuments other serial db hfind) }
  directory := hdirectory
  keeps := {
    entries := fun other hother _ rest =>
      honly other (ne_of_mem_of_not_mem hname hother).symm rest
    tables := by
      rintro other - table ⟨serial, db, hfind, hmem⟩
      exact ⟨serial, db, (honly _ hbase.symm []).trans hfind, hmem⟩ }

theorem IsHome.put (h : t.IsHome home) {name : String} {rest : Key} {entry : Entry}
    (hname : name ∈ Store.liveNames) (hbase : name ≠ TableStore.fileName)
    (hentry : ∀ serial db, entry ≠ .database serial db)
    (htidy : (t.put (home ++ name :: rest) entry).IsTidy) :
    Stays home t (t.put (home ++ name :: rest) entry) := by
  have hslash := Store.ne_slash hname
  refine h.stays htidy (find?_home_put hslash rest entry).trans (only_put hslash rest entry) hname
    hbase fun other serial db hfind => ?_
  rw [find?_put (isEntryKey_child hslash home rest)] at hfind
  split at hfind
  · exact absurd (Option.some.inj hfind) (hentry serial db)
  · exact hfind

theorem IsHome.write (h : t.IsHome home) {name : String} (hname : name ∈ Store.liveNames)
    (hbase : name ≠ TableStore.fileName) (hhome : t.find? home = some .directory)
    (hfile : t.find? (home ++ [name]) ≠ some .directory) (octets : ByteArray) :
    Stays home t (t.put (home ++ [name]) (.file octets)) :=
  h.put hname hbase (fun _ _ heq => nomatch heq)
    (h.toIsTidy.put (Store.ne_slash hname) hhome (Or.inr hfile) fun _ _ heq => nomatch heq)

theorem IsHome.makeDocuments (h : t.IsHome home) (hhome : t.find? home = some .directory) :
    Stays home t (t.put (home ++ [Documents.directoryName]) .directory) :=
  h.put (by decide) (by decide) (fun _ _ heq => nomatch heq)
    (h.toIsTidy.put Documents.directoryName_ne.2 hhome (Or.inl rfl) fun _ _ heq => nomatch heq)

theorem IsHome.writeDocument (h : t.IsHome home) {name : String} (hname : name ≠ "/")
    (hdirectory : t.find? (home ++ [Documents.directoryName]) = some .directory)
    (hfile : t.find? (home ++ [Documents.directoryName, name]) ≠ some .directory)
    (octets : ByteArray) :
    Stays home t (t.put (home ++ [Documents.directoryName, name]) (.file octets)) := by
  have hkey : home ++ [Documents.directoryName, name] =
      home ++ [Documents.directoryName] ++ [name] := List.append_cons home _ _
  refine h.put (by decide) (by decide) (fun _ _ heq => nomatch heq) ?_
  rw [hkey] at hfile ⊢
  exact h.toIsTidy.put hname hdirectory (Or.inr hfile) fun _ _ heq => nomatch heq

theorem IsHome.eraseDocument (h : t.IsHome home) {name : String} {octets : ByteArray}
    (hfile : t.find? (home ++ [Documents.directoryName, name]) = some (.file octets)) :
    Stays home t (t.erase (home ++ [Documents.directoryName, name])) := by
  have herase := fun other => find?_erase (t := t)
    (isEntryKey_child Documents.directoryName_ne.2 home [name]) other
  refine h.stays (h.toIsTidy.erase hfile) (fun hhome => ?_)
    (only_erase Documents.directoryName_ne.2 [name]) (by decide) (by decide)
    fun other serial db hfind => ?_
  · rwa [herase, if_neg (ne_child home _ _)]
  rw [herase] at hfind
  split at hfind
  · cases hfind
  · exact hfind

theorem IsHome.makeAll (h : t.IsHome home) {p : Path} (hplain : p.IsPlain) (hhome : p.key = home)
    (hmake : t.makeAll p = .ok t') :
    Stays home t t' ∧ ∀ name rest, t'.find? (home ++ name :: rest) = t.find? (home ++ name :: rest) := by
  rcases h.toIsTidy.makeAll hplain hmake with ⟨htidy, -, hbelow⟩
  subst hhome
  have hsame : ∀ name rest, t'.find? (p.key ++ name :: rest) = t.find? (p.key ++ name :: rest) :=
    fun name rest => hbelow _ (List.cons_ne_nil name rest)
  have honly : Only p.key Documents.directoryName t t' := fun other _ => hsame other
  refine ⟨h.stays htidy (fun _ => isDirectory_iff.mp (isDirectory_of_makeAll hmake)) honly
    (by decide) (by decide) fun other serial db hfind => ?_, hsame⟩
  rwa [← hsame]

/-!
## The database
-/

/-- The database takes another content, under its number or a new one, that has the other tables
still. -/
theorem IsHome.putDatabase (h : t.IsHome home) (hhome : t.find? home = some .directory)
    (hfile : t.find? (home ++ [TableStore.fileName]) ≠ some .directory) {serial n : Nat}
    {db : Database} (hserial : t.removed.lookup serial = none) (hn : t.nextSerial ≤ n)
    (hplain : db.IsPlain)
    (htables : ∀ name ≠ TableStore.tableName, ∀ table, HasTable home t name table →
      (name, table) ∈ db.tables) :
    Stays home t { t.put (home ++ [TableStore.fileName]) (.database serial db) with
      nextSerial := n } := by
  have hslash : TableStore.fileName ≠ "/" := by decide
  have hput : (t.put (home ++ [TableStore.fileName]) (.database serial db)).IsTidy := by
    refine h.toIsTidy.put hslash hhome (Or.inr hfile) fun _ _ heq => ?_
    cases heq
    refine ⟨hserial, fun table hmem hsame => ?_⟩
    rwa [hplain.sameName_eq TableStore.foldAscii_tableName hmem, beq_iff_eq] at hsame
  have honly : Only home TableStore.fileName t
      { t.put (home ++ [TableStore.fileName]) (.database serial db) with nextSerial := n } :=
    only_put hslash [] _
  have hkey : IsEntryKey (home ++ [TableStore.fileName]) := isEntryKey_append hslash
  have hthere := find?_put_self (t := t) hkey (.database serial db)
  refine ⟨{ toIsTidy := hput.number hn, plain := ?_, documents := ?_ },
    (find?_home_put hslash [] _).trans, { entries := ?_, tables := ?_ }⟩
  · intro found other hfind
    have heq := hthere.symm.trans hfind
    cases heq
    exact hplain
  · intro name found other hfind
    rw [honly _ (by decide)] at hfind
    exact h.documents name found other hfind
  · exact fun name hname _ rest => honly name (ne_of_mem_of_not_mem (by decide) hname).symm rest
  · exact fun name hname table htable => ⟨serial, db, hthere, htables name hname table htable⟩

/-!
## Moves to an archive
-/

theorem IsTidy.find?_move (h : t.IsTidy) {p : Path} {a b : String} (ha : a ≠ ".." ∧ a ≠ "/")
    (hb : b ≠ "..") (hfree : t.find? (p.key ++ [b]) = none) (name : String) (rest : Key) :
    (t.rename (p.child a) (p.child b)).find? (p.key ++ name :: rest) =
      if name = b then t.find? (p.key ++ a :: rest)
      else if name = a then none else t.find? (p.key ++ name :: rest) := by
  have hkey := Path.key_child ha.1 p
  have hkey' := Path.key_child hb p
  have hbelow : ∀ other, p.key ++ [other] <+: p.key ++ name :: rest ↔ name = other := by
    intro other
    rw [List.prefix_append_right_inj, List.cons_prefix_cons, eq_comm]
    exact and_iff_left (List.nil_prefix)
  rw [h.find?_rename (by rw [hkey]; exact isEntryKey_append ha.2) (by rwa [hkey']), hkey, hkey']
  simp only [hbelow]
  have hdrop : (p.key ++ name :: rest).drop (p.key ++ [b]).length = rest := by
    rw [List.append_cons p.key name rest]
    refine List.drop_left' ?_
    rw [List.length_append, List.length_append, List.length_singleton, List.length_singleton]
  rw [hdrop, ← List.append_cons]

/-- What is at home under a name is found under another one, and gone from its own. -/
structure Moved (home : Key) (a b : String) (t t' : Tree) : Prop where
  target : ∀ rest, t'.find? (home ++ b :: rest) = t.find? (home ++ a :: rest)
  source : ∀ rest, t'.find? (home ++ a :: rest) = none
  others : ∀ name, name ≠ a → name ≠ b → ∀ rest,
    t'.find? (home ++ name :: rest) = t.find? (home ++ name :: rest)

/-- An entry that is in use is moved to the name of an archive. -/
theorem IsHome.move (h : t.IsHome home) {p : Path} (hhome : p.key = home) {a b : String}
    (ha : a ∈ Store.liveNames) (hbase : a ≠ TableStore.fileName)
    (hthere : t.find? (home ++ [a]) ≠ none) (hb : b ∉ Store.liveNames) (hdots : b ≠ "..")
    (hslash : b ≠ "/") (hfree : t.find? (home ++ [b]) = none) :
    Stays home t (t.rename (p.child a) (p.child b)) ∧
      Moved home a b t (t.rename (p.child a) (p.child b)) := by
  subst hhome
  have hne : a ≠ b := ne_of_mem_of_not_mem ha hb
  have hadots : a ≠ ".." := by
    rintro rfl
    revert ha
    decide
  have hfind := h.toIsTidy.find?_move ⟨hadots, Store.ne_slash ha⟩ hdots hfree
  have hmoved : Moved p.key a b t (t.rename (p.child a) (p.child b)) := by
    refine ⟨fun rest => ?_, fun rest => ?_, fun name hnameA hnameB rest => ?_⟩
    · rw [hfind, if_pos rfl]
    · rw [hfind, if_neg hne, if_pos rfl]
    · rw [hfind, if_neg hnameB, if_neg hnameA]
  have hbaseB : TableStore.fileName ≠ b := ne_of_mem_of_not_mem (by decide) hb
  have htidy : (t.rename (p.child a) (p.child b)).IsTidy := by
    refine h.toIsTidy.rename (Path.key_child hadots p) (Path.key_child hdots p) (Store.ne_slash ha)
      hslash ?_ ?_
    · rwa [Path.key_child hadots]
    · rwa [Path.key_child hdots]
  have hapart : ∀ name, ¬p.key ++ [name] <+: p.key := by
    intro name hprefix
    have hlength := hprefix.length_le
    rw [List.length_append, List.length_singleton] at hlength
    omega
  -- Neither name is that of the database, and the new one is that of no entry in use.
  refine ⟨⟨{ toIsTidy := htidy, plain := ?_, documents := ?_ }, fun hhome => ?_,
    { entries := ?_, tables := ?_ }⟩, hmoved⟩
  · intro serial db hfound
    rw [hmoved.others _ hbase.symm hbaseB] at hfound
    exact h.plain serial db hfound
  · intro name serial db hfound
    by_cases hdocuments : Documents.directoryName = a
    · rw [hdocuments, hmoved.source] at hfound
      cases hfound
    · have hdocumentsB : Documents.directoryName ≠ b := ne_of_mem_of_not_mem (by decide) hb
      rw [hmoved.others _ hdocuments hdocumentsB] at hfound
      exact h.documents name serial db hfound
  · rwa [find?_rename (by rw [Path.key_child hadots]; exact hapart a)
      (by rw [Path.key_child hdots]; exact hapart b)]
  · intro name hname hfound rest
    refine hmoved.others name (ne_of_mem_of_not_mem ha hname).symm ?_ rest
    rintro rfl
    exact hfound hfree
  · rintro name - table ⟨serial, db, hfound, hmem⟩
    exact ⟨serial, db, (hmoved.others _ hbase.symm hbaseB []).trans hfound, hmem⟩

end Tree
end Roster
