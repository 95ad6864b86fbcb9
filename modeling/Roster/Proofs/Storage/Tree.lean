import Mathlib.Data.List.Basic
import Roster.Proofs.Storage.Path
import Roster.Storage.Tree

/-!
# Files in directories

An operation on one entry of a directory changes what is found under that entry's key and nothing
else.  Entries of a directory that is there can always be written.
-/

namespace Roster
namespace Tree

/-!
## Single entries
-/

/-- The key leads to an entry, not to the working directory or the root. -/
def IsEntryKey (key : Key) : Prop :=
  key ≠ [] ∧ key ≠ ["/"]

theorem isEntryKey_append {above : Key} {name : String} (h : name ≠ "/") :
    IsEntryKey (above ++ [name]) := by
  refine ⟨by simp, fun heq => h ?_⟩
  have hlast := congrArg List.getLast? heq
  simpa using hlast

theorem find?_eq_lookup {t : Tree} {key : Key} (h : IsEntryKey key) :
    t.find? key = t.entries.lookup key := by
  simp [find?, h.1, h.2]

theorem isEntryKey_of_find? {t : Tree} {key : Key} {entry : Entry} (h : t.find? key = some entry)
    (hne : entry ≠ .directory) : IsEntryKey key := by
  refine ⟨?_, ?_⟩
  · rintro rfl
    exact hne (Option.some.inj h).symm
  · rintro rfl
    exact hne (Option.some.inj h).symm

theorem lookup_map_replace (entries : List (Key × Entry)) (key other : Key) (entry : Entry) :
    (entries.map fun e => if e.1 == key then (key, entry) else e).lookup other =
      if other = key then (entries.lookup key).map fun _ => entry else entries.lookup other := by
  induction entries with
  | nil => simp
  | cons e rest ih =>
      rcases e with ⟨k, v⟩
      by_cases hk : k = key
      · subst hk
        by_cases ho : other = k
        · subst ho
          simp
        · have hbeq : (other == k) = false := by simpa using ho
          rw [if_neg ho] at ih
          simpa [List.lookup_cons, ho, hbeq] using ih
      · by_cases ho : other = key
        · subst ho
          have hbeq : (other == k) = false := by simpa using fun heq => hk heq.symm
          rw [if_pos rfl] at ih
          simpa [List.lookup_cons, hk, hbeq] using ih
        · rw [if_neg ho] at ih
          rw [if_neg ho, List.map_cons, if_neg (by simpa using hk)]
          by_cases hok : other = k
          · simp [hok]
          · have hbeq : (other == k) = false := by simpa using hok
            simpa [List.lookup_cons, hbeq] using ih

theorem any_key_iff {entries : List (Key × Entry)} {key : Key} :
    entries.any (·.1 == key) = true ↔ entries.lookup key ≠ none := by
  rw [Ne, List.lookup_eq_none_iff, List.any_eq_true]
  constructor
  · rintro ⟨e, he, hkey⟩ hall
    have hne := hall e he
    rw [bne_iff_ne] at hne
    exact hne (eq_of_beq hkey).symm
  · intro hall
    by_contra hnone
    refine hall fun e he => ?_
    rw [bne_iff_ne]
    rintro rfl
    exact hnone ⟨e, he, beq_self_eq_true _⟩

theorem lookup_eq_none_of_not_any {entries : List (Key × Entry)} {key : Key}
    (h : ¬entries.any (·.1 == key) = true) : entries.lookup key = none := by
  by_contra hne
  exact h (any_key_iff.mpr hne)

theorem find?_put {t : Tree} {key : Key} (h : IsEntryKey key) (entry : Entry) (other : Key) :
    (t.put key entry).find? other = if other = key then some entry else t.find? other := by
  by_cases hany : t.entries.any (·.1 == key) = true
  · have hfound := any_key_iff.mp hany
    have hentries : (t.put key entry).entries =
        t.entries.map fun e => if e.1 == key then (key, entry) else e := by
      simp only [put, if_pos hany]
    by_cases ho : other = key
    · subst ho
      rw [if_pos rfl, find?_eq_lookup h, hentries, lookup_map_replace, if_pos rfl]
      cases hlookup : t.entries.lookup other with
      | none => exact absurd hlookup hfound
      | some e => rfl
    · rw [if_neg ho, find?, find?, hentries, lookup_map_replace, if_neg ho]
  · have hentries : (t.put key entry).entries = t.entries ++ [(key, entry)] := by
      simp only [put, if_neg hany]
    have hnone := lookup_eq_none_of_not_any hany
    rw [find?, find?, hentries, List.lookup_append]
    by_cases ho : other = key
    · subst ho
      simp [h.1, h.2, hnone]
    · have hbeq : (other == key) = false := by simpa using ho
      simp [ho, List.lookup_cons, hbeq]

theorem find?_put_self {t : Tree} {key : Key} (h : IsEntryKey key) (entry : Entry) :
    (t.put key entry).find? key = some entry := by
  rw [find?_put h, if_pos rfl]

theorem find?_put_of_ne {t : Tree} {key other : Key} (h : IsEntryKey key) (entry : Entry)
    (hne : other ≠ key) : (t.put key entry).find? other = t.find? other := by
  rw [find?_put h, if_neg hne]

theorem put_put (t : Tree) (key : Key) (first second : Entry) :
    (t.put key first).put key second = t.put key second := by
  have hentries : ((t.put key first).put key second).entries = (t.put key second).entries := by
    by_cases hany : t.entries.any (·.1 == key) = true
    · have hstill : (t.entries.map fun e => if e.1 == key then (key, first) else e).any
          (·.1 == key) = true := by
        rcases List.any_eq_true.mp hany with ⟨e, he, hkey⟩
        rw [List.any_eq_true]
        exact ⟨(key, first), List.mem_map.mpr ⟨e, he, if_pos hkey⟩, beq_self_eq_true key⟩
      simp only [put, if_pos hany, if_pos hstill, List.map_map]
      refine List.map_congr_left fun e _ => ?_
      by_cases hkey : e.1 = key
      · simp [hkey]
      · simp [hkey]
    · have hnow : (t.entries ++ [(key, first)]).any (·.1 == key) = true := by
        rw [List.any_append]
        simp
      have hkept : (t.entries.map fun e => if e.1 == key then (key, second) else e) =
          t.entries := by
        refine (List.map_congr_left fun e he => if_neg fun hkey => ?_).trans (List.map_id t.entries)
        exact hany (List.any_eq_true.mpr ⟨e, he, hkey⟩)
      simp only [put, if_neg hany, if_pos hnow, List.map_append, hkept]
      simp
  exact congrArg (fun entries => { t with entries }) hentries

theorem lookup_filter_ne (entries : List (Key × Entry)) (key other : Key) :
    (entries.filter fun e => e.1 != key).lookup other =
      if other = key then none else entries.lookup other := by
  induction entries with
  | nil => simp
  | cons e rest ih =>
      rcases e with ⟨k, v⟩
      by_cases hk : k = key
      · subst hk
        by_cases ho : other = k
        · rw [if_pos ho] at ih ⊢
          simpa using ih
        · have hbeq : (other == k) = false := by simpa using ho
          rw [if_neg ho] at ih ⊢
          simpa [List.lookup_cons, hbeq] using ih
      · rw [List.filter_cons_of_pos (by simpa using hk)]
        by_cases hok : other = k
        · subst hok
          simp [hk]
        · have hbeq : (other == k) = false := by simpa using hok
          simp [List.lookup_cons, hbeq, ih]

theorem find?_erase {t : Tree} {key : Key} (h : IsEntryKey key) (other : Key) :
    (t.erase key).find? other = if other = key then none else t.find? other := by
  rw [find?, find?, erase, lookup_filter_ne]
  by_cases ho : other = key
  · subst ho
    simp [h.1, h.2]
  · simp [ho]

/-!
## What a path finds
-/

theorem isDirectory_iff {t : Tree} {p : Path} :
    t.isDirectory p = true ↔ t.find? p.key = some .directory := by
  unfold isDirectory
  split
  · simp [*]
  · rename_i hne
    constructor
    · intro h
      cases h
    · exact fun h => absurd h hne

theorem isFile_of_find? {t : Tree} {p : Path} {entry : Entry} (h : t.find? p.key = some entry)
    (hne : entry ≠ .directory) : t.isFile p = true := by
  unfold isFile
  rw [h]
  cases entry with
  | directory => exact absurd rfl hne
  | file octets => rfl
  | database serial db => rfl

theorem isFile_of_none {t : Tree} {p : Path} (h : t.find? p.key = none) : t.isFile p = false := by
  unfold isFile
  rw [h]

theorem read_of_find? {t : Tree} {p : Path} {octets : ByteArray}
    (h : t.find? p.key = some (.file octets)) : t.read p = .ok octets := by
  unfold read
  rw [h]

theorem append_of_find? {t : Tree} {p : Path} {before : ByteArray}
    (h : t.find? p.key = some (.file before)) (octets : ByteArray) :
    t.append p octets = .ok (t.put p.key (.file (before ++ octets))) := by
  unfold append
  rw [h]

theorem write_of_find? {t : Tree} {p : Path} {entry : Entry} (h : t.find? p.key = some entry)
    (hne : entry ≠ .directory) (octets : ByteArray) :
    t.write p octets = .ok (t.put p.key (.file octets)) := by
  unfold write
  rw [h]
  cases entry with
  | directory => exact absurd rfl hne
  | file octets => rfl
  | database serial db => rfl

theorem removeFile_of_find? {t : Tree} {p : Path} {entry : Entry} (h : t.find? p.key = some entry)
    (hne : entry ≠ .directory) : t.removeFile p = .ok (t.erase p.key) := by
  unfold removeFile
  rw [h]
  cases entry with
  | directory => exact absurd rfl hne
  | file octets => rfl
  | database serial db => rfl

theorem makeOne_of_find? {t : Tree} {p : Path} {entry : Entry} (h : t.find? p.key = some entry) :
    t.makeOne p = refuse .exists_ p := by
  unfold makeOne
  rw [h]

theorem isEntryKey_of_find?_eq_none {t : Tree} {key : Key} (h : t.find? key = none) :
    IsEntryKey key := by
  refine ⟨?_, ?_⟩
  · rintro rfl
    exact nomatch h
  · rintro rfl
    exact nomatch h

theorem write_eq_ok {t t' : Tree} {p : Path} {octets : ByteArray}
    (h : t.write p octets = .ok t') :
    t.find? p.key ≠ some .directory ∧ t' = t.put p.key (.file octets) := by
  unfold write at h
  split at h
  · cases h
  · rename_i entry hne hfind
    cases h
    refine ⟨fun heq => ?_, rfl⟩
    rw [hfind] at heq
    exact hne (Option.some.inj heq)
  · rename_i hnone
    split at h
    · cases h
    · cases h
      refine ⟨fun heq => ?_, rfl⟩
      rw [hnone] at heq
      cases heq

theorem create_eq_ok {t t' : Tree} {p : Path} {octets : ByteArray}
    (h : t.create p octets = .ok t') :
    t.find? p.key = none ∧ t' = t.put p.key (.file octets) := by
  unfold create at h
  split at h
  · cases h
  · rename_i hnone
    split at h
    · cases h
    · cases h
      exact ⟨hnone, rfl⟩

theorem removeFile_eq_ok {t t' : Tree} {p : Path} (h : t.removeFile p = .ok t') :
    t' = t.erase p.key := by
  unfold removeFile at h
  split at h
  · cases h
  · exact (Except.ok.inj h).symm
  · cases h

theorem makeOne_eq_ok {t t' : Tree} {p : Path} (h : t.makeOne p = .ok t') :
    t.find? p.key = none ∧ t' = t.put p.key .directory := by
  unfold makeOne at h
  split at h
  · cases h
  · rename_i hnone
    split at h
    · cases h
    · cases h
      exact ⟨hnone, rfl⟩

theorem isDirectory_of_makeOne {t t' : Tree} {p : Path} (h : t.makeOne p = .ok t') :
    t'.isDirectory p = true := by
  rcases makeOne_eq_ok h with ⟨hnone, rfl⟩
  rw [isDirectory_iff]
  exact find?_put_self (isEntryKey_of_find?_eq_none hnone) _

theorem isDirectory_of_makeAll {t t' : Tree} {p : Path} (h : t.makeAll p = .ok t') :
    t'.isDirectory p = true := by
  unfold makeAll at h
  cases hlength : p.parts.length with
  | zero =>
      have hparts := List.length_eq_zero_iff.mp hlength
      rw [isDirectory_iff]
      by_cases hroot : (p.root == "") = true
      · simp [find?, Path.key, hparts, Path.resolve, hroot]
      · simp [find?, Path.key, hparts, Path.resolve, hroot]
  | succ bound =>
      rw [hlength, makeAll.go] at h
      split at h
      · rename_i hone
        cases h
        exact isDirectory_of_makeOne hone
      · split at h
        · cases hgo : makeAll.go bound t p.parent with
          | error fault =>
              rw [hgo] at h
              cases h
          | ok above =>
              rw [hgo] at h
              exact isDirectory_of_makeOne h
        · split at h
          · rename_i hthere
            cases h
            exact hthere
          · cases h

theorem makeAll_of_isDirectory {t : Tree} {p : Path} (h : t.isDirectory p = true) :
    t.makeAll p = .ok t := by
  unfold makeAll
  cases p.parts.length with
  | zero => rfl
  | succ bound =>
      rw [makeAll.go, makeOne_of_find? (isDirectory_iff.mp h)]
      simp [refuse, h]

/-!
## Entries of a directory
-/

theorem wayFault_append {t : Tree} {above : Key} (h : t.find? above = some .directory)
    (name : String) : t.wayFault (above ++ [name]) = none := by
  rw [wayFault, List.length_append, List.length_singleton, wayFault.go]
  simp [h]

theorem create_child {t : Tree} {p : Path} {name : String} (hname : name ≠ "..")
    (hdirectory : t.isDirectory p = true) (hfree : t.find? (p.child name).key = none)
    (octets : ByteArray) :
    t.create (p.child name) octets = .ok (t.put (p.child name).key (.file octets)) := by
  unfold create
  rw [hfree, Path.key_child hname, wayFault_append (isDirectory_iff.mp hdirectory)]

theorem makeAll_child_of_free {t : Tree} {p : Path} {name : String} (hname : name ≠ "..")
    (hdirectory : t.isDirectory p = true) (hfree : t.find? (p.child name).key = none) :
    t.makeAll (p.child name) = .ok (t.put (p.child name).key .directory) := by
  have hway := wayFault_append (isDirectory_iff.mp hdirectory) name
  rw [← Path.key_child hname] at hway
  have hone : t.makeOne (p.child name) = .ok (t.put (p.child name).key .directory) := by
    rw [makeOne, hfree, hway]
  rw [makeAll, Path.child, List.length_append, List.length_singleton, makeAll.go]
  rw [Path.child] at hone
  rw [hone]

/-- A directory inside one that is there is there already or is made. -/
theorem makeAll_child {t t' : Tree} {p : Path} {name : String} (hname : name ≠ "..")
    (hdirectory : t.isDirectory p = true) (h : t.makeAll (p.child name) = .ok t') :
    t.find? (p.child name).key = some .directory ∧ t' = t ∨
      t.find? (p.child name).key = none ∧ t' = t.put (p.child name).key .directory := by
  cases hfind : t.find? (p.child name).key with
  | none =>
      rw [makeAll_child_of_free hname hdirectory hfind] at h
      cases h
      exact Or.inr ⟨rfl, rfl⟩
  | some entry =>
      have hexists := makeOne_of_find? hfind
      rw [makeAll, Path.child, List.length_append, List.length_singleton, makeAll.go] at h
      rw [Path.child] at hexists
      rw [hexists] at h
      simp only [refuse] at h
      split at h
      · rename_i hthere
        cases h
        rw [isDirectory_iff] at hthere
        left
        refine ⟨?_, rfl⟩
        rw [← hfind]
        exact hthere
      · cases h

/-- The name in a directory to which a key leads. -/
def nameIn (above key : Key) : Option String :=
  match key.getLast? with
  | some name => if key.dropLast == above then some name else none
  | none => none

theorem nameIn_eq_some_iff {above key : Key} {name : String} :
    nameIn above key = some name ↔ key = above ++ [name] := by
  rcases List.eq_nil_or_concat key with rfl | ⟨front, last, rfl⟩
  · simp [nameIn]
  · simp only [nameIn, List.concat_eq_append, List.getLast?_append, List.getLast?_singleton,
      Option.some_or, List.dropLast_concat, List.append_singleton_inj]
    by_cases hfront : front = above
    · simp [hfront]
    · simp [hfront]

theorem names_eq (t : Tree) (p : Path) :
    t.names p = t.entries.filterMap fun e => nameIn p.key e.1 := rfl

theorem mem_names_iff {t : Tree} {p : Path} {name : String} (hname : name ≠ "/") :
    name ∈ t.names p ↔ t.find? (p.key ++ [name]) ≠ none := by
  rw [find?_eq_lookup (isEntryKey_append hname), ← any_key_iff, names_eq, List.mem_filterMap,
    List.any_eq_true]
  refine exists_congr fun e => and_congr_right fun _ => ?_
  rw [nameIn_eq_some_iff, beq_iff_eq]

theorem filterMap_nameIn_replace (entries : List (Key × Entry)) (above key : Key) (entry : Entry) :
    (entries.map fun e => if e.1 == key then (key, entry) else e).filterMap
        (fun e => nameIn above e.1) =
      entries.filterMap fun e => nameIn above e.1 := by
  rw [List.filterMap_map]
  refine List.filterMap_congr fun e _ => ?_
  by_cases hkey : e.1 = key
  · simp [hkey]
  · simp [hkey]

theorem names_put {t : Tree} {key : Key} (h : IsEntryKey key) (entry : Entry) (p : Path) :
    (t.put key entry).names p =
      if t.find? key = none then t.names p ++ (nameIn p.key key).toList else t.names p := by
  rw [names_eq, names_eq, find?_eq_lookup h]
  by_cases hany : t.entries.any (·.1 == key) = true
  · have hentries : (t.put key entry).entries =
        t.entries.map fun e => if e.1 == key then (key, entry) else e := by
      simp only [put, if_pos hany]
    rw [if_neg (any_key_iff.mp hany), hentries, filterMap_nameIn_replace]
  · have hentries : (t.put key entry).entries = t.entries ++ [(key, entry)] := by
      simp only [put, if_neg hany]
    have hnone := lookup_eq_none_of_not_any hany
    rw [if_pos hnone, hentries, List.filterMap_append]
    cases hname : nameIn p.key key with
    | none => simp [hname]
    | some name => simp [hname]

theorem names_erase (t : Tree) (p : Path) (name : String) :
    (t.erase (p.key ++ [name])).names p = (t.names p).filter fun other => other != name := by
  rw [names_eq, names_eq, erase, List.filter_filterMap, List.filterMap_filter]
  refine List.filterMap_congr fun e _ => ?_
  cases hin : nameIn p.key e.1 with
  | none => simp
  | some other =>
      rw [nameIn_eq_some_iff.mp hin]
      by_cases hother : other = name
      · simp [hother, Option.filter]
      · simp [hother, Option.filter]

/-!
## Moving entries
-/

theorem lookup_map_move {entries : List (Key × Entry)} {source target other : Key}
    (hsource : ¬source <+: other) (htarget : ¬target <+: other) :
    (entries.map fun (k, e) =>
      if source.isPrefixOf k then (target ++ k.drop source.length, e) else (k, e)).lookup other =
        entries.lookup other := by
  induction entries with
  | nil => rfl
  | cons e rest ih =>
      rcases e with ⟨k, v⟩
      rw [List.map_cons]
      by_cases hk : source.isPrefixOf k = true
      · have hmoved : (other == target ++ k.drop source.length) = false := by
          rw [beq_eq_false_iff_ne]
          rintro rfl
          exact htarget (List.prefix_append _ _)
        have hold : (other == k) = false := by
          rw [beq_eq_false_iff_ne]
          rintro rfl
          exact hsource (List.isPrefixOf_iff_prefix.mp hk)
        simp only [hk, if_true]
        rw [List.lookup_cons, hmoved, List.lookup_cons, hold]
        exact ih
      · simp only [hk]
        rw [if_neg Bool.false_ne_true, List.lookup_cons, List.lookup_cons, ih]

theorem find?_rename {t : Tree} {old new : Path} {key : Key} (hold : ¬old.key <+: key)
    (hnew : ¬new.key <+: key) : (t.rename old new).find? key = t.find? key := by
  rw [find?, find?, rename, lookup_map_move hold hnew]

theorem names_rename {t : Tree} {old new : Path} (hlength : new.key.length = old.key.length)
    (hne : new.key ≠ old.key) : (t.rename old new).names old = [] := by
  rw [names_eq, rename, List.filterMap_map, List.filterMap_eq_nil_iff]
  rintro ⟨k, e⟩ -
  rw [← Option.not_isSome_iff_eq_none, Option.isSome_iff_exists]
  rintro ⟨name, hname⟩
  rw [Function.comp_apply] at hname
  by_cases hk : old.key.isPrefixOf k = true
  · simp only [hk, if_true] at hname
    exact hne (List.append_inj (nameIn_eq_some_iff.mp hname) hlength).1
  · simp only [hk] at hname
    rw [if_neg Bool.false_ne_true] at hname
    exact hk (List.isPrefixOf_iff_prefix.mpr ⟨[name], (nameIn_eq_some_iff.mp hname).symm⟩)

end Tree
end Roster
