import Roster.Proofs.Storage.Archive
import Roster.Proofs.Store.Preparation

/-!
# Tables told apart by their names

When no two names of tables are the same up to case, a table is found under its name and nowhere
else.  Making room for a table keeps all others, and keeps one with rows under the name of an
archive.
-/

namespace Roster

theorem Text.foldAscii_eq_self {s : String} (h : ∀ c ∈ s.toList, c.toLower = c) :
    foldAscii s = s := by
  rw [foldAscii, List.map_congr_left h, List.map_id', String.ofList_toList]

theorem Text.toLower_of_foldAscii {s : String} (h : foldAscii s = s) {c : Char}
    (hc : c ∈ s.toList) : c.toLower = c := by
  have hlist := congrArg String.toList h
  rw [foldAscii, String.toList_ofList] at hlist
  exact List.map_inj_left.mp (hlist.trans (List.map_id s.toList).symm) c hc

theorem Text.toLower_of_isDigit {c : Char} (h : c.isDigit = true) : c.toLower = c := by
  rw [Char.isDigit, Bool.and_eq_true, decide_eq_true_eq, decide_eq_true_eq] at h
  have hnot : ¬(c.val ≥ 'A'.val ∧ c.val ≤ 'Z'.val) :=
    fun hupper => absurd (UInt32.le_trans hupper.1 h.2) (by decide)
  exact dif_neg hnot

theorem Archive.foldAscii_name {stem : String} (h : Text.foldAscii stem = stem) (now : Moment)
    (taken : List String) : Text.foldAscii (name stem "" now taken) = name stem "" now taken := by
  refine Text.foldAscii_eq_self fun c hc => ?_
  rcases mem_name hc with hstem | hending | rfl | hdigit
  · exact Text.toLower_of_foldAscii h hstem
  · cases hending
  · rfl
  · exact Text.toLower_of_isDigit hdigit

namespace Database

/-- Names of tables have no capitals, and each is used once. -/
structure IsPlain (db : Database) : Prop where
  folded : ∀ name ∈ db.tableNames, Text.foldAscii name = name
  nodup : db.tableNames.Nodup

variable {db : Database} {name other : String} {t : Table}

theorem isPlain_empty : IsPlain {} :=
  ⟨List.forall_mem_nil _, List.nodup_nil⟩

theorem mem_tableNames_of (h : (name, t) ∈ db.tables) : name ∈ db.tableNames :=
  List.mem_map_of_mem h

theorem IsPlain.sameName_eq (h : db.IsPlain) (hname : Text.foldAscii name = name)
    {table : String × Table} (hmem : table ∈ db.tables) :
    sameName table.1 name = (table.1 == name) := by
  have hfolded := h.folded table.1 (List.mem_map_of_mem hmem)
  rw [Bool.eq_iff_iff, sameName_iff, beq_iff_eq, hfolded, hname]

theorem IsPlain.eq_of_mem (h : db.IsPlain) {t' : Table} (hmem : (name, t) ∈ db.tables)
    (hmem' : (name, t') ∈ db.tables) : t = t' :=
  (Prod.mk.inj (List.inj_on_of_nodup_map h.nodup hmem hmem' rfl)).2

theorem IsPlain.table?_eq_some_iff (h : db.IsPlain) (hname : Text.foldAscii name = name) :
    db.table? name = some t ↔ (name, t) ∈ db.tables := by
  have hfound : ∀ {t : Table}, db.table? name = some t → (name, t) ∈ db.tables := by
    intro t htable
    rcases Option.map_eq_some_iff.mp htable with ⟨⟨other, t⟩, hfind, rfl⟩
    have hmem := List.mem_of_find?_eq_some hfind
    have hsame := List.find?_some hfind
    rw [h.sameName_eq hname hmem, beq_iff_eq] at hsame
    exact hsame ▸ hmem
  refine ⟨hfound, fun hmem => ?_⟩
  cases htable : db.table? name with
  | some t' => rw [h.eq_of_mem hmem (hfound htable)]
  | none =>
      have hnone := List.find?_eq_none.mp (Option.map_eq_none_iff.mp htable) (name, t) hmem
      rw [h.sameName_eq hname hmem, beq_self_eq_true] at hnone
      exact absurd rfl hnone

/-!
## One table is changed, dropped, renamed or added
-/

theorem tableNames_update (db : Database) (name : String) (f : Table → Table) :
    (db.update name f).tableNames = db.tableNames := by
  rw [tableNames, update, List.map_map, tableNames]
  refine List.map_congr_left fun table _ => ?_
  dsimp only [Function.comp]
  split <;> rfl

theorem IsPlain.update (h : db.IsPlain) (name : String) (f : Table → Table) :
    (db.update name f).IsPlain where
  folded := by
    rw [tableNames_update]
    exact h.folded
  nodup := by
    rw [tableNames_update]
    exact h.nodup

theorem IsPlain.mem_update (h : db.IsPlain) (hname : Text.foldAscii name = name)
    (hne : other ≠ name) (f : Table → Table) (hmem : (other, t) ∈ db.tables) :
    (other, t) ∈ (db.update name f).tables := by
  refine List.mem_map.mpr ⟨(other, t), hmem, if_neg ?_⟩
  rw [h.sameName_eq hname hmem, beq_iff_eq]
  exact hne

theorem IsPlain.drop (h : db.IsPlain) (name : String) : (db.drop name).IsPlain :=
  have hnames : (db.drop name).tableNames.Sublist db.tableNames := List.filter_sublist.map _
  ⟨fun other hother => h.folded other (hnames.subset hother), h.nodup.sublist hnames⟩

theorem IsPlain.mem_drop_iff (h : db.IsPlain) (hname : Text.foldAscii name = name) :
    (other, t) ∈ (db.drop name).tables ↔ (other, t) ∈ db.tables ∧ other ≠ name := by
  rw [Database.drop, List.mem_filter]
  refine and_congr_right fun hmem => ?_
  rw [h.sameName_eq hname hmem, Bool.not_eq_true', beq_eq_false_iff_ne]

theorem IsPlain.mem_rename_iff (h : db.IsPlain) (hname : Text.foldAscii name = name)
    {target : String} :
    (other, t) ∈ (db.rename name target).tables ↔
      (name, t) ∈ db.tables ∧ other = target ∨ (other, t) ∈ db.tables ∧ other ≠ name := by
  have hrenamed : ∀ {table : String × Table}, table ∈ db.tables →
      (if sameName table.1 name then (target, table.2) else table) =
        if table.1 = name then (target, table.2) else table := by
    intro table hmem
    rw [h.sameName_eq hname hmem]
    exact if_congr beq_iff_eq rfl rfl
  rw [rename, List.mem_map]
  constructor
  · rintro ⟨⟨found, t'⟩, hmem, heq⟩
    rw [hrenamed hmem] at heq
    split at heq
    · rename_i hfound
      cases heq
      exact Or.inl ⟨hfound ▸ hmem, rfl⟩
    · rename_i hfound
      cases heq
      exact Or.inr ⟨hmem, hfound⟩
  · rintro (⟨hmem, rfl⟩ | ⟨hmem, hne⟩)
    · exact ⟨_, hmem, by rw [hrenamed hmem, if_pos rfl]⟩
    · exact ⟨_, hmem, by rw [hrenamed hmem, if_neg hne]⟩

theorem IsPlain.rename (h : db.IsPlain) (hname : Text.foldAscii name = name) {target : String}
    (htarget : Text.foldAscii target = target) (hfree : target ∉ db.tableNames) :
    (db.rename name target).IsPlain where
  folded := by
    intro other hother
    rcases List.mem_map.mp hother with ⟨⟨found, t⟩, hmem, rfl⟩
    rcases (h.mem_rename_iff hname).mp hmem with ⟨-, rfl⟩ | ⟨hmem, -⟩
    · exact htarget
    · exact h.folded _ (mem_tableNames_of hmem)
  nodup := by
    rw [tableNames, Database.rename, List.map_map]
    refine List.Nodup.map_on ?_ h.nodup.of_map
    rintro ⟨a, t⟩ ha ⟨b, t'⟩ hb heq
    dsimp only [Function.comp] at heq
    rw [h.sameName_eq hname ha, h.sameName_eq hname hb] at heq
    have hsame : a = b := by
      split at heq
      · rename_i hfound
        split at heq
        · rename_i hother
          exact (beq_iff_eq.mp hfound).trans (beq_iff_eq.mp hother).symm
        · obtain rfl : target = b := heq
          exact absurd (mem_tableNames_of hb) hfree
      · split at heq
        · obtain rfl : a = target := heq
          exact absurd (mem_tableNames_of ha) hfree
        · exact heq
    subst hsame
    rw [h.eq_of_mem ha hb]

theorem IsPlain.add (h : db.IsPlain) (hname : Text.foldAscii name = name)
    (hfree : name ∉ db.tableNames) (t : Table) : (db.add name t).IsPlain := by
  have hnames : (db.add name t).tableNames = db.tableNames ++ [name] := List.map_append
  constructor
  · rw [hnames, List.forall_mem_append, List.forall_mem_singleton]
    exact ⟨h.folded, hname⟩
  · rw [hnames, List.nodup_append_comm]
    exact List.nodup_cons.mpr ⟨hfree, h.nodup⟩

/-!
## Room for a table
-/

/-- What making room for a table does: nothing, or it is dropped, or it gets another name. -/
theorem IsPlain.clear_cases (h : db.IsPlain) (hname : Text.foldAscii name = name) (now : Moment) :
    name ∉ db.tableNames ∧ db.clear name now = (none, db) ∨
      ∃ t, (name, t) ∈ db.tables ∧
        (t.rows = [] ∧ db.clear name now = (none, db.drop name) ∨
          t.rows ≠ [] ∧ ∃ target, Text.foldAscii target = target ∧ target ∉ db.tableNames ∧
            db.clear name now = (some target, db.rename name target)) := by
  rw [Database.clear]
  by_cases hmem : name ∈ db.tableNames
  · rcases List.mem_map.mp hmem with ⟨⟨_, t⟩, ht, rfl⟩
    rw [if_pos (List.contains_iff_mem.mpr hmem), (h.table?_eq_some_iff hname).mpr ht,
      Option.any_some]
    refine Or.inr ⟨t, ht, ?_⟩
    split
    · rename_i hempty
      exact Or.inl ⟨List.isEmpty_iff.mp hempty, rfl⟩
    · rename_i hrows
      exact Or.inr ⟨fun hnil => hrows (List.isEmpty_iff.mpr hnil), _,
        Archive.foldAscii_name hname now _, Archive.name_not_mem _ _ now _, rfl⟩
  · exact Or.inl ⟨hmem, if_neg fun hcontains => hmem (List.contains_iff_mem.mp hcontains)⟩

theorem IsPlain.clear (h : db.IsPlain) (hname : Text.foldAscii name = name) (now : Moment) :
    (db.clear name now).2.IsPlain ∧ name ∉ (db.clear name now).2.tableNames ∧
      ∀ other ≠ name, ∀ t, (other, t) ∈ db.tables →
        (other, t) ∈ (db.clear name now).2.tables := by
  rcases h.clear_cases hname now with
    ⟨hfree, heq⟩ | ⟨-, -, ⟨-, heq⟩ | ⟨-, target, htarget, hfree, heq⟩⟩
  · rw [heq]
    exact ⟨h, hfree, fun _ _ _ hmem => hmem⟩
  · rw [heq]
    refine ⟨h.drop name, fun hmem => ?_, fun _ hne _ hmem => (h.mem_drop_iff hname).mpr ⟨hmem, hne⟩⟩
    rcases List.mem_map.mp hmem with ⟨⟨_, t⟩, ht, rfl⟩
    exact ((h.mem_drop_iff hname).mp ht).2 rfl
  · rw [heq]
    refine ⟨h.rename hname htarget hfree, fun hmem => ?_,
      fun _ hne _ hmem => (h.mem_rename_iff hname).mpr (Or.inr ⟨hmem, hne⟩)⟩
    rcases List.mem_map.mp hmem with ⟨⟨_, t⟩, ht, rfl⟩
    rcases (h.mem_rename_iff hname).mp ht with ⟨hold, rfl⟩ | ⟨-, hne⟩
    · exact hfree (mem_tableNames_of hold)
    · exact hne rfl

theorem IsPlain.isSome_clear (h : db.IsPlain) (hname : Text.foldAscii name = name) (now : Moment) :
    (db.clear name now).1.isSome = true ↔ ∃ t, (name, t) ∈ db.tables ∧ t.rows ≠ [] := by
  rcases h.clear_cases hname now with
    ⟨hfree, heq⟩ | ⟨t, ht, ⟨hrows, heq⟩ | ⟨hrows, target, -, -, heq⟩⟩
  · rw [heq]
    exact iff_of_false Bool.false_ne_true fun ⟨_, ht, _⟩ => hfree (mem_tableNames_of ht)
  · rw [heq]
    exact iff_of_false Bool.false_ne_true fun ⟨t', ht', hne⟩ => hne (h.eq_of_mem ht' ht ▸ hrows)
  · rw [heq]
    exact iff_of_true rfl ⟨t, ht, hrows⟩

theorem IsPlain.mem_clear (h : db.IsPlain) (hname : Text.foldAscii name = name) {now : Moment}
    {target : String} (htarget : (db.clear name now).1 = some target) :
    target ∉ db.tableNames ∧ target ≠ name ∧
      ∀ t, (name, t) ∈ db.tables → (target, t) ∈ (db.clear name now).2.tables := by
  rcases h.clear_cases hname now with
    ⟨-, heq⟩ | ⟨t, ht, ⟨-, heq⟩ | ⟨-, archive, -, hfree, heq⟩⟩
  · rw [heq] at htarget
    cases htarget
  · rw [heq] at htarget
    cases htarget
  · rw [heq] at htarget ⊢
    cases htarget
    refine ⟨hfree, fun hsame => hfree (hsame ▸ mem_tableNames_of ht), fun t' ht' => ?_⟩
    exact (h.mem_rename_iff hname).mpr (Or.inl ⟨ht', rfl⟩)

end Database

theorem TableStore.foldAscii_tableName : Text.foldAscii tableName = tableName := by
  decide

end Roster
