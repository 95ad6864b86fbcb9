import Roster.Proofs.Store.Preparation

/-!
# Trees stay sound

A tree stays sound when an entry is put into a directory that is there.
-/

namespace Roster

namespace Path

theorem mem_of_mem_resolve {above parts : List String} {part : String}
    (h : part ∈ resolve above parts) : part ∈ above ∨ part ∈ parts := by
  induction parts generalizing above with
  | nil => exact Or.inl (List.mem_reverse.mp h)
  | cons first rest ih =>
      rw [resolve] at h
      split at h
      · rcases ih h with habove | hrest
        · exact Or.inl (List.mem_of_mem_drop habove)
        · exact Or.inr (List.mem_cons_of_mem _ hrest)
      · rcases ih h with habove | hrest
        · rcases List.mem_cons.mp habove with rfl | habove
          · exact Or.inr List.mem_cons_self
          · exact Or.inl habove
        · exact Or.inr (List.mem_cons_of_mem _ hrest)

theorem IsPlain.exists_key_eq {p : Path} (h : p.IsPlain) (hkey : Tree.IsEntryKey p.key) :
    ∃ above name, p.key = above ++ [name] ∧ name ≠ "/" := by
  have hparts : ∀ part ∈ resolve [] p.parts, part ≠ "/" := by
    rintro part hpart rfl
    rcases mem_of_mem_resolve hpart with hnil | hmem
    · cases hnil
    · exact (h.parts "/" hmem).2.2 (by decide)
  rcases List.eq_nil_or_concat (resolve [] p.parts) with hnil | ⟨front, last, hlast⟩
  · rcases hkey with ⟨hempty, hroot⟩
    rw [key, hnil, List.append_nil] at hempty hroot
    split at hroot
    · rename_i hrelative
      rw [if_pos hrelative] at hempty
      exact absurd rfl hempty
    · exact absurd rfl hroot
  · refine ⟨(if p.root == "" then [] else ["/"]) ++ front, last, ?_, ?_⟩
    · rw [key, hlast, List.concat_eq_append, List.append_assoc]
    · exact hparts last (by rw [hlast, List.concat_eq_append]; simp)

theorem IsPlain.parent {p : Path} (h : p.IsPlain) : p.parent.IsPlain :=
  ⟨h.root, fun part hpart => h.parts part (List.mem_of_mem_dropLast hpart)⟩

end Path

namespace Tree

variable {t t' : Tree}

theorem IsSound.put (h : t.IsSound) {above : Key} {name : String} (hname : name ≠ "/")
    (habove : t.find? above = some .directory) {entry : Entry}
    (hentry : entry = .directory ∨ t.find? (above ++ [name]) ≠ some .directory)
    (hdatabase : ∀ serial db, entry = .database serial db → t.removed.lookup serial = none ∧
      ∀ table ∈ db.tables, sameName table.1 TableStore.tableName = true →
        table.1 = TableStore.tableName) :
    (t.put (above ++ [name]) entry).IsSound where
  rooted := by
    have hkey : IsEntryKey (above ++ [name]) := isEntryKey_append hname
    intro key other hother hfind
    -- What is new stands in a directory, and replaces none unless it is one itself.
    have hbelow : t.find? key = some .directory := by
      by_cases hsame : key ++ [other] = above ++ [name]
      · rw [(List.append_singleton_inj.mp hsame).1]
        exact habove
      · rw [find?_put_of_ne hkey entry hsame] at hfind
        exact h.rooted key other hother hfind
    rw [find?_put hkey]
    split
    · rename_i heq
      rw [heq] at hbelow
      rcases hentry with rfl | hne
      · rfl
      · exact absurd hbelow hne
    · exact hbelow
  present := by
    intro key serial db hfind
    rw [find?_put (isEntryKey_append hname)] at hfind
    split at hfind
    · exact (hdatabase serial db (Option.some.inj hfind)).1
    · exact h.present key serial db hfind
  fresh := h.fresh
  tables := by
    intro key serial db hfind
    rw [find?_put (isEntryKey_append hname)] at hfind
    split at hfind
    · exact (hdatabase serial db (Option.some.inj hfind)).2
    · exact h.tables key serial db hfind

theorem find?_dropLast_of_wayFault {key : Key} (hkey : key ≠ []) (h : t.wayFault key = none) :
    t.find? key.dropLast = some .directory := by
  rcases List.eq_nil_or_concat key with rfl | ⟨front, last, rfl⟩
  · exact absurd rfl hkey
  · rw [wayFault, List.concat_eq_append, List.length_append, List.length_singleton, wayFault.go] at h
    rw [List.concat_eq_append]
    split at h
    · assumption
    · cases h
    · cases h

theorem IsSound.makeOne (h : t.IsSound) {p : Path} (hplain : p.IsPlain)
    (hmake : t.makeOne p = .ok t') : t'.IsSound := by
  unfold Tree.makeOne at hmake
  split at hmake
  · cases hmake
  · rename_i hnone
    split at hmake
    · cases hmake
    · rename_i hway
      cases hmake
      have hentryKey := isEntryKey_of_find?_eq_none hnone
      have habove := find?_dropLast_of_wayFault hentryKey.1 hway
      rcases hplain.exists_key_eq hentryKey with ⟨above, name, hkey, hname⟩
      rw [hkey, List.dropLast_concat] at habove
      rw [hkey]
      exact h.put hname habove (Or.inl rfl) fun _ _ heq => nomatch heq

/-- What every directory that is made keeps is kept when all of them are made.  The last one that is
made, if any, is the one that was asked for. -/
theorem makeAll_keeps {P : Tree → Prop}
    (hone : ∀ {t t' : Tree} {p : Path}, p.IsPlain → P t → t.makeOne p = .ok t' → P t') {p : Path}
    (hplain : p.IsPlain) (ht : P t) (hmake : t.makeAll p = .ok t') :
    P t' ∧ (t' = t ∨ ∃ t₁, P t₁ ∧ t₁.makeOne p = .ok t') := by
  have hgo : ∀ bound {t t' : Tree} {p : Path}, p.IsPlain → P t → makeAll.go bound t p = .ok t' →
      P t' ∧ (t' = t ∨ ∃ t₁, P t₁ ∧ t₁.makeOne p = .ok t') := by
    intro bound
    induction bound with
    | zero =>
        intro t t' p _ ht hmake
        cases hmake
        exact ⟨ht, Or.inl rfl⟩
    | succ bound ih =>
        intro t t' p hplain ht hmake
        rw [makeAll.go] at hmake
        split at hmake
        · rename_i hmade
          cases hmake
          exact ⟨hone hplain ht hmade, Or.inr ⟨t, ht, hmade⟩⟩
        · split at hmake
          · rcases Steps.bind_eq_ok.mp hmake with ⟨t₁, habove, hmade⟩
            have ht₁ := (ih hplain.parent ht habove).1
            exact ⟨hone hplain ht₁ hmade, Or.inr ⟨t₁, ht₁, hmade⟩⟩
          · split at hmake
            · cases hmake
              exact ⟨ht, Or.inl rfl⟩
            · cases hmake
  exact hgo _ hplain ht hmake

theorem IsSound.makeAll (h : t.IsSound) {p : Path} (hplain : p.IsPlain)
    (hmake : t.makeAll p = .ok t') : t'.IsSound :=
  (makeAll_keeps (fun hplain h hmade => h.makeOne hplain hmade) hplain h hmake).1

end Tree
end Roster
