import Roster.Proofs.Storage.Sound

/-!
# Trees stay tidy

In a tidy tree nothing is below what is no directory, and numbers of databases that were removed
are not used again.  Whatever stores and setups do with entries leaves a tree tidy.  An entry that
is moved to a free name is found there with all that it holds, and everything else where it was.
-/

namespace Roster
namespace Tree

variable {t t' : Tree}

/-- A sound tree in which names are no separators and numbers to come are new. -/
structure IsTidy (t : Tree) : Prop extends IsSound t where
  named : ∀ key, t.find? (key ++ ["/"]) ≠ none → key = []
  later : ∀ serial, t.nextSerial ≤ serial → t.removed.lookup serial = none

theorem find?_empty {key : Key} (hkey : IsEntryKey key) : find? {} key = none :=
  find?_eq_lookup hkey

theorem isTidy_empty : IsTidy {} where
  toIsSound := isSound_empty
  named := by
    intro key hfind
    by_contra hne
    exact hfind (find?_empty ⟨by simp, fun heq => hne (by simpa using heq)⟩)
  later := fun _ _ => rfl

/-!
## What is below a key
-/

theorem IsTidy.find?_of_below (h : t.IsTidy) {above rest : Key} (hne : rest ≠ [])
    (hfind : t.find? (above ++ rest) ≠ none) : t.find? above = some .directory := by
  induction rest using List.reverseRecOn with
  | nil => exact absurd rfl hne
  | append_singleton front last ih =>
      rw [← List.append_assoc] at hfind
      have hthere : t.find? (above ++ front) = some .directory := by
        by_cases hlast : last = "/"
        · subst hlast
          rw [h.named _ hfind]
          rfl
        · exact h.rooted _ last hlast hfind
      by_cases hfront : front = []
      · rwa [hfront, List.append_nil] at hthere
      · exact ih hfront fun hnone => by simp [hnone] at hthere

theorem IsTidy.find?_below (h : t.IsTidy) {above rest : Key}
    (habove : t.find? above ≠ some .directory) (hne : rest ≠ []) :
    t.find? (above ++ rest) = none := by
  by_contra hfind
  exact habove (h.find?_of_below hne hfind)

theorem isEntryKey_append_of {above : Key} (h : IsEntryKey above) (rest : Key) :
    IsEntryKey (above ++ rest) := by
  refine ⟨fun hnil => h.1 (List.append_eq_nil_iff.mp hnil).1, fun heq => ?_⟩
  cases above with
  | nil => exact h.1 rfl
  | cons first more =>
      rw [List.cons_append, List.cons.injEq, List.append_eq_nil_iff] at heq
      exact h.2 (by rw [heq.1, heq.2.1])

/-!
## Single entries
-/

theorem IsTidy.put (h : t.IsTidy) {above : Key} {name : String} (hname : name ≠ "/")
    (habove : t.find? above = some .directory) {entry : Entry}
    (hentry : entry = .directory ∨ t.find? (above ++ [name]) ≠ some .directory)
    (hdatabase : ∀ serial db, entry = .database serial db → t.removed.lookup serial = none ∧
      ∀ table ∈ db.tables, sameName table.1 TableStore.tableName = true →
        table.1 = TableStore.tableName) :
    (t.put (above ++ [name]) entry).IsTidy where
  toIsSound := h.toIsSound.put hname habove hentry hdatabase
  named := by
    intro key hfind
    have hne : key ++ ["/"] ≠ above ++ [name] := by
      rw [Ne, List.append_singleton_inj, not_and]
      exact fun _ heq => hname heq.symm
    rw [find?_put_of_ne (isEntryKey_append hname) entry hne] at hfind
    exact h.named key hfind
  later := h.later

theorem IsTidy.erase (h : t.IsTidy) {key : Key} {octets : ByteArray}
    (hfile : t.find? key = some (.file octets)) : (t.erase key).IsTidy := by
  have hkey : IsEntryKey key := isEntryKey_of_find? hfile fun heq => nomatch heq
  have hremoved : (t.erase key).removed = t.removed := by
    rw [Tree.erase, hfile]
  have hfind : ∀ {other : Key} {entry : Entry}, (t.erase key).find? other = some entry →
      t.find? other = some entry := by
    intro other entry hother
    rw [find?_erase hkey] at hother
    split at hother
    · cases hother
    · exact hother
  refine { rooted := ?_, present := ?_, fresh := ?_, tables := ?_, named := ?_, later := ?_ }
  · intro above name hname hbelow
    rcases Option.ne_none_iff_exists'.mp hbelow with ⟨entry, hentry⟩
    have habove := h.rooted above name hname (by rw [hfind hentry]; exact Option.some_ne_none entry)
    rw [find?_erase hkey, if_neg]
    · exact habove
    · rintro rfl
      rw [hfile] at habove
      cases habove
  · intro other serial db hother
    rw [hremoved]
    exact h.present other serial db (hfind hother)
  · rw [hremoved]
    exact h.fresh
  · exact fun other serial db hother => h.tables other serial db (hfind hother)
  · intro above hbelow
    rcases Option.ne_none_iff_exists'.mp hbelow with ⟨entry, hentry⟩
    exact h.named above (by rw [hfind hentry]; exact Option.some_ne_none entry)
  · rw [hremoved]
    exact h.later

theorem IsTidy.number (h : t.IsTidy) {n : Nat} (hn : t.nextSerial ≤ n) :
    ({ t with nextSerial := n } : Tree).IsTidy where
  rooted := h.rooted
  present := h.present
  fresh := h.later n hn
  tables := h.tables
  named := h.named
  later := fun serial hserial => h.later serial (hn.trans hserial)

/-!
## Directories that are made
-/

theorem IsTidy.makeOne (h : t.IsTidy) {p : Path} (hplain : p.IsPlain)
    (hmake : t.makeOne p = .ok t') : t'.IsTidy where
  toIsSound := h.toIsSound.makeOne hplain hmake
  named := by
    rcases makeOne_eq_ok hmake with ⟨hnone, rfl⟩
    have hkey := isEntryKey_of_find?_eq_none hnone
    rcases hplain.exists_key_eq hkey with ⟨above, name, hname, hne⟩
    intro key hfind
    have hother : key ++ ["/"] ≠ p.key := by
      rw [hname, Ne, List.append_singleton_inj, not_and]
      exact fun _ heq => hne heq.symm
    rw [find?_put_of_ne hkey _ hother] at hfind
    exact h.named key hfind
  later := by
    rcases makeOne_eq_ok hmake with ⟨-, rfl⟩
    exact h.later

/-- Making a directory keeps what is there and puts nothing into the directory. -/
theorem IsTidy.makeAll (h : t.IsTidy) {p : Path} (hplain : p.IsPlain)
    (hmake : t.makeAll p = .ok t') :
    t'.IsTidy ∧ (∀ key, t.find? key ≠ none → t'.find? key = t.find? key) ∧
      ∀ rest, rest ≠ [] → t'.find? (p.key ++ rest) = t.find? (p.key ++ rest) := by
  have hone : ∀ {s s' : Tree} {p : Path}, p.IsPlain →
      (s.IsTidy ∧ ∀ key, t.find? key ≠ none → s.find? key = t.find? key) → s.makeOne p = .ok s' →
      s'.IsTidy ∧ ∀ key, t.find? key ≠ none → s'.find? key = t.find? key := by
    rintro s s' p hplain ⟨htidy, hkept⟩ hmade
    refine ⟨htidy.makeOne hplain hmade, fun key hkey => ?_⟩
    rcases makeOne_eq_ok hmade with ⟨hnone, rfl⟩
    rw [find?_put_of_ne (isEntryKey_of_find?_eq_none hnone), hkept key hkey]
    rintro rfl
    exact hkey ((hkept _ hkey).symm.trans hnone)
  rcases makeAll_keeps hone hplain ⟨h, fun _ _ => rfl⟩ hmake with ⟨⟨htidy, hkept⟩, hlast⟩
  refine ⟨htidy, hkept, fun rest hrest => ?_⟩
  rcases hlast with rfl | ⟨t₁, ⟨htidy₁, hkept₁⟩, hmade⟩
  · rfl
  · rcases makeOne_eq_ok hmade with ⟨hnone, rfl⟩
    have hbelow : t₁.find? (p.key ++ rest) = none :=
      htidy₁.find?_below (by rw [hnone]; exact fun heq => nomatch heq) hrest
    have hne : p.key ++ rest ≠ p.key := fun heq => hrest (List.append_right_eq_self.mp heq)
    rw [find?_put_of_ne (isEntryKey_of_find?_eq_none hnone) _ hne, hbelow]
    by_contra hthere
    exact hthere ((hkept₁ _ (Ne.symm hthere)).symm.trans hbelow).symm

/-!
## Moved entries
-/

section Moves

variable {entries : List (Key × Entry)} {source target : Key}

theorem lookup_map_move_target {rest : Key} (hfree : entries.lookup (target ++ rest) = none) :
    (entries.map fun (k, e) =>
      if source.isPrefixOf k then (target ++ k.drop source.length, e) else (k, e)).lookup
        (target ++ rest) = entries.lookup (source ++ rest) := by
  induction entries with
  | nil => rfl
  | cons e more ih =>
      rcases e with ⟨k, v⟩
      rw [List.lookup_cons] at hfree
      split at hfree
      · cases hfree
      · rename_i hk
        have hmore := ih hfree
        rw [List.map_cons]
        by_cases hfront : source.isPrefixOf k = true
        · rcases List.isPrefixOf_iff_prefix.mp hfront with ⟨tail, rfl⟩
          have hsame : (target ++ rest == target ++ tail) = (source ++ rest == source ++ tail) := by
            rw [Bool.eq_iff_iff, beq_iff_eq, beq_iff_eq, List.append_right_inj,
              List.append_right_inj]
          simp only [hfront, if_true, List.drop_left]
          rw [List.lookup_cons, List.lookup_cons, hmore, hsame]
        · have hother : (source ++ rest == k) = false := by
            rw [beq_eq_false_iff_ne]
            rintro rfl
            exact hfront (List.isPrefixOf_iff_prefix.mpr (List.prefix_append _ _))
          simp only [hfront]
          rw [if_neg Bool.false_ne_true, List.lookup_cons, List.lookup_cons, hk, hother, hmore]

theorem lookup_map_move_source {other : Key} (hsource : source <+: other)
    (htarget : ¬target <+: other) :
    (entries.map fun (k, e) =>
      if source.isPrefixOf k then (target ++ k.drop source.length, e) else (k, e)).lookup other =
        none := by
  rw [List.lookup_eq_none_iff]
  intro e he
  rcases List.mem_map.mp he with ⟨⟨k, v⟩, -, rfl⟩
  rw [bne_iff_ne]
  dsimp only
  split
  · rintro rfl
    exact htarget (List.prefix_append _ _)
  · rename_i hfront
    rintro rfl
    exact hfront (List.isPrefixOf_iff_prefix.mpr hsource)

theorem IsTidy.find?_rename (h : t.IsTidy) {old new : Path} (hold : IsEntryKey old.key)
    (hfree : t.find? new.key = none) (key : Key) :
    (t.rename old new).find? key =
      if new.key <+: key then t.find? (old.key ++ key.drop new.key.length)
      else if old.key <+: key then none else t.find? key := by
  have hnew := isEntryKey_of_find?_eq_none hfree
  split
  · rename_i hbelow
    rcases hbelow with ⟨rest, rfl⟩
    have hnone : t.find? (new.key ++ rest) = none := by
      cases rest with
      | nil => rwa [List.append_nil]
      | cons name more =>
          exact h.find?_below (by rw [hfree]; exact fun heq => nomatch heq) (List.cons_ne_nil _ _)
    rw [List.drop_left, find?_eq_lookup (isEntryKey_append_of hnew rest),
      find?_eq_lookup (isEntryKey_append_of hold rest)]
    rw [find?_eq_lookup (isEntryKey_append_of hnew rest)] at hnone
    exact lookup_map_move_target hnone
  · rename_i habove
    split
    · rename_i hbelow
      have hkey : IsEntryKey key := by
        rcases hbelow with ⟨rest, rfl⟩
        exact isEntryKey_append_of hold rest
      rw [find?_eq_lookup hkey]
      exact lookup_map_move_source hbelow habove
    · rename_i hapart
      exact Tree.find?_rename hapart habove

/-- An entry that is moved to a free name of its directory leaves the tree tidy. -/
theorem IsTidy.rename (h : t.IsTidy) {above : Key} {a b : String} {old new : Path}
    (hold : old.key = above ++ [a]) (hnew : new.key = above ++ [b]) (ha : a ≠ "/") (hb : b ≠ "/")
    (hthere : t.find? old.key ≠ none) (hfree : t.find? new.key = none) :
    (t.rename old new).IsTidy := by
  have hfind := h.find?_rename (hold ▸ isEntryKey_append ha) hfree
  have hlonger : ∀ name, ¬above ++ [name] <+: above := by
    intro name hfront
    have hlength := hfront.length_le
    rw [List.length_append, List.length_singleton] at hlength
    omega
  have hsome : ∀ {key : Key} {entry : Entry}, (t.rename old new).find? key = some entry →
      ∃ other, t.find? other = some entry := by
    intro key entry hkey
    rw [hfind] at hkey
    split at hkey
    · exact ⟨_, hkey⟩
    · split at hkey
      · cases hkey
      · exact ⟨_, hkey⟩
  -- Whatever is found after the move was found before it, under its own key or below the old one,
  -- so each field comes from the one for the tree before.
  refine { rooted := ?_, present := ?_, fresh := h.fresh, tables := ?_, named := ?_, later := h.later }
  · intro key name hname hbelow
    rw [hfind] at hbelow ⊢
    split at hbelow
    · rename_i hfront
      rcases List.prefix_concat_iff.mp hfront with heq | hfront
      · rw [hnew, List.append_singleton_inj] at heq
        rw [← heq.1, if_neg (hnew ▸ hlonger b), if_neg (hold ▸ hlonger a)]
        exact h.rooted above a ha (hold ▸ hthere)
      · rcases hfront with ⟨rest, rfl⟩
        rw [List.append_assoc, List.drop_left, ← List.append_assoc] at hbelow
        rw [if_pos (List.prefix_append _ _), List.drop_left]
        exact h.rooted _ name hname hbelow
    · rename_i hfront
      split at hbelow
      · exact absurd rfl hbelow
      · rename_i hapart
        rw [if_neg fun hpre => hfront (hpre.trans (List.prefix_append _ _)),
          if_neg fun hpre => hapart (hpre.trans (List.prefix_append _ _))]
        exact h.rooted key name hname hbelow
  · intro key serial db hkey
    rcases hsome hkey with ⟨other, hother⟩
    exact h.present other serial db hother
  · intro key serial db hkey
    rcases hsome hkey with ⟨other, hother⟩
    exact h.tables other serial db hother
  · intro key hbelow
    rw [hfind] at hbelow
    split at hbelow
    · rename_i hfront
      rcases List.prefix_concat_iff.mp hfront with heq | hfront
      · rw [hnew, List.append_singleton_inj] at heq
        exact absurd heq.2 hb
      · rcases hfront with ⟨rest, rfl⟩
        rw [List.append_assoc, List.drop_left, ← List.append_assoc] at hbelow
        have hnil := h.named _ hbelow
        rw [hold] at hnil
        simp at hnil
    · split at hbelow
      · exact absurd rfl hbelow
      · exact h.named key hbelow

end Moves

end Tree
end Roster
