import Mathlib.Data.List.Nodup
import Mathlib.Data.List.Perm.Subperm
import Roster.Proofs.Number.Numeral
import Roster.Storage.Archive

/-!
# Names of archives

The name of an archive is free.  It begins with the stem and a low line, so it is never the name of
what is archived.
-/

namespace Roster
namespace Archive

theorem candidate_inj {base ending : String} {m n : Nat}
    (h : candidate base ending m = candidate base ending n) : m = n := by
  have hlonger : ∀ n, candidate base ending 0 ≠ candidate base ending (n + 1) := by
    intro n heq
    have hlength := congrArg (fun name => name.toList.length) heq
    simp only [candidate, String.toList_append, List.length_append] at hlength
    have hline : "_".toList.length = 1 := rfl
    omega
  cases m with
  | zero =>
      cases n with
      | zero => rfl
      | succ n => exact absurd h (hlonger n)
  | succ m =>
      cases n with
      | zero => exact absurd h.symm (hlonger m)
      | succ n =>
          have hnumber := (String.append_left_inj ending).mp h
          rw [Numeral.toString_nat_inj ((String.append_right_inj (base ++ "_")).mp hnumber)]

theorem exists_free (base ending : String) (taken : List String) :
    ∃ n ≤ taken.length, candidate base ending n ∉ taken := by
  by_contra hnone
  push Not at hnone
  have hnodup : ((List.range (taken.length + 1)).map (candidate base ending)).Nodup :=
    List.nodup_range.map fun m n h => candidate_inj h
  have hsubset : (List.range (taken.length + 1)).map (candidate base ending) ⊆ taken := by
    intro name hname
    rcases List.mem_map.mp hname with ⟨n, hn, rfl⟩
    exact hnone n (Nat.lt_succ_iff.mp (List.mem_range.mp hn))
  have hlength := (hnodup.subperm hsubset).length_le
  rw [List.length_map, List.length_range] at hlength
  omega

theorem firstFree_spec (base ending : String) (taken : List String) :
    firstFree base ending taken ∉ taken ∧
      ∃ n, firstFree base ending taken = candidate base ending n := by
  rw [firstFree]
  cases hfind : ((List.range (taken.length + 1)).map (candidate base ending)).find?
      (!taken.contains ·) with
  | none =>
      rcases exists_free base ending taken with ⟨n, hn, hfree⟩
      have htaken := List.find?_eq_none.mp hfind (candidate base ending n)
        (List.mem_map_of_mem (List.mem_range.mpr (Nat.lt_succ_iff.mpr hn)))
      exact absurd (by simpa using htaken) hfree
  | some found =>
      rcases List.mem_map.mp (List.mem_of_find?_eq_some hfind) with ⟨n, -, hn⟩
      have hfree := List.find?_some hfind
      exact ⟨by simpa using hfree, n, hn.symm⟩

theorem name_not_mem (stem ending : String) (now : Moment) (taken : List String) :
    name stem ending now taken ∉ taken :=
  (firstFree_spec _ ending taken).1

theorem exists_name_eq (stem ending : String) (now : Moment) (taken : List String) :
    ∃ rest, name stem ending now taken = stem ++ "_" ++ rest := by
  rcases (firstFree_spec (stem ++ "_" ++ now.archiveStamp) ending taken).2 with ⟨n, hname⟩
  rw [name, hname]
  cases n with
  | zero => exact ⟨now.archiveStamp ++ ending, String.append_assoc⟩
  | succ n =>
      refine ⟨now.archiveStamp ++ ("_" ++ toString (n + 1) ++ ending), ?_⟩
      simp only [candidate, String.append_assoc]

theorem length_lt_name (stem ending : String) (now : Moment) (taken : List String) :
    stem.toList.length < (name stem ending now taken).toList.length := by
  rcases exists_name_eq stem ending now taken with ⟨rest, hname⟩
  rw [hname, String.toList_append, String.toList_append, List.length_append, List.length_append]
  have hline : "_".toList.length = 1 := rfl
  omega

theorem name_ne {stem : String} (h : 2 ≤ stem.toList.length) (ending : String) (now : Moment)
    (taken : List String) :
    name stem ending now taken ≠ stem ∧ name stem ending now taken ≠ ".." ∧
      name stem ending now taken ≠ "/" := by
  have hlength := length_lt_name stem ending now taken
  refine ⟨fun heq => ?_, fun heq => ?_, fun heq => ?_⟩
  · rw [heq] at hlength
    exact absurd hlength (Nat.lt_irrefl _)
  · rw [heq] at hlength
    have hdots : "..".toList.length = 2 := rfl
    omega
  · rw [heq] at hlength
    have hslash : "/".toList.length = 1 := rfl
    omega

/-!
## Characters of a name
-/

theorem mem_padded {width n : Nat} {c : Char} (h : c ∈ (Moment.padded width n).toList) :
    c.isDigit = true := by
  rw [Moment.padded, String.toList_ofList, List.mem_append] at h
  rcases h with hzero | hdigit
  · rw [List.eq_of_mem_replicate hzero]
    decide
  · exact Numeral.isDigit_of_mem_toDigits hdigit

theorem mem_archiveStamp {now : Moment} {c : Char} (h : c ∈ now.archiveStamp.toList) :
    c = '_' ∨ c.isDigit = true := by
  have hline : "_".toList = ['_'] := rfl
  simp only [Moment.archiveStamp, Moment.texts, String.toList_append, List.mem_append, hline,
    List.mem_singleton] at h
  rcases h with ((((((h | h) | h) | h) | h) | h) | h)
  · exact Or.inr (mem_padded h)
  · exact Or.inr (mem_padded h)
  · exact Or.inr (mem_padded h)
  · exact Or.inl h
  · exact Or.inr (mem_padded h)
  · exact Or.inr (mem_padded h)
  · exact Or.inr (mem_padded h)

theorem mem_toString {n : Nat} {c : Char} (h : c ∈ (toString n).toList) : c.isDigit = true := by
  rw [Nat.toString_eq_ofList_toDigits, String.toList_ofList] at h
  exact Numeral.isDigit_of_mem_toDigits h

/-- Apart from its stem and ending, the name of an archive has only digits and low lines. -/
theorem mem_name {stem ending : String} {now : Moment} {taken : List String} {c : Char}
    (h : c ∈ (name stem ending now taken).toList) :
    c ∈ stem.toList ∨ c ∈ ending.toList ∨ c = '_' ∨ c.isDigit = true := by
  have hline : "_".toList = ['_'] := rfl
  rcases (firstFree_spec (stem ++ "_" ++ now.archiveStamp) ending taken).2 with ⟨n, hname⟩
  rw [name, hname] at h
  cases n with
  | zero =>
      simp only [candidate, String.toList_append, List.mem_append, hline, List.mem_singleton] at h
      rcases h with ((hstem | hmark) | hstamp) | hending
      · exact Or.inl hstem
      · exact Or.inr (Or.inr (Or.inl hmark))
      · exact Or.inr (Or.inr (mem_archiveStamp hstamp))
      · exact Or.inr (Or.inl hending)
  | succ n =>
      simp only [candidate, String.toList_append, List.mem_append, hline, List.mem_singleton] at h
      rcases h with ((((hstem | hmark) | hstamp) | hmark) | hnumber) | hending
      · exact Or.inl hstem
      · exact Or.inr (Or.inr (Or.inl hmark))
      · exact Or.inr (Or.inr (mem_archiveStamp hstamp))
      · exact Or.inr (Or.inr (Or.inl hmark))
      · exact Or.inr (Or.inr (Or.inr (mem_toString hnumber)))
      · exact Or.inr (Or.inl hending)

end Archive
end Roster
