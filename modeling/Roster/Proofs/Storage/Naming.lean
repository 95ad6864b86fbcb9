import Roster.Proofs.Storage.Archive

/-!
# The search for a free name

The name of an archive is searched for by trying one name after the other.  The search has no bound
of its own: it ends because the names that are tried are all different and only so many are taken.
It ends at the first free name, so archives that are named one after the other never share a name.
-/

namespace Roster
namespace Archive

/-- Where a search stands: the name that is tried, and the number that comes next. -/
structure Search where
  name : String
  counter : Nat

namespace Search

/-- A search begins with the name that has no number. -/
def start (base ending : String) : Search := ⟨base ++ ending, 1⟩

/-- The next name that is tried. -/
def next (base ending : String) (s : Search) : Search :=
  ⟨base ++ "_" ++ toString s.counter ++ ending, s.counter + 1⟩

/-- A search ends after some steps with a name: as long as a name is taken the next one is tried,
and a free one ends it. -/
inductive Ends (base ending : String) (taken : List String) : Search → Nat → String → Prop where
  | free {s : Search} (h : s.name ∉ taken) : Ends base ending taken s 0 s.name
  | taken {s : Search} {steps : Nat} {name : String} (h : s.name ∈ taken)
      (hrest : Ends base ending taken (s.next base ending) steps name) :
      Ends base ending taken s (steps + 1) name

variable {base ending : String} {taken : List String} {s : Search} {m n : Nat} {name name' : String}

theorem Ends.unique (h : Ends base ending taken s m name) (h' : Ends base ending taken s n name') :
    n = m ∧ name' = name := by
  induction h generalizing n with
  | free hfree =>
      cases h' with
      | free _ => exact ⟨rfl, rfl⟩
      | taken htaken _ => exact absurd htaken hfree
  | taken htaken _ ih =>
      cases h' with
      | free hfree => exact absurd htaken hfree
      | taken _ hrest =>
          rcases ih hrest with ⟨rfl, hname⟩
          exact ⟨rfl, hname⟩

/-- The search after some steps. -/
def ofNumber (base ending : String) (n : Nat) : Search := ⟨candidate base ending n, n + 1⟩

theorem ends_ofNumber (hfree : candidate base ending (m + n) ∉ taken)
    (htaken : ∀ k < n, candidate base ending (m + k) ∈ taken) :
    Ends base ending taken (ofNumber base ending m) n (candidate base ending (m + n)) := by
  induction n generalizing m with
  | zero => exact .free hfree
  | succ n ih =>
      refine .taken (htaken 0 (Nat.succ_pos n)) ?_
      have hmove : m + (n + 1) = m + 1 + n := by omega
      rw [hmove] at hfree ⊢
      refine ih hfree fun k hk => ?_
      have hlater := htaken (k + 1) (Nat.succ_lt_succ hk)
      rwa [show m + (k + 1) = m + 1 + k by omega] at hlater

end Search

/-- The name that is chosen is the first candidate that is free. -/
theorem firstFree_eq (base ending : String) (taken : List String) :
    ∃ n ≤ taken.length, firstFree base ending taken = candidate base ending n ∧
      candidate base ending n ∉ taken ∧ ∀ m < n, candidate base ending m ∈ taken := by
  rcases exists_free base ending taken with ⟨bound, hbound, hfree⟩
  have hsome : ∃ n, candidate base ending n ∉ taken := ⟨bound, hfree⟩
  have hfirst : Nat.find hsome ≤ taken.length := (Nat.find_le hfree).trans hbound
  have hearlier : ∀ m < Nat.find hsome, candidate base ending m ∈ taken := fun m hm =>
    not_not.mp (Nat.find_min hsome hm)
  refine ⟨Nat.find hsome, hfirst, ?_, Nat.find_spec hsome, hearlier⟩
  have hfound : (List.range (taken.length + 1)).find?
      ((!taken.contains ·) ∘ candidate base ending) = some (Nat.find hsome) := by
    rw [List.find?_range_eq_some]
    refine ⟨by simpa using Nat.find_spec hsome, ?_, fun m hm => by simpa using hearlier m hm⟩
    exact List.mem_range.mpr (Nat.lt_succ_of_le hfirst)
  rw [firstFree, List.find?_map, hfound]
  rfl

/-- The names of archives that are made one after the other; each name is taken from then on. -/
def namesOf (taken : List String) : List (String × String × Moment) → List String
  | [] => []
  | (stem, ending, now) :: later =>
      let chosen := name stem ending now taken
      chosen :: namesOf (chosen :: taken) later

theorem namesOf_fresh (calls : List (String × String × Moment)) (taken : List String) :
    (namesOf taken calls).Nodup ∧ ∀ chosen ∈ namesOf taken calls, chosen ∉ taken := by
  induction calls generalizing taken with
  | nil => exact ⟨List.nodup_nil, nofun⟩
  | cons call later ih =>
      rcases call with ⟨stem, ending, now⟩
      rcases ih (name stem ending now taken :: taken) with ⟨hnodup, hfresh⟩
      refine ⟨List.nodup_cons.mpr ⟨fun hmem => hfresh _ hmem List.mem_cons_self, hnodup⟩, ?_⟩
      refine List.forall_mem_cons.mpr ⟨name_not_mem stem ending now taken, fun chosen hmem => ?_⟩
      exact fun htaken => hfresh chosen hmem (List.mem_cons_of_mem _ htaken)

theorem candidate_ne (stem ending rest : String) (n : Nat) :
    candidate (stem ++ "_" ++ rest) ending n ≠ stem ++ ending := by
  intro heq
  have hlength := congrArg (fun name => name.toList.length) heq
  have hline : "_".toList.length = 1 := rfl
  cases n with
  | zero =>
      simp only [candidate, String.toList_append, List.length_append] at hlength
      omega
  | succ n =>
      simp only [candidate, String.toList_append, List.length_append] at hlength
      omega

/-- The search for the name of an archive ends, whatever names are taken, and in one way only: with
the name that is chosen, the first free one in the sequence of candidates.  It is never the name of
what is archived, and names that are chosen one after the other are all different. -/
theorem ends_with_name (stem ending : String) (now : Moment) (taken : List String) :
    (∃ n ≤ taken.length, name stem ending now taken =
        candidate (stem ++ "_" ++ now.archiveStamp) ending n ∧
      (∀ m < n, candidate (stem ++ "_" ++ now.archiveStamp) ending m ∈ taken) ∧
      ∀ steps found, Search.Ends (stem ++ "_" ++ now.archiveStamp) ending taken
          (.start (stem ++ "_" ++ now.archiveStamp) ending) steps found ↔
        steps = n ∧ found = name stem ending now taken) ∧
      name stem ending now taken ∉ taken ∧
      name stem ending now taken ≠ stem ++ ending ∧
      ∀ calls, (namesOf taken calls).Nodup ∧ ∀ chosen ∈ namesOf taken calls, chosen ∉ taken := by
  rcases firstFree_eq (stem ++ "_" ++ now.archiveStamp) ending taken with
    ⟨n, hn, hname, hfree, hearlier⟩
  have hends := Search.ends_ofNumber (m := 0) ((Nat.zero_add n).symm ▸ hfree)
    fun k hk => (Nat.zero_add k).symm ▸ hearlier k hk
  rw [Nat.zero_add, ← hname] at hends
  refine ⟨⟨n, hn, hname, hearlier, fun steps found => ⟨hends.unique, ?_⟩⟩,
    name_not_mem stem ending now taken, ?_, fun calls => namesOf_fresh calls taken⟩
  · rintro ⟨rfl, rfl⟩
    exact hends
  · rw [name, hname]
    exact candidate_ne stem ending now.archiveStamp n

end Archive
end Roster
