import Roster.Proofs.Steps
import Roster.Proofs.Storage.Tree
import Roster.Store.Mounted

/-!
# Where stores keep their records

A store keeps its records in one place.  To open it, nothing of a tree counts but what is there.
-/

namespace Roster

variable {t t' : Tree} {state : Entries}

theorem Tree.isFile_of_find?_eq {p : Path} (h : t'.find? p.key = t.find? p.key) :
    t'.isFile p = t.isFile p := by
  rw [isFile, isFile, h]

theorem Tree.isDirectory_of_find?_eq {p : Path} (h : t'.find? p.key = t.find? p.key) :
    t'.isDirectory p = t.isDirectory p := by
  rw [isDirectory, isDirectory, h]

namespace Sheet

variable {s : Sheet}

theorem attach_eq_ok (h : attach state t = .ok s) :
    t.isFile s.path = true ∧ ∀ t', t'.isFile s.path = true → attach state t' = .ok s := by
  unfold attach at h
  dsimp only at h
  split at h
  · cases h
  · cases h
  · rename_i directory format hdirectory hformat
    rcases Steps.bind_eq_ok.mp h with ⟨path, hpath, h⟩
    split at h
    · rename_i hfile
      cases h
      refine ⟨hfile, fun t' hfile' => ?_⟩
      unfold attach
      dsimp only
      rw [hdirectory, hformat]
      exact Steps.bind_eq_ok.mpr ⟨path, hpath, if_pos hfile'⟩
    · cases h

theorem attach_of_find? (h : attach state t = .ok s)
    (hsame : t'.find? s.path.key = t.find? s.path.key) : attach state t' = .ok s := by
  rcases attach_eq_ok h with ⟨hfile, hattach⟩
  exact hattach t' ((Tree.isFile_of_find?_eq hsame).trans hfile)

end Sheet

namespace Documents

variable {s : Documents}

theorem attach_of_find? (h : attach state t = .ok s)
    (hsame : t'.find? s.directory.key = t.find? s.directory.key) : attach state t' = .ok s := by
  rcases Steps.bind_eq_ok.mp h with ⟨named, hnamed, h⟩
  refine Steps.bind_eq_ok.mpr ⟨named, hnamed, ?_⟩
  cases named with
  | none => cases h
  | some directory =>
      rcases Steps.bind_eq_ok.mp h with ⟨path, hpath, h⟩
      refine Steps.bind_eq_ok.mpr ⟨path, hpath, ?_⟩
      cases hthere : t.isDirectory path with
      | false =>
          rw [hthere] at h
          cases h
      | true =>
          rw [hthere] at h
          cases hfields : State.given? state "fields" with
          | none =>
              rw [hfields] at h
              cases h
          | some fields =>
              rw [hfields] at h
              rcases Steps.bind_eq_ok.mp h with ⟨items, hitems, h⟩
              cases h
              rw [(Tree.isDirectory_of_find?_eq hsame).trans hthere]
              exact Steps.bind_eq_ok.mpr ⟨items, hitems, rfl⟩

end Documents

namespace TableStore

variable {s : TableStore}

/-- Where something is there already, the same is reached as before. -/
theorem reach_of_find? {path : Path} (hsame : t'.find? path.key = t.find? path.key)
    (hfile : t.isFile path = true) {found : Option Nat × Database} {reached : Tree}
    (hreach : reach path t = .ok (found, reached)) :
    ∃ reached', reach path t' = .ok (found, reached') := by
  rw [reach] at hreach ⊢
  rw [hsame]
  cases hentry : t.find? path.key with
  | none =>
      rw [Tree.isFile, hentry] at hfile
      cases hfile
  | some entry =>
      rw [hentry] at hreach
      cases entry with
      | directory => cases hreach
      | database serial db =>
          cases hreach
          exact ⟨t', rfl⟩
      | file octets =>
          dsimp only at hreach ⊢
          split at hreach
          · rename_i hempty
            cases hreach
            rw [if_pos hempty]
            exact ⟨t', rfl⟩
          · cases hreach

theorem attach_of_find? (h : attach state t = .ok s)
    (hsame : t'.find? s.path.key = t.find? s.path.key) : attach state t' = .ok s := by
  rcases Steps.bind_eq_ok.mp h with ⟨path, hpath, h⟩
  refine Steps.bind_eq_ok.mpr ⟨path, hpath, ?_⟩
  dsimp only at h ⊢
  cases hfile : t.isFile path with
  | false =>
      rw [hfile] at h
      cases h
  | true =>
      rw [hfile] at h
      cases hreach : reach path t with
      | error fault =>
          rw [hreach] at h
          cases h
      | ok result =>
          rcases result with ⟨⟨serial?, db⟩, reached⟩
          rw [hreach] at h
          dsimp only [Bool.not_true] at h
          split at h
          · rename_i hfalse
            cases hfalse
          · split at h
            · rename_i hname
              cases h
              rcases reach_of_find? hsame hfile hreach with ⟨reached', hreach'⟩
              rw [(Tree.isFile_of_find?_eq hsame).trans hfile, hreach']
              exact if_pos hname
            · cases h

end TableStore

namespace Store

variable {store : Store} {backend : Backend}

/-- The path under which a store keeps its records. -/
def place : Store → Path
  | .sheet s => s.path
  | .documents s => s.directory
  | .table s => s.path

theorem attach_of_find? (h : attach backend state t = .ok store)
    (hsame : t'.find? store.place.key = t.find? store.place.key) :
    attach backend state t' = .ok store := by
  cases backend with
  | database =>
      rcases Steps.map_eq_ok.mp h with ⟨s, hs, rfl⟩
      exact Steps.map_eq_ok.mpr ⟨s, TableStore.attach_of_find? hs hsame, rfl⟩
  | file =>
      rcases Steps.map_eq_ok.mp h with ⟨s, hs, rfl⟩
      exact Steps.map_eq_ok.mpr ⟨s, Sheet.attach_of_find? hs hsame, rfl⟩
  | yaml =>
      rcases Steps.map_eq_ok.mp h with ⟨s, hs, rfl⟩
      exact Steps.map_eq_ok.mpr ⟨s, Documents.attach_of_find? hs hsame, rfl⟩

end Store
end Roster
