import Roster.Proofs.Registry.Work
import Roster.Proofs.Store.Roll

/-!
# Calls stay inside one document

A call with an id reaches one file, the document of that id: whatever the id, every other file is
afterwards what it was, and no file has come or gone beside it.  An id that is no login name names
no document, so the call changes nothing.  The drafts of a call are gone when it ends.
-/

namespace Roster
namespace Documents

open Work

/-!
## Calls step by step
-/

def performing (s : Documents) (tools : Equipment) : Call → Work Outcome
  | .insert now id record => do
      s.inserting now id (.ofEntries record)
      return .done (Deed.created.message id)
  | .fetch id => do return .record (← s.fetch (← get) id)
  | .update now id changes => do
      s.updating tools now id (.ofEntries changes)
      return .done (Deed.updated.message id)
  | .remove id => do
      s.removing id
      return .done (Deed.deleted.message id)
  | .list filter => do return .records (← s.list (← get) filter)

variable {s : Documents} {tools : Equipment} {t t' : Tree} {id : String} {now : Moment}

/-- With an encoding for every text, work that settles comes to the change. -/
theorem isChange_of_settles (tools : Equipment) {work : Work Unit} {change : Except Failure Tree}
    (h : Settles { tools with encode := fun s => .ok s.toUTF8 } work t change) :
    IsChange work t change := by
  rcases h with ⟨result, hresult, hsame⟩
  rw [← hsame fun _ => rfl]
  exact hresult

theorem run_change {work : Work Unit} {change : Except Failure Tree} (h : IsChange work t change)
    (deed : Deed) :
    ((do work; return Outcome.done (deed.message id)) : Work Outcome).run t =
      ((Call.settle (Mounted.mk s t) deed id (change.map (Mounted.mk s))).1,
        (Call.settle (Mounted.mk s t) deed id (change.map (Mounted.mk s))).2.tree) := by
  rw [Steps.run_bind, h]
  cases change with
  | error failure => rfl
  | ok t' => rfl

theorem run_look {α : Type} (look : Tree → Except Failure α) (outcome : α → Outcome) :
    ((do return outcome (← look (← get))) : Work Outcome).run t = ((look t).map outcome, t) := by
  rw [Steps.run_bind, Steps.run_get]
  dsimp only
  rw [Steps.run_bind, Steps.run_liftM]
  cases look t with
  | error failure => rfl
  | ok a => rfl

/-- Step by step a call comes to what it comes to as a whole. -/
theorem run_performing (ht : t.IsOrderly) (call : Call) :
    (s.performing tools call).run t =
      ((call.on (Mounted.mk s t)).1, (call.on (Mounted.mk s t)).2.tree) := by
  cases call with
  | insert now id record =>
      exact run_change (isChange_of_settles tools (s.settles_inserting now id _)) .created
  | fetch id => exact run_look (s.fetch · id) .record
  | update now id changes =>
      exact run_change (isChange_of_settles tools (s.settles_updating ht now id _)) .updated
  | remove id =>
      exact run_change (isChange_of_settles tools (s.settles_removing id)) .deleted
  | list filter => exact run_look (s.list · filter) .records

/-!
## What a change reaches
-/

/-- From one tree to another only what is under the name of the document of an id may change, and
nothing at all if the id is no login name. -/
structure Confined (s : Documents) (id : String) (t t' : Tree) : Prop where
  beside : ∀ key, key ≠ (s.directory.child (nameOf id)).key → t'.find? key = t.find? key
  invalid : isUserId id = false → t' = t

theorem Confined.refl (s : Documents) (id : String) (t : Tree) : s.Confined id t t :=
  ⟨fun _ _ => rfl, fun _ => rfl⟩

theorem path?_eq_some_iff {path : Path} :
    s.path? id = some path ↔ isUserId id = true ∧ path = s.directory.child (nameOf id) := by
  rw [path?]
  split
  · rename_i hvalid
    rw [Option.some_inj, eq_comm]
    exact (and_iff_right hvalid).symm
  · rename_i hinvalid
    exact iff_of_false (Option.some_ne_none path).symm fun h => hinvalid h.1

theorem confined_put (hvalid : isUserId id = true) (entry : Entry) :
    s.Confined id t (t.put (s.directory.child (nameOf id)).key entry) where
  beside _ hne := Tree.find?_put_of_ne (isEntryKey_document _ _) _ hne
  invalid hinvalid := absurd hinvalid (by simp [hvalid])

theorem confined_erase (hvalid : isUserId id = true) :
    s.Confined id t (t.erase (s.directory.child (nameOf id)).key) where
  beside key hne := by rw [Tree.find?_erase (isEntryKey_document _ _), if_neg hne]
  invalid hinvalid := absurd hinvalid (by simp [hvalid])

theorem confined_insert {record : Record} (h : s.insert t now id record = .ok t') :
    s.Confined id t t' := by
  rcases Steps.bind_eq_ok.mp h with ⟨-, -, h⟩
  split at h
  · cases h
  · rename_i path hpath
    rcases path?_eq_some_iff.mp hpath with ⟨hvalid, rfl⟩
    rw [(Tree.create_eq_ok (Steps.mapError_eq_ok.mp h)).2]
    exact confined_put hvalid _

theorem path_of_loadOr {refusal : Cause → Refusal} {path : Path} {record : Record}
    (h : s.loadOr t id refusal = .ok (path, record)) : s.path? id = some path := by
  unfold loadOr at h
  split at h
  · cases h
  · rename_i named hnamed
    split at h
    · split at h
      · rw [hnamed, (Prod.mk.inj (Except.ok.inj h)).1]
      · cases h
      · cases h
    · cases h

theorem confined_update {changes : Record} (h : s.update t now id changes = .ok t') :
    s.Confined id t t' := by
  rcases Steps.bind_eq_ok.mp h with ⟨⟨path, record⟩, hload, h⟩
  rcases path?_eq_some_iff.mp (path_of_loadOr hload) with ⟨hvalid, rfl⟩
  rw [(Tree.write_eq_ok (Steps.mapError_eq_ok.mp h)).2]
  exact confined_put hvalid _

theorem confined_remove (h : s.remove t id = .ok t') : s.Confined id t t' := by
  unfold remove at h
  split at h
  · cases h
  · rename_i path hpath
    rcases path?_eq_some_iff.mp hpath with ⟨hvalid, rfl⟩
    split at h
    · rw [Tree.removeFile_eq_ok (Steps.mapError_eq_ok.mp h)]
      exact confined_erase hvalid
    · cases h

end Documents

/-- The id that a call is about; a listing is about all of them. -/
def Call.id? : Call → Option String
  | .insert _ id _ | .fetch id | .update _ id _ | .remove id => some id
  | .list _ => none

namespace Documents

variable {s : Documents} {tools : Equipment} {t : Tree} {id : String}

theorem confined_settle {deed : Deed} {change : Except Failure Tree}
    (h : ∀ t', change = .ok t' → s.Confined id t t') :
    s.Confined id t (Call.settle (Mounted.mk s t) deed id (change.map (Mounted.mk s))).2.tree := by
  cases change with
  | error failure => exact .refl s id t
  | ok t' => exact h t' rfl

/-- A call reaches the document of its id. -/
theorem confined_on {call : Call} (hid : call.id? = some id) :
    s.Confined id t (call.on (Mounted.mk s t)).2.tree := by
  cases call with
  | insert now _ record =>
      cases hid
      exact confined_settle fun t' h => confined_insert h
  | fetch _ => exact .refl s id t
  | update now _ changes =>
      cases hid
      exact confined_settle fun t' h => confined_update h
  | remove _ =>
      cases hid
      exact confined_settle fun t' h => confined_remove h
  | list _ => cases hid

/-- Whatever the id of a call, drafts included, nothing on the storage changes but the document of
that id, and only if the id is a login name.  Different login names have different documents. -/
theorem confined_of_performing (ht : t.IsOrderly) (s : Documents) (tools : Equipment) (call : Call)
    (id : String) (hid : call.id? = some id) :
    (∀ key, key ≠ (s.directory.child (id ++ ".yaml")).key →
        ((s.performing tools call).run t).2.find? key = t.find? key) ∧
      (isUserId id = false → ((s.performing tools call).run t).2 = t) ∧
      ∀ a b path path', a ≠ b → s.path? a = some path → s.path? b = some path' →
        path.key ≠ path'.key := by
  have hconfined := confined_on (s := s) (t := t) hid
  rw [run_performing ht]
  refine ⟨hconfined.beside, hconfined.invalid, fun a b path path' hne ha hb heq => ?_⟩
  rcases path?_eq_some_iff.mp ha with ⟨-, rfl⟩
  rcases path?_eq_some_iff.mp hb with ⟨-, rfl⟩
  exact hne (key_document_inj heq)

/-- Two neighbours, each with a document, and a file above them. -/
def neighbours : Tree where
  entries := [(["s"], .directory), (["s", "users"], .directory),
    (["s", "users", "ada.yaml"], .file "moniker: Ada\n".toUTF8),
    (["s", "users", "bob.yaml"], .file "moniker: Bob\n".toUTF8),
    (["s", "notes.yaml"], .file "moniker: Eve\n".toUTF8)]

def street : Documents := ⟨⟨"", ["s", "users"]⟩, ["moniker"]⟩

/-- A change of one document leaves the other one alone, and an id that writes a path reaches
nothing. -/
theorem confined_of_performing_of_neighbours :
    neighbours.IsOrderly ∧
      ((street.performing Registry.utf8Tools (.update 0 "ada" [("moniker", .str "Lady")])).run
        neighbours).1.isOk = true ∧
      ((street.performing Registry.utf8Tools (.update 0 "ada" [("moniker", .str "Lady")])).run
        neighbours).2.find? ["s", "users", "bob.yaml"] = some (.file "moniker: Bob\n".toUTF8) ∧
      ((street.performing Registry.utf8Tools (.remove "../notes")).run neighbours).2 = neighbours := by
  have horderly : neighbours.IsOrderly := by
    refine Tree.isOrderly_of_entries (by decide) ?_ ?_
    · simp [neighbours, Tree.find?, List.lookup_cons]
    · simp [neighbours]
  refine ⟨horderly, by decide +kernel, ?_, ?_⟩
  · exact (confined_of_performing horderly street Registry.utf8Tools
      (.update 0 "ada" [("moniker", .str "Lady")]) "ada" rfl).1 _ (by decide)
  · exact (confined_of_performing horderly street Registry.utf8Tools (.remove "../notes")
      "../notes" rfl).2.1 (by decide)

end Documents
end Roster
