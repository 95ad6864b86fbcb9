import Roster.Proofs.Registry.Requests
import Roster.Proofs.Store.Preparation

/-!
# Stores that registries reach

A store is reached when it was set up for a schema and then asked for things, in any order, by
registries with that schema, whether they validate or not.  Such a store stands, and it is of the
backend that it was set up with.
-/

namespace Roster

section Stored

variable {σ : Type} [RecordStore σ] {store : σ} {id : String}

theorem Registry.isStored_eq_true_iff :
    Registry.isStored store id = .ok true ↔ ∃ record, RecordStore.fetch store id = .ok record := by
  rw [Registry.isStored]
  cases RecordStore.fetch store id with
  | ok record =>
      simp [Failure.settle, bind, Except.bind, pure, Except.pure, Except.isOk, Except.toBool]
  | error failure =>
      cases failure with
      | refused refusal =>
          simp [Failure.settle, bind, Except.bind, pure, Except.pure, Except.isOk, Except.toBool]
      | broken fault => simp [Failure.settle, bind, Except.bind]

theorem Registry.fetch_ne_ok_of_isStored (h : Registry.isStored store id = .ok false)
    (record : Record) : RecordStore.fetch store id ≠ .ok record := by
  intro hfetch
  rw [Registry.isStored_eq_true_iff.mpr ⟨record, hfetch⟩] at h
  cases h

end Stored

/-- Whatever a registry asks for, a store that stands goes on standing. -/
theorem Registry.preserves_stands (r : Registry) :
    r.Preserves fun m : Mounted Store => m.Stands r.schema.fields where
  insert := by
    intro m m' now id record hstands hvalid hfree hfull hinsert
    exact (hstands.insert hvalid hfull (Registry.fetch_ne_ok_of_isStored hfree) hinsert).2.1
  update := by
    intro m m' now id changes hstands hstored hupdate
    rcases Registry.isStored_eq_true_iff.mp hstored with ⟨old, hfound⟩
    exact (hstands.update hfound hupdate).2.1
  remove := by
    intro m m' id hstands hstored hremove
    rcases Registry.isStored_eq_true_iff.mp hstored with ⟨old, hfound⟩
    exact (hstands.remove hfound hremove).2

theorem Registry.preserves_backend (r : Registry) (backend : Backend) :
    r.Preserves fun m : Mounted Store => m.store.backend = backend where
  insert := by
    intro m m' now id record hbackend _ _ _ hinsert
    rcases Steps.map_eq_ok.mp hinsert with ⟨tree, -, rfl⟩
    exact hbackend
  update := by
    intro m m' now id changes hbackend _ hupdate
    rcases Steps.map_eq_ok.mp hupdate with ⟨tree, -, rfl⟩
    exact hbackend
  remove := by
    intro m m' id hbackend _ hremove
    rcases Steps.map_eq_ok.mp hremove with ⟨tree, -, rfl⟩
    exact hbackend

namespace Mounted

/-- The store was set up for the schema, and then asked for things by registries with it. -/
inductive Reached (backend : Backend) (schema : Schema) : Mounted Store → Prop where
  | setUp {m : Mounted Store} (h : m.IsSetUp backend schema) : Reached backend schema m
  | asked {m : Mounted Store} (h : Reached backend schema m) (r : Registry)
      (hr : r.schema = schema) (now : Moment) (request : Request) :
      Reached backend schema (r.answer m now request).2

theorem Reached.stands {backend : Backend} {schema : Schema} {m : Mounted Store}
    (hschema : schema.Sound)
    (hshield : backend = .database →
      ∀ name ∈ schema.fields, ColumnName.unshield name.toList = name.toList)
    (h : Reached backend schema m) : m.Stands schema.fields := by
  induction h with
  | setUp hsetup => exact (opened_of_isSetUp hschema hshield hsetup).1
  | asked _ r hr now request ih =>
      subst hr
      exact r.preserves_stands.answer hschema ih now request

theorem Reached.backend_eq {backend : Backend} {schema : Schema} {m : Mounted Store}
    (hschema : schema.Sound) (h : Reached backend schema m) : m.store.backend = backend := by
  induction h with
  | setUp hsetup => exact backend_of_isSetUp hsetup
  | asked _ r hr now request ih =>
      subst hr
      exact (r.preserves_backend backend).answer hschema ih now request

end Mounted
end Roster
