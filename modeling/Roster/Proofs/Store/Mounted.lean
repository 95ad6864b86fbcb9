import Roster.Proofs.Store.Documents
import Roster.Proofs.Store.Sheet
import Roster.Proofs.Store.TableStore
import Roster.Store.Mounted

/-!
# A book in a store of any backend

Whatever its backend, a store that holds the records of a book answers like the book, and it holds
the records of the next book when a request has been carried out.
-/

namespace Roster
namespace Store

/-- The store can keep a record: a cell has a greatest length, and a document must be read back. -/
def Admits : Store → Record → Prop
  | .sheet _ => Sheet.Admits
  | .documents _ => Documents.ReadsBack
  | .table _ => fun _ => True

/-- The store can look for what a filter asks for: a query takes patterns up to a length. -/
def Takes : Store → Filter → Prop
  | .table _ => Filter.Fits
  | _ => fun _ => True

/-- The store holds the records of a book in a tree. -/
def Holds : Store → Tree → Book → Prop
  | .sheet s => s.Holds
  | .documents s => s.Holds
  | .table s => s.Holds

end Store

namespace Mounted

/-- The store holds the records of a book. -/
def Holds (m : Mounted Store) (b : Book) : Prop :=
  m.store.Holds m.tree b

variable {m : Mounted Store} {b b' : Book} {now : Moment} {id : String} {record : Record}

theorem Holds.fetch (h : m.Holds b) (hsound : b.Sound) (id : String) :
    RecordStore.fetch m id = RecordStore.fetch b id := by
  rcases m with ⟨store, tree⟩
  cases store with
  | sheet s => exact Sheet.Holds.fetch h hsound.keyed id
  | documents s => exact Documents.Holds.fetch h hsound id
  | table s => exact TableStore.Holds.fetch h hsound id

theorem Holds.list (h : m.Holds b) (hsound : b.Sound) {filter : Filter}
    (hover : filter.IsOver b.fields) (htakes : m.store.Takes filter) :
    RecordStore.list m filter = RecordStore.list b filter := by
  rcases m with ⟨store, tree⟩
  cases store with
  | sheet s => exact Sheet.Holds.list h hsound.keyed filter
  | documents s => exact Documents.Holds.list h hsound filter
  | table s => exact TableStore.Holds.list h hsound hover htakes

/-- A change of the tree is a change of the store on it. -/
theorem exists_of_tree {change : Except Failure Tree}
    (h : ∃ tree, change = .ok tree ∧ m.store.Holds tree b') :
    ∃ m', change.map ({ m with tree := · }) = .ok m' ∧ m'.store = m.store ∧ m'.Holds b' := by
  rcases h with ⟨tree, rfl, hholds⟩
  exact ⟨{ m with tree }, rfl, rfl, hholds⟩

theorem Holds.insert (h : m.Holds b) (hsound : b.Sound) (hvalid : isUserId id = true)
    (hfull : Entries.keys record = b.fields)
    (hinsert : RecordStore.insert b now id record = .ok b')
    (hadmits : ∀ record ∈ b'.records, m.store.Admits record) :
    ∃ m', RecordStore.insert m now id record = .ok m' ∧ m'.store = m.store ∧ m'.Holds b' := by
  refine exists_of_tree ?_
  rcases m with ⟨store, tree⟩
  cases store with
  | sheet s =>
      refine ⟨_, ?_, Sheet.Holds.put h (Book.fields_of_insert hinsert) hadmits⟩
      rw [Store.insert, Sheet.Holds.insert h hsound.keyed, hinsert]
      rfl
  | documents s => exact Documents.Holds.insert h hvalid hinsert hadmits
  | table s => exact TableStore.Holds.insert h hsound hfull hinsert

theorem Holds.update (h : m.Holds b) (hsound : b.Sound)
    (hupdate : RecordStore.update b now id record = .ok b')
    (hadmits : ∀ record ∈ b'.records, m.store.Admits record) :
    ∃ m', RecordStore.update m now id record = .ok m' ∧ m'.store = m.store ∧ m'.Holds b' := by
  refine exists_of_tree ?_
  rcases m with ⟨store, tree⟩
  cases store with
  | sheet s =>
      refine ⟨_, ?_, Sheet.Holds.put h (Book.fields_of_update hupdate) hadmits⟩
      rw [Store.update, Sheet.Holds.update h hsound.keyed, hupdate]
      rfl
  | documents s => exact Documents.Holds.update h hsound hupdate hadmits
  | table s => exact TableStore.Holds.update h hsound hupdate

theorem Holds.remove (h : m.Holds b) (hsound : b.Sound)
    (hremove : RecordStore.remove b id = .ok b') :
    ∃ m', RecordStore.remove m id = .ok m' ∧ m'.store = m.store ∧ m'.Holds b' := by
  refine exists_of_tree ?_
  rcases m with ⟨store, tree⟩
  cases store with
  | sheet s =>
      rcases Book.of_remove hremove with ⟨hfields, hsubset⟩
      refine ⟨_, ?_, Sheet.Holds.put h hfields
        fun record hrecord => h.admits record (hsubset record hrecord)⟩
      rw [Store.remove, Sheet.Holds.remove h hsound.keyed, hremove]
      rfl
  | documents s => exact Documents.Holds.remove h hsound hremove
  | table s => exact TableStore.Holds.remove h hsound hremove

end Mounted
end Roster
