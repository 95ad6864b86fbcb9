import Roster.Proofs.Registry.Requests

/-!
# Registries on books and on stores

A registry gives the same replies on a store as on the book whose records the store holds, request
by request and so over every run.
-/

namespace Roster
namespace Registry

variable {r : Registry} {m : Mounted Store} {b : Book}

/-!
## Single requests
-/

/-- Both results say the same, and the stores behind them hold the same. -/
def Agree (m : Mounted Store) :
    Except Fault (UserAnswer × Mounted Store) → Except Fault (UserAnswer × Book) → Prop
  | .ok (a, m'), .ok (a', b') => a = a' ∧ m'.store = m.store ∧ m'.Holds b'
  | .error fault, .error fault' => fault = fault'
  | _, _ => False

/-- Both replies are the same, and the stores behind them hold the same. -/
structure Follows (m : Mounted Store) (x : Except Fault Reply × Mounted Store)
    (y : Except Fault Reply × Book) : Prop where
  reply : x.1 = y.1
  store : x.2.store = m.store
  holds : x.2.Holds y.2

theorem follows_conclude {x : Except Fault (UserAnswer × Mounted Store)}
    {y : Except Fault (UserAnswer × Book)} (h : m.Holds b) (hagree : Agree m x y) :
    Follows m (conclude m x) (conclude b y) := by
  cases x with
  | ok result =>
      cases y with
      | ok result' =>
          rcases result with ⟨a, m'⟩
          rcases result' with ⟨a', b'⟩
          rcases hagree with ⟨rfl, hstore, hholds⟩
          exact ⟨rfl, hstore, hholds⟩
      | error fault => exact hagree.elim
  | error fault =>
      cases y with
      | ok result => exact hagree.elim
      | error fault' =>
          cases hagree
          exact ⟨rfl, rfl, h⟩

theorem agree_unchanged (h : m.Holds b) (outcome : UserOutcome) (id : String)
    (warnings : List String) :
    Agree m (unchanged m outcome id warnings) (unchanged b outcome id warnings) :=
  ⟨rfl, rfl, h⟩

theorem agree_perform {b' : Book} {deed : Deed} {id : String} {warnings : List String}
    {change : Except Failure (Mounted Store)}
    (hchange : ∃ m', change = .ok m' ∧ m'.store = m.store ∧ m'.Holds b') :
    Agree m (perform m deed id warnings change) (perform b deed id warnings (.ok b')) := by
  rcases hchange with ⟨m', rfl, hstore, hholds⟩
  exact ⟨rfl, hstore, hholds⟩

theorem agree_registerAs (h : m.Holds b) (hsound : b.Sound) (hschema : r.schema.Sound)
    (hfields : b.fields = r.schema.fields) (now : Moment) {id : String}
    (hvalid : isUserId id = true) (moniker : String) (data : Record)
    (hadmits : ∀ record ∈ (conclude b (r.registerAs b now id moniker data)).2.records,
      m.store.Admits record) :
    Agree m (r.registerAs m now id moniker data) (r.registerAs b now id moniker data) := by
  rw [registerAs, isStored_of_fetch (b := b) rfl] at hadmits
  rw [registerAs, registerAs, isStored_of_fetch (h.fetch hsound id),
    isStored_of_fetch (b := b) rfl]
  simp only [bind, Except.bind] at hadmits ⊢
  split
  · exact agree_unchanged h _ id []
  · rename_i hfree
    rw [if_neg hfree] at hadmits
    rw [Bool.not_eq_true, Option.isSome_eq_false_iff, Option.isNone_iff_eq_none] at hfree
    split
    · rename_i hsuccess
      have hinsert := insert_newRecord hschema hvalid hfree now moniker (r.verdict data).accepted
      rw [newRecord] at hinsert
      rw [if_pos hsuccess, hinsert] at hadmits
      rw [hinsert]
      have hfull := (keys_newRecord hschema id moniker (r.verdict data).accepted).trans
        hfields.symm
      exact agree_perform (h.insert hsound hvalid hfull hinsert hadmits)
    · exact agree_unchanged h _ id _

theorem agree_update (h : m.Holds b) (hsound : b.Sound) (now : Moment) (id changes : Value)
    (hadmits : ∀ record ∈ (conclude b (r.update b now id changes)).2.records,
      m.store.Admits record) :
    Agree m (r.update m now id changes) (r.update b now id changes) := by
  rw [update.eq_def] at hadmits
  rw [update.eq_def, update.eq_def]
  split
  · exact agree_unchanged h _ "" []
  · rename_i _ _ id entries hid
    rw [hid] at hadmits
    simp only [isStored_of_fetch (h.fetch hsound id), isStored_of_fetch (b := b) rfl, bind,
      Except.bind] at hadmits ⊢
    split
    · rename_i hfound
      rw [if_pos hfound] at hadmits
      split
      · rename_i hsuccess
        rw [if_pos hsuccess] at hadmits
        have hupdate : RecordStore.update b now id
            (r.storable (r.verdict (without Record.readOnlyFields (clean entries))).accepted) =
              .ok (b.change id (Record.stampChanges b.fields now
                (r.storable (r.verdict (without Record.readOnlyFields (clean entries))).accepted)))
            := by
          simp only [RecordStore.update, if_pos hfound]
        rw [hupdate] at hadmits ⊢
        exact agree_perform (h.update hsound hupdate hadmits)
      · exact agree_unchanged h _ id _
    · exact agree_unchanged h _ id []
  · exact agree_unchanged h _ _ []

theorem agree_delete (h : m.Holds b) (hsound : b.Sound) (id : Value) :
    Agree m (delete m id) (delete b id) := by
  rw [delete, delete]
  split
  · exact agree_unchanged h _ "" []
  · rename_i id _
    rw [isStored_of_fetch (h.fetch hsound id), isStored_of_fetch (b := b) rfl]
    simp only [bind, Except.bind]
    split
    · rename_i hfound
      have hremove : RecordStore.remove b id = .ok (b.drop id) := by
        simp only [RecordStore.remove, if_pos hfound]
      rw [hremove]
      exact agree_perform (h.remove hsound hremove)
    · exact agree_unchanged h _ id []

/-- A store can look for what a request asks for. -/
def Takes (r : Registry) (store : Store) : Request → Prop
  | .list filter => ∀ f, Filter.ofValue filter (.list (r.schema.fields.map .str)) = .ok f →
      store.Takes f
  | _ => True

/-- A request to a store is answered as if it went to the book, when the store can keep what the
book holds then. -/
theorem follows_answer (h : m.Holds b) (hsound : b.Sound) (hschema : r.schema.Sound)
    (hfields : b.fields = r.schema.fields) (now : Moment) (request : Request)
    (hadmits : ∀ record ∈ (r.answer b now request).2.records, m.store.Admits record)
    (htakes : r.Takes m.store request) :
    Follows m (r.answer m now request) (r.answer b now request) := by
  -- Only a registration and a change write a record, so only they need that the store can keep it.
  cases request with
  | register data =>
      refine follows_conclude h ?_
      rw [answer, register.eq_def] at hadmits
      rw [register.eq_def, register.eq_def]
      cases data with
      | map entries =>
          dsimp only at hadmits ⊢
          split
          · exact agree_unchanged h _ "" []
          · rename_i hvalid
            rw [if_neg hvalid] at hadmits
            split
            · exact agree_unchanged h _ _ []
            · rename_i hmoniker
              rw [if_neg hmoniker] at hadmits
              exact agree_registerAs h hsound hschema hfields now (by simpa using hvalid) _ _
                hadmits
      | _ => exact agree_unchanged h _ "" []
  | get id fields =>
      refine ⟨?_, rfl, h⟩
      have hget : get m id fields = get b id fields := by
        rw [get, get]
        cases idOf? id with
        | none => rfl
        | some id => simp only [h.fetch hsound id]
      rw [answer, answer, hget]
  | update id changes =>
      exact follows_conclude h (agree_update h hsound now id changes hadmits)
  | delete id => exact follows_conclude h (agree_delete h hsound id)
  | list filter =>
      refine ⟨?_, rfl, h⟩
      have hlist : r.list m filter = r.list b filter := by
        rw [list, list]
        cases hf : Filter.ofValue filter (.list (r.schema.fields.map .str)) with
        | error fault => rfl
        | ok f =>
            have hover : f.IsOver b.fields := hfields ▸ Filter.isOver_ofValue hf
            have hrecords := h.list hsound hover (htakes f hf)
            have hlift : (liftM (Except.ok f : Except ValueFault Filter) : Except Fault Filter) =
                .ok f := rfl
            simp only [hlift, bind, Except.bind, hrecords]
      rw [answer, answer, hlist]

/-!
## Runs
-/

/-- A store can keep whatever the book holds at any time of a run, and look for whatever is asked
for in it. -/
structure Affords (r : Registry) (store : Store) (b : Book) (requests : List (Moment × Request)) :
    Prop where
  admits : ∀ front, front <+: requests → ∀ record ∈ (r.run b front).2.records, store.Admits record
  takes : ∀ entry ∈ requests, r.Takes store entry.2

theorem Affords.head {store : Store} {now : Moment} {request : Request}
    {rest : List (Moment × Request)} (h : r.Affords store b ((now, request) :: rest)) :
    (∀ record ∈ (r.answer b now request).2.records, store.Admits record) ∧
      r.Takes store request :=
  ⟨h.admits [(now, request)] (List.prefix_append _ rest), h.takes _ List.mem_cons_self⟩

theorem Affords.tail {store : Store} {now : Moment} {request : Request}
    {rest : List (Moment × Request)} (h : r.Affords store b ((now, request) :: rest)) :
    r.Affords store (r.answer b now request).2 rest where
  admits := fun front hfront =>
    h.admits ((now, request) :: front) ((List.prefix_cons_inj _).mpr hfront)
  takes := fun entry hentry => h.takes entry (List.mem_cons_of_mem _ hentry)

/-- Over a run a store gives the replies of the book, and holds its records in the end. -/
theorem run_eq_of_holds (h : m.Holds b) (hsound : b.Sound) (hschema : r.schema.Sound)
    (hfields : b.fields = r.schema.fields) {requests : List (Moment × Request)}
    (haffords : r.Affords m.store b requests) :
    (r.run m requests).1 = (r.run b requests).1 ∧
      (r.run m requests).2.store = m.store ∧ (r.run m requests).2.Holds (r.run b requests).2 := by
  -- Store and book change together, so both are general in the induction.
  induction requests generalizing m b with
  | nil => exact ⟨rfl, rfl, h⟩
  | cons entry rest ih =>
      rcases entry with ⟨now, request⟩
      rcases haffords.head with ⟨hadmits, htakes⟩
      have hstep := follows_answer h hsound hschema hfields now request hadmits htakes
      rcases (preserves_sound r).answer hschema ⟨hsound, hfields⟩ now request with
        ⟨hnext, hnextFields⟩
      have hrest := ih hstep.holds hnext hnextFields (hstep.store.symm ▸ haffords.tail)
      rw [run_cons, run_cons]
      refine ⟨?_, hrest.2.1.trans hstep.store, hrest.2.2⟩
      rw [hstep.reply, hrest.1]

end Registry
end Roster
