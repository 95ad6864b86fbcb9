import Roster.Proofs.Registry.MapStores

/-!
# Ids and times are the registry's own

Whatever a request says of an id and of times, a record keeps the id under which it was registered
and the time at which that was done, and its other time is that of the last change.  What has been
done is told by the replies: a request that was not carried out for a user leaves the record of the
user as it was.
-/

namespace Roster

namespace Record

/-- What a record says of itself: its id, when it was made, and when it was last changed. -/
def marks (record : Record) : String × String × String :=
  (record.id, record.valueOf createdField, record.valueOf modifiedField)

theorem marks_stampNew (fields : List String) (now : Moment) (id : String) (record : Record) :
    (record.stampNew fields now id).marks = (id, now.stamp, now.stamp) := by
  rw [marks, id_stampNew, valueOf, valueOf, lookup_stampNew, lookup_stampNew]
  rfl

theorem marks_setAll_stampChanges (fields : List String) (now : Moment) (changes before : Record) :
    marks (Entries.setAll before (changes.stampChanges fields now)) =
      (before.id, before.valueOf createdField, now.stamp) := by
  have hcreated : (changes.stampChanges fields now).reverse.lookup createdField = none := by
    rw [Entries.lookup_eq_none_iff, Entries.keys_reverse, List.mem_reverse]
    intro hkey
    rcases mem_keys_stampChanges hkey with heq | ⟨-, hfree⟩
    · exact absurd heq (by decide)
    · exact hfree (by decide)
  have hmodified : (changes.stampChanges fields now).reverse.lookup modifiedField =
      some now.stamp := by
    rw [stampChanges, Entries.set_of_not_mem, List.reverse_append]
    · exact List.lookup_cons_self
    · intro hkey
      rcases List.mem_map.mp hkey with ⟨entry, hentry, hname⟩
      have hfree := (List.mem_filter.mp hentry).2
      rw [hname] at hfree
      exact absurd hfree (by decide)
  rw [marks, id_setAll_stampChanges, valueOf, valueOf, Entries.lookup_setAll, hcreated,
    Entries.lookup_setAll, hmodified]
  rfl

end Record

/-- The user whose record a request is to change. -/
def Request.user? : Request → Option String
  | .register (.map entries) => some ((Registry.supplied entries).valueOf Record.idField)
  | .update v _ => Registry.idOf? v
  | .delete v => Registry.idOf? v
  | _ => none

namespace Registry

/-- The reply says that something was done. -/
def isDone : Except Fault Reply → Bool
  | .ok (.user ⟨.done _, _, _⟩) => true
  | _ => false

/-- The request was carried out for a user. -/
def Concerns (id : String) (request : Request) (reply : Except Fault Reply) : Prop :=
  request.user? = some id ∧ isDone reply = true

instance (id : String) (request : Request) (reply : Except Fault Reply) :
    Decidable (Concerns id request reply) := by
  unfold Concerns
  infer_instance

/-- When a user was registered and last changed, after one more request. -/
def datesAfter (id : String) (dates : Option (Moment × Moment))
    (entry : (Moment × Request) × Except Fault Reply) : Option (Moment × Moment) :=
  if Concerns id entry.1.2 entry.2 then
    match entry.1.2 with
    | .register _ => some (entry.1.1, entry.1.1)
    | .update _ _ => dates.map fun before => (before.1, entry.1.1)
    | _ => none
  else dates

/-- When a user was registered and last changed, as the replies to requests tell it. -/
def datesOf (id : String) (history : List ((Moment × Request) × Except Fault Reply)) :
    Option (Moment × Moment) :=
  history.foldl (datesAfter id) none

/-- The marks of a record that was made and last changed at two times. -/
def marksOf (id : String) (dates : Moment × Moment) : String × String × String :=
  (id, dates.1.stamp, dates.2.stamp)

/-- There is a record of a user when there are dates, and it carries them. -/
def Carries (b : Book) (id : String) (dates : Option (Moment × Moment)) : Prop :=
  (b.find? id).map Record.marks = dates.map (marksOf id)

/-!
## Single requests
-/

section Requests

variable {r : Registry} {b b' : Book} {now : Moment} {request : Request}
  {reply : Except Fault Reply} {id : String}

theorem marks_registered (r : Registry) (now : Moment) (entries : Entries) :
    (r.registered now entries).marks =
      ((supplied entries).valueOf Record.idField, now.stamp, now.stamp) :=
  Record.marks_stampNew _ _ _ _

theorem Shifts.find?_eq (h : Shifts r b now request reply b') (hother : ¬Concerns id request reply) :
    b'.find? id = b.find? id := by
  cases h with
  | stays reply hreply => rfl
  | registers hid hmoniker hverdict hwrote =>
      rw [hwrote.find?, if_neg]
      rintro rfl
      exact hother ⟨congrArg some hid, rfl⟩
  | updates hid hverdict hfound hwrote =>
      rw [hwrote.find?, if_neg]
      rintro rfl
      exact hother ⟨hid, rfl⟩
  | deletes hid =>
      rw [Book.find?_drop, if_neg]
      rintro rfl
      exact hother ⟨hid, rfl⟩

/-- The record of a user goes on carrying the dates that the replies tell. -/
theorem Shifts.carries (h : Shifts r b now request reply b') {dates : Option (Moment × Moment)}
    (hdates : Carries b id dates) :
    Carries b' id (datesAfter id dates ((now, request), reply)) := by
  rw [Carries] at hdates ⊢
  by_cases hconcerns : Concerns id request reply
  · rw [datesAfter, if_pos hconcerns]
    rcases hconcerns with ⟨huser, hdone⟩
    cases h with
    | stays reply hreply =>
        unfold isDone at hdone
        split at hdone
        · exact absurd rfl (hreply _ _ _)
        · cases hdone
    | registers hid hmoniker hverdict hwrote =>
        cases hid.symm.trans (Option.some.inj huser)
        rw [hwrote.find?, if_pos rfl, Option.map_some, marks_registered, hid]
        rfl
    | @updates v entries known _ old _ hid hverdict hfound hwrote =>
        cases hid.symm.trans huser
        rw [hfound] at hdates
        rcases Option.map_eq_some_iff.mp hdates.symm with ⟨before, rfl, hmarks⟩
        rw [marksOf, Record.marks, Prod.mk.injEq, Prod.mk.injEq] at hmarks
        rw [hwrote.find?, if_pos rfl, Option.map_some, updated, Record.marks_setAll_stampChanges,
          ← hmarks.1, ← hmarks.2.1]
        rfl
    | deletes hid =>
        cases hid.symm.trans huser
        rw [Book.find?_drop, if_pos rfl]
        rfl
  · rw [datesAfter, if_neg hconcerns, h.find?_eq hconcerns, hdates]

end Requests

/-!
## Runs
-/

section Runs

variable {σ : Type} [RecordStore σ] {r : Registry} {store : σ} {Keeps : σ → Book → Prop}

/-- A run as it is seen from outside: each request with its time and the reply to it. -/
def history (r : Registry) (store : σ) (requests : List (Moment × Request)) :
    List ((Moment × Request) × Except Fault Reply) :=
  requests.zip (r.run store requests).1

theorem length_run (requests : List (Moment × Request)) :
    (r.run store requests).1.length = requests.length := by
  induction requests generalizing store with
  | nil => rfl
  | cons entry rest ih =>
      rcases entry with ⟨now, request⟩
      rw [run_cons, List.length_cons, List.length_cons, ih]

theorem replies_snoc (front : List (Moment × Request)) (now : Moment) (request : Request) :
    (r.run store (front ++ [(now, request)])).1 =
      (r.run store front).1 ++ [(r.answer (r.run store front).2 now request).1] := by
  induction front generalizing store with
  | nil => rfl
  | cons entry rest ih =>
      rcases entry with ⟨earlier, first⟩
      rw [List.cons_append, run_cons, run_cons, ih, List.cons_append]

theorem history_snoc (front : List (Moment × Request)) (now : Moment) (request : Request) :
    r.history store (front ++ [(now, request)]) = r.history store front ++
      [((now, request), (r.answer (r.run store front).2 now request).1)] := by
  rw [history, replies_snoc, List.zip_append (length_run front).symm]
  rfl

/-- Whatever a registry was asked for, whether it validates or not, on an empty store that behaves as
a map: there is a record of
a user exactly when the replies tell that the user was registered and not deleted since; the record
has the id of the user, the time at which it was registered, and the time at which it was registered
or last changed.  A request that is not carried out for the user leaves the record as it was. -/
theorem marks_of_run {config : Value} {schema : Schema} {warnings : List SchemaWarning}
    (hschema : Schema.assemble config = .ok (schema, warnings)) (hr : r.schema = schema)
    (hmap : IsMap Keeps) (hempty : Keeps store ⟨schema.fields, []⟩)
    (requests : List (Moment × Request)) (id : String) :
    (RecordStore.fetch (r.run store requests).2 id).toOption.map Record.marks =
        (datesOf id (r.history store requests)).map (marksOf id) ∧
      ∀ now request, ¬Concerns id request (r.answer (r.run store requests).2 now request).1 →
        RecordStore.fetch (r.run store (requests ++ [(now, request)])).2 id =
          RecordStore.fetch (r.run store requests).2 id := by
  subst hr
  have hsound := Schema.assemble_sound hschema
  have hstep : ∀ {front now request b b'}, b.Sound → b.fields = r.schema.fields →
      Carries b id (datesOf id (r.history store front)) →
      Shifts r b now request (r.answer (r.run store front).2 now request).1 b' →
      Carries b' id (datesOf id (r.history store (front ++ [(now, request)]))) := by
    intro front now request b b' _ _ hcarries hshifts
    rw [history_snoc, datesOf, List.foldl_append]
    exact hshifts.carries hcarries
  rcases hmap.run hsound hempty (fun front b => Carries b id (datesOf id (r.history store front)))
    rfl hstep requests with ⟨b, hkeeps, hbook, hfields, hcarries⟩
  constructor
  · rw [hmap.fetch hkeeps hbook]
    refine Eq.trans ?_ hcarries
    simp only [RecordStore.fetch]
    cases b.find? id with
    | none => rfl
    | some record => rfl
  · intro now request hother
    rcases hmap.shifts hsound hkeeps hbook hfields now request with
      ⟨b', hnext, hshifts, hbook', -⟩
    rw [run_snoc, hmap.fetch hnext hbook', hmap.fetch hkeeps hbook]
    simp only [RecordStore.fetch, hshifts.find?_eq hother]

end Runs

/-- A registry that keeps a note of each user and checks nothing. -/
def looseRegistry : Registry :=
  { noteRegistry with bypass := true }

theorem marks_of_run_of_stay :
    ∃ m : Mounted Store, m.IsSetUp .database noteSchema ∧
      (RecordStore.fetch (looseRegistry.run m stay).2 "ada").toOption.map Record.marks =
        some ("ada", Moment.stamp 60, Moment.stamp 240) ∧
      (RecordStore.fetch (looseRegistry.run m stay).2 "bob").toOption.map Record.marks = none ∧
      RecordStore.fetch (looseRegistry.run m (stay ++ [(420, .delete (.str "bob"))])).2 "ada" =
        RecordStore.fetch (looseRegistry.run m stay).2 "ada" := by
  rcases assemble_noteSetup with ⟨warnings, hassemble⟩
  rcases exists_isSetUp_noteSchema .database with ⟨m, hsetup⟩
  have hshield := fun name hname =>
    ColumnName.unshield_of_isIdentifier (isIdentifier_noteSchema name hname)
  have hmarks := marks_of_run (r := looseRegistry) hassemble rfl isMap_database
    (holds_of_isSetUp sound_noteSchema hshield hsetup) stay
  have hdates : datesOf "ada" (stay.zip (looseRegistry.run (Book.mk noteSchema.fields []) stay).1) =
        some (60, 240) ∧
      datesOf "bob" (stay.zip (looseRegistry.run (Book.mk noteSchema.fields []) stay).1) = none := by
    decide +kernel
  rw [← (stay_eq rfl hsetup).1] at hdates
  refine ⟨m, hsetup, (hmarks "ada").1.trans ?_, (hmarks "bob").1.trans ?_,
    (hmarks "ada").2 420 (.delete (.str "bob")) ?_⟩
  · rw [history, hdates.1]
    rfl
  · rw [history, hdates.2]
    rfl
  · intro hconcerns
    exact absurd hconcerns.1 (by decide)

end Registry
end Roster
