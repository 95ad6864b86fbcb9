import Roster.Proofs.Schema.Assembly
import Roster.Proofs.Store.Preparation

/-!
# A file is a roll

A roll is a map from ids to values, in the order in which the ids came.  Any number of stores that
are opened on one file answer as if they kept one roll, and the file is the text of that roll.
-/

namespace Roster

/-!
## Calls
-/

/-- What a store is asked for. -/
inductive Call where
  | insert (now : Moment) (id : String) (record : Entries)
  | fetch (id : String)
  | update (now : Moment) (id : String) (changes : Entries)
  | remove (id : String)
  | list (filter : Filter)
  deriving DecidableEq

/-- What a store answers when it does what it is asked for. -/
inductive Outcome where
  | done (message : String)
  | record (record : Record)
  | records (records : List Record)
  deriving DecidableEq, Repr

namespace Call

section On

variable {σ : Type} [RecordStore σ]

/-- The outcome of a change, and the store behind it. -/
def settle (store : σ) (deed : Deed) (id : String) :
    Except Failure σ → Except Failure Outcome × σ
  | .ok next => (.ok (.done (deed.message id)), next)
  | .error failure => (.error failure, store)

/-- The outcome of a call, and the store behind it. -/
def on (store : σ) : Call → Except Failure Outcome × σ
  | .insert now id record =>
      settle store .created id (RecordStore.insert store now id (.ofEntries record))
  | .fetch id => ((RecordStore.fetch store id).map .record, store)
  | .update now id changes =>
      settle store .updated id (RecordStore.update store now id (.ofEntries changes))
  | .remove id => settle store .deleted id (RecordStore.remove store id)
  | .list filter => ((RecordStore.list store filter).map .records, store)

/-- The outcomes of calls one after the other, and the store behind them. -/
def run (store : σ) : List Call → List (Except Failure Outcome) × σ
  | [] => ([], store)
  | call :: rest =>
      let (outcome, next) := call.on store
      let (outcomes, last) := run next rest
      (outcome :: outcomes, last)

@[simp] theorem run_nil (store : σ) : run store [] = ([], store) := rfl

@[simp] theorem run_cons (store : σ) (call : Call) (rest : List Call) :
    run store (call :: rest) =
      ((call.on store).1 :: (run (call.on store).2 rest).1, (run (call.on store).2 rest).2) := rfl

end On

/-- A new record has an id and some field, and no field is changed twice. -/
def IsProper : Call → Prop
  | .insert _ id record => id ≠ "" ∧ record ≠ []
  | .update _ _ changes => (Entries.keys changes).Nodup
  | _ => True

instance (call : Call) : Decidable call.IsProper := by
  cases call <;> unfold IsProper <;> infer_instance

end Call

/-- The outcomes of calls to stores that are all opened on one tree, and the tree behind them. -/
def Sheet.run (tree : Tree) : List (Sheet × Call) → List (Except Failure Outcome) × Tree
  | [] => ([], tree)
  | (s, call) :: rest =>
      let (outcome, next) := call.on (Mounted.mk s tree)
      let (outcomes, last) := run next.tree rest
      (outcome :: outcomes, last)

/-!
## Rolls
-/

/-- The values that are kept for each id. -/
structure Roll where
  fields : List String
  entries : List (String × (String → String)) := []

namespace Roll

/-- The values of a new record: what it says, and nothing elsewhere. -/
def newValues (now : Moment) (id : String) (record : Record) (field : String) : String :=
  if field = Record.idField then id
  else if field = Record.createdField ∨ field = Record.modifiedField then now.stamp
  else (record.lookup field).getD ""

/-- Values after changes. The id and the time of the making stay as they are. -/
def newerValues (now : Moment) (changes : Record) (values : String → String) (field : String) :
    String :=
  if field = Record.modifiedField then now.stamp
  else if field = Record.idField ∨ field = Record.createdField then values field
  else (changes.lookup field).getD (values field)

/-- The values as a record of all fields. -/
def recordOf (fields : List String) (values : String → String) : Record :=
  fields.map fun field => (field, values field)

instance : RecordStore Roll where
  insert r now id record :=
    match r.entries.lookup id with
    | some _ => .error (.refused (.alreadyExists id))
    | none => .ok { r with entries := r.entries ++ [(id, newValues now id record)] }
  fetch r id :=
    match r.entries.lookup id with
    | some values => .ok (recordOf r.fields values)
    | none => .error (.refused (.notFound id))
  update r now id changes :=
    match r.entries.lookup id with
    | some _ => .ok { r with entries := r.entries.map fun entry =>
        if entry.1 = id then (id, newerValues now changes entry.2) else entry }
    | none => .error (.refused (.notFound id))
  remove r id :=
    match r.entries.lookup id with
    | some _ => .ok { r with entries := r.entries.filter fun entry => entry.1 != id }
    | none => .error (.refused (.notFound id))
  list r filter :=
    .ok (((r.entries.filter fun entry => filter.selects (recordOf r.fields entry.2)).mergeSort
      fun a b => a.1 ≤ b.1).map fun entry => recordOf r.fields entry.2)

/-- The roll as delimited text: the fields, and a row of values for each id. -/
def text (delimiter : Char) (r : Roll) : String :=
  String.ofList (Delimited.writeRows delimiter
    (r.fields :: r.entries.map fun entry => r.fields.map entry.2))

/-- No value is longer than a cell may be. -/
def Fits (r : Roll) : Prop :=
  ∀ entry ∈ r.entries, ∀ field ∈ r.fields, (entry.2 field).toList.length ≤ Delimited.maxCell

instance (r : Roll) : Decidable r.Fits :=
  inferInstanceAs (Decidable (∀ entry ∈ r.entries, _))

/-!
## The book of a roll
-/

def book (r : Roll) : Book :=
  ⟨r.fields, r.entries.map fun entry => recordOf r.fields entry.2⟩

/-- The values know their id and the time at which they were last changed. -/
structure IsStamped (id : String) (values : String → String) : Prop where
  id_ne_empty : id ≠ ""
  id : values Record.idField = id
  modified : ∃ now : Moment, values Record.modifiedField = now.stamp

/-- What every roll is that is filled by calls. -/
structure Sound (r : Roll) : Prop where
  fields_nodup : r.fields.Nodup
  known : ∀ field ∈ Record.readOnlyFields, field ∈ r.fields
  ids_nodup : (Entries.keys r.entries).Nodup
  stamped : ∀ entry ∈ r.entries, IsStamped entry.1 entry.2

variable {r : Roll} {now : Moment} {id : String}

theorem lookup_recordOf {fields : List String} {field : String} (h : field ∈ fields)
    (values : String → String) : (recordOf fields values).lookup field = some (values field) := by
  induction fields with
  | nil => cases h
  | cons other rest ih =>
      rw [recordOf, List.map_cons, List.lookup_cons]
      by_cases hother : field = other
      · simp [hother]
      · have hbeq : (field == other) = false := by simpa using hother
        rw [hbeq]
        exact ih ((List.mem_cons.mp h).resolve_left hother)

theorem valueOf_recordOf {fields : List String} {field : String} (h : field ∈ fields)
    (values : String → String) : (recordOf fields values).valueOf field = values field := by
  rw [Record.valueOf, lookup_recordOf h, Option.getD_some]

theorem keys_recordOf (fields : List String) (values : String → String) :
    Entries.keys (recordOf fields values) = fields := by
  rw [recordOf, Entries.keys, List.map_map]
  exact List.map_id _

theorem recordOf_valueOf {fields : List String} {record : Record} (hnodup : fields.Nodup)
    (hfull : Entries.keys record = fields) : recordOf fields record.valueOf = record := by
  rw [← hfull]
  exact Record.map_valueOf (hfull.symm ▸ hnodup)

theorem recordOf_congr {fields : List String} {values values' : String → String}
    (h : ∀ field ∈ fields, values field = values' field) :
    recordOf fields values = recordOf fields values' :=
  List.map_congr_left fun field hfield => by rw [h field hfield]

theorem cellsOf_recordOf (fields : List String) (values : String → String) :
    SheetContent.cellsOf fields (recordOf fields values) = fields.map values :=
  List.map_congr_left fun _ hfield => valueOf_recordOf hfield values

theorem text_eq (format : SheetFormat) (r : Roll) :
    r.text format.delimiter = SheetContent.text format ⟨r.fields, r.book.records⟩ := by
  have hcells : r.book.records.map (SheetContent.cellsOf r.fields) =
      r.entries.map fun entry => r.fields.map entry.2 := by
    rw [book, List.map_map]
    exact List.map_congr_left fun entry _ => cellsOf_recordOf r.fields entry.2
  rw [text, SheetContent.text, hcells]

theorem newValues_modifiedField (now : Moment) (id : String) (record : Record) :
    newValues now id record Record.modifiedField = now.stamp := by
  simp [newValues, Record.idField, Record.modifiedField]

theorem newerValues_modifiedField (now : Moment) (changes : Record) (values : String → String) :
    newerValues now changes values Record.modifiedField = now.stamp :=
  if_pos rfl

theorem trim_stamp_ne_nil (now : Moment) : Text.trim now.stamp.toList ≠ [] := by
  refine Text.trim_ne_nil (c := '-') ?_ (by decide)
  simp [Moment.stamp, Moment.texts]

namespace Sound

theorem idField_mem (h : r.Sound) : Record.idField ∈ r.fields :=
  h.known Record.idField (by simp [Record.readOnlyFields])

theorem modifiedField_mem (h : r.Sound) : Record.modifiedField ∈ r.fields :=
  h.known Record.modifiedField (by simp [Record.readOnlyFields])

theorem id_recordOf (h : r.Sound) {entry : String × (String → String)} (hentry : entry ∈ r.entries) :
    (recordOf r.fields entry.2).id = entry.1 := by
  rw [Record.id, valueOf_recordOf h.idField_mem, (h.stamped entry hentry).id]

theorem keyed (h : r.Sound) : r.book.Keyed where
  fields_nodup := h.fields_nodup
  idField_mem := h.idField_mem
  full := by
    intro record hrecord
    rcases List.mem_map.mp hrecord with ⟨entry, -, rfl⟩
    exact keys_recordOf r.fields entry.2
  filled := by
    intro record hrecord
    rcases List.mem_map.mp hrecord with ⟨entry, hentry, rfl⟩
    rcases (h.stamped entry hentry).modified with ⟨now, hnow⟩
    refine ⟨(Record.modifiedField, entry.2 Record.modifiedField), ?_, ?_⟩
    · exact List.mem_map.mpr ⟨_, h.modifiedField_mem, rfl⟩
    · rw [hnow]
      exact trim_stamp_ne_nil now
  ids_ne_empty := by
    intro record hrecord
    rcases List.mem_map.mp hrecord with ⟨entry, hentry, rfl⟩
    rw [h.id_recordOf hentry]
    exact (h.stamped entry hentry).id_ne_empty
  ids_nodup := by
    have hids : r.book.records.map Record.id = Entries.keys r.entries := by
      rw [book, List.map_map]
      exact List.map_congr_left fun entry hentry => h.id_recordOf hentry
    rw [hids]
    exact h.ids_nodup

theorem find?_book (h : r.Sound) (id : String) :
    r.book.find? id = (r.entries.lookup id).map (recordOf r.fields) := by
  have hfind : ∀ entries : List (String × (String → String)), (∀ entry ∈ entries,
      (recordOf r.fields entry.2).id = entry.1) →
      (entries.map fun entry => recordOf r.fields entry.2).find? (fun record => record.id == id) =
        (entries.lookup id).map (recordOf r.fields) := by
    intro entries hids
    induction entries with
    | nil => rfl
    | cons entry rest ih =>
        rw [List.map_cons, List.find?_cons, List.lookup_cons, hids entry List.mem_cons_self,
          BEq.comm (a := entry.1)]
        cases id == entry.1 with
        | true => rfl
        | false => exact ih fun other hother => hids other (List.mem_cons_of_mem _ hother)
  exact hfind r.entries fun entry hentry => h.id_recordOf hentry

/-!
## Changes
-/

theorem isStamped_newValues (hid : id ≠ "") (record : Record) :
    IsStamped id (newValues now id record) where
  id_ne_empty := hid
  id := if_pos rfl
  modified := ⟨now, newValues_modifiedField now id record⟩

theorem isStamped_newerValues {values : String → String} (h : IsStamped id values)
    (changes : Record) : IsStamped id (newerValues now changes values) where
  id_ne_empty := h.id_ne_empty
  id := by
    simp [newerValues, Record.idField, Record.modifiedField]
    exact h.id
  modified := ⟨now, newerValues_modifiedField now changes values⟩

theorem insert (h : r.Sound) (hid : id ≠ "") {record : Record} {r' : Roll}
    (hinsert : RecordStore.insert r now id record = .ok r') : r'.fields = r.fields ∧ r'.Sound := by
  simp only [RecordStore.insert] at hinsert
  split at hinsert
  · cases hinsert
  · rename_i hfree
    cases hinsert
    refine ⟨rfl, h.fields_nodup, h.known, ?_, ?_⟩
    · rw [Entries.keys, List.map_append]
      refine h.ids_nodup.append (List.nodup_singleton _) ?_
      intro key hkey hnew
      rw [List.mem_singleton.mp hnew] at hkey
      exact Entries.lookup_eq_none_iff.mp hfree hkey
    · intro entry hentry
      rcases List.mem_append.mp hentry with hold | hnew
      · exact h.stamped entry hold
      · rw [List.mem_singleton.mp hnew]
        exact isStamped_newValues hid record

theorem update (h : r.Sound) {changes : Record} {r' : Roll}
    (hupdate : RecordStore.update r now id changes = .ok r') : r'.fields = r.fields ∧ r'.Sound := by
  simp only [RecordStore.update] at hupdate
  split at hupdate
  · cases hupdate
    refine ⟨rfl, h.fields_nodup, h.known, ?_, ?_⟩
    · have hkeys : ∀ entry ∈ r.entries, (if entry.1 = id then
          (id, newerValues now changes entry.2) else entry).1 = entry.1 := by
        intro entry _
        split
        · exact Eq.symm ‹_›
        · rfl
      rw [Entries.keys, List.map_map]
      exact (List.map_congr_left hkeys).symm ▸ h.ids_nodup
    · intro entry hentry
      rcases List.mem_map.mp hentry with ⟨old, hold, rfl⟩
      split
      · rename_i hid
        exact isStamped_newerValues (hid ▸ h.stamped old hold) changes
      · exact h.stamped old hold
  · cases hupdate

theorem remove (h : r.Sound) {r' : Roll} (hremove : RecordStore.remove r id = .ok r') :
    r'.fields = r.fields ∧ r'.Sound := by
  simp only [RecordStore.remove] at hremove
  split at hremove
  · cases hremove
    exact ⟨rfl, h.fields_nodup, h.known,
      h.ids_nodup.sublist (List.Sublist.map Prod.fst List.filter_sublist),
      fun entry hentry => h.stamped entry (List.mem_of_mem_filter hentry)⟩
  · cases hremove

end Sound
end Roll

/-!
## The file of a roll
-/

namespace Sheet

variable {s : Sheet} {tree : Tree} {r : Roll} {now : Moment} {id : String}

theorem put_eq_of_text {b b' : Book} (h : SheetContent.text s.format ⟨b.fields, b.records⟩ =
    SheetContent.text s.format ⟨b'.fields, b'.records⟩) : s.put tree b = s.put tree b' := by
  rw [put, put, h]

theorem cellsOf_stampNew (fields : List String) (now : Moment) (id : String) (record : Record) :
    SheetContent.cellsOf fields (record.stampNew fields now id) =
      fields.map (Roll.newValues now id record) := by
  refine List.map_congr_left fun field hfield => ?_
  rw [Record.valueOf, Record.lookup_stampNew, Roll.newValues]
  by_cases hid : field = Record.idField
  · rw [if_pos hid, if_pos hid]
    rfl
  · rw [if_neg hid, if_neg hid]
    by_cases hmodified : field = Record.modifiedField
    · rw [if_pos hmodified, if_pos (Or.inr hmodified)]
      rfl
    · by_cases hcreated : field = Record.createdField
      · rw [if_neg hmodified, if_pos hcreated, if_pos (Or.inl hcreated)]
        rfl
      · rw [if_neg hmodified, if_neg hcreated, if_pos hfield, if_neg (by tauto)]

theorem insert_eq_of_roll (h : s.Holds tree r.book) (hsound : r.Sound) (hid : id ≠ "")
    {record : Record} (hrecord : record ≠ []) :
    s.insert tree now id record =
      (RecordStore.insert r now id record).map fun r' => s.put tree r'.book := by
  have hnew : RecordStore.checkNew id record = .ok () := by
    simp [RecordStore.checkNew, hid, hrecord]
  rw [h.insert hsound.keyed]
  simp only [RecordStore.insert, hnew, hsound.find?_book, bind, Except.bind]
  cases r.entries.lookup id with
  | some values => rfl
  | none =>
      refine congrArg Except.ok (put_eq_of_text ?_)
      rw [SheetContent.text, SheetContent.text]
      simp only [Roll.book, Book.add, List.map_append, List.map_singleton, cellsOf_stampNew,
        Roll.cellsOf_recordOf]

theorem setAll_stampChanges_recordOf {fields : List String} (hnodup : fields.Nodup)
    (hknown : ∀ field ∈ Record.readOnlyFields, field ∈ fields) {changes : Record}
    (hchanges : (Entries.keys changes).Nodup) (values : String → String) :
    Entries.setAll (Roll.recordOf fields values) (changes.stampChanges fields now) =
      Roll.recordOf fields (Roll.newerValues now changes values) := by
  have hkeys := Record.keys_setAll_stampChanges now changes hknown (Roll.keys_recordOf fields values)
  rw [← Roll.recordOf_valueOf hnodup hkeys]
  refine Roll.recordOf_congr fun field hfield => ?_
  have hstamped : (Entries.keys (changes.stampChanges fields now)).Nodup := by
    refine Entries.nodup_keys_set ?_
    exact hchanges.sublist (List.Sublist.map Prod.fst
      (List.filter_sublist.trans List.filter_sublist))
  rw [Record.valueOf, Entries.lookup_setAll, Entries.lookup_reverse hstamped,
    Record.lookup_stampChanges, Roll.lookup_recordOf hfield, Roll.newerValues]
  by_cases hmodified : field = Record.modifiedField
  · rw [if_pos hmodified, if_pos hmodified]
    rfl
  · rw [if_neg hmodified, if_neg hmodified]
    by_cases hread : field = Record.idField ∨ field = Record.createdField
    · rw [if_pos hread, if_pos (by simp [Record.readOnlyFields]; tauto)]
      rfl
    · rw [if_neg hread, if_neg (by simp [Record.readOnlyFields]; tauto), if_pos hfield]
      cases changes.lookup field with
      | some value => rfl
      | none => rfl

theorem update_eq_of_roll (h : s.Holds tree r.book) (hsound : r.Sound) {changes : Record}
    (hchanges : (Entries.keys changes).Nodup) :
    s.update tree now id changes =
      (RecordStore.update r now id changes).map fun r' => s.put tree r'.book := by
  rw [h.update hsound.keyed]
  simp only [RecordStore.update, hsound.find?_book]
  cases r.entries.lookup id with
  | none => rfl
  | some values =>
      refine congrArg Except.ok (congrArg (s.put tree) ?_)
      simp only [Book.change, Roll.book, List.map_map]
      refine congrArg (Book.mk r.fields) (List.map_congr_left fun entry hentry => ?_)
      simp only [Function.comp_apply, Book.changed, hsound.id_recordOf hentry, beq_iff_eq]
      by_cases hid : entry.1 = id
      · rw [if_pos hid, if_pos hid]
        exact setAll_stampChanges_recordOf hsound.fields_nodup hsound.known hchanges entry.2
      · rw [if_neg hid, if_neg hid]

theorem remove_eq_of_roll (h : s.Holds tree r.book) (hsound : r.Sound) :
    s.remove tree id = (RecordStore.remove r id).map fun r' => s.put tree r'.book := by
  rw [h.remove hsound.keyed]
  simp only [RecordStore.remove, hsound.find?_book]
  cases r.entries.lookup id with
  | none => rfl
  | some values =>
      refine congrArg Except.ok (congrArg (s.put tree) ?_)
      simp only [Book.drop, Roll.book, List.filter_map]
      refine congrArg (fun entries => Book.mk r.fields (List.map _ entries)) ?_
      refine List.filter_congr fun entry hentry => ?_
      simp only [Function.comp_apply, hsound.id_recordOf hentry]

theorem fetch_eq_of_roll (h : s.Holds tree r.book) (hsound : r.Sound) :
    s.fetch tree id = RecordStore.fetch r id := by
  rw [h.fetch hsound.keyed]
  simp only [RecordStore.fetch, hsound.find?_book]
  cases r.entries.lookup id with
  | none => rfl
  | some values => rfl

theorem list_eq_of_roll (h : s.Holds tree r.book) (hsound : r.Sound) (filter : Filter) :
    s.list tree filter = RecordStore.list r filter := by
  rw [h.list hsound.keyed]
  simp only [RecordStore.list, Roll.book, List.filter_map]
  refine congrArg Except.ok (Eq.symm (Record.eq_sortById ?_ ?_ ?_))
  · have hids : (r.book.records.map Record.id).Nodup := hsound.keyed.ids_nodup
    rw [Roll.book, List.map_map] at hids
    rw [List.map_map]
    exact hids.sublist (List.Sublist.map _ List.filter_sublist)
  · have hsorted := Record.pairwise_mergeSort_le Prod.fst
      (r.entries.filter fun entry => filter.selects (Roll.recordOf r.fields entry.2))
    rw [List.pairwise_map]
    refine hsorted.imp_of_mem fun {a b} ha hb hab => ?_
    have hmem : ∀ {entry}, entry ∈ (r.entries.filter fun entry =>
        filter.selects (Roll.recordOf r.fields entry.2)).mergeSort (fun a b => decide (a.1 ≤ b.1)) →
        entry ∈ r.entries := fun h => List.mem_of_mem_filter (List.mem_mergeSort.mp h)
    rw [hsound.id_recordOf (hmem ha), hsound.id_recordOf (hmem hb)]
    exact hab
  · exact (List.mergeSort_perm _ _).map _

/-- What is answered on a file is what is answered on a roll, and the file is that of the next
roll. -/
structure Follows (s : Sheet) (r : Roll) (x : Except Failure Outcome × Mounted Sheet)
    (y : Except Failure Outcome × Roll) : Prop where
  outcome : x.1 = y.1
  store : x.2.store = s
  fields : y.2.fields = r.fields
  sound : y.2.Sound
  holds : y.2.Fits → s.Holds x.2.tree y.2.book

theorem follows_unchanged (h : s.Holds tree r.book) (hsound : r.Sound)
    (outcome : Except Failure Outcome) : s.Follows r (outcome, ⟨s, tree⟩) (outcome, r) :=
  ⟨rfl, rfl, rfl, hsound, fun _ => h⟩

theorem follows_settle (h : s.Holds tree r.book) (hsound : r.Sound) (deed : Deed)
    {change : Except Failure (Mounted Sheet)} {next : Except Failure Roll}
    (hchange : change = next.map fun r' => ⟨s, s.put tree r'.book⟩)
    (hnext : ∀ r', next = .ok r' → r'.fields = r.fields ∧ r'.Sound) :
    s.Follows r (Call.settle ⟨s, tree⟩ deed id change) (Call.settle r deed id next) := by
  rw [hchange]
  cases next with
  | error failure => exact follows_unchanged h hsound (.error failure)
  | ok r' =>
      rcases hnext r' rfl with ⟨hfields, hsound'⟩
      refine ⟨rfl, rfl, hfields, hsound', fun hfits => h.put hfields ?_⟩
      intro record hrecord cell hcell
      rcases List.mem_map.mp hrecord with ⟨entry, hentry, rfl⟩
      rcases List.mem_map.mp hcell with ⟨field, hfield, rfl⟩
      exact hfits entry hentry field hfield

/-- A store on the file of a roll answers a call as the roll does. -/
theorem follows_on (h : s.Holds tree r.book) (hsound : r.Sound) {call : Call}
    (hproper : call.IsProper) : s.Follows r (call.on (Mounted.mk s tree)) (call.on r) := by
  have hmap : ∀ {change : Except Failure Tree} {next : Except Failure Roll},
      change = next.map (fun r' => s.put tree r'.book) →
      change.map (fun tree => Mounted.mk s tree) = next.map fun r' => ⟨s, s.put tree r'.book⟩ := by
    rintro change next rfl
    cases next <;> rfl
  cases call with
  | insert now id record =>
      have hrecord : Record.ofEntries record ≠ [] := by
        simpa [Record.ofEntries] using hproper.2
      exact follows_settle h hsound .created
        (hmap (insert_eq_of_roll h hsound hproper.1 hrecord)) fun r' => hsound.insert hproper.1
  | fetch id =>
      have hfetch : RecordStore.fetch (Mounted.mk s tree) id = RecordStore.fetch r id :=
        fetch_eq_of_roll h hsound
      rw [Call.on, Call.on, hfetch]
      exact follows_unchanged h hsound _
  | update now id changes =>
      have hchanges : (Entries.keys (Record.ofEntries changes)).Nodup := by
        rw [Record.ofEntries, Entries.keys, List.map_map]
        exact hproper
      exact follows_settle h hsound .updated
        (hmap (update_eq_of_roll h hsound hchanges)) fun r' => hsound.update
  | remove id =>
      exact follows_settle h hsound .deleted
        (hmap (remove_eq_of_roll h hsound)) fun r' => hsound.remove
  | list filter =>
      have hlist : RecordStore.list (Mounted.mk s tree) filter = RecordStore.list r filter :=
        list_eq_of_roll h hsound filter
      rw [Call.on, Call.on, hlist]
      exact follows_unchanged h hsound _

/-- Stores on the file of a roll answer calls one after the other as the roll does. -/
theorem run_eq_of_roll {calls : List (Sheet × Call)} (h : s.Holds tree r.book)
    (hsound : r.Sound) (hsame : ∀ use ∈ calls, use.1 = s)
    (hproper : ∀ use ∈ calls, use.2.IsProper)
    (hfits : ∀ front, front <+: calls → (Call.run r (front.map Prod.snd)).2.Fits) :
    (run tree calls).1 = (Call.run r (calls.map Prod.snd)).1 ∧
      s.Holds (run tree calls).2 (Call.run r (calls.map Prod.snd)).2.book := by
  induction calls generalizing tree r with
  | nil => exact ⟨rfl, h⟩
  | cons use rest ih =>
      rcases use with ⟨other, call⟩
      obtain rfl : other = s := hsame (other, call) List.mem_cons_self
      have hstep := follows_on h hsound (hproper (other, call) List.mem_cons_self)
      have hnext : (call.on r).2.Fits := hfits [(other, call)] (by simp)
      rcases ih (hstep.holds hnext) hstep.sound
        (fun use huse => hsame use (List.mem_cons_of_mem _ huse))
        (fun use huse => hproper use (List.mem_cons_of_mem _ huse))
        (fun front hfront => hfits ((other, call) :: front)
          (List.prefix_cons_inj _ |>.mpr hfront)) with ⟨houtcomes, hholds⟩
      refine ⟨?_, hholds⟩
      exact congrArg₂ List.cons hstep.outcome houtcomes

/-!
## A file that was prepared
-/

/-- However many stores are opened on a prepared file, they answer every call as one roll does, and
after every call the file is the text of that roll and can be opened again. -/
theorem run_refines_roll {config : Value} {schema : Schema} {warnings : List SchemaWarning}
    (hschema : Schema.assemble config = .ok (schema, warnings))
    (hheader : Delimited.Fits schema.fields) {text : String} {options : Entries} {now : Moment}
    {tree tree' : Tree} {prepared : Prepared}
    (hprepare : (Backend.file.prepare (.ofText text) schema options now).run tree =
      (.ok prepared, tree'))
    {calls : List (Sheet × Call)}
    (hopened : ∀ use ∈ calls, ∃ earlier, attach prepared.state earlier = .ok use.1)
    (hproper : ∀ use ∈ calls, use.2.IsProper)
    (hfits : ∀ front, front <+: calls →
      (Call.run (Roll.mk schema.fields []) (front.map Prod.snd)).2.Fits) :
    ∃ s : Sheet, SheetFormat.ofName? (formatOption options) = some s.format ∧
      ∀ front, front <+: calls →
        (run tree' front).1 = (Call.run (Roll.mk schema.fields []) (front.map Prod.snd)).1 ∧
        (run tree' front).2.read s.path =
          .ok ((Call.run (Roll.mk schema.fields []) (front.map Prod.snd)).2.text
            s.format.delimiter).toUTF8 ∧
        attach prepared.state (run tree' front).2 = .ok s := by
  rcases holds_of_prepare hprepare with ⟨s, hplace, hformat, hstate, hthere, hfile⟩
  have hplain : s.directory.IsPlain := hplace ▸ Path.isPlain_ofText text
  have hsound := Schema.assemble_sound hschema
  have hroll : (Roll.mk schema.fields []).Sound :=
    ⟨hsound.nodup, hsound.known, List.nodup_nil, fun entry hentry => nomatch hentry⟩
  have hholds : s.Holds tree' (Roll.mk schema.fields []).book :=
    ⟨hthere, hfile, hheader, fun record hrecord => nomatch hrecord⟩
  have hsame : ∀ use ∈ calls, use.1 = s := by
    intro use huse
    rcases hopened use huse with ⟨earlier, hattach⟩
    rw [hstate] at hattach
    exact eq_of_attach_state hplain hattach
  refine ⟨s, hformat, fun front hfront => ?_⟩
  rcases run_eq_of_roll hholds hroll (fun use huse => hsame use (hfront.subset huse))
    (fun use huse => hproper use (hfront.subset huse))
    (fun earlier hearlier => hfits earlier (hearlier.trans hfront)) with ⟨houtcomes, hlast⟩
  refine ⟨houtcomes, ?_, ?_⟩
  · rw [Tree.read_of_find? hlast.file, Roll.text_eq]
    rfl
  · rw [hstate]
    exact attach_state hplain (Tree.isFile_of_find? hlast.file fun heq => nomatch heq)

/-- Two desks share a file of values separated by commas. -/
def deskCalls : List (Sheet × Call) :=
  let desk : Sheet := ⟨.ofText "", .csv⟩
  let otherDesk : Sheet := ⟨.ofText "", .csv⟩
  [(desk, .insert 0 "bob" [("note", .str "say \"hi\",\r\n bye"), ("nickname", .str "b")]),
    (otherDesk, .insert 60 "ada" [("moniker", .str " ")]),
    (desk, .insert 120 "ada" [("moniker", .str "Ada")]),
    (otherDesk, .update 180 "bob" [("user_id", .str "eve"), ("moniker", .str "Bob")]),
    (desk, .list { groups := [[⟨"note", .contains, "HI"⟩]], raw := "note~HI" }),
    (otherDesk, .remove "bob"),
    (desk, .fetch "bob")]

theorem run_refines_roll_of_desks :
    ∃ (prepared : Prepared) (tree : Tree),
      (Backend.file.prepare (.ofText "") Registry.noteSchema [("file_format", .str "csv")] 0).run {} =
        (.ok prepared, tree) ∧
      (∀ use ∈ deskCalls, ∃ earlier, attach prepared.state earlier = .ok use.1) ∧
      ∃ s : Sheet, SheetFormat.ofName? (formatOption [("file_format", .str "csv")]) =
          some s.format ∧
        ∀ front, front <+: deskCalls →
          (run tree front).1 =
            (Call.run (Roll.mk Registry.noteSchema.fields []) (front.map Prod.snd)).1 ∧
          (run tree front).2.read s.path =
            .ok ((Call.run (Roll.mk Registry.noteSchema.fields []) (front.map Prod.snd)).2.text
              s.format.delimiter).toUTF8 ∧
          attach prepared.state (run tree front).2 = .ok s := by
  have hok : ((Backend.file.prepare (.ofText "") Registry.noteSchema
      [("file_format", .str "csv")] 0).run {}).1.isOk = true := by
    decide +kernel
  cases hprepare : (Backend.file.prepare (.ofText "") Registry.noteSchema
      [("file_format", .str "csv")] 0).run {} with
  | mk result tree =>
      rw [hprepare] at hok
      cases result with
      | error failure => cases hok
      | ok prepared =>
          rcases Registry.assemble_noteSetup with ⟨warnings, hassemble⟩
          have hheader : ∀ cell ∈ Registry.noteSchema.fields,
              cell.toList.length ≤ Delimited.maxCell := by
            decide +kernel
          have hproper : ∀ use ∈ deskCalls, use.2.IsProper := by
            decide +kernel
          have hfits : ∀ front ∈ deskCalls.inits, (Call.run (Roll.mk Registry.noteSchema.fields [])
              (front.map Prod.snd)).2.Fits := by
            decide +kernel
          have hopened : ∀ use ∈ deskCalls, ∃ earlier, attach prepared.state earlier = .ok use.1 := by
            rcases holds_of_prepare hprepare with ⟨s, hplace, hformat, hstate, -, hfile⟩
            have hsheet : ∀ use ∈ deskCalls, use.1 = ⟨.ofText "", .csv⟩ := by
              decide +kernel
            have hcsv : SheetFormat.ofName? (formatOption [("file_format", .str "csv")]) =
                some .csv := by
              decide +kernel
            intro use huse
            refine ⟨tree, ?_⟩
            rw [hstate, hsheet use huse, attach_state (hplace ▸ Path.isPlain_ofText "")
              (Tree.isFile_of_find? hfile fun heq => nomatch heq)]
            rcases s with ⟨directory, format⟩
            obtain rfl : directory = .ofText "" := hplace
            rw [Option.some.inj (hcsv.symm.trans hformat)]
          exact ⟨prepared, tree, rfl, hopened, run_refines_roll hassemble hheader hprepare hopened
            hproper fun front hfront => hfits front ((List.mem_inits front deskCalls).mpr hfront)⟩

end Sheet
end Roster
