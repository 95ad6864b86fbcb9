import Roster.Proofs.Registry.Requests
import Roster.Proofs.Storage.Archive
import Roster.Proofs.Store.Work
import Roster.Registry.Work

/-!
# Requests that fail change nothing

A registry that carries out a request step by step gives the reply that it gives when the store
changes as a whole.  When the request is refused or broken off, the tree is what it was before, and
no draft is left in it.
-/

namespace Roster
namespace Registry

variable {t : Tree} {store : Store} {r : Registry} {now : Moment}

/-!
## Decisions
-/

/-- What is decided on a store that is only looked at is what the store is asked for. -/
inductive Decides (store : Store) (t : Tree) :
    Except Fault (UserAnswer × Recorder) → Except Fault (UserAnswer × Mounted Store) → Prop where
  | broken (fault : Fault) : Decides store t (.error fault) (.error fault)
  | answered (answer : UserAnswer) :
      Decides store t (.ok (answer, ⟨store, t, none⟩)) (.ok (answer, ⟨store, t⟩))
  | noted (deed : Deed) (id : String) (warnings : List String) (write : Write) :
      Decides store t (.ok (⟨.done deed, id, warnings⟩, ⟨store, t, some write⟩))
        (perform (Mounted.mk store t) deed id warnings
          ((store.apply t write).map (Mounted.mk store)))

theorem decides_isStored (id : String) {noted : Bool → Except Fault (UserAnswer × Recorder)}
    {made : Bool → Except Fault (UserAnswer × Mounted Store)}
    (h : ∀ stored, Decides store t (noted stored) (made stored)) :
    Decides store t (isStored (Recorder.mk store t none) id >>= noted)
      (isStored (Mounted.mk store t) id >>= made) := by
  have hsame : isStored (Recorder.mk store t none) id = isStored (Mounted.mk store t) id := rfl
  rw [hsame]
  cases isStored (Mounted.mk store t) id with
  | error fault => exact .broken fault
  | ok stored => exact h stored

theorem Decides.ite {c : Prop} [Decidable c] {noted noted' : Except Fault (UserAnswer × Recorder)}
    {made made' : Except Fault (UserAnswer × Mounted Store)} (h : Decides store t noted made)
    (h' : Decides store t noted' made') :
    Decides store t (if c then noted else noted') (if c then made else made') := by
  split
  · exact h
  · exact h'

theorem decides_register (data : Value) :
    Decides store t (r.register (Recorder.mk store t none) now data)
      (r.register (Mounted.mk store t) now data) := by
  rw [register.eq_def, register.eq_def]
  cases data with
  | map entries =>
      refine .ite (.answered _) (.ite (.answered _) (decides_isStored _ fun stored => ?_))
      refine .ite (.answered _) (.ite ?_ (.answered _))
      exact .noted .created _ _ (.insert now _ _)
  | _ => exact .answered _

theorem decides_update (id changes : Value) :
    Decides store t (r.update (Recorder.mk store t none) now id changes)
      (r.update (Mounted.mk store t) now id changes) := by
  rw [update.eq_def, update.eq_def]
  split
  · exact .answered _
  · refine decides_isStored _ fun stored => .ite (.ite ?_ (.answered _)) (.answered _)
    exact .noted .updated _ _ (.update now _ _)
  · exact .answered _

theorem decides_delete (id : Value) :
    Decides store t (delete (Recorder.mk store t none) id) (delete (Mounted.mk store t) id) := by
  rw [delete, delete]
  split
  · exact .answered _
  · refine decides_isStored _ fun stored => .ite ?_ (.answered _)
    exact .noted .deleted _ _ (.remove _)

/-!
## Requests that are carried out
-/

/-- What is decided is carried out as a whole or not at all. -/
theorem run_carryOut (ht : t.IsOrderly) (tools : Equipment)
    {choice : Recorder → Except Fault (UserAnswer × Recorder)}
    {made : Except Fault (UserAnswer × Mounted Store)}
    (h : Decides store t (choice (Recorder.mk store t none)) made) :
    ∃ result t', (carryOut tools store choice).run t = (result, t') ∧
      ((∀ a, result = .ok a → a.success = false) → t' = t) ∧
      (Work.EncodesAll tools → (result.map Reply.user, t') =
        ((conclude (Mounted.mk store t) made).1, (conclude (Mounted.mk store t) made).2.tree)) := by
  unfold carryOut
  rw [Steps.run_bind, Steps.run_get]
  dsimp only
  rw [Steps.run_bind, Steps.run_liftM]
  cases hchoice : choice (Recorder.mk store t none) with
  | error fault =>
      rw [hchoice] at h
      cases h
      exact ⟨.error fault, t, rfl, fun _ => rfl, fun _ => rfl⟩
  | ok decided =>
      rw [hchoice] at h
      cases h with
      | answered answer => exact ⟨.ok answer, t, rfl, fun _ => rfl, fun _ => rfl⟩
      -- Only what was noted touches the tree, and `settles` says that it does so as a whole.
      | noted deed id warnings write =>
          rcases Store.settles ht store tools write with ⟨change, hchange, hsame⟩
          dsimp only
          rw [Steps.run_bind, Steps.run_get]
          dsimp only
          rw [show ((store.applying tools write).run t) = _ from hchange]
          cases change with
          | ok t' =>
              refine ⟨_, t', rfl, fun hfail => ?_, fun hall => ?_⟩
              · cases hfail _ rfl
              · rw [← hsame hall]
                rfl
          | error failure =>
              cases failure with
              | refused refusal =>
                  refine ⟨_, t, rfl, fun _ => rfl, fun hall => ?_⟩
                  rw [← hsame hall]
                  rfl
              | broken fault =>
                  refine ⟨_, t, rfl, fun _ => rfl, fun hall => ?_⟩
                  rw [← hsame hall]
                  rfl

/-- Carry a request out step by step. -/
def asking (r : Registry) (tools : Equipment) (store : Store) (now : Moment) :
    Request → Errand Reply
  | .register data => .user <$> r.registering tools store now data
  | .get id fields => do (get (Mounted.mk store (← MonadState.get)) id fields).map .user
  | .update id changes => .user <$> r.updating tools store now id changes
  | .delete id => .user <$> deleting tools store id
  | .list filter => do (r.list (Mounted.mk store (← MonadState.get)) filter).map .listing

/-- What a request comes to: a reply, and a tree that is another one only if the reply says that
something was done. -/
structure Comes (tools : Equipment) (t : Tree) (whole : Except Fault Reply × Mounted Store)
    (reply : Except Fault Reply) (t' : Tree) : Prop where
  unchanged : (∀ a, reply = .ok (.user a) → a.success = false) → t' = t
  whole : Work.EncodesAll tools → (reply, t') = (whole.1, whole.2.tree)

theorem comes_of_carryOut (ht : t.IsOrderly) (tools : Equipment)
    {choice : Recorder → Except Fault (UserAnswer × Recorder)}
    {made : Except Fault (UserAnswer × Mounted Store)}
    (h : Decides store t (choice (Recorder.mk store t none)) made) {reply : Except Fault Reply}
    {t' : Tree} (hrun : (Reply.user <$> carryOut tools store choice : Errand Reply).run t =
      (reply, t')) : Comes tools t (conclude (Mounted.mk store t) made) reply t' := by
  rcases run_carryOut ht tools h with ⟨result, made', hmade, hunchanged, hwhole⟩
  rw [map_eq_pure_bind, Steps.run_bind, hmade] at hrun
  cases result with
  | ok answer =>
      cases hrun
      refine ⟨fun hfailed => hunchanged fun a ha => hfailed a ?_, hwhole⟩
      exact congrArg (Except.map Reply.user) ha
  | error fault =>
      cases hrun
      exact ⟨fun _ => hunchanged fun a ha => (nomatch ha), hwhole⟩

theorem comes_of_read {tools : Equipment} (look : Mounted Store → Except Fault Reply)
    {reply : Except Fault Reply} {t' : Tree}
    (hrun : (do look (Mounted.mk store (← MonadState.get)) : Errand Reply).run t = (reply, t')) :
    Comes tools t (look (Mounted.mk store t), Mounted.mk store t) reply t' := by
  rw [Steps.run_bind, Steps.run_get] at hrun
  dsimp only at hrun
  rw [Steps.run_liftM] at hrun
  cases hrun
  exact ⟨fun _ => rfl, fun _ => rfl⟩

theorem comes_asking (ht : t.IsOrderly) (r : Registry) (tools : Equipment) (store : Store)
    (now : Moment) (request : Request) {reply : Except Fault Reply} {t' : Tree}
    (hrun : (r.asking tools store now request).run t = (reply, t')) :
    Comes tools t (r.answer (Mounted.mk store t) now request) reply t' := by
  cases request with
  | register data => exact comes_of_carryOut ht tools (decides_register data) hrun
  | get id fields => exact comes_of_read (fun m => (get m id fields).map .user) hrun
  | update id changes => exact comes_of_carryOut ht tools (decides_update id changes) hrun
  | delete id => exact comes_of_carryOut ht tools (decides_delete id) hrun
  | list filter => exact comes_of_read (fun m => (r.list m filter).map .listing) hrun

/-- Whatever the storage holds and whatever is asked for: when a request is refused or broken off,
the storage is what it was, drafts included.  When every text has an encoding, carrying a request
out step by step comes to the same as answering it as a whole. -/
theorem unchanged_of_failed (ht : t.IsOrderly) (r : Registry) (tools : Equipment) (store : Store)
    (now : Moment) (request : Request) {reply : Except Fault Reply} {t' : Tree}
    (hrun : (r.asking tools store now request).run t = (reply, t')) :
    ((∀ a, reply = .ok (.user a) → a.success = false) → t' = t) ∧
      (Work.EncodesAll tools → (reply, t') =
        ((r.answer (Mounted.mk store t) now request).1,
          (r.answer (Mounted.mk store t) now request).2.tree)) := by
  have hcomes := comes_asking ht r tools store now request hrun
  exact ⟨hcomes.unchanged, hcomes.whole⟩

def numberedDrafts (front behind : String) : DraftNames front behind where
  choose := Archive.firstFree front behind
  isFree taken := (Archive.firstFree_spec front behind taken).1
  isDraft taken := by
    rcases (Archive.firstFree_spec front behind taken).2 with ⟨n, hname⟩
    rw [hname]
    cases n with
    | zero => exact ⟨"", by rw [String.append_empty]; rfl⟩
    | succ n => exact ⟨"_" ++ toString (n + 1), by rw [← String.append_assoc]; rfl⟩

/-- Files are written in UTF-8, and drafts are numbered. -/
def utf8Tools : Equipment :=
  ⟨fun s => .ok s.toUTF8, numberedDrafts _ _, numberedDrafts _ _⟩

/-- A file of users with an octet behind them that no text has. -/
def damagedTree : Tree :=
  { entries := [(["s"], .directory),
      (["s", "users.tsv"], .file ("user_id\tmoniker\nann\tAnn\n".toUTF8.push 0xff))] }

/-- The registry of the users in the file. -/
def damagedDesk : Registry :=
  { manifest := { backend := "file", state := [], schema := ⟨[], []⟩ } }

/-- Nobody is deleted from a damaged file, and the file stays as it is. -/
theorem unchanged_of_failed_of_damaged :
    damagedTree.IsOrderly ∧ ∃ fault,
      (damagedDesk.asking utf8Tools (.sheet ⟨⟨"", ["s"]⟩, .tsv⟩) 0 (.delete (.str "ann"))).run
        damagedTree = (.error fault, damagedTree) := by
  have horderly : damagedTree.IsOrderly := by
    refine Tree.isOrderly_of_entries (by decide) ?_ ?_
    · simp [damagedTree, Tree.find?]
    · simp [damagedTree]
  have hbroken : ((damagedDesk.asking utf8Tools (.sheet ⟨⟨"", ["s"]⟩, .tsv⟩) 0
      (.delete (.str "ann"))).run damagedTree).1.toOption = none := by
    decide +kernel
  refine ⟨horderly, ?_⟩
  rcases hrun : (damagedDesk.asking utf8Tools (.sheet ⟨⟨"", ["s"]⟩, .tsv⟩) 0
    (.delete (.str "ann"))).run damagedTree with ⟨reply, t'⟩
  rw [hrun] at hbroken
  cases reply with
  | ok reply => cases hbroken
  | error fault =>
      have hfailed : ∀ a, (.error fault : Except Fault Reply) = .ok (.user a) →
          a.success = false := by
        intro a ha
        cases ha
      have hsame := (unchanged_of_failed horderly damagedDesk utf8Tools _ 0 _ hrun).1 hfailed
      exact ⟨fault, by rw [hsame]⟩

end Registry
end Roster
