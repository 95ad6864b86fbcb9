import Mathlib.Logic.Relation
import Roster.Proofs.Registry.Setups

/-!
# Histories of a storage directory

A storage directory is set up again and again, for any backend and any fields, and registries that
were loaded from it are asked for things in between, those loaded before a setup too.  A setup leaves
a registry without users, and archives what its storage held and the manifest before.  Nothing that
was archived is changed later.
-/

namespace Roster

open Roster.Tree Relation

/-- A tree, with the registries that were loaded from it and their stores. -/
structure Site where
  tree : Tree
  desks : List (Registry × Store) := []

namespace Site

variable {home : Key} {s s' s'' : Site}

/-- What can happen to a storage directory and what was loaded from it: a setup that is done, a
registry that is loaded from the manifest, a request to a registry that was loaded. -/
inductive Step (home : Key) : Site → Site → Prop where
  | setUp {s : Site} {t' : Tree} {now : Moment} {config : Value} {settings : Entries}
      {backend : Backend} {directory configFile referenceFile : Path} {archivedTo : Option String}
      {warnings : List SchemaWarning} (hconfig : config.IsDocument)
      (hplan : Registry.plan config = .ok (settings, backend, directory))
      (hhome : directory.key = home)
      (hrun : (Registry.setup now config).run s.tree =
        (.ok ⟨.done configFile referenceFile archivedTo, warnings⟩, t')) :
      Step home s { s with tree := t' }
  | load {s : Site} {file : String} {setting : Option String} {skip : Value}
      {desk : Registry × Store} (hfile : (Path.ofText file).key = home ++ [Manifest.fileName])
      (hload : Registry.load s.tree setting (.str file) skip = .ok desk) :
      Step home s { s with desks := desk :: s.desks }
  | ask {s : Site} {r : Registry} {store : Store} (hdesk : (r, store) ∈ s.desks) (now : Moment)
      (request : Request) :
      Step home s { s with tree := (r.answer (Mounted.mk store s.tree) now request).2.tree }

/-- Anything that can happen to a storage directory, one thing after the other. -/
abbrev Run (home : Key) : Site → Site → Prop := ReflTransGen (Step home)

/-- The directory is a home, and so it is for all that was or will be loaded from it. -/
structure IsSettled (home : Key) (s : Site) : Prop where
  isHome : s.tree.IsHome home
  opens : Registry.Opens home s.tree
  desks : ∀ desk ∈ s.desks, desk.2.IsAt home

/-- A directory in which nothing is in use and from which nothing was loaded. -/
structure IsNew (home : Key) (s : Site) : Prop where
  tidy : s.tree.IsTidy
  free : ∀ name ∈ Store.liveNames, s.tree.find? (home ++ [name]) = none
  desks : s.desks = []

theorem isNew_empty (home : Key) : IsNew home ⟨{}, []⟩ where
  tidy := isTidy_empty
  free := fun _ hname => find?_empty (isEntryKey_append (Store.ne_slash hname))
  desks := rfl

/-- Nothing that can happen changes what is archived. -/
theorem Step.keeps (h : s.IsSettled home) (hstep : Step home s s') :
    s'.IsSettled home ∧ Keeps home s.tree s'.tree := by
  cases hstep with
  | setUp hconfig hplan hhome hrun =>
      have hstays := (Registry.stays_of_setup h.isHome hplan hhome hrun).1
      exact ⟨⟨hstays.isHome, Registry.opens_of_setup hconfig hplan hhome hrun, h.desks⟩,
        hstays.keeps⟩
  | load hfile hload =>
      refine ⟨⟨h.isHome, h.opens, ?_⟩, Keeps.refl home _⟩
      rintro desk (_ | ⟨_, hdesk⟩)
      · exact h.opens.isAt hfile hload
      · exact h.desks desk hdesk
  | @ask r store hdesk now request =>
      have hserves := r.serves_of_answer h.isHome (h.desks _ hdesk) now request
      exact ⟨⟨hserves.isHome, h.opens.of_same (hserves.manifest []), h.desks⟩, hserves.keeps⟩

theorem Run.keeps (h : s.IsSettled home) (hrun : Run home s s') :
    s'.IsSettled home ∧ Keeps home s.tree s'.tree := by
  induction hrun with
  | refl => exact ⟨h, Keeps.refl home _⟩
  | tail _ hstep ih =>
      rcases hstep.keeps ih.1 with ⟨hsettled, hkeeps⟩
      exact ⟨hsettled, ih.2.trans hkeeps⟩

end Site

namespace Registry

open Site

/-- With a name that is too long for its file no users are listed. -/
theorem not_listed_of_long_name :
    (⟨{}, []⟩ : Site).IsNew ["s"] ∧
      plan (.map (sheetSettings (String.ofList (List.replicate 131073 'x')))) =
        .ok (sheetSettings (String.ofList (List.replicate 131073 'x')), .file, ⟨"", ["s"]⟩) ∧
      ∃ configFile referenceFile archivedTo warnings t',
        (setup 0 (.map (sheetSettings (String.ofList (List.replicate 131073 'x'))))).run {} =
          (.ok ⟨.done configFile referenceFile archivedTo, warnings⟩, t') ∧
        ∀ setting skip, ∃ r store, load t' setting (.str configFile.text) skip = .ok (r, store) ∧
          ∀ filter : Value, filter.isGiven = false →
            ¬∃ listing, r.list (Mounted.mk store t') filter = .ok listing ∧
              listing.records = .ok [] := by
  have hlong : 131073 = (String.ofList (List.replicate 131073 'x')).toList.length := by
    rw [String.toList_ofList, List.length_replicate]
  refine ⟨isNew_empty ["s"], plan_sheetSettings ?_, not_listed_of_long ?_ ?_⟩
  · intro hempty
    rw [hempty] at hlong
    exact absurd hlong (by decide)
  · rw [← hlong]
    decide
  · intro c hc
    rw [String.toList_ofList] at hc
    rw [List.eq_of_mem_replicate hc]
    decide

end Registry
end Roster
