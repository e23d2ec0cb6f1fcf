import Mathlib.Data.List.Nodup
import SwanModel.Proofs.Model.Eager
import SwanModel.Proofs.Project.Unfolding

/-!
# How often a source is found

All sources of a project are listed once for each path of dependencies that leads to them.
-/

namespace SwanModel

open Relation

variable {app app' : Application} {reader : Reader} {id : Nat} {files : Files} {asset : ProjectAsset}

/-! ### The places of files -/

namespace Files

def IsDistinct (files : Files) : Prop := (files.entries.map (·.1)).Nodup

theorem IsDistinct.put (distinct : files.IsDistinct) (place : List String) (kind : FileKind) :
    (files.put place kind).IsDistinct := by
  refine List.nodup_cons.mpr ⟨?_, distinct.sublist (List.filter_sublist.map _)⟩
  intro member
  obtain ⟨entry, kept, same⟩ := List.mem_map.mp member
  have differs := (List.mem_filter.mp kept).2
  simp [same] at differs

theorem IsDistinct.putParents (distinct : files.IsDistinct) (place : List String) :
    (files.putParents place).IsDistinct := by
  refine List.foldlRecOn _ _ distinct fun files distinct n _ => ?_
  dsimp only
  split
  · exact distinct
  · exact distinct.put _ _

theorem isDistinct_ofListing (listing : List (String × Option String)) (location : List String) :
    (ofListing listing location).IsDistinct := by
  refine List.foldlRecOn _ _ List.nodup_nil fun files distinct entry _ => ?_
  exact (distinct.putParents _).put _ _

theorem names_nodup (distinct : files.IsDistinct) (place : List String) : (files.names place).Nodup := by
  have listed : (files.entries.filterMap ((fun other : List String =>
      if !other.isEmpty && other.dropLast == place then other.getLast? else none) ∘ (·.1))).Nodup := by
    rw [← List.filterMap_map]
    refine distinct.filterMap fun first second name here there => ?_
    -- in one directory a name stands for one place
    have last {other : List String}
        (named : name ∈ if !other.isEmpty && other.dropLast == place then other.getLast? else none) :
        other = place ++ [name] := by
      split at named
      · next inside =>
        obtain ⟨front, rfl⟩ := List.getLast?_eq_some_iff.mp named
        simpa using inside
      · cases named
    rw [last here, last there]
  unfold names
  dsimp only
  split
  · split
    · exact listed
    · next name _ other => exact List.nodup_cons.mpr ⟨by simpa using other, listed⟩
  · exact listed

theorem list_nodup (distinct : files.IsDistinct) (path : FilePath) : (files.list path).Nodup := by
  unfold list
  split
  · rw [(List.mergeSort_perm _ _).nodup_iff]
    exact names_nodup distinct _
  · exact List.nodup_nil

end Files

/-- Where a file stands: the place of its directory, and its name. -/
def SwanFile.place? (files : Files) (file : SwanFile) : Option (List String) :=
  (files.resolve file.path.parent).toOption.map (· ++ [file.path.name])

theorem SwanFile.place?_ofPath (directory : FilePath) (name : String) :
    (SwanFile.ofPath (directory.join ⟨"", [name]⟩)).place? files =
      (files.resolve directory).toOption.map (· ++ [name]) := by
  simp [place?, ofPath, FilePath.join, FilePath.isAbsolute, FilePath.parent, FilePath.name]

namespace ProjectAsset

/-- Whether one of the sources beside the file of a project stands at a place. -/
def hasSourceAt (files : Files) (place : List String) (asset : ProjectAsset) : Bool :=
  (asset.sources files).any fun file => file.place? files == some place

theorem sources_distinct (distinct : files.IsDistinct) (asset : ProjectAsset) :
    ((asset.sources files).map (·.place? files)).Nodup := by
  unfold sources Project.sources
  split
  · exact List.nodup_nil
  · next directory _ =>
    dsimp only
    simp only [List.map_map, Function.comp_def, SwanFile.place?_ofPath]
    rcases resolved : files.resolve (directory.join (.ofText Project.sourceDirectory)) with e | place
    · have empty : files.list (directory.join (.ofText Project.sourceDirectory)) = [] := by
        simp only [Files.list, resolved]
      simp [empty]
    · refine List.Nodup.map_on ?_ ((files.list_nodup distinct _).filter _)
      intro first _ second _ same
      simpa [Except.toOption] using same

theorem countP_sources (distinct : files.IsDistinct) (place : List String) (asset : ProjectAsset) :
    (asset.sources files).countP (fun file => file.place? files == some place) =
      if asset.hasSourceAt files place then 1 else 0 := by
  have once := (asset.sources_distinct distinct).count (a := some place)
  rw [List.count, List.countP_map] at once
  have same : some place ∈ (asset.sources files).map (·.place? files) ↔
      asset.hasSourceAt files place = true := by
    simp [hasSourceAt, List.any_eq_true]
  simp only [same] at once
  exact once

/-- A place is listed once for each project that has a source there. -/
theorem countP_allSources (distinct : files.IsDistinct) (place : List String)
    (projects : List ProjectAsset) :
      (projects.flatMap (·.sources files)).countP (fun file => file.place? files == some place) =
        projects.countP (·.hasSourceAt files place) := by
  induction projects with
  | nil => rfl
  | cons first rest ih =>
    rw [List.flatMap_cons, List.countP_append, countP_sources distinct, ih, List.countP_cons,
      Nat.add_comm]

/-- All places are different where no two projects have a source at the same one. -/
theorem allSources_distinct_iff (distinct : files.IsDistinct) (projects : List ProjectAsset) :
    ((projects.flatMap (·.sources files)).map (·.place? files)).Nodup ↔
      projects.Pairwise fun first second => ∀ file ∈ first.sources files, ∀ other ∈ second.sources files,
        file.place? files ≠ other.place? files := by
  rw [List.map_flatMap, List.nodup_flatMap, and_iff_right fun asset _ => asset.sources_distinct distinct]
  refine List.Pairwise.iff fun first second => ?_
  constructor
  · intro disjoint file member other member' same
    exact disjoint (List.mem_map_of_mem member) (same ▸ List.mem_map_of_mem member')
  · intro apart place here there
    obtain ⟨file, member, rfl⟩ := List.mem_map.mp here
    obtain ⟨other, member', same⟩ := List.mem_map.mp there
    exact apart file member other member' same.symm

end ProjectAsset

/-! ### Declarations -/

namespace App

/-- A model that is made anew holds the declarations of all sources, once for each time a source is
listed. -/
theorem browse_declarations {sources : List SwanFile} (fresh : (app.projects[id]?.bind (·.model)) = none)
    (found : perform (allSources id) reader app = (.ok sources, app')) (same : app'.files = files)
    (loads : ∀ file ∈ sources, Supply.loads ⟨files, reader⟩ file = true) :
    ∃ slots app'', perform (browse id (Browse.ask .declarations pure)) reader app = (.ok slots, app'') ∧
      HeldAll (BodyOf reader) app''.workspace.store
        (sources.flatMap (Supply.declarations ⟨files, reader⟩)) slots := by
  subst same
  rcases there : app.projects[id]? with - | p
  · rw [allSources, App.sources,
      perform_bind_error (perform_bind_error (perform_project_none there) _)] at found
    cases found
  rw [there, Option.bind_some] at fresh
  let made := { app' with projects := app'.projects.modify id fun p =>
    { p with model := some (Model.ofSources sources) } }
  have model : perform (modelOf id) reader app = (.ok (Model.ofSources sources), made) := by
    rw [modelOf, perform_bind_ok (perform_project there), fresh, perform_bind_ok found]
    rfl
  have faithful : (Session.opening sources made.workspace).browser.Faithful ⟨app'.files, reader⟩ :=
    Session.opening_faithful sources made.workspace
  have listed := positions_sources (Model.ofSources sources)
  rw [Model.sources_ofSources] at listed
  obtain ⟨slots, browser, ran, -, held⟩ :=
    eachAhead_held (show ModelQuery.isFilter .declarations = false from rfl) faithful listed loads
  have asked : perform (Browse.ask .declarations pure) ⟨app'.files, reader⟩
      ⟨Model.ofSources sources, made.workspace⟩ = (.ok slots, browser) := by
    rw [ask_eq_collect]
    simp only [Generator.collect, Generator.start, Cursor.each, Cursor.start, Cursor.eachIn,
      pure_bind, List.nil_append, bind_pure]
    exact ran
  refine ⟨slots, { made with
    workspace := browser.workspace
    projects := made.projects.modify id fun p => { p with model := some browser.model } }, ?_, ?_⟩
  · rw [browse, perform_bind_ok model, perform_bind_ok (perform_read reader made),
      perform_bind_ok (perform_get reader made)]
    simp only [show (Browse.ask .declarations pure ⟨made.files,
      reader⟩).run ⟨Model.ofSources sources, made.workspace⟩ = (.ok slots, browser) from asked]
    rfl
  · have all (ts : List Term) : ts.flatMap ModelQuery.declarations.picks = ts :=
      List.flatMap_singleton' ts
    rwa [all] at held

end App

/-- In any history that leaves the files alone, all sources of a project whose libraries end are
those of the projects that its dependencies unfold to, and these are the projects that are reached.
A place is listed once for each of these projects that has a source there, so all are listed once
exactly if no two of them share a source. A model that is made of them gives the declarations of a
file as often as it is listed. -/
theorem sources_follow_dependency_paths (listing : List (String × Option String))
    (location : List String) (levels : Nat) (reader : Reader) (history : List ProjectStep)
    (reads : ∀ step ∈ history, step.onlyReads = true) (app : Application)
    (behind : app = Application.after reader
      { files := .ofListing listing location, levels := levels } history)
    (id : Nat) (asset : ProjectAsset) (known : app.assetAt id = some asset)
    (bounded : Bounded (.ofListing listing location) levels asset) :
    let files := Files.ofListing listing location
    let projects := asset :: asset.unfolded files levels
    let sources := projects.flatMap (·.sources files)
    (∃ app', perform (App.allSources id) reader app = (.ok sources, app')) ∧
    (∀ library, library ∈ projects ↔ ReflTransGen (HasLibrary files) asset library) ∧
    (∀ place, sources.countP (fun file => file.place? files == some place) =
      projects.countP (·.hasSourceAt files place)) ∧
    ((sources.map (·.place? files)).Nodup ↔
      projects.Pairwise fun first second => ∀ file ∈ first.sources files, ∀ other ∈ second.sources files,
        file.place? files ≠ other.place? files) ∧
    (app.projects[id]?.bind (·.model) = none →
      (∀ file ∈ sources, Supply.loads ⟨files, reader⟩ file = true) → ∃ slots app',
        perform (App.browse id (Browse.ask .declarations pure)) reader app = (.ok slots, app') ∧
          HeldAll (BodyOf reader) app'.workspace.store
            (sources.flatMap (Supply.declarations ⟨files, reader⟩)) slots) := by
  intro files projects sources
  have opened := after_opened reads behind
  have same : app.files = files := opened.files
  have distinct : files.IsDistinct := Files.isDistinct_ofListing listing location
  obtain ⟨app', found, opened'⟩ :=
    App.allSources_eq reader opened.current (after_isForest reads behind) known (opened.bounded bounded)
  rw [same, opened.levels] at found
  refine ⟨⟨app', found⟩, fun library => ?_, fun place => ?_, ?_, fun fresh loads => ?_⟩
  · rw [List.mem_cons, ProjectAsset.mem_unfolded_iff bounded, reflTransGen_iff_eq_or_transGen]
  · exact ProjectAsset.countP_allSources distinct place projects
  · exact ProjectAsset.allSources_distinct_iff distinct projects
  · exact App.browse_declarations fresh found (opened'.files.trans same) loads

def sharedSource : List (String × Option String) :=
  [("p.sproj", some (projectText ["l/l.sproj", "m/m.sproj"])),
    ("l/l.sproj", some (projectText ["../m/m.sproj"])), ("m/m.sproj", some (projectText [])),
    ("m/assets/M.swan", some "")]

theorem shared_source_is_found_twice : ∃ app', perform (App.allSources 0) Reader.none
    (Application.after Reader.none { files := .ofListing sharedSource, levels := 3 }
      [.load "p" (.ofText "p.sproj")]) =
      (.ok [.ofText "l/../m/assets/M.swan", .ofText "m/assets/M.swan"], app') := by
  have unfolded := (sources_follow_dependency_paths sharedSource ["work"] 3 Reader.none
    [.load "p" (.ofText "p.sproj")] (by decide) _ rfl 0 (.ofText "p.sproj") (by decide +kernel)
    (endsWithin_iff.mp (by decide +kernel))).1
  have listed : (ProjectAsset.ofText "p.sproj" ::
      (ProjectAsset.ofText "p.sproj").unfolded (.ofListing sharedSource) 3).flatMap
        (·.sources (.ofListing sharedSource)) =
      [.ofText "l/../m/assets/M.swan", .ofText "m/assets/M.swan"] := by decide +kernel
  rwa [listed] at unfolded

def namedTwice : List (String × Option String) :=
  [("p.sproj", some (projectText ["l/l.sproj", "l/l.sproj"])), ("l/l.sproj", some (projectText [])),
    ("l/assets/M.swan", some "")]

theorem library_named_twice_is_listed_twice :
    (perform (App.allSources 0) Reader.none
      (Application.after Reader.none { files := .ofListing namedTwice }
        [.load "p" (.ofText "p.sproj")])).1.toOption =
      some [.ofText "l/assets/M.swan", .ofText "l/assets/M.swan"] := by
  decide +kernel

end SwanModel
