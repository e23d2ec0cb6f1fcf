import SwanModel.Proofs.Perform
import SwanModel.Proofs.Project.Dependencies

/-!
# What is kept of projects

As long as the files stay, what is kept of a project is what the files say.
-/

namespace SwanModel

variable {app app' app'' : Application} {reader : Reader} {id : Nat} {asset : ProjectAsset} {p : Project}

/-- The file or the text of the project with a number. -/
def Application.assetAt (app : Application) (id : Nat) : Option ProjectAsset :=
  app.projects[id]?.map (·.asset)

/-- What is kept of a project is what its file says, and a model was made only where libraries
end. -/
structure Project.IsCurrent (app : Application) (p : Project) : Prop where
  data : ∀ value, p.data = some value → p.asset.data app.files = .ok value
  libraries : ∀ ids, p.libraries = some ids →
    ∃ found, p.asset.libraries app.files = .ok found ∧ ids.map app.assetAt = found.map some
  model : ∀ model, p.model = some model → Bounded app.files app.levels p.asset

def Application.IsCurrent (app : Application) : Prop :=
  ∀ (id : Nat) (p : Project), app.projects[id]? = some p → p.IsCurrent app

/-- The projects of an application are there in another one too, with the same numbers. -/
def Application.IsWithin (app app' : Application) : Prop :=
  ∀ (id : Nat) (asset : ProjectAsset), app.assetAt id = some asset → app'.assetAt id = some asset

/-- The files are the same, the projects are still there, and what is kept is what the files say. -/
structure Opened (app app' : Application) : Prop where
  files : app'.files = app.files
  levels : app'.levels = app.levels
  assets : app.IsWithin app'
  current : app'.IsCurrent

/-- Where everything is current, only projects are opened. -/
def Opening (_ : Reader) (app app' : Application) : Prop := app.IsCurrent → Opened app app'

theorem Opened.refl (current : app.IsCurrent) : Opened app app :=
  ⟨rfl, rfl, fun _ _ known => known, current⟩

theorem Opened.trans (first : Opened app app') (second : Opened app' app'') : Opened app app'' :=
  ⟨second.files.trans first.files, second.levels.trans first.levels,
    fun id asset known => second.assets id asset (first.assets id asset known), second.current⟩

theorem Opened.bounded (opened : Opened app app') (bounded : Bounded app.files app.levels asset) :
    Bounded app'.files app'.levels asset := by
  rwa [opened.files, opened.levels]

instance : Lasting Opening where
  refl _ _ := Opened.refl
  trans first second current := (first current).trans (second (first current).current)

theorem Application.IsWithin.assets_eq (within : app.IsWithin app') {ids : List Nat}
    {found : List ProjectAsset} (same : ids.map app.assetAt = found.map some) :
    ids.map app'.assetAt = found.map some := by
  rw [← same]
  apply List.map_congr_left
  intro id member
  have present : app.assetAt id ∈ found.map some := same ▸ List.mem_map_of_mem member
  obtain ⟨asset, -, known⟩ := List.mem_map.mp present
  rw [← known, within id asset known.symm]

theorem Project.IsCurrent.later (current : p.IsCurrent app) (files : app'.files = app.files)
    (levels : app'.levels = app.levels) (within : app.IsWithin app') : p.IsCurrent app' where
  data value kept := files ▸ current.data value kept
  libraries ids kept := by
    obtain ⟨found, read, same⟩ := current.libraries ids kept
    exact ⟨found, files ▸ read, within.assets_eq same⟩
  model model kept := by
    rw [files, levels]
    exact current.model model kept

theorem Opened.of_projects (current : app.IsCurrent) (files : app'.files = app.files)
    (levels : app'.levels = app.levels) (projects : app'.projects = app.projects) : Opened app app' := by
  have within : app.IsWithin app' := by
    intro id asset known
    rwa [Application.assetAt, projects]
  exact ⟨files, levels, within,
    fun id p found => (current id p (projects ▸ found)).later files levels within⟩

/-- Numbers of projects stand for their files, or both could not be found. -/
inductive Application.Lists (app : Application) :
    Except Error (List ProjectAsset) → Except Error (List Nat) → Prop
  | ok {found : List ProjectAsset} {ids : List Nat} :
    ids.map app.assetAt = found.map some → Lists app (.ok found) (.ok ids)
  | error (e : Error) : Lists app (.error e) (.error e)

/-! ### Opening and changing projects -/

theorem opened_push (current : app.IsCurrent) (asset : ProjectAsset) :
    Opened app { app with projects := app.projects.push { asset := asset } } := by
  have within : app.IsWithin { app with projects := app.projects.push { asset := asset } } := by
    intro id other known
    obtain ⟨p, found, rfl⟩ := Option.map_eq_some_iff.mp known
    obtain ⟨inside, -⟩ := Array.getElem?_eq_some_iff.mp found
    simp only [Application.assetAt, Array.getElem?_push, if_neg (Nat.ne_of_lt inside), found,
      Option.map_some]
  refine ⟨rfl, rfl, within, fun id p found => ?_⟩
  rw [Array.getElem?_push] at found
  split at found
  · cases found
    exact ⟨nofun, nofun, nofun⟩
  · exact (current id p found).later rfl rfl within

theorem opened_modify (current : app.IsCurrent) {f : Project → Project}
    (asset : ∀ p, (f p).asset = p.asset) (kept : ∀ p, app.projects[id]? = some p → (f p).IsCurrent app) :
    Opened app { app with projects := app.projects.modify id f } := by
  have within : app.IsWithin { app with projects := app.projects.modify id f } := by
    intro other asset' known
    simp only [Application.assetAt, Array.getElem?_modify] at known ⊢
    split
    · simpa [Option.map_map, Function.comp_def, asset] using known
    · exact known
  refine ⟨rfl, rfl, within, fun other p found => ?_⟩
  simp only [Array.getElem?_modify] at found
  split at found
  · next same =>
    subst same
    obtain ⟨before, there, rfl⟩ := Option.map_eq_some_iff.mp found
    exact (kept before there).later rfl rfl within
  · exact (current other p found).later rfl rfl within

namespace App

theorem perform_project (found : app.projects[id]? = some p) :
    perform (project id) reader app = (.ok p, app) := by
  simp only [project, perform_bind_ok (perform_get reader app), found, perform_pure]

theorem perform_project_none (missing : app.projects[id]? = none) :
    perform (project id) reader app = (.error .unknownKey, app) := by
  simp only [project, perform_bind_ok (perform_get reader app), missing, perform_throw]

theorem perform_files : perform files reader app = (.ok app.files, app) := rfl

theorem perform_ofExcept (x : Except Error α) : perform (ofExcept x) reader app = (x, app) := by
  cases x <;> rfl

theorem data_run (current : app.IsCurrent) (known : app.assetAt id = some asset) :
    ∃ app', perform (data id) reader app = (asset.data app.files, app') ∧ Opened app app' := by
  obtain ⟨p, found, rfl⟩ := Option.map_eq_some_iff.mp known
  have kept := current id p found
  simp only [data, perform_bind_ok (perform_project found)]
  rcases before : p.data with - | value
  · have read : p.asset.data app.files = p.asset.content app.files >>= Json.read := rfl
    simp only [perform_bind_ok perform_files]
    rcases content : p.asset.content app.files with e | text
    · exact ⟨app, by rw [read, content]; rfl, .refl current⟩
    replace read : p.asset.data app.files = Json.read text := by rw [read, content]; rfl
    simp only [perform_bind_ok (perform_ofExcept (.ok text))]
    rcases parsed : Json.read text with e | value
    · exact ⟨app, by rw [read, parsed]; rfl, .refl current⟩
    rw [parsed] at read
    rw [perform_bind_ok (perform_ofExcept (.ok value))]
    split
    · exact ⟨app, by rw [read]; rfl, .refl current⟩
    · refine ⟨{ app with projects := app.projects.modify id fun p => { p with data := some value } },
        by rw [read]; rfl, opened_modify current (fun _ => rfl) fun other there => ?_⟩
      obtain rfl : p = other := Option.some.inj (found.symm.trans there)
      exact ⟨fun _ same => Option.some.inj same ▸ read, kept.libraries, kept.model⟩
  · exact ⟨app, by rw [kept.data value before]; rfl, .refl current⟩

theorem addAll_run (current : app.IsCurrent) (paths : List FilePath) :
    ∃ ids app', perform (paths.mapM fun path => add (.ofPath path)) reader app = (.ok ids, app') ∧
      Opened app app' ∧ ids.map app'.assetAt = (paths.map ProjectAsset.ofPath).map some := by
  induction paths generalizing app with
  | nil => exact ⟨[], app, rfl, .refl current, rfl⟩
  | cons path rest ih =>
    have first := opened_push current (.ofPath path)
    obtain ⟨ids, app', ran, others, same⟩ := ih first.current
    have here : app'.assetAt app.projects.size = some (.ofPath path) :=
      others.assets _ _ (by simp [Application.assetAt])
    refine ⟨app.projects.size :: ids, app', ?_, first.trans others, by simp [here, same]⟩
    rw [List.mapM_cons, perform_bind_ok (x := add (.ofPath path)) (a := app.projects.size) rfl,
      perform_bind_ok ran]
    rfl

/-- The libraries of a project are those that its dependencies name. -/
theorem libraries_run (current : app.IsCurrent) (known : app.assetAt id = some asset) :
    ∃ result app', perform (libraries id) reader app = (result, app') ∧ Opened app app' ∧
      app'.Lists (asset.libraries app.files) result := by
  obtain ⟨p, there, rfl⟩ := Option.map_eq_some_iff.mp known
  have kept := current id p there
  simp only [libraries, perform_bind_ok (perform_project there)]
  rcases before : p.libraries with - | ids
  · rcases place : p.asset.directory with - | directory
    · have none : p.asset.libraries app.files = .ok [] := by rw [ProjectAsset.libraries, place]
      exact ⟨.ok [], app, rfl, .refl current, none ▸ .ok rfl⟩
    · obtain ⟨app₁, read, opened⟩ := data_run current known
      rcases given : p.asset.data app.files with e | value
      · have failed : p.asset.libraries app.files = .error e := by
          simp only [ProjectAsset.libraries, place, given]
          rfl
        rw [given] at read
        exact ⟨.error e, app₁, perform_bind_error read _, opened, failed ▸ .error e⟩
      · have named : p.asset.libraries app.files =
            (Project.libraryPaths app.files directory value).map (List.map .ofPath) := by
          simp only [ProjectAsset.libraries, place, given]
          rfl
        rw [given] at read
        simp only [perform_bind_ok read, perform_bind_ok perform_files, opened.files, named]
        rw [← Project.libraryPaths]
        rcases listed : Project.libraryPaths app.files directory value with e | paths
        · exact ⟨.error e, app₁, perform_bind_error (perform_ofExcept (.error e)) _, opened, .error e⟩
        · obtain ⟨ids, app₂, ran, opened', same⟩ := addAll_run opened.current paths
          rw [perform_bind_ok (perform_ofExcept (.ok paths)), perform_bind_ok ran]
          have both := opened.trans opened'
          have last : Opened app₂ { app₂ with
              projects := app₂.projects.modify id fun p => { p with libraries := some ids } } := by
            refine opened_modify both.current (fun _ => rfl) fun other there' => ?_
            have kept' := both.current id other there'
            have same_asset : some other.asset = some p.asset := by
              rw [← both.assets id p.asset known, Application.assetAt, there', Option.map_some]
            refine ⟨kept'.data, fun ids' now => ?_, kept'.model⟩
            cases now
            rw [Option.some.inj same_asset, both.files, named, listed]
            exact ⟨paths.map .ofPath, rfl, same⟩
          exact ⟨.ok ids, _, rfl, both.trans last, .ok (last.assets.assets_eq same)⟩
  · obtain ⟨found, read, same⟩ := kept.libraries ids before
    exact ⟨.ok ids, app, rfl, .refl current, read ▸ .ok same⟩

/-- What is done with a project that is asked for first opens projects if it does so with a known
one. -/
theorem keeps_of_known {x : App α} {f : Project → App α} (asks : x = project id >>= f)
    (run : ∀ reader app asset, app.IsCurrent → app.assetAt id = some asset →
      Opened app (perform x reader app).2) :
    Keeps Opening x where
  keeps reader app current := by
    rcases there : app.projects[id]? with - | p
    · rw [asks, perform_bind_error (perform_project_none there)]
      exact .refl current
    · exact run reader app p.asset current (by rw [Application.assetAt, there, Option.map_some])

instance (id : Nat) : Keeps Opening (data id) :=
  keeps_of_known rfl fun reader app asset current known => by
    obtain ⟨app', ran, opened⟩ := data_run current known
    rwa [ran]

instance (id : Nat) : Keeps Opening (libraries id) :=
  keeps_of_known rfl fun reader app asset current known => by
    obtain ⟨result, app', ran, opened, -⟩ := libraries_run current known
    rwa [ran]

end App

end SwanModel
