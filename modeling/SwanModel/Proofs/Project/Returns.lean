import SwanModel.Proofs.Project.Traversal

/-!
# Where sources and models are found

All sources of a project are found where all its libraries are, and so is its model.
-/

namespace SwanModel

open Relation

variable {app app' : Application} {reader : Reader} {id levels : Nat} {asset library : ProjectAsset}

def ProjectAsset.sources (files : Files) (asset : ProjectAsset) : List SwanFile :=
  Project.sources files { asset := asset }

namespace App

section
variable {R : Reader → Application → Application → Prop} [Lasting R]

instance (id : Nat) : Keeps R (project id) := by
  unfold project
  refine Keeps.bind inferInstance fun app => ?_
  split <;> infer_instance

instance : Keeps R files := by unfold files; infer_instance

instance (x : Except Error α) : Keeps R (ofExcept x) := by
  unfold ofExcept
  split <;> infer_instance

instance (id : Nat) : Keeps R (sources id) := by unfold sources; infer_instance

instance (id : Nat) : Keeps R (viewProject id) := by unfold viewProject; infer_instance

instance (ids : List Nat) : Keeps R (viewProjects ids) := by unfold viewProjects; infer_instance

variable [∀ id, Keeps R (libraries id)]

instance (id : Nat) : Keeps R (allLibraries id) := by unfold allLibraries; infer_instance

instance (id : Nat) : Keeps R (allSources id) := by unfold allSources; infer_instance

end

theorem perform_allLibraries (id : Nat) :
    perform (allLibraries id) reader app = perform (allLibrariesUpTo app.levels id) reader app := rfl

theorem sources_run (known : app.assetAt id = some asset) :
    perform (sources id) reader app = (.ok (asset.sources app.files), app) := by
  obtain ⟨p, found, rfl⟩ := Option.map_eq_some_iff.mp known
  rw [sources, perform_bind_ok (perform_project found), perform_bind_ok perform_files]
  rfl

theorem sourcesAll_run (reader : Reader) {ids : List Nat}
    (known : ∀ id ∈ ids, ∃ asset, app.assetAt id = some asset) :
      ∃ found, perform (ids.mapM sources) reader app = (.ok found, app) ∧
        ∀ asset, app.Has ids asset → asset.sources app.files ∈ found := by
  induction ids with
  | nil => exact ⟨[], rfl, fun _ ⟨_, member, _⟩ => nomatch member⟩
  | cons id rest ih =>
    obtain ⟨⟨asset, here⟩, others⟩ := List.forall_mem_cons.mp known
    obtain ⟨found, ran, all⟩ := ih others
    refine ⟨asset.sources app.files :: found, ?_, fun other has => ?_⟩
    · rw [List.mapM_cons, perform_bind_ok (sources_run here), perform_bind_ok ran]
      rfl
    · obtain ⟨id', member, there⟩ := has
      rcases List.mem_cons.mp member with rfl | member
      · obtain rfl : asset = other := Option.some.inj (here.symm.trans there)
        exact List.mem_cons_self
      · exact List.mem_cons_of_mem _ (all other ⟨id', member, there⟩)

/-- All sources are found where all libraries are, and those of every project that is reached are
there. -/
theorem allSources_spec (reader : Reader) (current : app.IsCurrent)
    (known : app.assetAt id = some asset) :
    SucceedsIff (allSources id) reader app (Bounded app.files app.levels asset) fun found app' =>
      Opened app app' ∧ ∀ library, ReflTransGen (HasLibrary app.files) asset library →
        ∀ file ∈ library.sources app.files, file ∈ found := by
  unfold allSources
  refine .after (sources_run known) ?_
  have libraries : SucceedsIff (allLibraries id) reader app (Bounded app.files app.levels asset) _ :=
    allLibrariesUpTo_spec reader app.levels current known
  refine .congr (.bind libraries fun ids app' reached => ?_) (and_iff_left trivial)
  obtain ⟨opened, closed, direct⟩ := reached
  have there (id : Nat) (member : id ∈ ids) : ∃ asset, app'.assetAt id = some asset := by
    obtain ⟨asset, there, -⟩ := closed.bounded id member
    exact ⟨asset, there⟩
  obtain ⟨found, ran, all⟩ := sourcesAll_run reader there
  refine .after ran (.pure _ ⟨opened, fun library path file member => ?_⟩)
  rw [← opened.files] at direct path member
  rcases reflTransGen_iff_eq_or_transGen.mp path with rfl | path
  · rw [opened.files] at member
    exact List.mem_append_left _ member
  · have inside := all library (closed.reached direct path)
    exact List.mem_append_right _ (List.mem_flatten.mpr ⟨_, inside, member⟩)

theorem opened_model (current : app.IsCurrent) (known : app.assetAt id = some asset)
    (bounded : Bounded app.files app.levels asset) (model : Model) :
    Opened app { app with projects := app.projects.modify id fun p =>
      { p with model := some model } } := by
  refine opened_modify current (fun _ => rfl) fun p found => ?_
  have kept := current id p found
  have same : some p.asset = some asset := by rw [← known, Application.assetAt, found, Option.map_some]
  exact ⟨kept.data, kept.libraries, fun _ _ => Option.some.inj same ▸ bounded⟩

theorem modelOf_spec (reader : Reader) (current : app.IsCurrent) (known : app.assetAt id = some asset) :
    SucceedsIff (modelOf id) reader app (Bounded app.files app.levels asset) fun _ app' =>
      Opened app app' := by
  obtain ⟨p, found, rfl⟩ := Option.map_eq_some_iff.mp known
  unfold modelOf
  refine .after (perform_project found) ?_
  rcases kept : p.model with - | model
  · refine .congr (.bind (allSources_spec reader current known).holding fun files app' reached =>
      ?_) (and_iff_left trivial)
    obtain ⟨bounded, opened, -⟩ := reached
    have there := opened.assets id p.asset known
    exact ⟨trivial, opened.trans (opened_model opened.current there (opened.bounded bounded) _)⟩
  · exact ⟨(current id p found).model model kept, .refl current⟩

instance (id : Nat) : Keeps Opening (modelOf id) :=
  keeps_of_known rfl fun reader app asset current known => by
    rcases ran : perform (modelOf id) reader app with ⟨e | model, app'⟩
    · -- a model is missing only if the sources could not be found
      obtain ⟨p, found, rfl⟩ := Option.map_eq_some_iff.mp known
      simp only [modelOf, perform_bind_ok (perform_project found)] at ran
      rcases kept : p.model with - | model
      · rcases sought : perform (allSources id) reader app with ⟨e' | files, app₁⟩
        · rw [kept, perform_bind_error sought] at ran
          cases ran
          have opening : Opening reader app app' := Keeps.after sought
          exact opening current
        · rw [kept, perform_bind_ok sought] at ran
          cases ran
      · rw [kept] at ran
        cases ran
    · exact ((modelOf_spec reader current known).of_ok ran).2

/-- A computation on a model changes the workspace and the model that is kept. -/
instance (id : Nat) (query : Browse α) : Keeps Opening (browse id query) :=
  keeps_of_known (bind_assoc (project id) _ _) fun reader app asset current known => by
    rcases ran : perform (modelOf id) reader app with ⟨e | model, app'⟩
    · have opening : Opening reader app app' := Keeps.after ran
      rw [browse, perform_bind_error ran]
      exact opening current
    · obtain ⟨bounded, opened⟩ := (modelOf_spec reader current known).of_ok ran
      rw [browse, perform_bind_ok ran, perform_bind_ok (perform_read reader app'),
        perform_bind_ok (perform_get reader app')]
      obtain ⟨result, browser⟩ := (query ⟨app'.files, reader⟩).run ⟨model, app'.workspace⟩
      have worked : Opened app' { app' with workspace := browser.workspace } :=
        .of_projects opened.current rfl rfl rfl
      have there := worked.assets id asset (opened.assets id asset known)
      have last := opened_model worked.current there (opened.bounded bounded) browser.model
      rcases result with e | a <;> exact opened.trans (worked.trans last)

/-- A computation on a model is kept apart from files, data and libraries. -/
theorem browse_keeps {R : Reader → Application → Application → Prop} [Lasting R]
    [∀ id, Keeps R (libraries id)]
    (elsewhere : ∀ {reader app app'}, app'.files = app.files → app'.levels = app.levels →
      app'.projects = app.projects → R reader app app')
    (model : ∀ id model, Keeps R (modifyProject id fun p => { p with model := some model }))
    {α : Type} (id : Nat) (query : Browse α) : Keeps R (browse id query) := by
  have : Keeps R (modelOf id) := by
    refine .bind inferInstance fun p => ?_
    split
    · infer_instance
    · exact .bind inferInstance fun files => .bind (model id _) inferInstance
  constructor
  intro reader app
  rcases ran : perform (modelOf id) reader app with ⟨e | found, app'⟩
  all_goals have first : R reader app app' := Keeps.after ran
  · rwa [browse, perform_bind_error ran]
  · rw [browse, perform_bind_ok ran, perform_bind_ok (perform_read reader app'),
      perform_bind_ok (perform_get reader app')]
    obtain ⟨result, browser⟩ := (query ⟨app'.files, reader⟩).run ⟨found, app'.workspace⟩
    have worked : R reader app' { app' with workspace := browser.workspace } := elsewhere rfl rfl rfl
    have last := (model id browser.model).keeps reader { app' with workspace := browser.workspace }
    rcases result with e | a <;> exact Lasting.trans first (Lasting.trans worked last)

theorem perform_settle (x : App α) (reader : Reader) (app : Application) :
    perform (settle x) reader app = match perform x reader app with
      | (.ok a, app') => (.ok (.ok a), app')
      | (.error e, app') => (.ok (.error e), (perform (log e.log) reader app').2) := by
  simp only [settle, perform_bind, perform_tryCatch]
  rcases perform x reader app with ⟨_ | _, _⟩ <;> rfl

end App

/-! ### Histories of an application -/

/-- A relation that is kept by all that is done with projects, but for writing files and adding
libraries. -/
class Enduring (R : Reader → Application → Application → Prop) : Prop extends Lasting R where
  elsewhere : ∀ {reader app app'}, app'.files = app.files → app'.levels = app.levels →
    app'.projects = app.projects → R reader app app'
  add : ∀ asset, Keeps R (App.add asset)
  data : ∀ id, Keeps R (App.data id)
  libraries : ∀ id, Keeps R (App.libraries id)
  browse : ∀ {α : Type} id (query : Browse α), Keeps R (App.browse id query)

attribute [instance] Enduring.add Enduring.data Enduring.libraries Enduring.browse

instance : Enduring Opening where
  elsewhere files levels projects current := .of_projects current files levels projects
  add asset := ⟨fun _ _ current => opened_push current asset⟩
  data := inferInstance
  libraries := inferInstance
  browse := inferInstance

def ProjectQuestion.onlyReads : ProjectQuestion → Bool
  | .addLibrary _ _ => false
  | _ => true

/-- Whether a step leaves the files and the libraries alone. -/
def ProjectStep.onlyReads : ProjectStep → Bool
  | .write _ _ => false
  | .question _ q => q.onlyReads
  | _ => true

def Application.after (reader : Reader) (app : Application) : List ProjectStep → Application
  | [] => app
  | step :: rest => Application.after reader (app.step reader step).2 rest

section
variable {R : Reader → Application → Application → Prop} [Enduring R]

namespace App

instance (lines : List LogLine) : Keeps R (log lines) := ⟨fun _ _ => Enduring.elsewhere rfl rfl rfl⟩

instance (x : App α) [Keeps R x] : Keeps R (settle x) where
  keeps reader app := by
    rw [perform_settle]
    rcases ran : perform x reader app with ⟨e | a, app'⟩
    · have logged : R reader app' (perform (log e.log) reader app').2 := Keeps.keeps reader app'
      exact Lasting.trans (Keeps.after ran) logged
    · exact Keeps.after ran

instance (asset : ProjectAsset) : Keeps R (openAsset? asset) := by
  unfold openAsset?
  have (id : Nat) : Keeps R (modify fun app => { app with opened := app.opened ++ [id] } : App PUnit) :=
    ⟨fun _ _ => Enduring.elsewhere rfl rfl rfl⟩
  infer_instance

theorem answer_keeps {q : ProjectQuestion} (reads : q.onlyReads = true) (id : Nat) :
    Keeps R (answer id q) := by
  cases q with
  | addLibrary place library => cases reads
  | _ => unfold answer; infer_instance

theorem take_keeps {step : ProjectStep} (reads : step.onlyReads = true) : Keeps R (take step) := by
  cases step with
  | write path content => cases reads
  | load name asset =>
    have (id : Nat) : Keeps R (modify fun app =>
        { app with names := (name, id) :: app.names } : App PUnit) :=
      ⟨fun _ _ => Enduring.elsewhere rfl rfl rfl⟩
    refine .bind inferInstance fun opened => ?_
    split <;> infer_instance
  | projects => unfold take; infer_instance
  | application => unfold take; infer_instance
  | question name q =>
    have (id : Nat) : Keeps R (answer id q) := answer_keeps reads id
    refine .bind inferInstance fun app => ?_
    split <;> infer_instance

end App

theorem step_of_take {step : ProjectStep} (_ : Keeps R (App.take step)) :
    R reader app (app.step reader step).2 := by
  have quiet : R reader app app.quiet := Enduring.elsewhere rfl rfl rfl
  have taken : R reader app.quiet (app.step reader step).2 :=
    Keeps.keeps (x := App.settle (App.take step)) reader app.quiet
  exact Lasting.trans quiet taken

theorem step_keeps {step : ProjectStep} (reads : step.onlyReads = true) :
    R reader app (app.step reader step).2 :=
  step_of_take (App.take_keeps reads)

theorem after_keeps {history : List ProjectStep} (reads : ∀ step ∈ history, step.onlyReads = true) :
    R reader app (app.after reader history) := by
  induction history generalizing app with
  | nil => exact Lasting.refl reader app
  | cons step rest ih =>
    obtain ⟨first, others⟩ := List.forall_mem_cons.mp reads
    exact Lasting.trans (step_keeps first) (ih others)

end

/-- Behind steps that only read, what is known of projects is what the files say. -/
theorem after_opened {files : Files} {history : List ProjectStep}
    (reads : ∀ step ∈ history, step.onlyReads = true)
    (behind : app = Application.after reader { files := files, levels := levels } history) :
    Opened { files := files, levels := levels } app := by
  have opening : Opening reader { files := files, levels := levels } app :=
    behind ▸ after_keeps reads
  exact opening fun _ _ found => by simp at found

/-- In any history that leaves the files alone, and for any number of levels, all libraries of a
project, all its sources and its model are found exactly when every project that is reached can be
read and no chain of libraries has as many levels as are followed. Every project that is reached is
then there. If all can be read, the search fails only by its depth. A number of levels that is
enough exists exactly when every project that is reached can be read and none leads back to itself;
on a cycle the search fails at any number of levels. -/
theorem traversal_returns_iff (files : Files) (levels : Nat) (reader : Reader)
    (history : List ProjectStep) (reads : ∀ step ∈ history, step.onlyReads = true) (app : Application)
    (behind : app = Application.after reader { files := files, levels := levels } history) (id : Nat)
    (asset : ProjectAsset) (known : app.assetAt id = some asset) :
    ((∃ ids app', perform (App.allLibraries id) reader app = (.ok ids, app')) ↔
      Bounded files levels asset) ∧
    ((∃ found app', perform (App.allSources id) reader app = (.ok found, app')) ↔
      Bounded files levels asset) ∧
    ((∃ model app', perform (App.modelOf id) reader app = (.ok model, app')) ↔
      Bounded files levels asset) ∧
    (∀ ids app', perform (App.allLibraries id) reader app = (.ok ids, app') →
      ∀ library, TransGen (HasLibrary files) asset library →
        ∃ other ∈ ids, app'.assetAt other = some library) ∧
    (∀ e app', (∀ library, ReflTransGen (HasLibrary files) asset library → library.IsReadable files) →
      perform (App.allLibraries id) reader app = (.error e, app') → e = .tooDeep) ∧
    ((∃ enough, Bounded files enough asset) ↔ ∀ library, ReflTransGen (HasLibrary files) asset library →
      library.IsReadable files ∧ ¬ TransGen (HasLibrary files) library library) ∧
    (∀ library, ReflTransGen (HasLibrary files) asset library →
      TransGen (HasLibrary files) library library →
        ∀ levels ids app', perform (App.allLibrariesUpTo levels id) reader app ≠ (.ok ids, app')) := by
  have opened := after_opened reads behind
  have same : app.files = files := opened.files
  have deep : app.levels = levels := opened.levels
  have libraries (levels : Nat) := App.allLibrariesUpTo_spec reader levels opened.current known
  have sources := App.allSources_spec reader opened.current known
  have model := App.modelOf_spec reader opened.current known
  rw [same, deep] at sources model
  simp only [same] at libraries
  simp only [App.perform_allLibraries, deep]
  refine ⟨(libraries levels).ok_iff, sources.ok_iff, model.ok_iff, ?_, ?_, exists_bounded_iff, ?_⟩
  · intro ids app' ran library path
    obtain ⟨-, opened', closed, direct⟩ := (libraries levels).of_ok ran
    rw [← same, ← opened'.files] at path
    rw [← same, ← opened'.files] at direct
    exact closed.reached direct path
  · intro e app' readable ran
    rw [← same] at readable
    exact App.allLibrariesUpTo_error reader levels opened.current known readable ran
  · intro library path cycle levels ids app' ran
    exact not_bounded_of_cycle path cycle ((libraries levels).of_ok ran).1

deriving instance DecidableEq for ProjectAsset

def projectText (dependencies : List String) : String :=
  "\x7b\"Dependencies\": [" ++
    ", ".intercalate (dependencies.map fun path => "\"" ++ path ++ "\"") ++ "]\x7d"

def sharedLibrary : Files := .ofListing
  [("p.sproj", some (projectText ["l.sproj", "m.sproj"])), ("l.sproj", some (projectText ["m.sproj"])),
    ("m.sproj", some (projectText []))]

theorem shared_library_is_found : ∃ ids app', perform (App.allLibraries 0) Reader.none
    (Application.after Reader.none { files := sharedLibrary, levels := 3 }
      [.load "p" (.ofText "p.sproj")]) =
      (.ok ids, app') :=
  (traversal_returns_iff sharedLibrary 3 Reader.none [.load "p" (.ofText "p.sproj")] (by decide) _ rfl 0
    (.ofText "p.sproj") (by decide +kernel)).1.mpr (endsWithin_iff.mp (by decide +kernel))

def selfDependent : Files := .ofListing [("a.sproj", some (projectText ["a.sproj"]))]

theorem selfDependent_libraries :
    (ProjectAsset.ofText "a.sproj").libraries selfDependent = .ok [.ofText "a.sproj"] := by
  have computed : ((ProjectAsset.ofText "a.sproj").libraries selfDependent).toOption =
      some [.ofText "a.sproj"] := by
    decide +kernel
  rcases read : (ProjectAsset.ofText "a.sproj").libraries selfDependent with e | found
  · rw [read] at computed
    cases computed
  · rw [read] at computed
    exact congrArg _ (Option.some.inj computed)

theorem selfDependent_tooDeep (levels : Nat) : ∃ app', perform (App.allLibraries 0) Reader.none
    (Application.after Reader.none { files := selfDependent, levels := levels }
      [.load "a" (.ofText "a.sproj")]) = (.error .tooDeep, app') := by
  have known : (Application.after Reader.none { files := selfDependent, levels := levels }
      [.load "a" (.ofText "a.sproj")]).assetAt 0 = some (.ofText "a.sproj") := by rfl
  generalize behind : Application.after Reader.none { files := selfDependent, levels := levels }
    [.load "a" (.ofText "a.sproj")] = app at *
  have opened := after_opened (by decide) behind.symm
  have alone : ∀ library, ReflTransGen (HasLibrary app.files) (.ofText "a.sproj") library →
      library = .ofText "a.sproj" := by
    intro library path
    rw [opened.files] at path
    induction path with
    | refl => rfl
    | tail _ edge ih =>
      obtain ⟨found, read, member⟩ := edge
      rw [ih, selfDependent_libraries] at read
      cases read
      exact List.mem_singleton.mp member
  have read : (ProjectAsset.ofText "a.sproj").libraries app.files = .ok [.ofText "a.sproj"] :=
    opened.files ▸ selfDependent_libraries
  have spec := App.allLibrariesUpTo_spec Reader.none app.levels opened.current known
  rw [App.perform_allLibraries]
  rcases ran : perform (App.allLibrariesUpTo app.levels 0) Reader.none app with ⟨e | ids, app'⟩
  · obtain rfl := App.allLibrariesUpTo_error Reader.none app.levels opened.current known
      (fun library path => ⟨_, alone library path ▸ read⟩) ran
    exact ⟨app', rfl⟩
  · have cycle : TransGen (HasLibrary app.files) (.ofText "a.sproj") (.ofText "a.sproj") :=
      .single ⟨_, read, List.mem_singleton_self _⟩
    exact absurd (spec.of_ok ran).1 (not_bounded_of_cycle .refl cycle)

theorem self_dependency_is_too_deep : ∃ app', perform (App.allLibraries 0) Reader.none
    (Application.after Reader.none { files := selfDependent } [.load "a" (.ofText "a.sproj")]) =
      (.error .tooDeep, app') :=
  selfDependent_tooDeep _

end SwanModel
