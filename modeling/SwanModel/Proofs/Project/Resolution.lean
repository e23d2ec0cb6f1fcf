import Mathlib.Data.List.Infix
import SwanModel.Proofs.Language.Texts
import SwanModel.Proofs.Project.Forest

/-!
# Libraries are found together

A call that fails keeps no library, so that it can be repeated; a call that succeeds keeps them all.
The files may change at any time, and so a history has changes of files between its steps.
-/

namespace SwanModel

variable {ids : List Nat} {given : Except Error Json} {f : Project → Project}

variable {app app' app'' other : Application} {reader : Reader} {id : Nat} {asset : ProjectAsset}
  {p : Project} {files files' : Files} {directory : FilePath} {found found' : List ProjectAsset}

/-! ### Histories with changes of files -/

/-- What happens to an application: a step, or the files become others. -/
inductive ProjectEvent where
  | step (s : ProjectStep)
  | change (files : Files)

def ProjectEvent.addsNone : ProjectEvent → Bool
  | .step (.question _ (.addLibrary _ _)) => false
  | _ => true

namespace Application

def happen (reader : Reader) (app : Application) : ProjectEvent → Application
  | .step s => (app.step reader s).2
  | .change files => { app with files := files }

def through (reader : Reader) (app : Application) : List ProjectEvent → Application
  | [] => app
  | event :: rest => through reader (app.happen reader event) rest

def Always (reader : Reader) (holds : Files → Prop) (app : Application) : List ProjectEvent → Prop
  | [] => holds app.files
  | event :: rest => holds app.files ∧ Always reader holds (app.happen reader event) rest

def dataAt (app : Application) (id : Nat) : Option Json := app.projects[id]?.bind (·.data)

/-- The libraries that a call gives without a look at the files. -/
def resolved (app : Application) (id : Nat) : Option (List Nat) := do
  let p ← app.projects[id]?
  match p.libraries, p.asset.directory with
  | some ids, _ => some ids
  | none, none => some []
  | none, some _ => none

theorem resolved_eq (app : Application) (id : Nat) : app.resolved id = app.projects[id]?.bind fun p =>
    match p.libraries, p.asset.directory with
    | some ids, _ => some ids
    | none, none => some []
    | none, some _ => none := rfl

end Application

/-- Which libraries a project has depends on its data alone; the files only decide whether they are
found. -/
theorem libraries_unique (same : asset.data files = asset.data files')
    (read : asset.libraries files = .ok found) (read' : asset.libraries files' = .ok found') :
    found = found' := by
  unfold ProjectAsset.libraries at read read'
  rcases place : asset.directory with - | directory
  · rw [place] at read read'
    exact Except.ok.inj (read.symm.trans read')
  rw [place] at read read'
  obtain ⟨value, data, read⟩ := ok_of_bind read
  obtain ⟨value', data', read'⟩ := ok_of_bind read'
  obtain rfl : value = value' := Except.ok.inj (data.symm.trans (same.trans data'))
  obtain ⟨paths, named, read⟩ := ok_of_bind read
  obtain ⟨paths', named', read'⟩ := ok_of_bind read'
  obtain ⟨items, listed, named⟩ := ok_of_bind named
  obtain ⟨items', listed', named'⟩ := ok_of_bind named'
  obtain rfl : items = items' := Except.ok.inj (listed.symm.trans listed')
  cases read
  cases read'
  rw [(declaredPaths_ok named).1, (declaredPaths_ok named').1]

/-! ### What a call does -/

/-- Projects are added, and nothing else is changed. -/
structure Adds (app app' : Application) : Prop where
  files : app'.files = app.files
  kept : ∀ {id : Nat} {p : Project}, app.projects[id]? = some p → app'.projects[id]? = some p

theorem Adds.assetAt (adds : Adds app app') : app.IsWithin app' := by
  intro id asset known
  obtain ⟨p, there, rfl⟩ := Option.map_eq_some_iff.mp known
  rw [Application.assetAt, adds.kept there, Option.map_some]

theorem adds_push (app : Application) (asset : ProjectAsset) :
    Adds app { app with projects := app.projects.push { asset := asset } } where
  files := rfl
  kept {id p} there := by
    obtain ⟨inside, -⟩ := Array.getElem?_eq_some_iff.mp there
    rw [Array.getElem?_push, if_neg (Nat.ne_of_lt inside), there]

namespace App

theorem addAll_adds (reader : Reader) (app : Application) (paths : List FilePath) :
    ∃ ids app', perform (paths.mapM fun path => add (.ofPath path)) reader app = (.ok ids, app') ∧
      Adds app app' ∧ ids.map app'.assetAt = (paths.map ProjectAsset.ofPath).map some := by
  induction paths generalizing app with
  | nil => exact ⟨[], app, rfl, ⟨rfl, id⟩, rfl⟩
  | cons path rest ih =>
    obtain ⟨ids, app', ran, adds, same⟩ :=
      ih { app with projects := app.projects.push { asset := .ofPath path } }
    have first := adds_push app (.ofPath path)
    have here : app'.assetAt app.projects.size = some (.ofPath path) :=
      adds.assetAt _ _ (by simp [Application.assetAt])
    refine ⟨app.projects.size :: ids, app', ?_,
      ⟨adds.files, fun there => adds.kept (first.kept there)⟩, by simp [here, same]⟩
    rw [List.mapM_cons, perform_bind_ok (x := add (.ofPath path)) (a := app.projects.size) rfl,
      perform_bind_ok ran]
    rfl

def keepingData (app : Application) (id : Nat) (value : Json) : Application :=
  { app with projects := app.projects.modify id fun p => { p with data := some value } }

def keepingLibraries (app : Application) (id : Nat) (ids : List Nat) : Application :=
  { app with projects := app.projects.modify id fun p => { p with libraries := some ids } }

/-- The data of a project are those that are kept, or those in its file, which are then kept if they
are not null. -/
theorem data_cases (reader : Reader) (there : app.projects[id]? = some p) :
    ∃ app', perform (data id) reader app = ((p.data.map .ok).getD (p.asset.data app.files), app') ∧
      (app' = app ∨ ∃ value, p.asset.data app.files = .ok value ∧ app' = keepingData app id value) := by
  simp only [data, perform_bind_ok (perform_project there)]
  rcases p.data with - | value
  · simp only [perform_bind_ok perform_files]
    have read : p.asset.data app.files = p.asset.content app.files >>= Json.read := rfl
    rcases content : p.asset.content app.files with e | text
    · exact ⟨app, by rw [read, content]; rfl, .inl rfl⟩
    replace read : p.asset.data app.files = Json.read text := by rw [read, content]; rfl
    simp only [perform_bind_ok (perform_ofExcept (.ok text)), read]
    rcases Json.read text with e | value
    · exact ⟨app, rfl, .inl rfl⟩
    rw [perform_bind_ok (perform_ofExcept (.ok value))]
    split
    · exact ⟨app, rfl, .inl rfl⟩
    · exact ⟨_, rfl, .inr ⟨value, rfl, rfl⟩⟩
  · exact ⟨app, rfl, .inl rfl⟩

theorem data_effect (read : perform (data id) reader app = (given, app')) :
    app' = app ∨ ∃ p value, app.projects[id]? = some p ∧ p.asset.data app.files = .ok value ∧
      app' = keepingData app id value := by
  rcases there : app.projects[id]? with - | p
  · rw [data, perform_bind_error (perform_project_none there)] at read
    cases read
    exact .inl rfl
  obtain ⟨app₁, ran, effect⟩ := data_cases reader there
  obtain ⟨-, rfl⟩ := Prod.mk.inj (ran.symm.trans read)
  rcases effect with same | ⟨value, said, kept⟩
  · exact .inl same
  · exact .inr ⟨p, value, rfl, said, kept⟩

theorem data_there (read : perform (data id) reader app = (given, app'))
    (there : app.projects[id]? = some p) :
    ∃ p', app'.projects[id]? = some p' ∧ p'.asset = p.asset ∧ p'.libraries = p.libraries := by
  rcases data_effect read with rfl | ⟨_, value, -, -, rfl⟩
  · exact ⟨p, there, rfl, rfl⟩
  · exact ⟨{ p with data := some value }, by simp [keepingData, Array.getElem?_modify, there], rfl, rfl⟩

/-- What a call for the libraries of a project gives and leaves behind. -/
inductive LibrariesCall (reader : Reader) (id : Nat) (app : Application) :
    Except Error (List Nat) → Application → Prop
  | unknown (missing : app.projects[id]? = none) : LibrariesCall reader id app (.error .unknownKey) app
  | kept {p : Project} {ids : List Nat} (there : app.projects[id]? = some p)
    (known : p.libraries = some ids) : LibrariesCall reader id app (.ok ids) app
  | text {p : Project} (there : app.projects[id]? = some p) (new : p.libraries = none)
      (place : p.asset.directory = none) : LibrariesCall reader id app (.ok []) app
  | failed {p : Project} {directory : FilePath} {e : Error} {given : Except Error Json}
    {app' : Application} (there : app.projects[id]? = some p) (new : p.libraries = none)
    (place : p.asset.directory = some directory)
    (read : perform (data id) reader app = (given, app'))
    (missing : given >>= Project.libraryPaths app.files directory = .error e) :
    LibrariesCall reader id app (.error e) app'
  | found {p : Project} {directory : FilePath} {value : Json} {paths : List FilePath} {ids : List Nat}
      {app' app'' : Application} (there : app.projects[id]? = some p) (new : p.libraries = none)
      (place : p.asset.directory = some directory)
      (read : perform (data id) reader app = (.ok value, app'))
      (listed : Project.libraryPaths app.files directory value = .ok paths) (adds : Adds app' app'')
      (still : app''.resolved id = none)
      (same : ids.map app''.assetAt = (paths.map ProjectAsset.ofPath).map some) :
      LibrariesCall reader id app (.ok ids) (keepingLibraries app'' id ids)

theorem libraries_cases (id : Nat) (reader : Reader) (app : Application) :
    LibrariesCall reader id app (perform (libraries id) reader app).1
      (perform (libraries id) reader app).2 := by
  rcases there : app.projects[id]? with - | p
  · simp only [libraries, perform_bind_error (perform_project_none there)]
    exact .unknown there
  simp only [libraries, perform_bind_ok (perform_project there)]
  rcases known : p.libraries with - | ids
  · rcases place : p.asset.directory with - | directory
    · exact .text there known place
    obtain ⟨app', read, effect⟩ := data_cases reader there
    have files : app'.files = app.files := by
      rcases effect with rfl | ⟨value, -, rfl⟩ <;> rfl
    generalize (p.data.map Except.ok).getD (p.asset.data app.files) = given at read
    rcases given with e | value
    · simp only [perform_bind_error read]
      exact .failed there known place read rfl
    simp only [perform_bind_ok read, perform_bind_ok perform_files, files]
    rw [← Project.libraryPaths]
    rcases listed : Project.libraryPaths app.files directory value with e | paths
    · rw [perform_bind_error (perform_ofExcept (.error e))]
      exact .failed there known place read listed
    obtain ⟨ids, app'', ran, adds, same⟩ := addAll_adds reader app' paths
    rw [perform_bind_ok (perform_ofExcept (.ok paths)), perform_bind_ok ran]
    obtain ⟨p', there', asset, libraries⟩ := data_there read there
    have still : app''.resolved id = none := by
      rw [Application.resolved_eq, adds.kept there', Option.bind_some, libraries, known, asset, place]
    exact .found there known place read listed adds still same
  · exact .kept there known

end App

/-! ### Lists that are kept -/

theorem bind_modify {β : Type} {view : Project → Option β} (same : ∀ p, view (f p) = view p)
    (other : Nat) : (app.projects.modify id f)[other]?.bind view = app.projects[other]?.bind view := by
  rw [Array.getElem?_modify]
  split
  · simp only [Option.bind_map, Function.comp_def, same]
  · rfl

namespace Application

theorem resolved_modify (libraries : ∀ p, (f p).libraries = p.libraries)
    (asset : ∀ p, (f p).asset = p.asset) (other : Nat) :
    resolved { app with projects := app.projects.modify id f } other = app.resolved other := by
  rw [resolved_eq, resolved_eq]
  exact bind_modify (fun p => by rw [libraries, asset]) other

end Application

/-- The libraries that calls give without a look at the files stay, or are followed by lists that a
relation allows. -/
def Retains (allowed : List Nat → List Nat → Prop) (_ : Reader) (app app' : Application) : Prop :=
  ∀ id ids, app.resolved id = some ids → ∃ ids', app'.resolved id = some ids' ∧ allowed ids ids'

section
variable {allowed : List Nat → List Nat → Prop} [IsPreorder (List Nat) allowed]

instance : Lasting (Retains allowed) where
  refl _ _ _ ids known := ⟨ids, known, refl ids⟩
  trans first second id ids known := by
    obtain ⟨ids', known', before⟩ := first id ids known
    obtain ⟨ids'', known'', behind⟩ := second id ids' known'
    exact ⟨ids'', known'', IsTrans.trans _ _ _ before behind⟩

theorem Retains.of_same (same : ∀ id ids, app.resolved id = some ids → app'.resolved id = some ids) :
    Retains allowed reader app app' := fun id ids known => ⟨ids, same id ids known, refl ids⟩

theorem Adds.retains (adds : Adds app app') : Retains allowed reader app app' := by
  refine .of_same fun id ids known => ?_
  rw [Application.resolved_eq] at known ⊢
  obtain ⟨p, there, known⟩ := Option.bind_eq_some_iff.mp known
  exact Option.bind_eq_some_iff.mpr ⟨p, adds.kept there, known⟩

theorem resolved_data (read : perform (App.data id) reader app = (given, app'))
    (other : Nat) : app'.resolved other = app.resolved other := by
  rcases App.data_effect read with rfl | ⟨p, value, -, -, rfl⟩
  · rfl
  · exact Application.resolved_modify (f := fun p => { p with data := some value })
      (fun _ => rfl) (fun _ => rfl) other

instance (id : Nat) : Keeps (Retains allowed) (App.data id) where
  keeps reader app := by
    rcases read : perform (App.data id) reader app with ⟨given, app'⟩
    exact .of_same fun other ids known => (resolved_data read other).trans known

theorem retains_keepingLibraries (new : app.resolved id = none) :
    Retains allowed reader app (App.keepingLibraries app id ids) := by
  refine .of_same fun other ids' known => ?_
  have differs : id ≠ other := by
    rintro rfl
    cases new.symm.trans known
  rw [Application.resolved_eq] at known ⊢
  rw [App.keepingLibraries, Array.getElem?_modify, if_neg differs]
  exact known

instance (id : Nat) : Keeps (Retains allowed) (App.libraries id) where
  keeps reader app := by
    have call := App.libraries_cases id reader app
    generalize (perform (App.libraries id) reader app).1 = result at call
    generalize (perform (App.libraries id) reader app).2 = app' at call
    cases call with
    | unknown | kept | text => exact Lasting.refl reader app
    | failed _ _ _ read => exact Keeps.after read
    | found _ _ _ read _ adds still =>
      have first : Retains allowed reader app _ := Keeps.after read
      exact Lasting.trans first (Lasting.trans adds.retains (retains_keepingLibraries still))

theorem retains_elsewhere (projects : app'.projects = app.projects) :
    Retains allowed reader app app' := by
  refine .of_same fun id ids known => ?_
  rwa [Application.resolved_eq, projects]

instance : Enduring (Retains allowed) where
  elsewhere _ _ projects := retains_elsewhere projects
  add asset := ⟨fun _ app => (adds_push app asset).retains⟩
  data := inferInstance
  libraries := inferInstance
  browse := App.browse_keeps (fun _ _ projects => retains_elsewhere projects) fun _ model =>
    ⟨fun _ _ => .of_same fun other _ known =>
      (Application.resolved_modify (f := fun p => { p with model := some model }) (fun _ =>
        rfl) (fun _ => rfl) other).trans known⟩

instance (path content : String) : Keeps (Retains allowed) (App.take (.write path content)) := by
  have written : Keeps (Retains allowed)
      (modify fun app => { app with files := app.files.create path (some content) } : App PUnit) :=
    ⟨fun _ _ => retains_elsewhere rfl⟩
  unfold App.take
  infer_instance

theorem happen_retains {event : ProjectEvent} (adds : event.addsNone = true) :
    Retains allowed reader app (app.happen reader event) := by
  cases event with
  | change files => exact retains_elsewhere rfl
  | step s =>
    cases s with
    | write path content => exact step_of_take inferInstance
    | question name q =>
      refine step_keeps ?_
      cases q with
      | addLibrary => cases adds
      | _ => rfl
    | _ => exact step_keeps rfl

end

/-! Adding a library by hand puts it behind those that are there. -/

instance (id : Nat) (place : List Int) : Keeps (Retains (· <+: ·)) (App.libraryAt id place) := by
  induction place generalizing id with
  | nil => unfold App.libraryAt; infer_instance
  | cons i rest ih =>
    have next (found : Option Nat) : Keeps (Retains (· <+: ·)) (match found with
        | some next => App.libraryAt next rest
        | none => throw .outOfRange) := by
      split <;> infer_instance
    refine .bind inferInstance fun found => ?_
    dsimp only
    split <;> split <;> infer_instance

theorem resolved_append (library : Nat) (known : app.resolved id = some ids) (other : Nat) :
    ∃ ids', Application.resolved { app with
      projects := app.projects.modify other fun p =>
        { p with libraries := p.libraries.map (· ++ [library]) } } id = some ids' ∧ ids <+: ids' := by
  rw [Application.resolved_eq] at known ⊢
  obtain ⟨p, there, known⟩ := Option.bind_eq_some_iff.mp known
  rw [Array.getElem?_modify, there]
  split
  · rw [Option.map_some, Option.bind_some]
    rcases kept : p.libraries with - | before
    · rw [kept] at known
      exact ⟨ids, known, List.prefix_rfl⟩
    · rw [kept] at known
      cases known
      exact ⟨ids ++ [library], rfl, List.prefix_append ids [library]⟩
  · exact ⟨ids, known, List.prefix_rfl⟩

instance (id library : Nat) : Keeps (Retains (· <+: ·)) (App.addLibrary id library) := by
  have added : Keeps (Retains (· <+: ·))
      (App.modifyProject id fun p => { p with libraries := p.libraries.map (· ++ [library]) }) :=
    ⟨fun _ _ _ _ known => resolved_append library known id⟩
  unfold App.addLibrary
  infer_instance

theorem happen_extends (event : ProjectEvent) :
    Retains (· <+: ·) reader app (app.happen reader event) := by
  by_cases adds : event.addsNone = true
  · exact happen_retains adds
  · unfold ProjectEvent.addsNone at adds
    split at adds
    · rename_i name place library
      have answered (id : Nat) :
          Keeps (Retains (· <+: ·)) (App.answer id (.addLibrary place library)) := by
        unfold App.answer
        infer_instance
      refine step_of_take (.bind inferInstance fun app => ?_)
      split <;> infer_instance
    · exact absurd rfl adds

theorem through_extends (app : Application) (events : List ProjectEvent) :
    Retains (· <+: ·) reader app (app.through reader events) := by
  induction events generalizing app with
  | nil => exact Lasting.refl reader app
  | cons event rest ih => exact Lasting.trans (happen_extends event) (ih _)

theorem through_retains {events : List ProjectEvent} (adds : ∀ event ∈ events, event.addsNone = true) :
    Retains Eq reader app (app.through reader events) := by
  induction events generalizing app with
  | nil => exact Lasting.refl reader app
  | cons event rest ih =>
    obtain ⟨first, others⟩ := List.forall_mem_cons.mp adds
    exact Lasting.trans (happen_retains first) (ih others)

/-! ### Calls -/

namespace App

theorem libraries_of_resolved (known : app.resolved id = some ids) (reader : Reader) :
    perform (libraries id) reader app = (.ok ids, app) := by
  rw [Application.resolved_eq] at known
  obtain ⟨p, there, known⟩ := Option.bind_eq_some_iff.mp known
  simp only [libraries, perform_bind_ok (perform_project there)]
  rcases kept : p.libraries with - | before
  · rcases place : p.asset.directory with - | directory
    · rw [kept, place] at known
      cases known
      rfl
    · rw [kept, place] at known
      cases known
  · rw [kept] at known
    cases known
    rfl

theorem resolved_of_libraries (ran : perform (libraries id) reader app = (.ok ids, app')) :
    app'.resolved id = some ids := by
  have call := libraries_cases id reader app
  rw [ran] at call
  cases call with
  | kept there known => rw [Application.resolved_eq, there, Option.bind_some, known]
  | text there new place => rw [Application.resolved_eq, there, Option.bind_some, new, place]
  | @found _ _ _ _ _ _ app₂ there _ _ read _ adds =>
    obtain ⟨p', there', -, -⟩ := data_there read there
    have here : (keepingLibraries app₂ id ids).projects[id]? =
        some { p' with libraries := some ids } := by
      simp [keepingLibraries, Array.getElem?_modify, adds.kept there']
    change (keepingLibraries app₂ id ids).resolved id = some ids
    rw [Application.resolved_eq, here]
    rfl

/-- A call that fails keeps no libraries, and opens none. -/
theorem nothing_kept {e : Error} (ran : perform (libraries id) reader app = (.error e, app')) :
    app'.librariesAt id = none ∧ app'.projects.size = app.projects.size := by
  have call := libraries_cases id reader app
  rw [ran] at call
  cases call with
  | unknown missing => exact ⟨by rw [Application.librariesAt, missing]; rfl, rfl⟩
  | failed there new place read =>
    obtain ⟨p', there', -, libraries⟩ := data_there read there
    refine ⟨by rw [Application.librariesAt, there', Option.bind_some, libraries, new], ?_⟩
    rcases data_effect read with rfl | ⟨_, value, -, -, rfl⟩
    · rfl
    · exact Array.size_modify

end App

/-! ### Files that say the same -/

/-- What is kept of a project is what its file stated, at some state of the other files. -/
structure Follows (asset : ProjectAsset) (said : Except Error Json) (app : Application) (id : Nat) :
    Prop where
  known : app.assetAt id = some asset
  data : ∀ value, app.dataAt id = some value → said = .ok value
  libraries : ∀ ids, app.librariesAt id = some ids →
    ∃ files found, asset.data files = said ∧ asset.libraries files = .ok found ∧
      ids.map app.assetAt = found.map some

/-- As long as the file of a project stated the same, what is kept of the project is what the file
stated. -/
def Following (asset : ProjectAsset) (said : Except Error Json) (id : Nat) (_ : Reader)
    (app app' : Application) : Prop :=
  asset.data app.files = said → Follows asset said app id → app'.files = app.files ∧
    Follows asset said app' id

variable {said : Except Error Json}

instance : Lasting (Following asset said id) where
  refl _ _ _ follows := ⟨rfl, follows⟩
  trans first second stated follows := by
    obtain ⟨files, follows'⟩ := first stated follows
    obtain ⟨files', follows''⟩ := second (files ▸ stated) follows'
    exact ⟨files'.trans files, follows''⟩

theorem Follows.of_new (there : app.projects[id]? = some { asset := asset }) :
    Follows asset said app id where
  known := by rw [Application.assetAt, there, Option.map_some]
  data value kept := by
    rw [Application.dataAt, there] at kept
    cases kept
  libraries ids kept := by
    rw [Application.librariesAt, there] at kept
    cases kept

theorem Follows.frame (follows : Follows asset said app id) (within : app.IsWithin app')
    (data : app'.dataAt id = app.dataAt id) (libraries : app'.librariesAt id = app.librariesAt id) :
    Follows asset said app' id where
  known := within id asset follows.known
  data value kept := follows.data value (data ▸ kept)
  libraries ids kept := by
    obtain ⟨files, found, stated, read, same⟩ := follows.libraries ids (libraries ▸ kept)
    exact ⟨files, found, stated, read, within.assets_eq same⟩

theorem Follows.there (follows : Follows asset said app id) :
    ∃ p, app.projects[id]? = some p ∧ p.asset = asset :=
  Option.map_eq_some_iff.mp follows.known

theorem Adds.follows (adds : Adds app app') (follows : Follows asset said app id) :
    Follows asset said app' id := by
  obtain ⟨p, there, -⟩ := follows.there
  refine follows.frame adds.assetAt ?_ ?_
  · rw [Application.dataAt, adds.kept there, Application.dataAt, there]
  · rw [Application.librariesAt, adds.kept there, Application.librariesAt, there]

theorem within_modify (same : ∀ p, (f p).asset = p.asset) (id : Nat) :
    app.IsWithin { app with projects := app.projects.modify id f } := by
  intro other asset known
  have viewed (p : Project) : (some ∘ Project.asset) (f p) = (some ∘ Project.asset) p :=
    congrArg some (same p)
  rw [Application.assetAt, Option.map_eq_bind] at known ⊢
  exact (bind_modify viewed other).trans known

/-- What is changed of another project, or of what is neither data nor libraries, does not
matter. -/
theorem Follows.modify {other : Nat} (follows : Follows asset said app id)
    (same : ∀ p, (f p).asset = p.asset)
    (apart : other ≠ id ∨ ∀ p, (f p).data = p.data ∧ (f p).libraries = p.libraries) :
    Follows asset said { app with projects := app.projects.modify other f } id := by
  refine follows.frame (within_modify same other) ?_ ?_
  all_goals rcases apart with differs | kept
  · rw [Application.dataAt, Array.getElem?_modify, if_neg differs, Application.dataAt]
  · exact bind_modify (fun p => (kept p).1) id
  · rw [Application.librariesAt, Array.getElem?_modify, if_neg differs, Application.librariesAt]
  · exact bind_modify (fun p => (kept p).2) id

theorem Follows.keepingData {other : Nat} {value : Json} (follows : Follows asset said app id)
    (stated : asset.data app.files = said) (there : app.projects[other]? = some p)
    (read : p.asset.data app.files = .ok value) :
    Follows asset said (App.keepingData app other value) id := by
  by_cases differs : other ≠ id
  · exact follows.modify (fun _ => rfl) (.inl differs)
  · obtain rfl : other = id := not_not.mp differs
    obtain ⟨p', there', rfl⟩ := follows.there
    obtain rfl : p = p' := Option.some.inj (there.symm.trans there')
    have within : app.IsWithin (App.keepingData app other value) :=
      within_modify (f := fun p => { p with data := some value }) (fun _ => rfl) other
    have data : (App.keepingData app other value).dataAt other = some value := by
      simp [App.keepingData, Application.dataAt, Array.getElem?_modify, there]
    have libraries : (App.keepingData app other value).librariesAt other = app.librariesAt other :=
      Application.librariesAt_modify_same (f := fun p => { p with data := some value })
        (fun _ => rfl) other
    refine ⟨within other _ follows.known, fun value' kept => ?_, fun ids kept => ?_⟩
    · rw [← stated, read, Option.some.inj (data.symm.trans kept)]
    · obtain ⟨files, found, stated', read', same⟩ := follows.libraries ids (libraries ▸ kept)
      exact ⟨files, found, stated', read', within.assets_eq same⟩

instance (other : Nat) : Keeps (Following asset said id) (App.data other) where
  keeps reader app stated follows := by
    rcases read : perform (App.data other) reader app with ⟨given, app'⟩
    rcases App.data_effect read with rfl | ⟨p, value, there, content, rfl⟩
    · exact ⟨rfl, follows⟩
    · exact ⟨rfl, follows.keepingData stated there content⟩

theorem Follows.data_given (follows : Follows asset said app id)
    (stated : asset.data app.files = said)
    (read : perform (App.data id) reader app = (given, app')) : given = said := by
  obtain ⟨p, there, rfl⟩ := follows.there
  obtain ⟨app₁, ran, -⟩ := App.data_cases reader there
  obtain ⟨rfl, -⟩ := Prod.mk.inj (read.symm.trans ran)
  rcases kept : p.data with - | value
  · exact stated
  · have known : app.dataAt id = some value := by rw [Application.dataAt, there, Option.bind_some, kept]
    exact (follows.data value known).symm

theorem Follows.keepingLibraries {other : Nat} (follows : Follows asset said app id)
    (new : other = id → ∃ files found, asset.data files = said ∧ asset.libraries files = .ok found ∧
      ids.map app.assetAt = found.map some) :
    Follows asset said (App.keepingLibraries app other ids) id := by
  by_cases differs : other ≠ id
  · exact follows.modify (fun _ => rfl) (.inl differs)
  · obtain rfl : other = id := not_not.mp differs
    obtain ⟨p, there, rfl⟩ := follows.there
    have within : app.IsWithin (App.keepingLibraries app other ids) :=
      within_modify (f := fun p => { p with libraries := some ids }) (fun _ => rfl) other
    have data : (App.keepingLibraries app other ids).dataAt other = app.dataAt other :=
      bind_modify (f := fun p => { p with libraries := some ids }) (fun _ => rfl) other
    have libraries : (App.keepingLibraries app other ids).librariesAt other = some ids := by
      simp [App.keepingLibraries, Application.librariesAt, Array.getElem?_modify, there]
    refine ⟨within other _ follows.known, fun value kept => follows.data value (data ▸ kept),
      fun ids' kept => ?_⟩
    obtain rfl := Option.some.inj (libraries.symm.trans kept)
    obtain ⟨files, found, stated, read, same⟩ := new rfl
    exact ⟨files, found, stated, read, within.assets_eq same⟩

/-- The paths that a project finds are its libraries. -/
theorem libraries_of_paths {value : Json} {paths : List FilePath}
    (place : asset.directory = some directory) (read : asset.data files = .ok value)
    (listed : Project.libraryPaths files directory value = .ok paths) :
    asset.libraries files = .ok (paths.map .ofPath) := by
  simp only [ProjectAsset.libraries, place, read, ok_bind, listed]
  rfl

instance (other : Nat) : Keeps (Following asset said id) (App.libraries other) where
  keeps reader app stated follows := by
    have call := App.libraries_cases other reader app
    generalize (perform (App.libraries other) reader app).1 = result at call
    generalize (perform (App.libraries other) reader app).2 = app' at call
    cases call with
    | unknown | kept | text => exact ⟨rfl, follows⟩
    | failed _ _ _ read =>
      have first : Following asset said id reader app app' := Keeps.after read
      exact first stated follows
    | @found p directory value paths ids app₁ app₂ there _ place read listed adds _ same =>
      have first : Following asset said id reader app app₁ := Keeps.after read
      obtain ⟨files, follows₁⟩ := first stated follows
      refine ⟨adds.files.trans files, (adds.follows follows₁).keepingLibraries ?_⟩
      rintro rfl
      obtain ⟨p', there', rfl⟩ := follows.there
      obtain rfl : p = p' := Option.some.inj (there.symm.trans there')
      have given : p.asset.data app.files = .ok value :=
        stated.trans (follows.data_given stated read).symm
      exact ⟨app.files, _, stated, libraries_of_paths place given listed, same⟩

theorem Follows.of_projects (follows : Follows asset said app id)
    (projects : app'.projects = app.projects) : Follows asset said app' id := by
  refine follows.frame ?_ ?_ ?_
  · intro other asset known
    rwa [Application.assetAt, projects]
  · rw [Application.dataAt, projects, Application.dataAt]
  · rw [Application.librariesAt, projects, Application.librariesAt]

theorem following_elsewhere (files : app'.files = app.files) (_ : app'.levels = app.levels)
    (projects : app'.projects = app.projects) : Following asset said id reader app app' :=
  fun _ follows => ⟨files, follows.of_projects projects⟩

instance : Enduring (Following asset said id) where
  elsewhere := following_elsewhere
  add asset := ⟨fun _ app _ follows => ⟨rfl, (adds_push app asset).follows follows⟩⟩
  data := inferInstance
  libraries := inferInstance
  browse := App.browse_keeps following_elsewhere fun _ _ =>
    ⟨fun _ _ _ follows => ⟨rfl, follows.modify (fun _ => rfl) (.inr fun _ => ⟨rfl, rfl⟩)⟩⟩

theorem projects_write (path content : String) :
    (app.step reader (.write path content)).2.projects = app.projects := by
  change (perform (App.settle (App.take (.write path content))) reader app.quiet).2.projects = _
  have written : (perform (App.take (.write path content)) reader app.quiet).2.projects =
      app.projects := by
    simp only [App.take, perform_bind_ok App.perform_files]
    split <;> rfl
  rw [App.perform_settle]
  rcases taken : perform (App.take (.write path content)) reader app.quiet with ⟨e | answer, app'⟩
  all_goals
    rw [taken] at written
    exact written

theorem happen_follows {event : ProjectEvent} (adds : event.addsNone = true)
    (stated : asset.data app.files = said) (follows : Follows asset said app id) :
    Follows asset said (app.happen reader event) id := by
  have steps {s : ProjectStep} (reads : s.onlyReads = true) :
      Follows asset said (app.step reader s).2 id := by
    have following : Following asset said id reader app (app.step reader s).2 := step_keeps reads
    exact (following stated follows).2
  cases event with
  | change files => exact follows.of_projects rfl
  | step s =>
    cases s with
    | write path content => exact follows.of_projects (projects_write path content)
    | question name q =>
      refine steps ?_
      cases q with
      | addLibrary => cases adds
      | _ => rfl
    | _ => exact steps rfl

/-- What is kept follows the file of a project through every history in which the file states the
same. -/
theorem through_follows {events : List ProjectEvent} (adds : ∀ event ∈ events, event.addsNone = true)
    (always : app.Always reader (fun files => asset.data files = said) events)
    (follows : Follows asset said app id) :
    asset.data (app.through reader events).files = said ∧
      Follows asset said (app.through reader events) id := by
  induction events generalizing app with
  | nil => exact ⟨always, follows⟩
  | cons event rest ih =>
    obtain ⟨first, others⟩ := List.forall_mem_cons.mp adds
    exact ih others always.2 (happen_follows first always.1 follows)

/-- Where no libraries are kept, a call gives what the files give now. -/
theorem Follows.lists {result : Except Error (List Nat)} (follows : Follows asset said app id)
    (stated : asset.data app.files = said) (new : app.librariesAt id = none)
    (ran : perform (App.libraries id) reader app = (result, app')) :
    app'.Lists (asset.libraries app.files) result := by
  have call := App.libraries_cases id reader app
  rw [ran] at call
  obtain ⟨p, there, rfl⟩ := follows.there
  cases call with
  | unknown missing => cases missing.symm.trans there
  | kept there' known =>
    rw [Application.librariesAt, there', Option.bind_some, known] at new
    cases new
  | text there' _ place =>
    cases there.symm.trans there'
    rw [ProjectAsset.libraries, place]
    exact .ok rfl
  | @failed _ directory e given _ there' _ place read missing =>
    cases there.symm.trans there'
    have none : p.asset.libraries app.files = .error e := by
      rw [follows.data_given stated read, ← stated] at missing
      simp only [ProjectAsset.libraries, place, ← bind_assoc, missing]
      rfl
    rw [none]
    exact .error e
  | @found _ directory value paths ids app₁ app₂ there' _ place read listed adds _ same =>
    cases there.symm.trans there'
    have given : p.asset.data app.files = .ok value := stated.trans (follows.data_given stated read).symm
    have within : app₂.IsWithin (App.keepingLibraries app₂ id ids) :=
      within_modify (f := fun p => { p with libraries := some ids }) (fun _ => rfl) id
    rw [libraries_of_paths place given listed]
    exact .ok (within.assets_eq same)

/-- A call gives the libraries that the files give now, whether or not libraries are kept. -/
theorem Follows.call (follows : Follows asset said app id) (stated : asset.data app.files = said)
    (read : asset.libraries app.files = .ok found) (reader : Reader) :
    ∃ ids app', perform (App.libraries id) reader app = (.ok ids, app') ∧
      ids.map app'.assetAt = found.map some := by
  rcases kept : app.librariesAt id with - | ids
  · rcases ran : perform (App.libraries id) reader app with ⟨result, app'⟩
    have lists := follows.lists stated kept ran
    rw [read] at lists
    cases lists with
    | ok same => exact ⟨_, app', rfl, same⟩
  · obtain ⟨files, found', stated', read', same⟩ := follows.libraries ids kept
    obtain rfl := libraries_unique (stated.trans stated'.symm) read read'
    have resolved : app.resolved id = some ids := by
      obtain ⟨p, there, known⟩ := Option.bind_eq_some_iff.mp kept
      rw [Application.resolved_eq, there, Option.bind_some, known]
    exact ⟨ids, app, App.libraries_of_resolved resolved reader, same⟩

/-! ### First calls -/

theorem findDependencies_append {front : List String} (rest : List Json)
    (exist : ∀ name ∈ front, files.doesExist (Project.dependencyPath directory name) = .ok true) :
    (front.map Json.str ++ rest).mapM (Project.findDependency files directory) =
      (rest.mapM (Project.findDependency files directory)).map
        (front.map (Project.dependencyPath directory) ++ ·) := by
  induction front with
  | nil =>
    rw [List.map_nil, List.nil_append]
    cases rest.mapM (Project.findDependency files directory) <;> rfl
  | cons name front ih =>
    obtain ⟨first, others⟩ := List.forall_mem_cons.mp exist
    simp only [List.map_cons, List.cons_append, List.mapM_cons, Project.findDependency, first,
      ok_bind, ih others]
    cases rest.mapM (Project.findDependency files directory) <;> rfl

section
variable {value : Json} {names : List String} (place : asset.directory = some directory)
  (read : asset.data files = .ok value) (declared : Project.dependencies value = .ok (names.map .str))
include place read declared

theorem libraries_of_declared
    (exist : ∀ name ∈ names, files.doesExist (Project.dependencyPath directory name) = .ok true) :
    asset.libraries files = .ok (names.map fun name =>
      .ofPath (Project.dependencyPath directory name)) := by
  have paths := findDependencies_append [] exist
  rw [List.append_nil] at paths
  have listed : Project.libraryPaths files directory value =
      .ok (names.map (Project.dependencyPath directory) ++ []) := by
    rw [Project.libraryPaths, declared, ok_bind, paths]
    rfl
  rw [libraries_of_paths place read listed, List.append_nil, List.map_map]
  rfl

/-- The first dependency that is missing is the one that is reported. -/
theorem libraries_missing {front rest : List String} {name : String}
    (split : names = front ++ name :: rest)
    (exist : ∀ name ∈ front, files.doesExist (Project.dependencyPath directory name) = .ok true)
    (missing : files.doesExist (Project.dependencyPath directory name) = .ok false) :
    asset.libraries files =
      .error (.reported ("no such file: " ++ (Project.dependencyPath directory name).text)) := by
  have paths := findDependencies_append ((name :: rest).map Json.str) exist
  rw [← List.map_append, ← split, List.map_cons, List.mapM_cons] at paths
  simp only [ProjectAsset.libraries, place, read, ok_bind, Project.libraryPaths, declared, paths,
    Project.findDependency, missing]
  rfl

end

/-- Libraries are found together. A call that fails keeps none and opens none. If the file of a
project states the same all the time, a call behind one that failed gives the same libraries, in the
same order, as a first call of a project that is opened then; and a first call gives the
dependencies that the file declares, in their order, if they are there, and otherwise fails with the
first that is missing. Behind a call that succeeded every call gives the same projects, whatever
happens to the files, and behind them those that are added by hand. -/
theorem libraries_are_found_together (reader : Reader) (app : Application) (id : Nat) :
    (∀ e failed, perform (App.libraries id) reader app = (.error e, failed) →
      failed.librariesAt id = none ∧ failed.projects.size = app.projects.size) ∧
    (∀ asset said before later e failed, app.projects[id]? = some { asset := asset } →
      (∀ event ∈ before ++ later, event.addsNone = true) →
      app.Always reader (fun files => asset.data files = said) before →
      perform (App.libraries id) reader (app.through reader before) = (.error e, failed) →
      failed.Always reader (fun files => asset.data files = said) later →
      ∀ other new ids other', other.files = (failed.through reader later).files →
        other.projects[new]? = some { asset := asset } →
        perform (App.libraries new) reader other = (.ok ids, other') →
        ∃ ids' app', perform (App.libraries id) reader (failed.through reader later) = (.ok ids', app') ∧
          ids'.map app'.assetAt = ids.map other'.assetAt) ∧
    (∀ asset directory value names, app.projects[id]? = some { asset := asset } →
      asset.directory = some directory → asset.data app.files = .ok value →
        Project.dependencies value = .ok (names.map .str) →
      ((∀ name ∈ names, app.files.doesExist (Project.dependencyPath directory name) = .ok true) →
        ∃ ids app', perform (App.libraries id) reader app = (.ok ids, app') ∧
          ids.map app'.assetAt = names.map fun name =>
            some (.ofPath (Project.dependencyPath directory name))) ∧
      ∀ front name rest, names = front ++ name :: rest →
        (∀ name ∈ front, app.files.doesExist (Project.dependencyPath directory name) = .ok true) →
        app.files.doesExist (Project.dependencyPath directory name) = .ok false →
        ∃ app', perform (App.libraries id) reader app =
          (.error (.reported ("no such file: " ++ (Project.dependencyPath directory name).text)),
            app')) ∧
    ∀ ids found events, perform (App.libraries id) reader app = (.ok ids, found) →
      ∃ more, perform (App.libraries id) reader (found.through reader events) =
          (.ok (ids ++ more), found.through reader events) ∧
        ((∀ event ∈ events, event.addsNone = true) → more = []) := by
  refine ⟨fun e failed => App.nothing_kept, ?_, ?_, ?_⟩
  · intro asset said before later e failed there adds always ran always' other new ids other' same there' ran'
    obtain ⟨addsBefore, addsLater⟩ := List.forall_mem_append.mp adds
    obtain ⟨stated, follows⟩ := through_follows addsBefore always (.of_new there)
    have following : Following asset said id reader (app.through reader before) failed := Keeps.after ran
    obtain ⟨stated', follows'⟩ := through_follows addsLater always' (following stated follows).2
    have first : Follows asset said other new := .of_new there'
    have lists := first.lists (same ▸ stated') (by rw [Application.librariesAt, there']; rfl) ran'
    rw [same] at lists
    generalize read : asset.libraries (failed.through reader later).files = given at lists
    cases lists with
    | ok listed =>
      obtain ⟨ids', app', again, listed'⟩ := follows'.call stated' read reader
      exact ⟨ids', app', again, listed'.trans listed.symm⟩
  · intro asset directory value names there place read declared
    have follows : Follows asset (.ok value) app id := .of_new there
    refine ⟨fun exist => ?_, fun front name rest split exist missing => ?_⟩
    · obtain ⟨ids, app', ran, listed⟩ :=
        follows.call read (libraries_of_declared place read declared exist) reader
      exact ⟨ids, app', ran, by rw [listed, List.map_map]; rfl⟩
    · rcases ran : perform (App.libraries id) reader app with ⟨result, app'⟩
      have lists := follows.lists read (by rw [Application.librariesAt, there]; rfl) ran
      rw [libraries_missing place read declared split exist missing] at lists
      cases lists
      exact ⟨app', rfl⟩
  · intro ids found events ran
    have known := App.resolved_of_libraries ran
    obtain ⟨_, known', more, rfl⟩ := through_extends found events id ids known
    refine ⟨more, App.libraries_of_resolved known' reader, fun adds => ?_⟩
    obtain ⟨_, known'', rfl⟩ := through_retains adds id ids known
    exact List.append_right_eq_self.mp (Option.some.inj (known'.symm.trans known''))

def oneLibrary (libraries : List (String × Option String)) : Files :=
  .ofListing (("p.sproj", some (projectText ["l.sproj"])) :: libraries)

def oneProject (files : Files) (asset : ProjectAsset) : Application :=
  { files := files, projects := #[{ asset := asset }] }

theorem data_of_content {text : String} (content : (asset.content files).toOption = some text) :
    asset.data files = Json.read text := by
  rcases read : asset.content files with e | other
  · rw [read] at content
    cases content
  · rw [read] at content
    cases content
    rw [ProjectAsset.data, read, ok_bind]

/-- The library of a project is missing, and a call for it fails; when it is there, the next call
gives it. -/
theorem missing_library_is_found_later :
    let asset := ProjectAsset.ofText "p.sproj"
    let app := oneProject (oneLibrary []) asset
    ∃ e failed, perform (App.libraries 0) Reader.none app = (.error e, failed) ∧
      failed.librariesAt 0 = none ∧ ∃ ids app', perform (App.libraries 0) Reader.none
          (failed.through Reader.none [.change (oneLibrary [("l.sproj", some (projectText []))])]) =
            (.ok ids, app') ∧
        ids.map app'.assetAt = [some (.ofText "l.sproj")] := by
  intro asset app
  let files := oneLibrary [("l.sproj", some (projectText []))]
  have before : asset.data (oneLibrary []) = Json.read (projectText ["l.sproj"]) :=
    data_of_content (by decide +kernel)
  have behind : asset.data files = Json.read (projectText ["l.sproj"]) :=
    data_of_content (by decide +kernel)
  have missing : (asset.libraries (oneLibrary [])).toOption = none := by decide +kernel
  have listed : (asset.libraries files).toOption = some [.ofText "l.sproj"] := by decide +kernel
  have follows : Follows asset (Json.read (projectText ["l.sproj"])) app 0 := .of_new rfl
  have first : Follows asset (Json.read (projectText ["l.sproj"])) (oneProject files asset) 0 :=
    .of_new rfl
  obtain ⟨nothing, again, -⟩ := libraries_are_found_together Reader.none app 0
  rcases ran : perform (App.libraries 0) Reader.none app with ⟨e | ids, failed⟩
  · have following : Following asset (Json.read (projectText ["l.sproj"])) 0 Reader.none app failed :=
      Keeps.after ran
    obtain ⟨unchanged, -⟩ := following before follows
    rcases read : asset.libraries files with e' | found
    · rw [read] at listed
      cases listed
    rw [read] at listed
    cases listed
    obtain ⟨ids, other', ran', same⟩ := first.call behind read Reader.none
    obtain ⟨ids', app', found, same'⟩ :=
      again asset _ [] [.change files] e failed rfl (by simp [ProjectEvent.addsNone]) before ran
        ⟨unchanged ▸ before, behind⟩ (oneProject files asset) 0 ids other' rfl rfl ran'
    exact ⟨e, failed, rfl, (nothing e failed ran).1, ids', app', found, same'.trans same⟩
  · have lists := follows.lists before rfl ran
    change failed.Lists (asset.libraries (oneLibrary [])) (.ok ids) at lists
    generalize asset.libraries (oneLibrary []) = given at lists missing
    cases lists
    cases missing

end SwanModel
