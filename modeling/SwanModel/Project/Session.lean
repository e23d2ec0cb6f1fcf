import SwanModel.Model.Query
import SwanModel.Project.Libraries

/-!
# Sessions with projects

The steps open projects and ask them, in a directory of files that may change in between.
-/

namespace SwanModel

/-- What is asked of one project. -/
inductive ProjectQuestion where
  | data | sources | allSources | libraries | allLibraries
  /-- Adds the project at the second place to the libraries of the one at the first. -/
  | addLibrary (place library : List Int)
  | allLoaded | modules | loadAll
  | loadSource (path : String)
  | ask (query : ModelQuery)
  | find (test : DeclarationTest)

/-- A step of a session with projects. -/
inductive ProjectStep where
  | write (path content : String)
  | load (name : String) (asset : ProjectAsset)
  | projects
  /-- Starts and stops the application, which does nothing. -/
  | application
  | question (name : String) (q : ProjectQuestion)

/-- A project as it is told. -/
structure ProjectView where
  origin : String
  directory : Option String

/-- What a step answers. -/
inductive ProjectAnswer where
  | nothing
  | nothings (count : Nat)
  | project (p : ProjectView)
  | projects (ps : List ProjectView)
  | data (j : Json)
  | sources (files : List SwanFile)
  | count (n : Nat)
  | flag (b : Bool)
  | modules (ms : List ModuleView)
  | declaration (d : DeclarationView)
  | declarations (ds : List DeclarationView)

namespace App

def viewProject (id : Nat) : App ProjectView := do
  let asset := (← project id).asset
  return ⟨asset.origin, asset.directory.map (·.text)⟩

def viewProjects (ids : List Nat) : App ProjectAnswer := do
  return .projects (← ids.mapM viewProject)

def answer (id : Nat) : ProjectQuestion → App ProjectAnswer
  | .data => return .data (← data id)
  | .sources => return .sources (← sources id)
  | .allSources => return .sources (← allSources id)
  | .libraries => do viewProjects (← libraries id)
  | .allLibraries => do viewProjects (← allLibraries id)
  | .addLibrary place library => do
    let holder ← libraryAt id place
    let added ← libraryAt id library
    return .count (← addLibrary holder added)
  | .allLoaded => return .flag (← browse id (do return (← Browse.model).allLoaded))
  | .modules => return .modules (← browse id Browse.viewModules)
  | .loadAll => do
    browse id Browse.loadAll
    return .nothing
  | .loadSource path => do
    return .declaration (← browse id do
      Browse.viewDeclaration (.ref (← Browse.loadNew (.ofText path))))
  | .ask query => return .declarations (← browse id (Browse.ask query Browse.viewDeclaration))
  | .find test => do
    let found ← browse id do
      match ← Browse.find? test with
      | some slot => return some (← Browse.viewDeclaration slot)
      | none => return none
    return (found.map .declaration).getD .nothing

/-- How many members the application answers with nothing. -/
def idleMembers : Nat := 4

def take : ProjectStep → App ProjectAnswer
  | .write path content => do
    if (← files).isDirectory (.ofText path) then throw .isDirectory
    modify fun app => { app with files := app.files.create path (some content) }
    return .nothing
  | .load name asset => do
    match ← openAsset? asset with
    | some id =>
      modify fun app => { app with names := (name, id) :: app.names }
      return .project (← viewProject id)
    | none => return .nothing
  | .projects => do viewProjects (← get).opened
  | .application => return .nothings idleMembers
  | .question name q => do
    match (← get).names.lookup name with
    | some id => answer id q
    | none => throw .unknownKey

end App

/-- What a step has given: its outcome, the texts it has read and its log. -/
structure ProjectOutcome where
  answer : Except Error ProjectAnswer
  reads : List (ReadRule × String)
  logs : List LogLine

namespace Application

/-- An application that has read nothing and logged nothing yet, as far as the next step shows. -/
def quiet (app : Application) : Application :=
  let reading := { app.workspace.reading with reads := [], logs := [] }
  { app with workspace := { app.workspace with reading := reading } }

def step (reader : Reader) (app : Application) (s : ProjectStep) : ProjectOutcome × Application :=
  let (result, app) := ((App.settle (App.take s)) reader).run app.quiet
  let answer := match result with
    | .ok answer => answer
    | .error e => .error e
  (⟨answer, app.workspace.reading.reads, app.workspace.reading.logs⟩, app)

def run (reader : Reader) (app : Application) : List ProjectStep → List ProjectOutcome
  | [] => []
  | s :: rest =>
    let (outcome, app) := app.step reader s
    outcome :: app.run reader rest

end Application

end SwanModel
