import SwanModel.Json.Reader
import SwanModel.Model.Basic

/-!
# Projects

An application holds all projects; a project is known by its number, so that two projects with the
same file are told apart.
-/

namespace SwanModel

/-- Where the data of a project are. -/
inductive ProjectAsset where
  /-- In a file, which is shown as its origin. -/
  | file (origin : String) (path : FilePath)
  | text (content : String)
deriving Repr, Inhabited

namespace ProjectAsset

def ofText (s : String) : ProjectAsset := .file (FilePath.slashed s) (.ofText s)

def ofPath (path : FilePath) : ProjectAsset := .file (FilePath.slashed path.text) path

def origin : ProjectAsset → String
  | .file origin _ => origin
  | .text _ => "<string>"

def directory : ProjectAsset → Option FilePath
  | .file _ path => some path.parent
  | .text _ => none

def doesExist (files : Files) : ProjectAsset → Except Error Bool
  | .file _ path => files.doesExist path
  | .text _ => .ok true

def content (files : Files) : ProjectAsset → Except Error String
  | .file _ path => files.readText path
  | .text content => .ok content

end ProjectAsset

/-- A project and what is known of it. -/
structure Project where
  asset : ProjectAsset
  /-- The data; a null is read again each time. -/
  data : Option Json := none
  /-- The numbers of the libraries. -/
  libraries : Option (List Nat) := none
  model : Option Model := none
deriving Inhabited

/-- The projects, those that were opened and the names they were given, and the workspace that
modules are loaded into. -/
structure Application where
  files : Files := {}
  /-- How many calls may stand inside each other; nothing else ends the search for all libraries on
  a cycle. -/
  levels : Nat := 1000
  projects : Array Project := #[]
  opened : List Nat := []
  names : List (String × Nat) := []
  workspace : Workspace := {}

/-- A computation in an application. What it has changed stays changed when it fails. -/
abbrev App := ReaderT Reader (ExceptT Error (StateM Application))

namespace App

def ofExcept (x : Except Error α) : App α :=
  match x with
  | .ok a => return a
  | .error e => throw e

def files : App Files := return (← get).files

def project (id : Nat) : App Project := do
  match (← get).projects[id]? with
  | some p => return p
  | none => throw .unknownKey

def modifyProject (id : Nat) (f : Project → Project) : App Unit :=
  modify fun app => { app with projects := app.projects.modify id f }

def add (asset : ProjectAsset) : App Nat := do
  let id := (← get).projects.size
  modify fun app => { app with projects := app.projects.push { asset := asset } }
  return id

def log (lines : List LogLine) : App Unit :=
  modify fun app =>
    let reading := app.workspace.reading
    { app with
      workspace := { app.workspace with reading := { reading with logs := reading.logs ++ lines } } }

/-- The outcome of a computation; a failure that is reported goes to the log. -/
def settle (x : App α) : App (Except Error α) := do
  try
    return .ok (← x)
  catch e =>
    log e.log
    return .error e

def data (id : Nat) : App Json := do
  let p ← project id
  match p.data with
  | some value => return value
  | none =>
    let content ← ofExcept (p.asset.content (← files))
    match ← ofExcept (Json.read content) with
    | .null => return .null
    | value =>
      modifyProject id fun p => { p with data := some value }
      return value

/-- Opens a project, if its file is there; if not, the log says so. -/
def openAsset? (asset : ProjectAsset) : App (Option Nat) := do
  if ← ofExcept (asset.doesExist (← files)) then
    let id ← add asset
    modify fun app => { app with opened := app.opened ++ [id] }
    return some id
  else
    log [⟨.error, "Project does not exist " ++ asset.origin⟩]
    return none

end App

end SwanModel
