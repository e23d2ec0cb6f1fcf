import SwanModel.Project.Basic

/-!
# Libraries and sources of projects

The dependencies of a project are found all together or not at all. All libraries of a project are
its libraries, each followed by all of its own, without repetition.
-/

namespace SwanModel

namespace Project

/-- The key of the dependencies in the data of a project. -/
def dependenciesKey : String := "Dependencies"

/-- The items that a value is made of: members of an array, characters of a text, keys of an
object. -/
def itemsOf : Json → Except Error (List Json)
  | .arr items => .ok items
  | .str s => .ok (s.toList.map fun c => .str c.toString)
  | .obj fields => .ok (fields.map fun field => .str field.1)
  | _ => .error .wrongKind

def dependencies : Json → Except Error (List Json)
  | .obj fields =>
    match Json.lookup fields dependenciesKey with
    | some value => itemsOf value
    | none => .error .unknownKey
  | _ => .error .wrongKind

/-- The path of a dependency, seen from a directory. -/
def dependencyPath (directory : FilePath) (s : String) : FilePath :=
  directory.join (.ofText (FilePath.slashed s))

/-- The file of a dependency, which has to be there. -/
def findDependency (files : Files) (directory : FilePath) : Json → Except Error FilePath
  | .str s => do
    let path := dependencyPath directory s
    if ← files.doesExist path then return path
    else throw (.reported ("no such file: " ++ path.text))
  | _ => .error .missingMember

/-- Where the sources of a project are, seen from its directory. -/
def sourceDirectory : String := "assets"

/-- Whether a name in the directory of sources is that of a source. -/
def isSourceName (name : String) : Bool :=
  let suffix := FilePath.suffix ⟨"", [name]⟩
  suffix == ".swan" || suffix == ".swani"

/-- The sources beside the file of a project, sorted by name. -/
def sources (files : Files) (p : Project) : List SwanFile :=
  match p.asset.directory with
  | none => []
  | some directory =>
    let place := directory.join (.ofText sourceDirectory)
    ((files.list place).filter isSourceName).map fun name =>
      .ofPath (place.join ⟨"", [name]⟩)

end Project

namespace App

/-- The libraries of a project. Once found they are kept. -/
def libraries (id : Nat) : App (List Nat) := do
  let p ← project id
  match p.libraries, p.asset.directory with
  | some found, _ => return found
  | none, none => return []
  | none, some directory =>
    let value ← data id
    let files ← files
    let paths ← ofExcept do
      (← Project.dependencies value).mapM (Project.findDependency files directory)
    let found ← paths.mapM fun path => add (.ofPath path)
    modifyProject id fun p => { p with libraries := some found }
    return found

def addNew (known new : List Nat) : List Nat :=
  new.foldl (fun known id => if known.contains id then known else known ++ [id]) known

/-- All libraries of a project, down to a number of levels. -/
def allLibrariesUpTo : Nat → Nat → App (List Nat)
  | 0, _ => throw .tooDeep
  | levels + 1, id => do
    (← libraries id).foldlM (fun known library => do
      if known.contains library then return known
      return addNew (known ++ [library]) (← allLibrariesUpTo levels library)) []

/-- All libraries of a project, down to as many levels as the application allows. -/
def allLibraries (id : Nat) : App (List Nat) := do allLibrariesUpTo (← get).levels id

def sources (id : Nat) : App (List SwanFile) := do
  return (← project id).sources (← files)

/-- The sources of a project and of all its libraries. -/
def allSources (id : Nat) : App (List SwanFile) := do
  let own ← sources id
  let others ← (← allLibraries id).mapM sources
  return own ++ others.flatten

/-- The project that a list of positions leads to, each a position among the libraries. -/
def libraryAt (id : Nat) : List Int → App Nat
  | [] => return id
  | i :: rest => do
    let found ← libraries id
    let position := if i < 0 then i + found.length else i
    if position < 0 then throw .outOfRange
    match found[position.toNat]? with
    | some next => libraryAt next rest
    | none => throw .outOfRange

/-- Adds a project to the libraries of another; the answer is how many there are. -/
def addLibrary (id library : Nat) : App Nat := do
  let _ ← libraries id
  modifyProject id fun p => { p with libraries := p.libraries.map (· ++ [library]) }
  return (← libraries id).length

/-- The model of a project, which is made of all its sources. -/
def modelOf (id : Nat) : App Model := do
  match (← project id).model with
  | some model => return model
  | none =>
    let model := Model.ofSources (← allSources id)
    modifyProject id fun p => { p with model := some model }
    return model

def browse (id : Nat) (query : Browse α) : App α := do
  let model ← modelOf id
  let reader ← read
  let app ← get
  let (result, browser) := (query ⟨app.files, reader⟩).run ⟨model, app.workspace⟩
  set { app with workspace := browser.workspace }
  modifyProject id fun p => { p with model := some browser.model }
  ofExcept result

end App

end SwanModel
