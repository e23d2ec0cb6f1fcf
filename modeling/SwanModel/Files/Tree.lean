import SwanModel.Error
import SwanModel.Files.Path
import SwanModel.Text.Quoted

/-!
# Files and directories

A place is the list of components that leads to a file from the root. A path is walked component by
component, from the working directory or from the root.
-/

namespace SwanModel

/-- What a path names. -/
inductive FileKind where
  | file (content : String)
  | directory
deriving DecidableEq, Repr

/-- Files and directories by their places. -/
structure Files where
  /-- The place of the working directory, which is not listed, nor are those around it. -/
  location : List String := ["work"]
  entries : List (List String × FileKind) := []

namespace Files

/-- The component that leads to the directory around a directory. -/
def around : String := ".."

/-- Whether a place is the working directory or a directory around it. -/
def isAround (files : Files) (place : List String) : Bool := place.isPrefixOf files.location

def at? (files : Files) (place : List String) : Option FileKind :=
  if files.isAround place then some .directory else files.entries.lookup place

def put (files : Files) (place : List String) (kind : FileKind) : Files :=
  { files with entries := (place, kind) :: files.entries.filter (·.1 != place) }

def putParents (files : Files) (place : List String) : Files :=
  (List.range place.length).foldl
    (fun files n =>
      let directory := place.take n
      if (files.at? directory).isSome then files else files.put directory .directory)
    files

/-- Where a path starts: at the root, or in the working directory. -/
def start (files : Files) (path : FilePath) : List String :=
  if path.isAbsolute then [] else files.location

/-- The place that a component leads to. -/
def enter (place : List String) (name : String) : List String :=
  if name == around then place.dropLast else place ++ [name]

/-- Puts a file or a directory at a path, with the directories that lead to it. -/
def create (files : Files) (path : String) (content : Option String) : Files :=
  let path := FilePath.ofText path
  let place := path.parts.foldl enter (files.start path)
  (files.putParents place).put place ((content.map .file).getD .directory)

/-- The files of a listing of paths with contents; a path without content is a directory. -/
def ofListing (listing : List (String × Option String)) (location : List String := ["work"]) : Files :=
  listing.foldl (fun files (path, content) => files.create path content) { location }

/-- How many bytes a component of a path has at most. -/
def componentLimit : Nat := 255

def pathLimit : Nat := 4095

/-- Walks the components of a path. The last one need not exist. -/
def walk (files : Files) (place : List String) : List String → Except Error (List String)
  | [] => .ok place
  | name :: rest =>
    if name == around then walk files place.dropLast rest
    else if componentLimit < name.utf8ByteSize then .error .nameTooLong
    else
      let next := place ++ [name]
      match files.at? next with
      | some .directory => walk files next rest
      | some (.file _) => if rest.isEmpty then .ok next else .error .notDirectory
      | none => if rest.isEmpty then .ok next else .error .noSuchFile

def resolve (files : Files) (path : FilePath) : Except Error (List String) :=
  if path.parts.any (·.toList.contains '\x00') then .error .unusable
  else if pathLimit < path.text.utf8ByteSize then .error .nameTooLong
  else files.walk (files.start path) path.parts

def find (files : Files) (path : FilePath) : Except Error FileKind := do
  match files.at? (← files.resolve path) with
  | some kind => return kind
  | none => throw .noSuchFile

/-- Whether a path names something. Only of a path that is too long this cannot be said. -/
def doesExist (files : Files) (path : FilePath) : Except Error Bool :=
  match files.find path with
  | .ok _ => .ok true
  | .error .nameTooLong => .error .nameTooLong
  | .error _ => .ok false

def isDirectory (files : Files) (path : FilePath) : Bool :=
  match files.find path with
  | .ok .directory => true
  | _ => false

def withLineFeeds : List Char → List Char
  | '\r' :: '\n' :: rest => '\n' :: withLineFeeds rest
  | '\r' :: rest => '\n' :: withLineFeeds rest
  | c :: rest => c :: withLineFeeds rest
  | [] => []

def readText (files : Files) (path : FilePath) : Except Error String := do
  match ← files.find path with
  | .file content => return String.ofList (withLineFeeds content.toList)
  | .directory => throw .isDirectory

def writeText (files : Files) (path : FilePath) (content : String) : Except Error Files := do
  let place ← files.resolve path
  match files.at? place with
  | some .directory => throw .isDirectory
  | _ => return files.put place (.file content)

/-- The names in a directory, that of the directory on the way to the working directory included. -/
def names (files : Files) (place : List String) : List String :=
  let names := files.entries.filterMap fun (other, _) =>
    if !other.isEmpty && other.dropLast == place then other.getLast? else none
  match (if files.isAround place then files.location[place.length]? else none) with
  | some name => if names.contains name then names else name :: names
  | none => names

def list (files : Files) (path : FilePath) : List String :=
  match files.resolve path with
  | .ok place => (files.names place).mergeSort (· ≤ ·)
  | .error _ => []

/-- How the system explains that a file with a name cannot be read. -/
def explainName (e : Error) (name : String) : String :=
  match e with
  | .noSuchFile => "[Errno 2] No such file or directory: " ++ Text.quoted name
  | .isDirectory => "[Errno 21] Is a directory: " ++ Text.quoted name
  | .notDirectory => "[Errno 20] Not a directory: " ++ Text.quoted name
  | .nameTooLong => "[Errno 36] File name too long: " ++ Text.quoted name
  | _ => "embedded null byte"

/-- How the system explains that a file cannot be read. -/
def explain (e : Error) (path : FilePath) : String := explainName e path.text

end Files

end SwanModel
