import SwanModel.Files.Source
import SwanModel.Json.Display
import SwanModel.Json.Options
import SwanModel.Json.Reader

/-!
# Assets

An asset holds content: in a file, in a text, or in another asset.
-/

namespace SwanModel

/-- Kinds of assets. -/
inductive AssetKind where
  | asset | file | text | json | code | swanFile | swanText | project | projectFile | job | jobFile
deriving DecidableEq, Repr

namespace AssetKind

def all : List AssetKind :=
  [.asset, .file, .text, .json, .code, .swanFile, .swanText, .project, .projectFile, .job, .jobFile]

def name : AssetKind → String
  | .asset => "Asset"
  | .file => "FileAsset"
  | .text => "StringAsset"
  | .json => "JSONAsset"
  | .code => "SwanCode"
  | .swanFile => "SwanFile"
  | .swanText => "SwanString"
  | .project => "ProjectAsset"
  | .projectFile => "ProjectFile"
  | .job => "JobAsset"
  | .jobFile => "JobFile"

def ofName? (name : String) : Option AssetKind := all.find? (·.name == name)

def isFile : AssetKind → Bool
  | .file | .swanFile | .projectFile | .jobFile => true
  | _ => false

def isText : AssetKind → Bool
  | .text | .swanText => true
  | _ => false

def isJson : AssetKind → Bool
  | .json | .project | .projectFile | .job | .jobFile => true
  | _ => false

end AssetKind

/-- Where the content of an asset is. -/
inductive Holder where
  | file (path : FilePath)
  /-- In a file, but what was given as its path is none. -/
  | noPath (given : Json)
  | text (content : Json)
  /-- In a text of its own, which is not the asset. -/
  | inner (content : Json)
  | nowhere

/-- An asset. -/
structure Asset where
  kind : AssetKind
  /-- Where the asset comes from. -/
  origin : Option Json
  holder : Holder
  /-- The name of a text that is a source of a program. -/
  title : Json := .null
  /-- The JSON value, where there is one. -/
  json : Option Json := none

namespace Asset

def textOrigin : Json := .str "<string>"

def startJson (kind : AssetKind) : Option Json := if kind.isJson then some .null else none

/-- A file as an asset. What is given as its path is checked when it is used. -/
def ofFile (kind : AssetKind) (given : Json) : Asset :=
  { kind, origin := some (.str (FilePath.slashed given.display)),
    holder := match given with
      | .str path => .file (.ofText path)
      | _ => .noPath given
    json := startJson kind }

/-- The name of a text; one that counts as false is replaced. -/
def titleOf (name : Json) : Json := if name.isTruthy then name else .str Source.anonymous

def new (kind : AssetKind) (args : List Json) : Except Error Asset :=
  if kind.isFile then
    match args with
    | [given] => .ok (ofFile kind given)
    | _ => .error .wrongKind
  else
    match kind, args with
    | .text, [content] => .ok { kind, origin := some textOrigin, holder := .text content }
    | .swanText, [content] =>
      .ok { kind, origin := some textOrigin, holder := .text content, title := titleOf .null }
    | .swanText, [content, name] =>
      .ok { kind, origin := some textOrigin, holder := .text content, title := titleOf name }
    | .json, [content] => .ok { kind, origin := none, holder := .inner content, json := some .null }
    | .project, [] | .job, [] => .ok { kind, origin := none, holder := .nowhere, json := some .null }
    | .code, [] => .ok { kind, origin := none, holder := .nowhere }
    | _, _ => .error .wrongKind

/-- A value that an asset may lack. -/
def orMissing : Option α → Except Error α
  | some a => .ok a
  | none => .error .missingMember

def source (asset : Asset) : Except Error Json := orMissing asset.origin

def name (asset : Asset) : Except Error Json :=
  match asset.kind, asset.holder with
  | .swanFile, .file path => .ok (.str path.stem)
  | .swanText, _ => .ok asset.title
  | .code, _ => .ok .null
  | _, _ => .error .missingMember

def ofSwanFile (f : FilePath → α) (asset : Asset) : Except Error α :=
  match asset.kind, asset.holder with
  | .swanFile, .file path => .ok (f path)
  | _, _ => .error .missingMember

def path (asset : Asset) : Except Error String :=
  match asset.holder with
  | .file path => .ok path.text
  | .noPath given => .ok given.display
  | _ => .error .missingMember

def doesExist (files : Files) (asset : Asset) : Except Error Bool :=
  match asset.holder with
  | .file path => files.doesExist path
  | .text _ => .ok true
  | _ => .error .missingMember

def content (files : Files) (asset : Asset) : Except Error Json :=
  match asset.holder with
  | .file path => (files.readText path).map .str
  | .text content => .ok content
  | _ => .error .missingMember

/-- The content that the JSON value of an asset is loaded from. -/
def jsonContent (files : Files) (asset : Asset) : Except Error Json :=
  match asset.kind.isJson, asset.holder with
  | true, .inner content => .ok content
  | true, _ => asset.content files
  | false, _ => .error .missingMember

def setContent (files : Files) (asset : Asset) (data : Json) : Except Error (Files × Asset) :=
  match asset.holder, data with
  | .file path, .str s => do return (← files.writeText path s, asset)
  | .file _, _ => .error .wrongKind
  | .text _, data => .ok (files, { asset with holder := .text data })
  | _, _ => .error .missingMember

/-- Replaces the content that the JSON value of an asset is loaded from. -/
def setJsonContent (files : Files) (asset : Asset) (data : Json) : Except Error (Files × Asset) :=
  match asset.holder with
  | .inner _ => .ok (files, { asset with holder := .inner data })
  | _ => asset.setContent files data

/-- Loads the JSON value of an asset from its content. -/
def load (files : Files) (asset : Asset) : Except Error Asset := do
  match ← asset.jsonContent files with
  | .str s => return { asset with json := some (← Json.read s) }
  | _ => throw .wrongKind

/-- Writes the JSON value of an asset to its content. -/
def dump (files : Files) (asset : Asset) (options : List (String × Json)) :
    Except Error (Files × Asset) :=
  if asset.kind.isJson then do
    let text ← Json.write (← Json.Style.ofOptions options) (asset.json.getD .null)
    asset.setJsonContent files (.str text)
  else
    .error .missingMember

end Asset

end SwanModel
