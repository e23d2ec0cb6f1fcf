import SwanModel.Asset.Basic

/-! # Sessions with one asset -/

namespace SwanModel

/-- A step of a session with one asset. -/
inductive AssetStep where
  | make (kind : String) (args : List Json)
  | source | name | isModule | isInterface | json | path | doesExist | content
  /-- The content that the JSON value is loaded from. -/
  | jsonContent
  | setContent (data : Json)
  | load
  | setJson (data : Json)
  | dump (options : List (String × Json))

/-- An asset, if one was made, and the files around it. -/
structure AssetState where
  files : Files
  asset : Option Asset := none

namespace AssetState

def ask (state : AssetState) (question : Asset → Except Error Json) :
    Except Error Json × AssetState :=
  match state.asset with
  | some asset => (question asset, state)
  | none => (.error .unknownKey, state)

def change (state : AssetState) (act : Asset → Except Error (Files × Asset)) :
    Except Error Json × AssetState :=
  match state.asset with
  | some asset =>
    match act asset with
    | .ok (files, asset) => (.ok .null, ⟨files, some asset⟩)
    | .error e => (.error e, state)
  | none => (.error .unknownKey, state)

def make (state : AssetState) (kind : String) (args : List Json) :
    Except Error Json × AssetState :=
  match AssetKind.ofName? kind with
  | some k =>
    match Asset.new k args with
    | .ok asset => (.ok (.str kind), { state with asset := some asset })
    | .error e => (.error e, { state with asset := none })
  | none => (.error .missingMember, { state with asset := none })

def load (state : AssetState) : Except Error Json × AssetState :=
  match state.change fun asset => do return (state.files, ← asset.load state.files) with
  | (.ok _, state) => state.ask fun asset => .ok (asset.json.getD .null)
  | failed => failed

def take (state : AssetState) : AssetStep → Except Error Json × AssetState
  | .make kind args => state.make kind args
  | .source => state.ask Asset.source
  | .name => state.ask Asset.name
  | .isModule => state.ask (Asset.ofSwanFile fun p => .bool (p.suffix == ".swan"))
  | .isInterface => state.ask (Asset.ofSwanFile fun p => .bool (p.suffix == ".swani"))
  | .json => state.ask fun asset => Asset.orMissing asset.json
  | .path => state.ask fun asset => asset.path.map .str
  | .doesExist => state.ask fun asset => (asset.doesExist state.files).map .bool
  | .content => state.ask (Asset.content state.files)
  | .jsonContent => state.ask (Asset.jsonContent state.files)
  | .setContent data => state.change fun asset => asset.setContent state.files data
  | .load => state.load
  | .setJson data => state.change fun asset => .ok (state.files, { asset with json := some data })
  | .dump options => state.change fun asset => asset.dump state.files options

def run (state : AssetState) : List AssetStep → List (Except Error Json)
  | [] => []
  | step :: rest =>
    let (answer, state) := state.take step
    answer :: state.run rest

end AssetState

end SwanModel
