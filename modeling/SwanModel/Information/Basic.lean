import SwanModel.Error
import SwanModel.Json.Value
import SwanModel.Text.Words

/-!
# Information attached to a module

Behind the text of a module there may be information: JSON values by key. Asking for a key that is
not there adds it with an empty object.
-/

namespace SwanModel

/-- The value of a key. If the key is not there, it is added with an empty value. -/
def askField (empty : α) (fields : List (String × α)) (key : String) : α × List (String × α) :=
  match Json.lookup fields key with
  | some value => (value, fields)
  | none => (empty, Json.put fields key empty)

namespace Information

/-- Where a value is put inside another: under a key or at a position. -/
inductive Place where
  | key (name : String)
  | index (i : Int)
deriving DecidableEq, Repr

namespace Place

def name? : Place → Option String
  | .key name => some name
  | .index _ => none

/-- An integer under which a value stands is written in decimal. -/
def text : Place → String
  | .key name => name
  | .index i => toString i

end Place

/-- The value of a key. In an object, an integer and its decimal text are two places. -/
inductive Content where
  | object (fields : List (Place × Json))
  | other (value : Json)
deriving Inhabited

namespace Content

def ofJson : Json → Content
  | .obj fields => .object (fields.map (Prod.map .key id))
  | value => .other value

def json : Content → Json
  | .object fields => .obj (fields.map (Prod.map Place.text id))
  | .other value => value

def change (place : Place) (new : Json) : Content → Except Error Content
  | .object fields => .ok (.object (Json.put fields place new))
  | .other (.arr items) =>
    match place with
    | .key _ => .error .wrongKind
    | .index i =>
      let position := if i < 0 then i + items.length else i
      if position < 0 || position ≥ items.length then .error .outOfRange
      else .ok (.other (.arr (items.set position.toNat new)))
  | .other _ => .error .wrongKind

end Content

end Information

/-- Values by key. -/
structure Information where
  fields : List (String × Information.Content) := []
deriving Inhabited

namespace Information

def ofJson : Json → Information
  | .obj fields => ⟨fields.map (Prod.map id Content.ofJson)⟩
  | _ => {}

def contains (info : Information) (key : String) : Bool := info.fields.any (·.1 == key)

def hasInformation (info : Information) : Bool := !info.fields.isEmpty

/-- The value of a key, which is added if it is not there. -/
def get (info : Information) (key : String) : Content × Information :=
  Prod.map id mk (askField (.object []) info.fields key)

/-- Puts a value inside the value of a key, which is added if it is not there. -/
def put (info : Information) (key : String) (place : Place) (new : Json) :
    Except Error Unit × Information :=
  let (value, info) := info.get key
  match value.change place new with
  | .ok changed => (.ok (), ⟨Json.put info.fields key changed⟩)
  | .error e => (.error e, info)

end Information

/-! ### The model tree -/

/-- Children and properties of a model, as they are asked for. -/
structure ModelTree where
  fields : List (String × Json)

namespace ModelTree

def key : String := "ModelTree"

/-- A value and a key of an object, from a sequence of two. -/
def pairOf : Json → Except Error (Json × Json)
  | .arr [k, v] => .ok (k, v)
  | .arr _ => .error .unusable
  | .str s =>
    match s.toList with
    | [a, b] => .ok (.str (String.ofList [a]), .str (String.ofList [b]))
    | _ => .error .unusable
  | .obj [(a, _), (b, _)] => .ok (.str a, .str b)
  | .obj _ => .error .unusable
  | _ => .error .wrongKind

/-- Adds a pair to the fields; a key is no list and no object, and only texts are looked up. -/
def addPair (fields : List (String × Json)) : Json × Json → Except Error (List (String × Json))
  | (.str k, v) => .ok (Json.put fields k v)
  | (.arr _, _) | (.obj _, _) => .error .wrongKind
  | _ => .ok fields

/-- The model tree in a value: an object or a sequence of pairs. -/
def ofJson : Json → Except Error ModelTree
  | .obj fields => .ok ⟨fields⟩
  | .arr items => do
    let fields ← items.foldlM (fun fields item => do addPair fields (← pairOf item)) []
    return ⟨fields⟩
  | .str s => if s.isEmpty then .ok ⟨[]⟩ else .error .unusable
  | _ => .error .wrongKind

/-- What stands under an integer is in no field of a tree. -/
def ofContent : Information.Content → Except Error ModelTree
  | .object fields => .ok ⟨fields.filterMap fun (place, value) => place.name?.map (·, value)⟩
  | .other value => ofJson value

/-- A field of the tree, which is added if it is not there. -/
def field (tree : ModelTree) (name : String) : Json × ModelTree :=
  Prod.map id mk (askField (.obj []) tree.fields name)

def children (tree : ModelTree) : Json × ModelTree := tree.field "Children"

def properties (tree : ModelTree) : Json × ModelTree := tree.field "Properties"

def versionIn : Json → Except Error Json
  | .obj fields => .ok ((Json.lookup fields "version").getD .null)
  | .str s => if Text.holds "version".toList s.toList then .error .wrongKind else .ok .null
  | .arr items =>
    if items.any fun
      | .str s => s == "version"
      | _ => false
    then .error .wrongKind
    else .ok .null
  | _ => .error .wrongKind

def version (tree : ModelTree) : Except Error Json × ModelTree :=
  Prod.map versionIn id tree.properties

/-- What an inspection of a model tree shows. -/
structure View where
  name : String
  version : Except Error Json
  children : Json
  properties : Json

/-- Reads name, version, children and properties of a tree, one after the other. -/
def view (tree : ModelTree) : View :=
  let (version, tree) := tree.version
  let (children, tree) := tree.children
  let (properties, _) := tree.properties
  ⟨key, version, children, properties⟩

end ModelTree

namespace Information

/-- The model tree of some information, if there is one. -/
def modelTree (info : Information) : Option (Except Error ModelTree) × Information :=
  if info.contains ModelTree.key then
    let (value, info) := info.get ModelTree.key
    (some (ModelTree.ofContent value), info)
  else (none, info)

/-- What an inspection of information shows. -/
structure View where
  hasInformation : Bool
  modelTree : Option (Except Error ModelTree.View)

/-- Asks whether there is information, and reads the model tree. -/
def inspect (info : Information) : View × Information :=
  let there := info.hasInformation
  let (tree, info) := info.modelTree
  (⟨there, tree.map (·.map ModelTree.view)⟩, info)

end Information

end SwanModel
