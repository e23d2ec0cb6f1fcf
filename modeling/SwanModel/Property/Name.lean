import SwanModel.Property.Basic

/-! # Properties of names -/

namespace SwanModel

open Property

/-- Whether the first part is the text of an identifier. -/
def spelledAsIdentifier (parts : List Term) : Bool :=
  match partAt parts 0 with
  | .text s => Name.isIdentifier s
  | _ => false

namespace Path

def values (ids : Term) : Except Error (List Term) := do
  (← ids.members).mapM Term.valueMember

/-- The identifiers of a path with colons between them; a text stands for itself. -/
def fullName (ids : Term) : Except Error Term :=
  if ids.isList then do
    return .text ("::".intercalate (← textsOf (← values ids)))
  else
    .ok ids

def name (ids : Term) : Except Error Term :=
  match ids with
  | .list items => (items.getLast?.map Term.valueMember).getD (.error .outOfRange)
  | _ => .ok ids

def qualifier (ids : Term) : Except Error Term :=
  if ids.isList then do
    let names ← values ids
    return .list (names.take (names.length - 2))
  else
    .ok ids

/-- What is found at a place inside the first member of a list. -/
def insideFirst : Found → Found
  | .stored place => .stored (0 :: 0 :: place)
  | .copied place => .copied (0 :: 0 :: place)
  | .streamed place => .streamed (0 :: 0 :: place)
  | found => found

/-- The pragmas of a path are those of its first identifier. -/
def pragmas : Term → Except Error Found
  | .list [] => .error .outOfRange
  | .list (.node (.name .path) (ids :: _) :: _) => (pragmas ids).map insideFirst
  | .list (.node (.name .identifier) _ :: _) => .ok (.stored [0, 0, 1])
  | .list (.node (.operator .path) _ :: _) => .ok (.stored [0, 0, 2])
  | .list (.node (.decl .signature) _ :: _) => .ok (.copied [0, 0, 7])
  | .list (.node (.decl .operator) _ :: _) => .ok (.copied [0, 0, 8])
  | .list _ => .error .missingMember
  | _ => .ok (.made (.list []))

end Path

def NameForm.properties : NameForm → Properties
  | .item => []
  | .identifier =>
    [("comment", part 2), ("is_name", part 3), ("is_valid", flag spelledAsIdentifier),
      ("pragmas", part 1), ("value", value fun ps => .ok (Term.word (partAt ps 0) (partAt ps 3)))]
  | .path =>
    [("full_name", value fun ps => Path.fullName (partAt ps 0)), ("ids", part 0),
      ("is_valid", flag fun ps => (partAt ps 0).isList),
      ("name", value fun ps => Path.name (partAt ps 0)),
      ("path", value fun ps => Path.qualifier (partAt ps 0)),
      ("pragmas", fun ps => Path.pragmas (partAt ps 0))]
  | .luid => [("value", part 0)]
  | .declaration => [("identifier", part 0)]
  | .verbatim => [("data", part 0), ("markup", part 1)]

def NameForm.isProtected : NameForm → List Term → Bool
  | .identifier, parts => !spelledAsIdentifier parts
  | .path, parts => !(partAt parts 0).isList
  | .verbatim, _ => true
  | _, _ => false

end SwanModel
