import SwanModel.Store.Workspace

/-!
# Owners and full paths

The full path of a declaration is that of its owner and its own identifier.
-/

namespace SwanModel

/-- How the full path of a construct is found. -/
inductive PathKind where
  /-- The path of the owner and the own identifier. -/
  | identified
  /-- The path of the owner. -/
  | inherited
  /-- The path of the owner and a mark for text that could not be read. -/
  | verbatim
  /-- The own path. -/
  | own
  /-- There is none. -/
  | none
deriving DecidableEq, Repr

def Form.pathKind : Form → PathKind
  | .name .declaration | .decl .constant | .decl .sensor | .decl .group | .decl .type
  | .decl .flowDecl | .decl .signature | .decl .operator => .identified
  | .module .bare | .module .body | .module .interface => .own
  | .module .verbatim => .verbatim
  | .module _ => .inherited
  | _ => .none

/-- The failure for a construct that has no full path. -/
def Form.noPath (form : Form) : Error :=
  .reported ("SwanItem.get_full_path(): not implemented for <class 'ansys.scadeone.swan."
    ++ form.heading.unit ++ "." ++ form.title ++ "'>")

namespace Store

/-- The parts of the construct at a place, as terms. -/
def parts (store : Store) (id : Nat) : Except Error (List Term) := do
  match ← store.view (.ref id) with
  | .node _ parts => return parts
  | _ => .error .missingMember

def moduleName (parts : List Term) : Except Error Term :=
  match partAt parts 0 with
  | .node (.name .path) ids => Path.fullName (partAt ids 0)
  | _ => .error .missingMember

/-- The full path of the construct at a place, following a number of owners. -/
def fullPathUpTo (store : Store) : Nat → Nat → Except Error Term
  | 0, _ => .error .tooDeep
  | steps + 1, id =>
    match store.cell? id with
    | some (.node form _ owner) =>
      let ofOwner : Except Error String :=
        match owner with
        | .unset => .error .missingMember
        | .none => .error (.reported "No owner")
        | .plain _ | .model => .error .missingMember
        | .construct ownerId => do (← store.fullPathUpTo steps ownerId).print
      match form.pathKind with
      | .identified => do
        let front ← ofOwner
        let value ← (partAt (← store.parts id) 0).valueMember
        return .text (front ++ "::" ++ (← value.print))
      | .inherited => do return .text (← ofOwner)
      | .verbatim => do return .text ((← ofOwner) ++ "::<protected>")
      | .own => do moduleName (← store.parts id)
      | .none => .error form.noPath
    | _ => .error .missingMember

def fullPath (store : Store) (id : Nat) : Except Error Term :=
  store.fullPathUpTo (store.cells.size + 1) id

/-- The names of a construct and its owners, up to a number of them. -/
def chainUpTo (store : Store) : Nat → Nat → Except Error (List String)
  | 0, _ => .error .tooDeep
  | steps + 1, id =>
    match store.cell? id with
    | some (.node form _ owner) =>
      match owner with
      | .unset => .error .missingMember
      | .none => .ok [form.title]
      | .plain _ | .model => .error .missingMember
      | .construct ownerId => do return form.title :: (← store.chainUpTo steps ownerId)
    | _ => .error .missingMember

/-- The names of a construct and its owners, from the inside out. -/
def chain (store : Store) (id : Nat) : Except Error (List String) :=
  store.chainUpTo (store.cells.size + 1) id

end Store

end SwanModel
