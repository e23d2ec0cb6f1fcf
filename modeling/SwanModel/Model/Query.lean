import SwanModel.Model.Basic
import SwanModel.Store.Show

/-! # Questions about a model -/

namespace SwanModel

/-- A test on declarations. -/
inductive DeclarationTest where
  | all | none
  /-- The declaration is a construct of this name. -/
  | titled (title : String)
  /-- The declaration has an identifier with this text. -/
  | named (name : String)
deriving DecidableEq, Repr

/-- What a model is asked for. -/
inductive ModelQuery where
  | declarations | types | sensors | constants | groups | userOperators | signatures
  | filter (test : DeclarationTest)
deriving DecidableEq, Repr

/-- A declaration as it is told. -/
structure DeclarationView where
  title : String
  text : Except Error String
  path : Except Error Term

/-- A module as it is told. -/
structure ModuleView where
  title : String
  name : Except Error Term
  owner : Except Error Term
  text : Except Error String

namespace Browse

def formOf? (slot : Slot) : Browse (Option Form) := work do return (← Work.store).form? slot

def titleOf (slot : Slot) : Browse String := do
  match ← formOf? slot with
  | some form => return form.title
  | none => throw .missingMember

def pathOf (slot : Slot) : Work Term :=
  match slot with
  | .ref id => Work.observe fun store => store.fullPath id
  | _ => throw .missingMember

def viewDeclaration (slot : Slot) : Browse DeclarationView := do
  let title ← titleOf slot
  let text ← work (Work.settle (Work.print slot))
  let path ← work (Work.settle (pathOf slot))
  return ⟨title, text, path⟩

def viewModule (module : Nat) : Browse ModuleView := do
  let title ← titleOf (.ref module)
  let name ← work (Work.settle (pathOf (.ref module)))
  let owner ← work (Work.settle do
    let store ← Work.store
    Work.ofExcept (Work.ownerTitle store (store.owner module)))
  let text ← work (Work.settle (Work.print (.ref module)))
  return ⟨title, name, owner, text⟩

def viewModules : Browse (List ModuleView) := do
  (← model).modules.mapM viewModule

def identifierText (slot : Slot) : Browse String := work do
  match (← Work.store).child? slot 0 with
  | some identifier => Work.print identifier
  | none => throw .missingMember

def passes (test : DeclarationTest) (slot : Slot) : Browse Bool := do
  match test with
  | .all => return true
  | .none => return false
  | .titled title => return (← titleOf slot) == title
  | .named name =>
    match ← formOf? slot with
    | some form =>
      if form.pathKind == .identified then return (← identifierText slot) == name else return false
    | none => return false

/-- The members of a block of declarations of a form; other declarations have none. -/
def blockMembers (block : ModuleForm) (slot : Slot) : Browse (List Slot) := do
  match ← formOf? slot, slot with
  | some form, .ref id => if form == .module block then itemsOf id 0 else return []
  | _, _ => return []

/-- A declaration, if its form is one of some forms. -/
def ofForms (forms : List Form) (slot : Slot) : Browse (List Slot) := do
  match ← formOf? slot with
  | some form => if forms.contains form then return [slot] else return []
  | none => return []

def select (query : ModelQuery) (slot : Slot) : Browse (List Slot) :=
  match query with
  | .declarations => return [slot]
  | .types => blockMembers .types slot
  | .sensors => blockMembers .sensors slot
  | .constants => blockMembers .constants slot
  | .groups => blockMembers .groups slot
  | .userOperators => ofForms [.decl .operator] slot
  | .signatures => ofForms [.decl .signature, .decl .operator] slot
  | .filter test => do if ← passes test slot then return [slot] else return []

/-- Asks a model; each thing is used when it is found. -/
def ask (query : ModelQuery) (use : Slot → Browse α) : Browse (List α) := do
  (Cursor.start (← model)).each fun slot => do (← select query slot).mapM use

def find? (test : DeclarationTest) : Browse (Option Slot) := do
  (Cursor.start (← model)).find? (passes test)

end Browse

end SwanModel
