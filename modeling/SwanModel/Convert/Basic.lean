import SwanModel.Build.Adoption
import SwanModel.Layout.Print
import SwanModel.Reading.Reader

/-!
# From parse trees to terms

The converters of the families call each other through `Convert`, the converter of parts;
`Convert.Table` ties them together.
-/

namespace SwanModel

/-- What a parse tree describes. -/
inductive Rule where
  | option | markup | protectedText | protectedItem
  | identifier | path | pathOrText | locatedText | instanceId | nameText | luid
  | unaryOp | binaryOp | labelOrIndex | groupItem | group | modifier | caseBranches | pattern
  | groupRenaming | adaptation | clock | exprOrText | expr | port
  | forwardLeft | forwardElement | dimension | forwardBody | lastDefault | itemClause
  | arrayClause | forwardReturn | forward
  | optionalItem | locatedOperatorExpr | operatorExpr | operator | operatorBlock | instanceBlock
  | predefinedType | type | typeOrText | groupType | numericKind
  | constant | sensor | typeDecl | use | groupDecl | constraint | flow
  | signatureElements | signature | userOperator | operatorBody
  | emission | leftItem | left | equation | ifActivation | branch | activationBranch | whenBranch
  | machineItem | arrow | priorityFork | stateBody | identification
  | object | connection | scopeSection | scope
  | declaration | declarations
deriving DecidableEq, Repr, Inhabited

abbrev Convert := Rule → ParseTree → Conversion Term

namespace Convert

/-- A step that may fail, as a conversion. -/
def ofExcept (x : Except Error α) : Conversion α :=
  match x with
  | .ok a => return a
  | .error e => throw e

def make (form : Form) (args : List Term) : Conversion Term := ofExcept (form.build args)

def tag (tree : ParseTree) : Conversion String := ofExcept tree.tag

def item (tree : ParseTree) : Conversion ParseTree := ofExcept tree.item

/-- An item of a case with more than one, counted from one. -/
def itemAt (n : Nat) (tree : ParseTree) : Conversion ParseTree := ofExcept (tree.itemAt n)

def field (name : String) (tree : ParseTree) : Conversion ParseTree := ofExcept (tree.field name)

def each (convert : ParseTree → Conversion Term) (tree : ParseTree) : Conversion Term := do
  return .list (← (← ofExcept tree.members).mapM convert)

/-- Converts the value of an option, if it counts as true. -/
def optional (convert : ParseTree → Conversion Term) (tree : ParseTree) : Conversion Term := do
  let value ← ofExcept tree.value
  if value.isTruthy then convert value else return Term.ofTree value

/-- The constant that a table gives for a tag; nothing for other tags. -/
def constantOf (table : List (String × Constant)) (tree : ParseTree) : Conversion Term := do
  let t ← tag tree
  return ((table.lookup t).map Term.constant).getD .absent

end Convert

end SwanModel
