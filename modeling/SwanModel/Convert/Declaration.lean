import SwanModel.Convert.Diagram

/-!
# Conversion of declarations and modules

The tree of an operator is kept in the place of its body until the body is needed.
-/

namespace SwanModel.Convert

def constant (self : Convert) (tree : ParseTree) : Conversion Term := do
  let id ← identifier (← field "ConstId" tree)
  let value ← optional (self .expr) (← field "ConstDefinition" tree)
  let sort ← self .type (← field "ConstType" tree)
  make (.decl .constant) [id, sort, value]

def sensor (self : Convert) (tree : ParseTree) : Conversion Term := do
  let id ← identifier (← field "SensorId" tree)
  make (.decl .sensor) [id, ← self .type (← field "SensorType" tree)]

def typeDecl (self : Convert) (tree : ParseTree) : Conversion Term := do
  let id ← identifier (← field "TypeId" tree)
  let definition ← field "TypeDef" tree
  match ← tag definition with
  | "TDefNone" => make (.decl .type) [id, .absent]
  | "TDefExpr" => make (.decl .type) [id, ← self .type (← item definition)]
  | "TDefEnum" =>
    let tags ← make (.type .enumeration) [← each identifier (← item definition)]
    make (.decl .type) [id, tags]
  | "TDefVariant" =>
    let cases ← make (.type .variants) [← each (variantCase self) (← item definition)]
    make (.decl .type) [id, cases]
  | _ => return .absent

def use (tree : ParseTree) : Conversion Term := do
  let id ← path (← field "UPath" tree)
  make (.module .use) [id, ← optional identifier (← field "UAs" tree)]

def groupDecl (self : Convert) (tree : ParseTree) : Conversion Term := do
  let id ← identifier (← field "GroupId" tree)
  make (.decl .group) [id, ← groupType self (← field "GroupType" tree)]

def constraint (self : Convert) (tree : ParseTree) : Conversion Term := do
  let kind ← numericKind (← itemAt 2 tree)
  match ← tag tree with
  | "TCRaw" => make (.decl .typeConstraint) [← protectedText (← itemAt 1 tree), kind]
  | _ => make (.decl .typeConstraint) [← each (self .type) (← itemAt 1 tree), kind]

def flow (self : Convert) (tree : ParseTree) : Conversion Term := do
  match ← tag tree with
  | "RawVar" => make (.decl .flowVerbatim) [← protectedText (← item tree)]
  | _ =>
    let decl ← itemAt 1 tree
    let id ← identifier (← field "VarId" decl)
    let isClock := Term.ofTree (← field "VarIsClock" decl)
    let isProbe := Term.ofTree (← field "VarIsProbe" decl)
    let sort ← optional (groupType self) (← field "VarType" decl)
    let rate ← optional clock (← field "VarWhen" decl)
    let fallback ← optional (self .expr) (← field "VarDefault" decl)
    let last ← optional (self .expr) (← field "VarLast" decl)
    make (.decl .flowDecl) [id, isClock, isProbe, sort, rate, fallback, last]

/-- The heading of an operator. -/
structure SignatureParts where
  isNode : Term
  id : Term
  inputs : Term
  outputs : Term
  sizes : Term
  constraints : Term
  specialization : Term
  pragmas : Term

def signatureParts (self : Convert) (tree : ParseTree) : Conversion SignatureParts := do
  let isNode := Term.ofTree (← field "OpNode" tree)
  let id ← plainIdentifier (← locatedText (← field "OpId" tree))
  let inputs ← each (flow self) (← field "OpInputs" tree)
  let outputs ← each (flow self) (← field "OpOutputs" tree)
  let sizes ← each identifier (← field "OpSizes" tree)
  let constraints ← each (constraint self) (← field "OpConstraints" tree)
  let specialization ← optional pathOrText (← field "OpSpecialization" tree)
  let marks ← pragmas (← field "OpPragmas" tree)
  return ⟨isNode, id, inputs, outputs, sizes, constraints, specialization, marks⟩

def signatureElements (self : Convert) (tree : ParseTree) : Conversion Term := do
  let p ← signatureParts self tree
  return .list [p.isNode, p.id, p.inputs, p.outputs, p.sizes, p.constraints, p.specialization,
    p.pragmas]

def signature (self : Convert) (tree : ParseTree) : Conversion Term := do
  let p ← signatureParts self tree
  make (.decl .signature)
    [p.id, p.isNode, p.inputs, p.outputs, p.sizes, p.constraints, p.specialization, p.pragmas]

def userOperator (self : Convert) (tree : ParseTree) : Conversion Term := do
  let p ← signatureParts self tree
  make (.decl .operator)
    [p.id, p.isNode, p.inputs, p.outputs, .raw tree, p.sizes, p.constraints, p.specialization,
      p.pragmas]

/-- The body of an operator, from the tree of the operator. -/
def operatorBody (self : Convert) (tree : ParseTree) : Conversion Term := do
  self .scope (← field "OpBody" tree)

/-- A declaration that was kept as text: an operator is read again. -/
def protectedDeclaration (self : Convert) (tree : ParseTree) : Conversion Term := do
  let mark ← markup tree
  let text ← protectedText tree
  match mark with
  | .text "text" => readAgain self .userOperator .userOperator text
  | _ => make (.module .verbatim) [mark, text]

def declaration (self : Convert) (tree : ParseTree) : Conversion Term := do
  match ← tag tree with
  | "DConst" => make (.module .constants) [← each (constant self) (← itemAt 1 tree)]
  | "DGroup" => make (.module .groups) [← each (groupDecl self) (← itemAt 1 tree)]
  | "DOperator" => userOperator self (← item tree)
  | "DRaw" => protectedDeclaration self (← item tree)
  | "DSensor" => make (.module .sensors) [← each (sensor self) (← itemAt 1 tree)]
  | "DSignature" => signature self (← item tree)
  | "DType" => make (.module .types) [← each (typeDecl self) (← itemAt 1 tree)]
  | "DUse" => use (← itemAt 1 tree)
  | _ => throw (.reported "unexpected ast class: ")

/-- What a module uses, and its other declarations. -/
def declarationParts (self : Convert) (tree : ParseTree) : Conversion (List Term × List Term) := do
  let items ← (← ofExcept (← field "MDecls" tree).members).mapM (declaration self)
  return items.partition (·.is (.module .use))

def declarations (self : Convert) (tree : ParseTree) : Conversion Term := do
  let (uses, others) ← declarationParts self tree
  return .list [.list uses, .list others]

def module (self : Convert) (form : ModuleForm) (name : String) (tree : ParseTree) :
    Conversion Term := do
  let id ← modulePath name
  let (uses, others) ← declarationParts self tree
  make (.module form) [id, .list uses, .list others]

end SwanModel.Convert
