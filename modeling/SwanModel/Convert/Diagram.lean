import SwanModel.Convert.Equation

/-! # Conversion of diagrams and scopes -/

namespace SwanModel.Convert

def connection (tree : ParseTree) : Conversion Term := do
  match ← tag tree with
  | "ConnEmpty" => make (.diagram .connection) [.absent, .absent]
  | _ =>
    let source ← port (← itemAt 1 tree)
    make (.diagram .connection) [source, ← optional adaptation (← itemAt 2 tree)]

def groupOperation (tree : ParseTree) : Conversion Term := do
  match ← tag tree with
  | "GByName" => return .constant (.groupOperation .byName)
  | "GByPos" => return .constant (.groupOperation .byPos)
  | "GNoOp" => return .constant (.groupOperation .noOp)
  | _ => return .constant (.groupOperation .normalize)

/-- What a diagram object is, with its luid and its local objects. -/
def described (self : Convert) (luid locals : Term) (tree : ParseTree) : Conversion Term := do
  match ← tag tree with
  | "BExpr" => make (.diagram .expression) [← exprOrText self (← item tree), luid, locals]
  | "BDef" => make (.diagram .definition) [← left (← itemAt 1 tree), luid, locals]
  | "BRawDef" => make (.diagram .definition) [← protectedItem (← item tree), luid, locals]
  | "BRawBlock" => make (.diagram .block) [← protectedItem (← item tree), .absent, luid, locals]
  | "BBlock" =>
    let (block, inner) ← blockParts self (← itemAt 1 tree)
    make (.diagram .block) [block, inner, luid, locals]
  | "BWire" =>
    let source ← connection (← itemAt 1 tree)
    make (.diagram .wire) [source, ← each connection (← itemAt 2 tree), luid, locals]
  | "BGroup" => make (.diagram .group) [← groupOperation (← itemAt 1 tree), luid, locals]
  | "BScopeSection" =>
    make (.diagram .sectionObject) [← self .scopeSection (← item tree), luid, locals]
  | _ => return .absent

def object (self : Convert) (tree : ParseTree) : Conversion Term := do
  let luid ← optional luid (← field "ObjLuid" tree)
  let locals ← each (self .object) (← field "ObjLocals" tree)
  described self luid locals (← field "ObjDescription" tree)

def emission (self : Convert) (tree : ParseTree) : Conversion Term := do
  let flows ← each nameIdentifier (← field "ESignals" tree)
  make (.scope .emission) [flows, ← optional (self .expr) (← field "EExpr" tree)]

def formalProperty (self : Convert) (tree : ParseTree) : Conversion Term := do
  let id ← identifier (← field "VTag" tree)
  make (.scope .property) [id, ← self .expr (← field "VExpr" tree)]

def scopeSection (self : Convert) (tree : ParseTree) : Conversion Term := do
  match ← tag tree with
  | "SEmission" => make (.scope .emissions) [← each (emission self) (← itemAt 1 tree)]
  | "SAssume" => make (.scope .assumptions) [← each (formalProperty self) (← itemAt 1 tree)]
  | "SGuarantee" => make (.scope .guarantees) [← each (formalProperty self) (← itemAt 1 tree)]
  | "SVarList" => make (.scope .variables) [← each (self .flow) (← item tree)]
  | "SLet" => make (.scope .equations) [← each (self .equation) (← itemAt 2 tree)]
  | "SDiagram" =>
    make (.diagram .diagram) [← each (self .object) (← field "DObjects" (← item tree))]
  | "SRaw" => make (.scope .verbatim) [← protectedText (← item tree)]
  | _ => return .absent

def scope (self : Convert) (tree : ParseTree) : Conversion Term := do
  match ← tag tree with
  | "SDEmpty" => return .absent
  | "SDEquation" => self .equation (← item tree)
  | "SDSections" => make (.scope .scope) [← each (self .scopeSection) (← itemAt 1 tree)]
  | _ => return .absent

end SwanModel.Convert
