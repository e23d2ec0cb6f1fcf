import SwanModel.Convert.Expr

/-!
# Conversion of operators

A protected operator may be read again, as part of the current source.
-/

namespace SwanModel.Convert

def iteratorKinds : List (String × IteratorKind) :=
  [("IMap", .map), ("IFold", .fold), ("IMapi", .mapi), ("IFoldi", .foldi), ("IMapfold", .mapfold),
    ("IMapfoldi", .mapfoldi)]

def naryOps : List (String × NaryOp) :=
  [("BPlus", .plus), ("BMult", .mult), ("BLand", .land), ("BLor", .lor), ("BAnd", .and),
    ("BOr", .or), ("BXor", .xor), ("BAroba", .concat)]

/-- Reads a text that stands in the current source by the current parser, and converts it. -/
def readAgain (self : Convert) (rule : ReadRule) (goal : Rule) (text : Term) : Conversion Term := do
  let name ← currentSource
  let code ← ofExcept text.print
  let tree ← readSource (← currentParser) rule (Source.ofText code name)
  self goal tree

def transposeIndex (tree : ParseTree) : Conversion Term :=
  match tree with
  | .number n => return .number n
  | .truth b => return .number (if b then 1 else 0)
  | .real x =>
    if x.isFinite then return .number x.truncate
    else throw (if x.isNan then .unusable else .infinite)
  | .text s => do return .number (← ofExcept (Numeral.intOfText s))
  | _ => throw .wrongKind

/-- The indices of a transposition: a list or a text kept as it is. -/
def transposeIndices (tree : ParseTree) : Conversion Term := do
  match ← tag tree with
  | "TSList" => each transposeIndex (← itemAt 1 tree)
  | _ => protectedText (← item tree)

def primitive (sizes : Term) (tree : ParseTree) : Conversion Term := do
  match ← tag tree with
  | "Flatten" => make (.operator .primitive) [.constant (.primitive .flatten), sizes]
  | "Pack" => make (.operator .primitive) [.constant (.primitive .pack), sizes]
  | "Reverse" => make (.operator .primitive) [.constant (.primitive .reverse), sizes]
  | _ => make (.operator .transpose) [← transposeIndices (← item tree), sizes]

def protectedOperator (self : Convert) (sizes : Term) (tree : ParseTree) : Conversion Term := do
  let mark ← markup tree
  let text ← protectedText tree
  match mark with
  | .text "text" => readAgain self .operatorBlock .operatorBlock text
  | .text "op_expr" =>
    let inner ← readAgain self .opExpr .operatorExpr text
    make (.operator .expression) [inner, sizes]
  | _ => make (.operator .verbatim) [text, mark]

def locatedOperatorExpr (self : Convert) (tree : ParseTree) : Conversion Term := do
  self .operatorExpr (← field "OEOpExpr" tree)

/-- What an operator is, without its sizes and pragmas. -/
def operatorCall (self : Convert) (sizes pragmas : Term) (tree : ParseTree) : Conversion Term := do
  match ← tag tree with
  | "OPathId" => make (.operator .path) [← path (← item tree), sizes, pragmas]
  | "OPrefixPrimitive" => primitive sizes (← item tree)
  | "ORawPrefix" | "ORawOpExpr" => protectedOperator self sizes (← item tree)
  | _ => make (.operator .expression) [← locatedOperatorExpr self (← item tree), sizes]

def pragmas : ParseTree → Conversion Term := each fun text => return .pragma (Term.ofTree text)

def operator (self : Convert) (tree : ParseTree) : Conversion Term := do
  let sizes ← each (exprOrText self) (← field "CallSize" tree)
  let marks ← pragmas (← field "CallPragmas" tree)
  operatorCall self sizes marks (← field "CallOp" tree)

def iterator (op : Term) (tree : ParseTree) : Conversion Term := do
  match iteratorKinds.lookup (← tag tree) with
  | some kind => make (.operator .iterator) [.constant (.iteratorKind kind), op]
  | none => throw .unset

def optionalItem (self : Convert) (tree : ParseTree) : Conversion Term := do
  match ← tag tree with
  | "OGroupItem" => make (.operator .optionalItem) [← groupItem self (← item tree)]
  | _ => make (.operator .optionalItem) [.absent]

def operatorExpr (self : Convert) (tree : ParseTree) : Conversion Term := do
  match ← tag tree with
  | "OIterator" =>
    let op ← self .operator (← itemAt 2 tree)
    iterator op (← itemAt 1 tree)
  | "OActivateClock" =>
    let op ← self .operator (← itemAt 1 tree)
    make (.operator .activateClock) [op, ← clock (← itemAt 2 tree)]
  | "OActivateCondition" =>
    let op ← self .operator (← itemAt 1 tree)
    let condition ← exprOrText self (← itemAt 2 tree)
    let isLast := Term.ofTree (← itemAt 3 tree)
    make (.operator .activateEvery) [op, condition, isLast, ← exprOrText self (← itemAt 4 tree)]
  | "ORestart" =>
    let op ← self .operator (← itemAt 1 tree)
    make (.operator .restart) [op, ← exprOrText self (← itemAt 2 tree)]
  | "OLambdaDataDef" =>
    let isNode := Term.ofTree (← itemAt 1 tree)
    let inputs ← each (self .flow) (← itemAt 2 tree)
    let outputs ← each (self .flow) (← itemAt 3 tree)
    make (.operator .lambdaScope) [isNode, inputs, outputs, ← self .scope (← itemAt 4 tree)]
  | "OLambdaScopes" =>
    let isNode := Term.ofTree (← itemAt 1 tree)
    let params ← each identifier (← itemAt 2 tree)
    let sections ← each (self .scopeSection) (← itemAt 3 tree)
    make (.operator .lambda) [isNode, params, sections, ← exprOrText self (← itemAt 4 tree)]
  | "OPartial" =>
    let op ← self .operator (← itemAt 1 tree)
    make (.operator .partialApplication) [op, ← each (optionalItem self) (← itemAt 2 tree)]
  | "ONary" =>
    match naryOps.lookup (← tag (← item tree)) with
    | some op => make (.operator .nary) [.constant (.naryOp op)]
    | none => return .absent
  | _ => return .absent

def operatorBlock (self : Convert) (tree : ParseTree) : Conversion Term := do
  let called ← field "OIBCalled" tree
  match ← tag called with
  | "CallOperator" => self .operator (← item called)
  | _ => locatedOperatorExpr self (← item called)

/-- The operator of a block and the luid of its instance. -/
def blockParts (self : Convert) (tree : ParseTree) : Conversion (Term × Term) := do
  let luid ← optional luid (← field "OIBInstId" tree)
  let block ← operatorBlock self tree
  if (← tag (← field "OIBCalled" tree)) == "CallOperator" then
    let _ ← pragmas (← field "OIBPragmas" tree)
  return (block, luid)

def instanceBlock (self : Convert) (tree : ParseTree) : Conversion Term := do
  let (block, luid) ← blockParts self tree
  return .list [block, luid]

end SwanModel.Convert
