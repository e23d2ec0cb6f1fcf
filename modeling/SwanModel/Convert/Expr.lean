import SwanModel.Convert.Type

/-! # Conversion of expressions and patterns -/

namespace SwanModel.Convert

def unaryOps : List (String × Constant) :=
  [("UMinus", .unaryOp .minus), ("UPlus", .unaryOp .plus), ("ULnot", .unaryOp .lnot),
    ("UNot", .unaryOp .not), ("UPre", .unaryOp .pre)]

def binaryOps : List (String × Constant) :=
  [("BPlus", .binaryOp .plus), ("BMinus", .binaryOp .minus), ("BMult", .binaryOp .mult),
    ("BSlash", .binaryOp .slash), ("BMod", .binaryOp .mod), ("BLand", .binaryOp .land),
    ("BLor", .binaryOp .lor), ("BLxor", .binaryOp .lxor), ("BLsl", .binaryOp .lsl),
    ("BLsr", .binaryOp .lsr), ("BEqual", .binaryOp .equal), ("BDiff", .binaryOp .diff),
    ("BLt", .binaryOp .lt), ("BGt", .binaryOp .gt), ("BLeq", .binaryOp .leq),
    ("BGeq", .binaryOp .geq), ("BAnd", .binaryOp .and), ("BOr", .binaryOp .or),
    ("BXor", .binaryOp .xor), ("BArrow", .binaryOp .arrow), ("BPre", .binaryOp .pre),
    ("BAroba", .binaryOp .concat)]

def exprOrText (self : Convert) (tree : ParseTree) : Conversion Term := do
  match ← tag tree with
  | "ExprWithSP" => self .expr (← itemAt 1 tree)
  | _ => make (.expr .verbatim) [← protectedText (← item tree)]

def labelOrIndex (self : Convert) (tree : ParseTree) : Conversion Term := do
  match ← tag tree with
  | "Index" => make (.part .labelOrIndex) [← exprOrText self (← item tree)]
  | _ => make (.part .labelOrIndex) [← identifier (← item tree)]

def groupItem (self : Convert) (tree : ParseTree) : Conversion Term := do
  match ← tag tree with
  | "GroupItemExpr" => make (.part .groupItem) [← exprOrText self (← item tree), .absent]
  | "GroupItemLabelExpr" =>
    let expr ← exprOrText self (← itemAt 2 tree)
    let label ← identifier (← itemAt 1 tree)
    make (.part .groupItem) [expr, label]
  | _ => make (.part .groupItem) [← exprOrText self (← itemAt 2 tree), .absent]

def group (self : Convert) (tree : ParseTree) : Conversion Term := do
  make (.part .group) [← each (groupItem self) tree]

def modifier (self : Convert) (tree : ParseTree) : Conversion Term := do
  let value ← exprOrText self (← itemAt 2 tree)
  match ← tag tree with
  | "ModifierRaw" => make (.part .modifier) [← protectedText (← itemAt 1 tree), value]
  | _ => make (.part .modifier) [← each (labelOrIndex self) (← itemAt 1 tree), value]

def readPattern (tree : ParseTree) : Conversion Term := do
  match ← tag tree with
  | "PId" => make (.pattern .path) [← path (← item tree)]
  | "PVariant" => make (.pattern .variant) [← path (← item tree), .absent, .truth true]
  | "PVariantCapture" =>
    let id ← path (← itemAt 1 tree)
    let value ← ofExcept (← itemAt 2 tree).value
    let captured ← if value.isTruthy then identifier value else pure .absent
    make (.pattern .variant) [id, captured, .truth false]
  | "PChar" => make (.pattern .char) [Term.ofTree (← item tree)]
  | "PInt" =>
    let value ← itemAt 2 tree
    let minus ← itemAt 1 tree
    make (.pattern .int) [Term.ofTree value, .truth minus.isSet]
  | "PBool" => make (.pattern .bool) [.truth (← item tree).isSet]
  | "PUscore" => make (.pattern .underscore) []
  | "PDefault" => make (.pattern .otherwise) []
  | _ => return .absent

def pattern (tree : ParseTree) : Conversion Term := do
  match ← tag tree with
  | "PRaw" => make (.pattern .verbatim) [← protectedText (← item tree)]
  | _ => readPattern (← itemAt 1 tree)

def caseBranch (self : Convert) (tree : ParseTree) : Conversion Term := do
  let patternTree ← itemAt 1 tree
  let exprTree ← itemAt 2 tree
  make (.part .caseBranch) [← pattern patternTree, ← exprOrText self exprTree]

def caseBranches (self : Convert) : ParseTree → Conversion Term := each (caseBranch self)

/-- A renaming by position keeps its mark for shortcuts; one by name is a shortcut when the new name
is the old one. -/
def groupRenaming (tree : ParseTree) : Conversion Term := do
  match ← tag tree with
  | "RenamingByPos" =>
    let index ← make (.expr .literal)
      [Term.ofTree (← itemAt 1 tree), .constant (.literalKind .numeric)]
    let shortcut := Term.ofTree (← itemAt 2 tree)
    let renamed ← optional identifier (← itemAt 3 tree)
    make (.part .groupRenaming) [index, renamed, shortcut]
  | "RenamingByName" =>
    let index ← identifier (← itemAt 1 tree)
    let shortcut := Term.ofTree (← itemAt 2 tree)
    let renamed ← optional identifier (← itemAt 3 tree)
    if renamed.isTruthy then
      let old ← ofExcept index.valueMember
      let new ← ofExcept renamed.valueMember
      make (.part .groupRenaming) [index, renamed, .truth (old.same new)]
    else
      make (.part .groupRenaming) [index, renamed, shortcut]
  | _ => return .absent

def adaptation (tree : ParseTree) : Conversion Term := do
  make (.part .adaptation) [← each groupRenaming (← field "GRenaming" tree)]

def clock (tree : ParseTree) : Conversion Term := do
  match ← tag tree with
  | "ClockId" => make (.part .clock) [← identifier (← item tree), .truth false, .absent]
  | "ClockNotId" => make (.part .clock) [← identifier (← item tree), .truth true, .absent]
  | "ClockMatch" =>
    let match? ← pattern (← itemAt 2 tree)
    make (.part .clock) [← identifier (← itemAt 1 tree), .truth false, match?]
  | _ => return .absent

def port (tree : ParseTree) : Conversion Term := do
  match ← tag tree with
  | "InstanceIdLuid" => make (.expr .port) [← luid (← item tree)]
  | "InstanceIdSelf" => make (.expr .port) [.absent]
  | _ => throw (.reported "internal error, unexpected instance id")

def projection (self : Convert) (tree : ParseTree) : Conversion Term := do
  let expr ← exprOrText self (← itemAt 1 tree)
  let target ← labelOrIndex self (← itemAt 2 tree)
  match target with
  | .node _ [label] =>
    if label.isIdentifier then make (.expr .structProjection) [expr, target]
    else make (.expr .arrayProjection) [expr, target]
  | _ => throw .missingMember

def operation (self : Convert) (tree : ParseTree) : Conversion Term := do
  let params ← group self (← itemAt 2 tree)
  let luid ← optional luid (← field "OIInstance" (← itemAt 1 tree))
  let operator ← self .operator (← field "OIOperator" (← itemAt 1 tree))
  make (.expr .operation) [operator, params, luid]

/-- An expression of two parts, which are expressions themselves. -/
def twoParts (self : Convert) (form : ExprForm) (tree : ParseTree) : Conversion Term := do
  let first ← exprOrText self (← itemAt 1 tree)
  let second ← exprOrText self (← itemAt 2 tree)
  make (.expr form) [first, second]

/-- An expression of three parts, which are expressions themselves. -/
def threeParts (self : Convert) (form : ExprForm) (tree : ParseTree) : Conversion Term := do
  let first ← exprOrText self (← itemAt 1 tree)
  let second ← exprOrText self (← itemAt 2 tree)
  let third ← exprOrText self (← itemAt 3 tree)
  make (.expr form) [first, second, third]

def literal (kind : LiteralKind) (value : Term) : Conversion Term :=
  make (.expr .literal) [value, .constant (.literalKind kind)]

def expr (self : Convert) (tree : ParseTree) : Conversion Term := do
  match ← tag tree with
  | "EId" => make (.expr .path) [← path (← item tree)]
  | "ELast" => make (.expr .last) [← nameIdentifier (← item tree)]
  | "EBoolLiteral" => literal .bool (.text (if (← item tree).isTruthy then "true" else "false"))
  | "ECharLiteral" => literal .char (Term.ofTree (← item tree))
  | "ENumLiteral" => literal .numeric (Term.ofTree (← item tree))
  | "EUnaryOp" =>
    let op ← constantOf unaryOps (← itemAt 1 tree)
    make (.expr .unary) [op, ← exprOrText self (← itemAt 2 tree)]
  | "EBinaryOp" =>
    let op ← constantOf binaryOps (← itemAt 1 tree)
    let left ← exprOrText self (← itemAt 2 tree)
    make (.expr .binary) [op, left, ← exprOrText self (← itemAt 3 tree)]
  | "EWhenClock" =>
    let value ← exprOrText self (← itemAt 1 tree)
    make (.expr .whenClock) [value, ← clock (← itemAt 2 tree)]
  | "EWhenMatch" =>
    let value ← exprOrText self (← itemAt 1 tree)
    make (.expr .whenMatch) [value, ← path (← itemAt 2 tree)]
  | "ECast" =>
    let value ← exprOrText self (← itemAt 1 tree)
    make (.expr .conversion) [value, ← typeOrText self (← itemAt 2 tree)]
  | "EGroup" => make (.expr .group) [← group self (← item tree)]
  | "EGroupAdapt" =>
    let value ← exprOrText self (← itemAt 1 tree)
    make (.expr .adapted) [value, ← adaptation (← itemAt 2 tree)]
  | "EStaticProj" => projection self tree
  | "EMkGroup" =>
    let name ← pathOrText (← itemAt 1 tree)
    make (.expr .makeGroup) [name, ← exprOrText self (← itemAt 2 tree)]
  | "ESlice" => threeParts self .slice tree
  | "EDynProj" =>
    let value ← exprOrText self (← itemAt 1 tree)
    let indices ← each (labelOrIndex self) (← itemAt 2 tree)
    make (.expr .dynamicProjection) [value, indices, ← exprOrText self (← itemAt 3 tree)]
  | "EMkArray" => twoParts self .makeArray tree
  | "EMkArrayGroup" => make (.expr .arrayOfGroup) [← group self (← item tree)]
  | "EMkStruct" =>
    let items ← group self (← itemAt 1 tree)
    make (.expr .makeStruct) [items, ← optional pathOrText (← itemAt 2 tree)]
  | "EVariant" =>
    let name ← pathOrText (← itemAt 1 tree)
    make (.expr .variant) [name, ← group self (← itemAt 2 tree)]
  | "EMkCopy" =>
    let value ← exprOrText self (← itemAt 1 tree)
    make (.expr .makeCopy) [value, ← each (modifier self) (← itemAt 2 tree)]
  | "EIfte" => threeParts self .conditional tree
  | "ECase" =>
    let value ← exprOrText self (← itemAt 1 tree)
    make (.expr .caseOf) [value, ← caseBranches self (← itemAt 2 tree)]
  | "EOpCall" => operation self tree
  | "EPort" => port (← item tree)
  | "EForward" => self .forward tree
  | "EWindow" =>
    let size ← exprOrText self (← itemAt 1 tree)
    let params ← group self (← itemAt 2 tree)
    make (.expr .window) [size, params, ← group self (← itemAt 3 tree)]
  | "EMerge" => make (.expr .merge) [← each (group self) (← item tree)]
  | _ => return .absent

end SwanModel.Convert
