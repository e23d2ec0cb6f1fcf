import SwanModel.Convert.Operator

/-! # Conversion of forward loops -/

namespace SwanModel.Convert

def forwardLeft (self : Convert) (tree : ParseTree) : Conversion Term := do
  match ← tag tree with
  | "FId" => make (.forward .left) [← identifier (← item tree)]
  | _ => make (.forward .left) [← self .forwardLeft (← item tree)]

def forwardElement (self : Convert) (tree : ParseTree) : Conversion Term := do
  let lhs ← self .forwardLeft (← itemAt 1 tree)
  make (.forward .element) [lhs, ← self .expr (← itemAt 2 tree)]

def dimension (self : Convert) (tree : ParseTree) : Conversion Term := do
  match ← tag tree with
  | "FDim" => make (.forward .dimension) [← self .expr (← itemAt 1 tree), .absent, .absent, .absent]
  | "FDimWith" =>
    let size ← self .expr (← itemAt 1 tree)
    let id ← optional identifier (← itemAt 2 tree)
    let elems ← each (forwardElement self) (← itemAt 3 tree)
    make (.forward .dimension) [size, id, elems, .absent]
  | _ =>
    make (.forward .dimension)
      [.absent, .absent, .absent, ← protectedText (← itemAt 1 tree)]

def forwardBody (self : Convert) (tree : ParseTree) : Conversion Term := do
  let sections ← each (self .scopeSection) (← field "FScopeSections" tree)
  let condition ← field "FStopCondition" tree
  match ← tag condition with
  | "FStopUntil" => make (.forward .body) [sections, .absent, ← self .expr (← item condition)]
  | "FStopUnless" => make (.forward .body) [sections, ← self .expr (← item condition), .absent]
  | _ => make (.forward .body) [sections, .absent, .absent]

def lastDefault (self : Convert) (tree : ParseTree) : Conversion Term := do
  match ← tag tree with
  | "FLast" => make (.forward .lastDefault) [← self .expr (← item tree), .absent, .absent]
  | "FDefault" => make (.forward .lastDefault) [.absent, ← self .expr (← item tree), .absent]
  | "FLastPlusDefault" =>
    let last ← self .expr (← itemAt 1 tree)
    make (.forward .lastDefault) [last, ← self .expr (← itemAt 2 tree), .absent]
  | _ => make (.forward .lastDefault) [.absent, .absent, ← self .expr (← item tree)]

def itemClause (self : Convert) (tree : ParseTree) : Conversion Term := do
  let id ← identifier (← itemAt 1 tree)
  make (.forward .itemClause) [id, ← optional (lastDefault self) (← itemAt 2 tree)]

def arrayClause (self : Convert) (tree : ParseTree) : Conversion Term := do
  match ← tag tree with
  | "FItemClause" => make (.forward .arrayClause) [← itemClause self tree]
  | _ => make (.forward .arrayClause) [← self .arrayClause (← item tree)]

def forwardReturn (self : Convert) (tree : ParseTree) : Conversion Term := do
  match ← tag tree with
  | "FRetItemClause" => make (.forward .returnItem) [← itemClause self (← itemAt 1 tree)]
  | "FRetArrayClause" =>
    let id ← ofExcept (← itemAt 1 tree).value
    if id.isTruthy then
      let id ← identifier id
      make (.forward .returnArray) [← self .arrayClause (← itemAt 2 tree), id]
    else
      throw .unset
  | "FRetRaw" => make (.forward .returnVerbatim) [← protectedText (← item tree)]
  | _ => return .absent

def forwardState (tree : ParseTree) : Conversion Term := do
  match ← tag tree with
  | "FNone" => return .constant (.forwardState .nothing)
  | "FRestart" => return .constant (.forwardState .restart)
  | _ => return .constant (.forwardState .resume)

def forward (self : Convert) (tree : ParseTree) : Conversion Term := do
  let luid ← optional luid (← itemAt 1 tree)
  let state ← forwardState (← itemAt 2 tree)
  let dimensions ← each (dimension self) (← itemAt 3 tree)
  let body ← forwardBody self (← itemAt 4 tree)
  let returns ← each (forwardReturn self) (← itemAt 5 tree)
  make (.expr .forward) [state, dimensions, body, returns, luid]

end SwanModel.Convert
