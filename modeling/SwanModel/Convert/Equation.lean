import SwanModel.Convert.Forward

/-! # Conversion of equations, state machines and activations -/

namespace SwanModel.Convert

def leftItem (tree : ParseTree) : Conversion Term := do
  match ← tag tree with
  | "LhsId" => make (.equation .leftItem) [← identifier (← item tree)]
  | _ => make (.equation .leftItem) [.absent]

def left (tree : ParseTree) : Conversion Term := do
  match ← tag tree with
  | "LhsEmpty" => make (.equation .left) [.list [], .truth false]
  | t =>
    let items ← each leftItem (← item tree)
    make (.equation .left) [items, .truth (t == "LhsWithRest")]

def branch (self : Convert) (tree : ParseTree) : Conversion Term := do
  match ← tag tree with
  | "IfteDataDef" => make (.equation .branchScope) [← self .scope (← item tree)]
  | _ => make (.equation .branchIf) [← self .ifActivation (← item tree)]

def activationBranch (self : Convert) (tree : ParseTree) : Conversion Term := do
  let condition ← exprOrText self (← itemAt 1 tree)
  make (.equation .ifBranch) [condition, ← branch self (← itemAt 2 tree)]

/-- The guarded branches and the last one, which has no condition. -/
def ifActivation (self : Convert) (tree : ParseTree) : Conversion Term := do
  let branches ← (← ofExcept (← field "IfThenElif" tree).members).mapM (activationBranch self)
  let last ← branch self (← field "Else" tree)
  let last ← make (.equation .ifBranch) [.absent, last]
  make (.equation .ifActivation) [.list (branches ++ [last])]

def activateIf (self : Convert) (lhs : Term) (tree : ParseTree) : Conversion Term := do
  let name ← option (← itemAt 1 tree)
  make (.equation .activateIf) [← ifActivation self (← itemAt 2 tree), lhs, name]

def whenBranch (self : Convert) (tree : ParseTree) : Conversion Term := do
  let guard ← pattern (← itemAt 1 tree)
  make (.equation .whenBranch) [guard, ← self .scope (← itemAt 2 tree)]

def activateWhen (self : Convert) (lhs : Term) (tree : ParseTree) : Conversion Term := do
  let name ← option (← itemAt 1 tree)
  let condition ← exprOrText self (← field "AWExpr" (← itemAt 2 tree))
  let branches ← each (whenBranch self) (← field "AWMatches" (← itemAt 2 tree))
  make (.equation .activateWhen) [condition, branches, lhs, name]

/-- An arrow with its priority and its mark for branches with a condition. -/
structure ArrowParts where
  arrow : Term
  isIf : Term
  priority : Term

def fork (arrow : ParseTree → Conversion Term) (priorityFork : ParseTree → Conversion Term)
    (tree : ParseTree) : Conversion Term := do
  match ← tag tree with
  | "AForkTree" =>
    let ifArrow ← arrow (← itemAt 1 tree)
    let elsifs ← each arrow (← itemAt 2 tree)
    make (.equation .forkTree) [ifArrow, elsifs, ← optional arrow (← itemAt 3 tree)]
  | _ => make (.equation .priorityForks) [← each priorityFork (← item tree)]

def target (tree : ParseTree) : Conversion Term := do
  let id ← identification (← field "ATarget" tree)
  make (.equation .target) [id, Term.ofTree (← field "AIsResume" tree)]

def arrowParts (self : Convert) (tree : ParseTree) : Conversion ArrowParts := do
  let priority := Term.ofTree (← field "APrio" tree)
  let guard ← optional (exprOrText self) (← field "AGuard" tree)
  let action ← self .scope (← field "AAction" tree)
  let forkTree ← ofExcept (← field "AFork" tree).value
  let goal ←
    if forkTree.isTruthy then fork (self .arrow) (self .priorityFork) forkTree else target tree
  let isIf := Term.ofTree (← field "AIf" tree)
  return ⟨← make (.equation .arrow) [guard, action, goal], isIf, priority⟩

def arrow (self : Convert) (tree : ParseTree) : Conversion Term := do
  return (← arrowParts self tree).arrow

def priorityFork (self : Convert) (tree : ParseTree) : Conversion Term := do
  let parts ← arrowParts self tree
  make (.equation .priorityFork) [parts.priority, parts.arrow, parts.isIf]

def transition (self : Convert) (tree : ParseTree) : Conversion Term := do
  make (.equation .transition) [← arrow self tree]

def stateBody (self : Convert) (tree : ParseTree) : Conversion Term := do
  each (self .scopeSection) (← itemAt 1 tree)

def state (self : Convert) (tree : ParseTree) : Conversion Term := do
  let id ← identification (← field "StateId" tree)
  let weak ← each (transition self) (← field "UntilTransitions" tree)
  let strong ← each (transition self) (← field "UnlessTransitions" tree)
  let isInitial := Term.ofTree (← field "StateIsInitial" tree)
  let sections ← stateBody self (← field "StateBody" tree)
  make (.equation .state) [id, strong, sections, weak, isInitial]

def transitionDecl (self : Convert) (tree : ParseTree) : Conversion Term := do
  let source ← identification (← field "TSource" tree)
  let isStrong := Term.ofTree (← field "TStrong" tree)
  let parts ← arrowParts self (← field "TArrow" tree)
  let goal ← make (.equation .transition) [parts.arrow]
  make (.equation .transitionDecl) [parts.priority, goal, isStrong, source]

def machineItem (self : Convert) (tree : ParseTree) : Conversion Term := do
  match ← tag tree with
  | "StateItem" => state self (← item tree)
  | _ => transitionDecl self (← item tree)

def machine (self : Convert) (lhs : Term) (tree : ParseTree) : Conversion Term := do
  let name ← option (← itemAt 1 tree)
  make (.equation .machine) [lhs, ← each (machineItem self) (← itemAt 2 tree), name]

def equation (self : Convert) (tree : ParseTree) : Conversion Term := do
  match ← tag tree with
  | "Equation" =>
    let lhs ← left (← itemAt 1 tree)
    make (.equation .expression) [lhs, ← self .expr (← itemAt 2 tree)]
  | "AutomatonEquation" =>
    let lhs ← left (← itemAt 1 tree)
    machine self lhs (← itemAt 2 tree)
  | _ =>
    let lhs ← left (← itemAt 1 tree)
    let activation ← itemAt 2 tree
    match ← tag activation with
    | "ActivateIf" => activateIf self lhs activation
    | _ => activateWhen self lhs activation

end SwanModel.Convert
