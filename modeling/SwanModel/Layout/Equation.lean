import SwanModel.Layout.Basic

/-!
# Layout of equations

A name that does not have the spelling of a luid is kept between bare markups.
-/

namespace SwanModel

/-- The luid made from a name: a number sign and the name, which may have one already. -/
def luidText (name : String) : String :=
  let body := String.ofList (Name.dropHash name.toList)
  Name.protect (!Name.isLuid body) "" ("#" ++ body)

/-- The luid of an equation with a name, and a blank in front of it. -/
def luidLayout (name : Printed) : Except Error String :=
  if name.isTruthy then do return " " ++ luidText (← name.exactText) else .ok ""

/-- The left side in front of a state machine or an activation. -/
def leftLayout (lhs : Printed) : Except Error String := lhs.whenTrue "" " : "

/-- Whether an identification names nothing; other constructs cannot be asked. -/
def isUndefined : Term → Except Error Bool
  | .node (.equation .identification) parts =>
    .ok ((partAt parts 0).isAbsent && (partAt parts 1).isAbsent)
  | _ => .error .missingMember

/-- Whether constructs of a form can be written behind a keyword or a front of the caller's
choice. -/
def Form.takesKeyword : Form → Bool
  | .operator f => [.bare, .path, .primitive, .transpose, .expression].contains f
  | .diagram .connection => false
  | .diagram _ => true
  | .scope .scope | .scope .emission | .scope .property => false
  | .scope _ => true
  | .decl .signature | .decl .operator => true
  | .module _ => true
  | _ => false

def branchLayout (first : Bool) (branch : Printed) : Except Error String :=
  match branch.term, branch.children with
  | .node (.equation .ifBranch) _, [condition, body] =>
    if first then do return "if " ++ (← condition.text) ++ " then " ++ (← body.text)
    else if condition.isTruthy then do
      return "elsif " ++ (← condition.text) ++ " then " ++ (← body.text)
    else do return "else " ++ (← body.text)
  | .node form _, _ => .error (if form.takesKeyword then .wrongKind else .missingMember)
  | _, _ => .error .missingMember

def branchesLayout (branches : Printed) : Except Error String := do
  let items ← branches.items
  let texts ← match items with
    | [] => .ok []
    | first :: rest => do
      let head ← branchLayout true first
      let tail ← rest.mapM (branchLayout false)
      .ok (head :: tail)
  return "\n".intercalate texts

/-- The transitions of a state under their keyword. -/
def transitionsLayout (keyword : String) (transitions : Printed) : Except Error String :=
  if transitions.isTruthy then do
    return "\n" ++ keyword ++ "\n" ++ (← transitions.join "\n")
  else
    .ok ""

def stateLayout (id strong sections weak isInitial : Printed) : Except Error String := do
  let idText ← id.text
  let strongText ← transitionsLayout "unless" strong
  let weakText ← transitionsLayout "until" weak
  let bodyText ← if sections.isTruthy then ("\n" ++ ·) <$> sections.join "\n" else .ok ""
  return (if isInitial.isTruthy then "initial " else "") ++ "state " ++ idText ++ ":" ++ strongText
    ++ bodyText ++ weakText

def forkTreeLayout (ifArrow elsifs elseArrow : Printed) : Except Error String := do
  let front ← ifArrow.text
  let middle ←
    if elsifs.isTruthy then do
      let texts ← elsifs.texts
      pure ("\n" ++ "\n".intercalate (texts.map ("elsif " ++ ·)))
    else
      pure ""
  let back ← elseArrow.whenTrue "\nelse " ""
  return "if " ++ front ++ middle ++ back ++ " end"

def arrowLayout (guard action target : Printed) : Except Error String := do
  let guardText ← guard.whenTrue "(" ") "
  let actionText ← action.whenTrue "" " "
  return guardText ++ actionText ++ (← target.text)

def EquationForm.layout : EquationForm → Layout
  | .left, [items, isPartial] => do
    let count ← items.term.length
    if count = 0 then return "()"
    let texts ← items.join ", "
    return texts ++ (if isPartial.isTruthy then ", .." else "")
  | .leftItem, [id] => if id.isTruthy then id.text else .ok "_"
  | .expression, [lhs, expr] => do return (← lhs.text) ++ " = " ++ (← expr.text) ++ ";"
  | .byCase, [lhs, _] => leftLayout lhs
  | .identification, [luid, id] =>
    if luid.isTruthy then do return (← luid.text) ++ (← id.whenTrue " " "")
    else id.text
  | .target, [id, isResume] => do
    let kind := if isResume.isTruthy then "resume" else "restart"
    if ← isUndefined id.term then return kind
    return kind ++ " " ++ (← id.text)
  | .arrow, [guard, action, goal] => arrowLayout guard action goal
  | .forkTree, [ifArrow, elsifs, elseArrow] => forkTreeLayout ifArrow elsifs elseArrow
  | .priorityFork, [priority, path, isIf] => do
    return ":" ++ (← priority.text) ++ ": " ++ (if isIf.isTruthy then "if " else "else ")
      ++ (← path.text)
  | .priorityForks, [forks] => do
    let texts ← forks.join "\n"
    return if texts.isEmpty then "end" else texts ++ " end"
  | .transition, [path] => do
    let guard ← Arrow.guard path.term
    return (if guard.isAbsent then "" else "if ") ++ (← path.text) ++ ";"
  | .transitionDecl, [priority, path, isStrong, id] => do
    let idText ← if ← isUndefined id.term then pure "" else (fun s => " " ++ s ++ " ") <$> id.text
    return ":" ++ (← priority.text) ++ ":" ++ idText
      ++ (if isStrong.isTruthy then " unless " else " until ") ++ (← path.text)
  | .state, [id, strong, sections, weak, isInitial] => stateLayout id strong sections weak isInitial
  | .machine, [lhs, items, name] => do
    let luid ← luidLayout name
    let front ← leftLayout lhs
    let body ← if items.isTruthy then ("\n" ++ ·) <$> items.join "\n" else .ok ""
    return front ++ "automaton" ++ luid ++ body ++ ";"
  | .ifActivation, [branches] => branchesLayout branches
  | .branchScope, [body] => body.text
  | .branchIf, [activation] => activation.text
  | .activateIf, [activation, lhs, name] => do
    let luid ← luidLayout name
    let front ← leftLayout lhs
    return front ++ "activate" ++ luid ++ "\n" ++ (← activation.text) ++ ";"
  | .whenBranch, [pattern, body] => do return "| " ++ (← pattern.text) ++ " : " ++ (← body.text)
  | .activateWhen, [condition, branches, lhs, name] => do
    let luid ← luidLayout name
    let branchTexts ← branches.join "\n"
    let front ← leftLayout lhs
    return front ++ "activate" ++ luid ++ " when " ++ (← condition.text) ++ " match\n" ++ branchTexts
      ++ ";"
  | _, _ => .error .missingMember

end SwanModel
