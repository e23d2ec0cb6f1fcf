import SwanModel.Property.Basic

/-! # Properties of equations -/

namespace SwanModel

open Property

namespace Arrow

def guard : Term → Except Error Term
  | .node (.equation .arrow) parts => .ok (partAt parts 0)
  | _ => .error .missingMember

end Arrow

namespace Activation

def condition : Term → Except Error Term
  | .node (.equation .ifBranch) parts => .ok (partAt parts 0)
  | .node (.equation .activateWhen) parts => .ok (partAt parts 0)
  | .node (.expr .conditional) parts => .ok (partAt parts 0)
  | .node (.operator .activateEvery) parts => .ok (partAt parts 1)
  | .node (.operator .restart) parts => .ok (partAt parts 1)
  | .node (.scope .emission) parts => .ok (partAt parts 1)
  | _ => .error .missingMember

/-- Whether the branches of an activation are valid. -/
def isValid (branches : Term) : Except Error Term := do
  let count ← branches.length
  let items ← branches.members
  match items, items.getLast? with
  | first :: _ :: _, some last =>
    if (← condition first).isAbsent then return .truth false
    if (← condition last).isAbsent then return .truth false
    if count > 2 then throw .missingMember
    return .truth true
  | _, _ => return .truth false

end Activation

def hasMembers (i : Nat) : Property := value fun parts => do
  return .truth (0 < (← (partAt parts i).length))

/-- The guard of an arrow agrees with the kind of its branch. -/
def priorityForkIsValid (parts : List Term) : Except Error Term := do
  let guard ← Arrow.guard (partAt parts 1)
  return .truth (guard.isAbsent != (partAt parts 2).isTruthy)

def EquationForm.properties : EquationForm → Properties
  | .bare | .machineItem | .fork | .branch => []
  | .left => [("is_partial_lhs", part 1), ("lhs", part 0)]
  | .leftItem => [("identifier", part 0), ("is_underscore", fun _ => .error .missingMember)]
  | .expression => [("expr", part 1), ("lhs", part 0)]
  | .byCase => [("lhs", part 0), ("name", part 1)]
  | .identification =>
    [("id", part 1),
      ("is_undef", flag fun ps => (partAt ps 0).isAbsent && (partAt ps 1).isAbsent),
      ("is_valid", flag fun ps => !(partAt ps 0).isAbsent || !(partAt ps 1).isAbsent),
      ("luid", part 0)]
  | .target =>
    [("is_restart", flag fun ps => !(partAt ps 1).isTruthy), ("is_resume", part 1),
      ("target_id", part 0)]
  | .arrow => [("action", part 1), ("guard", part 0), ("target", part 2)]
  | .forkTree => [("else_arrow", part 2), ("elsif_arrows", part 1), ("if_arrow", part 0)]
  | .priorityFork =>
    [("arrow", part 1), ("is_if_arrow", part 2), ("is_valid", value priorityForkIsValid),
      ("priority", part 0)]
  | .priorityForks => [("prio_forks", part 0)]
  | .transition =>
    [("arrow", part 0),
      ("is_guarded", value fun ps => do return .truth !(← Arrow.guard (partAt ps 0)).isAbsent)]
  | .transitionDecl =>
    [("id", part 3), ("is_strong", part 2), ("priority", part 0), ("transition", part 1)]
  | .state =>
    [("has_body", truthy 2), ("has_strong_transition", truthy 1), ("has_weak_transition", truthy 3),
      ("identification", part 0), ("is_initial", part 4), ("sections", part 2),
      ("strong_transitions", part 1), ("weak_transitions", part 3)]
  | .machine => [("items", part 1), ("lhs", part 0), ("name", part 2)]
  | .ifBranch => [("condition", part 0), ("ifte_branch", part 1)]
  | .ifActivation =>
    [("branches", part 0), ("is_valid", value fun ps => Activation.isValid (partAt ps 0))]
  | .branchScope => [("data_def", part 0)]
  | .branchIf => [("if_activation", part 0)]
  | .activateIf => [("if_activation", part 0), ("lhs", part 1), ("name", part 2)]
  | .whenBranch => [("data_def", part 1), ("pattern", part 0)]
  | .activateWhen =>
    [("branches", part 1), ("condition", part 0), ("is_valid", hasMembers 1), ("lhs", part 2),
      ("name", part 3)]

end SwanModel
