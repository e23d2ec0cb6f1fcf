import SwanModel.Build.Filling

/-!
# Adoption

`Form.adoptions` lists the parts that a new construct adopts, in the order in which they are
adopted.
-/

namespace SwanModel

/-- What a new construct becomes the owner of. -/
inductive Adoption where
  /-- An argument itself. -/
  | argument (i : Nat)
  /-- The members of an argument. -/
  | argumentMembers (i : Nat)
  /-- The members of a part. -/
  | partMembers (i : Nat)
deriving DecidableEq, Repr

def Form.adoptions : Form → List Adoption
  | .equation .transitionDecl => [.argument 1]
  | .equation .state => [.partMembers 1, .partMembers 3, .argumentMembers 2]
  | .equation .machine => [.partMembers 1]
  | .equation .activateIf => [.argument 0]
  | .equation .activateWhen => [.argument 0, .argumentMembers 1]
  | .diagram .diagram => [.argumentMembers 0]
  | .scope .equations | .scope .variables | .scope .emissions | .scope .assumptions
  | .scope .guarantees => [.argumentMembers 0]
  | .module .types | .module .constants | .module .sensors | .module .groups =>
    [.argumentMembers 0]
  | .module .bare | .module .body | .module .interface => [.argumentMembers 2, .argumentMembers 1]
  | _ => []

/-- Whether a new construct has a place for its owner from the start; the others get one when they
are adopted. -/
def Form.startsUnowned : Form → Bool
  | .equation .byCase | .equation .machine | .equation .activateIf | .equation .activateWhen => false
  | .equation .machineItem | .equation .transitionDecl | .equation .state => false
  | .operator .verbatim | .operator .optionalItem => true
  | .operator _ => false
  | .module _ => false
  | _ => true

def Term.isAdoptable : Term → Bool
  | .node _ _ | .pragma _ | .constant _ => true
  | _ => false

def checkAdoptable (t : Term) : Except Error Unit :=
  if t.isAdoptable then .ok () else .error .missingMember

/-- Checks that what an adoption names can be adopted. -/
def Adoption.check (args parts : List Term) : Adoption → Except Error Unit
  | .argument i => checkAdoptable (partAt args i)
  | .argumentMembers i => do (← (partAt args i).members).forM checkAdoptable
  | .partMembers i => do (← (partAt parts i).members).forM checkAdoptable

def Form.build (form : Form) (args : List Term) : Except Error Term := do
  let parts := (← form.fill args).map (Filling.term args)
  form.adoptions.forM (Adoption.check args parts)
  return .node form parts

end SwanModel
