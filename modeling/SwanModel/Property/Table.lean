import SwanModel.Property.Diagram
import SwanModel.Property.Expr
import SwanModel.Property.Module
import SwanModel.Property.Name
import SwanModel.Property.Operator
import SwanModel.Property.Type

/-!
# The properties of all constructs

`Form.properties` joins the tables of the families.
-/

namespace SwanModel

def Form.ownProperties : Form → Properties
  | .name f => f.properties
  | .type f => f.properties
  | .pattern f => f.properties
  | .expr f => f.properties
  | .part f => f.properties
  | .operator f => f.properties
  | .forward f => f.properties
  | .equation f => f.properties
  | .diagram f => f.properties
  | .scope f => f.properties
  | .decl f => f.properties
  | .module f => f.properties

/-- Whether a construct holds text that could not be read. -/
def Form.isProtected (form : Form) (parts : List Term) : Bool :=
  match form with
  | .name f => f.isProtected parts
  | .type f => f.isProtected
  | .pattern f => f.isProtected
  | .expr f => f.isProtected
  | .part f => f.isProtected parts
  | .operator f => f.isProtected
  | .forward f => f.isProtected parts
  | .equation _ => false
  | .diagram f => f.isProtected parts
  | .scope f => f.isProtected
  | .decl f => f.isProtected parts
  | .module f => f.isProtected

def Form.properties (form : Form) : Properties :=
  ("is_protected", Property.flag form.isProtected) :: form.ownProperties

def Form.property? (form : Form) (name : String) : Option Property := form.properties.lookup name

/-- Whether a construct is protected; other terms cannot be asked. -/
def Term.isProtected : Term → Except Error Bool
  | .node form parts => .ok (form.isProtected parts)
  | _ => .error .missingMember

end SwanModel
