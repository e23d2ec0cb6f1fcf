import SwanModel.Convert.Table
import SwanModel.Information.Basic
import SwanModel.Json.Reader

/-!
# Reading programs

A module comes with information behind its text; if that is no JSON object, the log says so and
there is none.
-/

namespace SwanModel

/-- What a source other than a module is read as. -/
inductive Fragment where
  | declaration | equation | expr | scopeSection | opExpr | operatorBlock | userOperator
deriving DecidableEq, Repr

namespace Fragment

def readRule : Fragment → ReadRule
  | .declaration => .declaration
  | .equation => .equation
  | .expr => .expr
  | .scopeSection => .scopeSection
  | .opExpr => .opExpr
  | .operatorBlock => .operatorBlock
  | .userOperator => .userOperator

def rule : Fragment → Rule
  | .declaration => .declaration
  | .equation => .equation
  | .expr => .expr
  | .scopeSection => .scopeSection
  | .opExpr => .operatorExpr
  | .operatorBlock => .operatorBlock
  | .userOperator => .userOperator

end Fragment

/-- Reads a source that is no module, by a parser. -/
def parseFragment (fragment : Fragment) (source : Source) (parser : Nat := 0) : Conversion Term := do
  convert fragment.rule (← readSource parser fragment.readRule source)

/-- The two kinds of module. -/
inductive ModuleKind where
  | body | interface
deriving DecidableEq, Repr

namespace ModuleKind

def readRule : ModuleKind → ReadRule
  | .body => .body
  | .interface => .interface

def form : ModuleKind → ModuleForm
  | .body => .body
  | .interface => .interface

end ModuleKind

def logLoader (message : String) : Conversion Unit :=
  modify fun s => { s with logs := s.logs ++ [⟨.error, "SwanLoader: " ++ message⟩] }

/-- The JSON value of the information behind a module. -/
def informationValue (tree : ParseTree) : Conversion (Option Json) := do
  match tree with
  | .absent => return none
  | .present (.text s) =>
    match Json.read s with
    | .ok value => return some value
    | .error _ =>
      logLoader "Cannot load JSON information: "
      return none
  | _ =>
    logLoader "Cannot load JSON information: "
    return none

def informationOf (tree : ParseTree) : Conversion Information := do
  match ← informationValue tree with
  | some (.obj fields) => return .ofJson (.obj fields)
  | _ =>
    logLoader "Expecting a JSON dictionary"
    return {}

/-- Reads a module and its information, by a parser. -/
def parseModule (kind : ModuleKind) (source : Source) (parser : Nat := 0) :
    Conversion (Term × Information) := do
  let result ← readSource parser kind.readRule source
  let module ← convertModule kind.form source.name (← Convert.itemAt 1 result)
  let information ← informationOf (← Convert.itemAt 2 result)
  return (module, information)

end SwanModel
