import SwanModel.Layout.Describe
import SwanModel.Store.Workspace
import SwanModel.Version

/-!
# Functions by name

The functions of the library that stand on their own, with their parameters.
-/

namespace SwanModel

/-- A function that stands on its own. -/
inductive Function where
  /-- A text between markups. -/
  | enclose
  /-- A section under a keyword. -/
  | scopeSection
  | commaList
  | semicolonList
  | isPath
  | isFilePath
  | isLuid
  /-- The path that names a module. -/
  | modulePath
  | pragma
  | version
  /-- How a constant is written as one of a kind. -/
  | constantText (family : String)
deriving DecidableEq, Repr

namespace Function

open Heading

def parameters : Function → List (String × Option Term)
  | .enclose =>
    [needed "text", optional "is_protected" (.truth true), optional "markup" .absent]
  | .scopeSection => [needed "section", needed "items", optional "end" (.text ";")]
  | .commaList | .semicolonList => [needed "l"]
  | .isPath | .isFilePath => [needed "path"]
  | .isLuid => [needed "luid"]
  | .modulePath => [needed "name"]
  | .pragma => [needed "pragma"]
  | .version => []
  | .constantText _ => [needed "value"]

def versionParts : List String :=
  versionText :: (Text.split ['.'] versionText.toList).map String.ofList

def testText (test : String → Bool) : Term → Except Error Term
  | .text s => .ok (.truth (test s))
  | _ => .error .wrongKind

def value (f : Function) (args : List Printed) : Except Error Term :=
  match f, args with
  | .enclose, [text, isProtected, markup] =>
    if isProtected.isTruthy then (markedLayout text markup).map .text else .ok text.term
  | .scopeSection, [keyword, items, terminator] => describeSection keyword items terminator
  | .commaList, [items] => (items.join ", ").map .text
  | .semicolonList, [items] => (items.join "; ").map .text
  | .isPath, [s] => testText Name.isPath s.term
  | .isFilePath, [s] => testText Name.isFilePath s.term
  | .isLuid, [s] => testText Name.isLuid s.term
  | .pragma, [s] => .ok (.pragma s.term)
  | .version, [] => .ok (.list (versionParts.map .text))
  | .constantText family, [c] => Constant.textAs family c.term
  | _, _ => .error .wrongKind

end Function

namespace Work

/-- Arguments in order and then by name, all by name. -/
def nameArguments (parameters : List (String × Option Term)) (ordered : List Slot)
    (named : List (String × Slot)) : Except Error (List (String × Slot)) :=
  let names := parameters.map (·.1)
  if ordered.length ≤ names.length then
    let front := names.zip ordered
    if named.any fun arg => front.any (·.1 == arg.1) then .error .wrongKind else .ok (front ++ named)
  else
    .error .wrongKind

/-- Calls a function with arguments in order and by name. -/
def callFunction (f : Function) (ordered : List Blueprint) (named : List (String × Blueprint)) :
    Work Slot := do
  let ordered ← buildAll ordered
  let named ← buildArgs named
  let slots ← ofExcept (arrange f.parameters (← ofExcept (nameArguments f.parameters ordered named)))
  match f, slots with
  | .modulePath, [slot] =>
    match ← view slot with
    | .text name => load (← ofConversion (Convert.modulePath name))
    | _ => throw .wrongKind
  | _, _ =>
    load (← observe fun store => do
      let args ← slots.mapM store.view
      f.value (Term.printedAll args))

end Work

end SwanModel
