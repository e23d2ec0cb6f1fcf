import SwanModel.Files.Access
import SwanModel.Text.Words

/-!
# Finding modules of scripts

A module has a name with dots. Its first component is looked for in some directories, and each
further one inside the package found so far.
-/

namespace SwanModel.Command

variable {m : Type → Type} [Monad m]

/-- What has the name of a component. -/
inductive Located where
  /-- A file, which has nothing inside. -/
  | file
  /-- A package, with the directories that its modules are in. -/
  | package (places : List FilePath)
deriving Repr

def moduleSuffix : String := ".py"

/-- The name of the file that makes a directory a package. -/
def packageFile : String := "__init__.py"

def inside (place : FilePath) (name : String) : FilePath := place.join ⟨"", [name]⟩

/-- Looks for a component in directories one after the other; `found` are the directories of that
name that make up a package if nothing else is found. -/
def locate (access : FileAccess m) (component : String) (found : List FilePath) :
    List FilePath → m (Option Located)
  | [] => return if found.isEmpty then none else some (.package found)
  | place :: rest => do
    let directory := inside place component
    if ← access.isFile (inside directory packageFile) then
      return some (.package [directory])
    if ← access.isFile (inside place (component ++ moduleSuffix)) then
      return some .file
    if ← access.isDirectory directory then
      locate access component (found ++ [directory]) rest
    else
      locate access component found rest

/-- Whether a component can be the name of something in a directory. -/
def isComponent (component : String) : Bool :=
  !component.isEmpty && !component.toList.contains '/'

def noModule (name : String) : String := "No module named " ++ Text.quoted name

/-- Looks for the components of a module one inside the other; `parent` is the name of the package
that they are in and `places` where its modules are. -/
def findFrom (access : FileAccess m) (parent : String) (places : List FilePath) :
    List String → m (Except String Unit)
  | [] => return .ok ()
  | component :: rest => do
    let name := if parent.isEmpty then component else parent ++ "." ++ component
    let located ← if isComponent component then locate access component [] places else pure none
    match located, rest with
    | none, _ => return .error (noModule name)
    | some _, [] => return .ok ()
    | some .file, next :: _ =>
      return .error (noModule (name ++ "." ++ next) ++ "; " ++ Text.quoted name ++ " is not a package")
    | some (.package inner), _ => findFrom access name inner rest

/-- Looks for a module in directories, or says why it is not found. -/
def findModule (access : FileAccess m) (directories : List String) (name : String) :
    m (Except String Unit) :=
  if name.toList.head? == some '.' then
    return .error ("the 'package' argument is required to perform a relative import for "
      ++ Text.quoted name)
  else
    findFrom access "" (directories.map FilePath.ofText)
      ((Text.split ['.'] name.toList).map String.ofList)

end SwanModel.Command
