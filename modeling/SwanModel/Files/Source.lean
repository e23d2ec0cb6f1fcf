import SwanModel.Files.Tree
import SwanModel.Reading.Reader

/-!
# Sources in files

A file of a program is named after its path, and its suffix tells modules from interfaces.
-/

namespace SwanModel

/-- A file of a program. -/
structure SwanFile where
  /-- Where the file comes from, as shown. -/
  origin : String
  path : FilePath
deriving DecidableEq, Repr, Inhabited

namespace SwanFile

def ofText (s : String) : SwanFile := ⟨FilePath.slashed s, .ofText s⟩

def ofPath (path : FilePath) : SwanFile := ⟨FilePath.slashed path.text, path⟩

def name (file : SwanFile) : String := file.path.stem

def isModule (file : SwanFile) : Bool := file.path.suffix == ".swan"

def isInterface (file : SwanFile) : Bool := file.path.suffix == ".swani"

def source (files : Files) (file : SwanFile) : Source :=
  ⟨file.name, file.origin, (files.readText file.path).mapError (Files.explain · file.path)⟩

end SwanFile

end SwanModel
